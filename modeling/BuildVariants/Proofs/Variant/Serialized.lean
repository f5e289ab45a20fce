import BuildVariants.Proofs.Failure
import BuildVariants.Proofs.Variant
import BuildVariants.Variant.Serialized

/-!
# Variants that were read

What was written is read again as it was. But a variant is read entry by entry, and of several entries
of one mutator only the first can be asked for while all of them are compared. Where a later one
assigns another value, the variant is equal to nothing, itself included. All other variants that are
read are equal when they assign the same values.
-/

set_option autoImplicit false

namespace BuildVariants.Variant

theorem readVariation_written (e : Variation) :
    readVariation (.record [("mutator", .text e.mutator), ("value", .text e.value)]) = .ok e := rfl

theorem ofJson_toJson (v : Variant) : ofJson v.toJson = .ok v := by
  have entries : (v.entries.map fun e =>
      Json.record [("mutator", .text e.mutator), ("value", .text e.value)]).mapM readVariation =
      .ok v.entries := by
    rw [mapM_eq_ok_iff, List.forall₂_map_left_iff, List.forall₂_same]
    exact fun e _ => readVariation_written e
  rw [toJson, ofJson, entries]
  rfl

def given (v : Variant) (m : String) : List String :=
  (v.entries.filter fun e => e.mutator = m).map Variation.value

def Coherent (v : Variant) : Prop :=
  ∀ m first later, v.given m = first :: later → ∀ x ∈ later, x = "" ∨ x = first

theorem get_eq_given (v : Variant) (m : String) : v.get m = (v.given m).headD "" := by
  rw [get, given, ← List.head?_filter, ← List.head?_map, List.headD_eq_head?_getD]

theorem mem_given {v : Variant} {e : Variation} (he : e ∈ v.entries) :
    e.value ∈ v.given e.mutator :=
  List.mem_map_of_mem (List.mem_filter.mpr ⟨he, decide_eq_true rfl⟩)

/-- A variant is equal to itself unless a mutator assigns several values. -/
theorem beq_self_iff {v : Variant} : (v == v) = true ↔ v.Coherent := by
  rw [beq_eq, Bool.and_self, isSubsetOf_eq_true_iff]
  constructor
  · intro own m first later all x hx
    by_cases none : x = ""
    · exact Or.inl none
    · have there : x ∈ v.given m := by simp [all, hx]
      obtain ⟨e, he, rfl⟩ := List.mem_map.mp there
      obtain ⟨inside, named⟩ := List.mem_filter.mp he
      have value := own e (mem_assigned.mpr ⟨inside, none⟩)
      rw [of_decide_eq_true named, get_eq_given, all] at value
      exact Or.inr value.symm
  · intro coherent e he
    obtain ⟨inside, assigned⟩ := mem_assigned.mp he
    have there := mem_given inside
    rw [get_eq_given]
    cases all : v.given e.mutator with
    | nil => simp [all] at there
    | cons first later =>
      rw [all] at there
      rcases List.mem_cons.mp there with same | after
      · exact same.symm
      · exact ((coherent _ first later all _ after).resolve_left assigned).symm

/-- A variant that was read is written as what is read as the same variant. It is equal to itself
exactly when no mutator assigns several values, and equal to another one exactly when both are equal to
themselves and assign the same. -/
theorem read_lawful_iff {j : Json} {v : Variant} (h : ofJson j = .ok v) :
    ofJson v.toJson = ofJson j ∧ ((v == v) = true ↔ v.Coherent) ∧
    ∀ k w, ofJson k = .ok w →
      ((v == w) = true ↔ v.Coherent ∧ w.Coherent ∧ ∀ m, v.get m = w.get m) := by
  refine ⟨by rw [h, ofJson_toJson], beq_self_iff, fun k w _ => ?_⟩
  rw [beq_iff, beq_self_iff, beq_self_iff]

def twice (first second : String) : Json :=
  .list [.record [("mutator", .text "arch"), ("value", .text first)],
    .record [("mutator", .text "arch"), ("value", .text second)]]

theorem read_lawful_iff_twice :
    ∃ v w, ofJson (twice "x" "") = .ok v ∧ ofJson (.list [.list [.text "arch", .text "x"]]) = .ok w ∧
      v.entries ≠ w.entries ∧ ofJson v.toJson = ofJson (twice "x" "") ∧ (v == v) = true ∧
      (v == w) = true ∧ ∀ m, v.get m = w.get m := by
  let v : Variant := ⟨[⟨"arch", "x"⟩, ⟨"arch", ""⟩]⟩
  let w : Variant := ⟨[⟨"arch", "x"⟩]⟩
  have read_v : ofJson (twice "x" "") = .ok v := rfl
  have read_w : ofJson (.list [.list [.text "arch", .text "x"]]) = .ok w := rfl
  have equal : (v == w) = true := by decide
  obtain ⟨written, self_iff, equal_iff⟩ := read_lawful_iff read_v
  obtain ⟨coherent, _, same⟩ := (equal_iff _ w read_w).mp equal
  exact ⟨v, w, read_v, read_w, by decide, written, self_iff.mpr coherent, equal, same⟩

/-- With another value in the second entry, the variant that is read differs from itself, from what is
read when it was written, and from the variant that assigns the same. -/
theorem read_unlike_itself :
    ∃ v w, ofJson (twice "x" "y") = .ok v ∧ ofJson (.list [.list [.text "arch", .text "x"]]) = .ok w ∧
      (v == v) = false ∧ (∀ again, ofJson v.toJson = .ok again → (again == v) = false) ∧
      (∀ m, v.get m = w.get m) ∧ (v == w) = false := by
  refine ⟨⟨[⟨"arch", "x"⟩, ⟨"arch", "y"⟩]⟩, ⟨[⟨"arch", "x"⟩]⟩, rfl, rfl, by decide, ?_, ?_, by decide⟩
  · intro again h
    rw [ofJson_toJson] at h
    cases h
    decide
  · intro m
    by_cases here : "arch" = m <;> simp [get, here]

end BuildVariants.Variant
