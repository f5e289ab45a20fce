import BuildVariants.Variant
import Mathlib.Data.List.Induction
import Mathlib.Data.List.Nodup

/-!
# Variants as assignments

A variant with one entry for each mutator is an assignment of values to mutators: it is
compared through what it assigns, and assigning a value for a new mutator adds an entry at
the end.
-/

set_option autoImplicit false

namespace BuildVariants

theorem eraseDups_concat {K : Type} [BEq K] [LawfulBEq K] (ks : List K) (k : K) :
    (ks ++ [k]).eraseDups = if k ∈ ks then ks.eraseDups else ks.eraseDups ++ [k] := by
  rw [List.eraseDups_append]
  by_cases there : k ∈ ks <;> simp [List.removeAll, List.eraseDups_cons, there]

namespace Variant

def Distinct (v : Variant) : Prop := (v.entries.map Variation.mutator).Nodup

theorem mem_of_get_ne {v : Variant} {m : String} (h : v.get m ≠ "") :
    ⟨m, v.get m⟩ ∈ v.entries := by
  unfold get at h ⊢
  cases found : v.entries.find? fun e => e.mutator = m with
  | none => simp [found] at h
  | some e =>
    have named : e.mutator = m := by simpa using List.find?_some found
    have there := List.mem_of_find?_eq_some found
    simpa [← named] using there

theorem get_of_mem {v : Variant} (distinct : v.Distinct) {e : Variation} (he : e ∈ v.entries) :
    v.get e.mutator = e.value := by
  unfold get
  cases found : v.entries.find? fun e' => e'.mutator = e.mutator with
  | none =>
    have absent := List.find?_eq_none.mp found e he
    simp at absent
  | some e' =>
    have named : e'.mutator = e.mutator := by simpa using List.find?_some found
    have same := List.inj_on_of_nodup_map distinct (List.mem_of_find?_eq_some found) he named
    simp [same]

theorem beq_eq (v w : Variant) : (v == w) = (v.isSubsetOf w && w.isSubsetOf v) := rfl

theorem beq_comm (v w : Variant) : (v == w) = (w == v) := by
  rw [beq_eq, beq_eq, Bool.and_comm]

theorem mem_assigned {v : Variant} {e : Variation} :
    e ∈ v.assigned ↔ e ∈ v.entries ∧ e.value ≠ "" := by
  simp [assigned, Variation.isAssigned]

theorem isSubsetOf_eq_true_iff {v w : Variant} :
    v.isSubsetOf w = true ↔ ∀ e ∈ v.assigned, w.get e.mutator = e.value := by
  simp [isSubsetOf]

theorem Distinct.beq_self {v : Variant} (distinct : v.Distinct) : (v == v) = true := by
  rw [beq_eq, Bool.and_self, isSubsetOf_eq_true_iff]
  exact fun _ he => get_of_mem distinct (mem_assigned.mp he).1

theorem get_of_isSubsetOf {v w : Variant} (h : v.isSubsetOf w = true) (m : String) :
    v.get m = "" ∨ v.get m = w.get m := by
  by_cases none : v.get m = ""
  · exact Or.inl none
  · have there := mem_assigned.mpr ⟨mem_of_get_ne none, none⟩
    exact Or.inr (isSubsetOf_eq_true_iff.mp h _ there).symm

theorem isSubsetOf_iff {v w : Variant} (distinct : v.Distinct) :
    v.isSubsetOf w = true ↔ ∀ m, v.get m = "" ∨ v.get m = w.get m := by
  refine ⟨get_of_isSubsetOf, fun h => isSubsetOf_eq_true_iff.mpr fun e he => ?_⟩
  obtain ⟨there, given⟩ := mem_assigned.mp he
  have value := get_of_mem distinct there
  rcases h e.mutator with none | same
  · exact absurd (value.symm.trans none) given
  · rw [← same, value]

theorem get_eq_of_beq {v w : Variant} (h : (v == w) = true) (m : String) : v.get m = w.get m := by
  rw [beq_eq, Bool.and_eq_true] at h
  rcases get_of_isSubsetOf h.1 m with none | same
  · rcases get_of_isSubsetOf h.2 m with none' | same'
    · rw [none, none']
    · exact same'.symm
  · exact same

section Congr

variable {v w : Variant} (same : ∀ m, v.get m = w.get m)
include same

theorem isSubsetOf_congr_right (u : Variant) : u.isSubsetOf v = u.isSubsetOf w := by
  simp only [isSubsetOf, same]

theorem beq_eq_of_get : (v == w) = ((v == v) && (w == w)) := by
  rw [beq_eq, beq_eq v v, beq_eq w w, Bool.and_self, Bool.and_self,
    isSubsetOf_congr_right same v, isSubsetOf_congr_right same w]

theorem isSubsetOf_congr_left (hv : v.Distinct) (hw : w.Distinct) (u : Variant) :
    v.isSubsetOf u = w.isSubsetOf u := by
  rw [Bool.eq_iff_iff, isSubsetOf_iff hv, isSubsetOf_iff hw]
  simp only [same]

theorem beq_congr (hv : v.Distinct) (hw : w.Distinct) (u : Variant) : (u == v) = (u == w) := by
  rw [beq_eq, beq_eq, isSubsetOf_congr_right same, isSubsetOf_congr_left same hv hw]

end Congr

theorem beq_iff {v w : Variant} :
    (v == w) = true ↔ (v == v) = true ∧ (w == w) = true ∧ ∀ m, v.get m = w.get m := by
  constructor
  · intro h
    have same := get_eq_of_beq h
    rw [beq_eq_of_get same, Bool.and_eq_true] at h
    exact ⟨h.1, h.2, same⟩
  · rintro ⟨hv, hw, same⟩
    rw [beq_eq_of_get same, hv, hw, Bool.and_self]

theorem beq_trans {u v w : Variant} (first : (u == v) = true) (second : (v == w) = true) :
    (u == w) = true := by
  obtain ⟨hu, _, same⟩ := beq_iff.mp first
  obtain ⟨_, hw, same'⟩ := beq_iff.mp second
  exact beq_iff.mpr ⟨hu, hw, fun m => (same m).trans (same' m)⟩

/-- Variants with one entry for each mutator are equal when they assign the same values. -/
theorem beq_iff_get {v w : Variant} (hv : v.Distinct) (hw : w.Distinct) :
    (v == w) = true ↔ ∀ m, v.get m = w.get m := by
  rw [beq_iff]
  simp [hv.beq_self, hw.beq_self]

theorem get_of_fresh {v : Variant} {m : String} (fresh : m ∉ v.entries.map Variation.mutator) :
    v.get m = "" := by
  by_contra assigned
  exact fresh (List.mem_map_of_mem (mem_of_get_ne assigned))

theorem entries_set_of_fresh {v : Variant} {m : String} (value : String)
    (fresh : m ∉ v.entries.map Variation.mutator) :
    (v.set m value).entries = v.entries ++ [⟨m, value⟩] := by
  obtain ⟨entries⟩ := v
  simp only [set]
  simp only at fresh
  induction entries with
  | nil => rfl
  | cons e rest ih =>
    rw [List.map_cons, List.mem_cons, not_or] at fresh
    rw [assign, if_neg (Ne.symm fresh.1), ih fresh.2, List.cons_append]

theorem distinct_set_of_fresh {v : Variant} {m : String} (value : String) (distinct : v.Distinct)
    (fresh : m ∉ v.entries.map Variation.mutator) : (v.set m value).Distinct := by
  rw [Distinct, entries_set_of_fresh value fresh, List.map_append, List.map_singleton,
    ← List.concat_eq_append]
  exact List.Nodup.concat fresh distinct

theorem mutators_set_of_mem {v : Variant} {m : String} (value : String)
    (there : m ∈ v.entries.map Variation.mutator) :
    (v.set m value).entries.map Variation.mutator = v.entries.map Variation.mutator := by
  obtain ⟨entries⟩ := v
  simp only [set]
  simp only at there
  induction entries with
  | nil => cases there
  | cons e rest ih =>
    rw [assign]
    by_cases here : e.mutator = m
    · simp [here]
    · have later : m ∈ rest.map Variation.mutator :=
        (List.mem_cons.mp there).resolve_left fun same => here same.symm
      rw [if_neg here, List.map_cons, List.map_cons, ih later]

theorem distinct_set {v : Variant} (distinct : v.Distinct) (m value : String) :
    (v.set m value).Distinct := by
  by_cases there : m ∈ v.entries.map Variation.mutator
  · rw [Distinct, mutators_set_of_mem value there]
    exact distinct
  · exact distinct_set_of_fresh value distinct there

/-- Variants that were equal after a new mutator were equal before it, and it assigned both
of them the same. -/
theorem beq_of_set_beq {v w : Variant} {m a b : String} (hv : v.Distinct) (hw : w.Distinct)
    (freshV : m ∉ v.entries.map Variation.mutator) (freshW : m ∉ w.entries.map Variation.mutator)
    (h : (v.set m a == w.set m b) = true) : (v == w) = true ∧ a = b := by
  rw [beq_iff_get (distinct_set_of_fresh a hv freshV) (distinct_set_of_fresh b hw freshW)] at h
  refine ⟨(beq_iff_get hv hw).mpr fun n => ?_, by simpa [get_set] using h m⟩
  by_cases here : n = m
  · rw [here, get_of_fresh freshV, get_of_fresh freshW]
  · simpa [get_set, here] using h n

@[simp] theorem setAll_nil (v : Variant) : v.setAll [] = v := rfl

theorem setAll_cons (v : Variant) (c : Variation) (choices : List Variation) :
    v.setAll (c :: choices) = (v.set c.mutator c.value).setAll choices := rfl

theorem setAll_append (v : Variant) (first last : List Variation) :
    v.setAll (first ++ last) = (v.setAll first).setAll last := List.foldl_append

theorem get_setAll_of_notMem (v : Variant) {choices : List Variation} {m : String}
    (others : m ∉ choices.map Variation.mutator) : (v.setAll choices).get m = v.get m := by
  induction choices generalizing v with
  | nil => rfl
  | cons c choices ih =>
    rw [List.map_cons, List.mem_cons, not_or] at others
    rw [setAll_cons, ih _ others.2, get_set, if_neg others.1]

theorem get_setAll_of_mem (v : Variant) {choices : List Variation}
    (nodup : (choices.map Variation.mutator).Nodup) {c : Variation} (hc : c ∈ choices) :
    (v.setAll choices).get c.mutator = c.value := by
  induction choices generalizing v with
  | nil => cases hc
  | cons c' choices ih =>
    rw [List.map_cons, List.nodup_cons] at nodup
    rw [setAll_cons]
    rcases List.mem_cons.mp hc with rfl | later
    · rw [get_setAll_of_notMem _ nodup.1, get_set, if_pos rfl]
    · exact ih _ nodup.2 later

theorem ofList_concat (choices : List Variation) (c : Variation) :
    ofList (choices ++ [c]) = (ofList choices).set c.mutator c.value := setAll_append empty choices [c]

def lastChosen? (choices : List Variation) (m : String) : Option String :=
  (choices.filter fun c => c.mutator = m).getLast?.map Variation.value

theorem lastChosen?_cons (c : Variation) (choices : List Variation) (m : String) :
    lastChosen? (c :: choices) m =
      (lastChosen? choices m).or (if c.mutator = m then some c.value else none) := by
  by_cases here : c.mutator = m
  · simp only [lastChosen?, here, decide_true, List.filter_cons_of_pos, List.getLast?_cons, if_true]
    cases (choices.filter fun c => c.mutator = m).getLast? <;> rfl
  · simp [lastChosen?, here]

theorem lastChosen?_isSome (choices : List Variation) (m : String) :
    (lastChosen? choices m).isSome = choices.any fun c => c.mutator = m := by
  induction choices with
  | nil => rfl
  | cons c choices ih =>
    rw [lastChosen?_cons, Option.isSome_or, ih, List.any_cons, Bool.or_comm]
    by_cases here : c.mutator = m <;> simp [here]

/-- Choices made one after the other leave the last one for each mutator. -/
theorem get_setAll (v : Variant) (choices : List Variation) (m : String) :
    (v.setAll choices).get m = (lastChosen? choices m).getD (v.get m) := by
  induction choices generalizing v with
  | nil => rfl
  | cons c choices ih =>
    rw [setAll_cons, ih, get_set, lastChosen?_cons]
    by_cases here : c.mutator = m
    · cases lastChosen? choices m <;> simp [here]
    · simp [here, Ne.symm here]

theorem get_ofList (choices : List Variation) (m : String) :
    (ofList choices).get m = (lastChosen? choices m).getD "" := by
  rw [ofList, get_setAll, get_empty]

/-- Choices that are the same whenever they are for the same mutator. -/
theorem get_setAll_of_uniform (v : Variant) {choices : List Variation} {f : String → String}
    (uniform : ∀ c ∈ choices, c.value = f c.mutator) (m : String) :
    (v.setAll choices).get m = if m ∈ choices.map Variation.mutator then f m else v.get m := by
  induction choices generalizing v with
  | nil => rfl
  | cons c choices ih =>
    rw [setAll_cons, ih _ fun c' hc' => uniform c' (by simp [hc']), get_set, uniform c (by simp)]
    by_cases later : m ∈ choices.map Variation.mutator
    · simp [later]
    · by_cases here : m = c.mutator <;> simp [later, here]

theorem matchesOn_congr {u v w : Variant} {names : List String}
    (same : ∀ m ∈ names, v.get m = w.get m) : u.matchesOn v names = u.matchesOn w names := by
  rw [Bool.eq_iff_iff]
  simp only [matchesOn, List.all_eq_true, decide_eq_true_eq]
  constructor
  · exact fun agrees m hm => (agrees m hm).trans (same m hm)
  · exact fun agrees m hm => (agrees m hm).trans (same m hm).symm

theorem distinct_setAll {v : Variant} (distinct : v.Distinct) (choices : List Variation) :
    (v.setAll choices).Distinct := by
  induction choices generalizing v with
  | nil => exact distinct
  | cons c choices ih => exact ih (distinct_set distinct c.mutator c.value)

theorem ofList_distinct (choices : List Variation) : (ofList choices).Distinct := by
  have none : empty.Distinct := List.nodup_nil
  exact distinct_setAll none choices

inductive Built : Variant → Prop
  | empty : Built empty
  | set {v : Variant} (m value : String) (h : Built v) : Built (v.set m value)
  | ofList (choices : List Variation) : Built (ofList choices)

theorem Built.distinct {v : Variant} (h : v.Built) : v.Distinct := by
  induction h with
  | empty => exact List.nodup_nil
  | set m value _ ih => exact distinct_set ih m value
  | ofList choices => exact ofList_distinct choices

theorem name_of_single {v : Variant} {m : String} (single : v.entries.map Variation.mutator = [m]) :
    v.name = v.get m := by
  obtain ⟨entries⟩ := v
  obtain ⟨e, rfl, rfl⟩ := List.map_eq_singleton_iff.mp single
  by_cases unassigned : e.value = "" <;>
    simp [name, assigned, get, Variation.isAssigned, unassigned]

section Overriding

/-! Choices can be collected into a variant before they are made: an override keeps the place of the
entry that it overrides. -/

theorem set_set (v : Variant) (m first last : String) : (v.set m first).set m last = v.set m last := by
  obtain ⟨entries⟩ := v
  simp only [set, mk.injEq]
  induction entries with
  | nil => simp [assign]
  | cons e rest ih =>
    by_cases here : e.mutator = m
    · simp [assign, here]
    · simp [assign, here, ih]

theorem set_comm {v : Variant} {m k : String} (x y : String) (apart : k ≠ m)
    (there : m ∈ v.entries.map Variation.mutator) : (v.set k y).set m x = (v.set m x).set k y := by
  obtain ⟨entries⟩ := v
  simp only [set, mk.injEq]
  simp only at there
  induction entries with
  | nil => cases there
  | cons e rest ih =>
    by_cases here : e.mutator = m
    · have other : e.mutator ≠ k := fun same => apart (same.symm.trans here)
      simp [assign, here, apart.symm]
    · have later : m ∈ rest.map Variation.mutator :=
        (List.mem_cons.mp there).resolve_left fun same => here same.symm
      by_cases other : e.mutator = k
      · simp [assign, other, apart]
      · simp [assign, here, other, ih later]

theorem mem_mutators_set {v : Variant} {m k : String} (value : String) :
    m ∈ (v.set k value).entries.map Variation.mutator ↔
      m ∈ v.entries.map Variation.mutator ∨ m = k := by
  by_cases known : k ∈ v.entries.map Variation.mutator
  · rw [mutators_set_of_mem value known]
    exact ⟨Or.inl, fun h => h.elim id fun same => same ▸ known⟩
  · rw [entries_set_of_fresh value known, List.map_append, List.mem_append]
    simp

theorem setAll_set_comm {v : Variant} {m : String} (x : String) {choices : List Variation}
    (others : m ∉ choices.map Variation.mutator) (there : m ∈ v.entries.map Variation.mutator) :
    (v.setAll choices).set m x = (v.set m x).setAll choices := by
  induction choices generalizing v with
  | nil => rfl
  | cons c choices ih =>
    rw [List.map_cons, List.mem_cons, not_or] at others
    have still := (mem_mutators_set (k := c.mutator) c.value).mpr (Or.inl there)
    rw [setAll_cons, ih others.2 still, set_comm _ _ (Ne.symm others.1) there, setAll_cons]

theorem setAll_assign (v : Variant) (m x : String) {choices : List Variation}
    (nodup : (choices.map Variation.mutator).Nodup) :
    v.setAll (assign m x choices) = (v.setAll choices).set m x := by
  induction choices generalizing v with
  | nil => rfl
  | cons c choices ih =>
    rw [List.map_cons, List.nodup_cons] at nodup
    by_cases here : c.mutator = m
    · subst here
      rw [assign, if_pos rfl, setAll_cons, setAll_cons,
        setAll_set_comm x nodup.1 ((mem_mutators_set _).mpr (Or.inr rfl)), set_set]
    · rw [assign, if_neg here, setAll_cons, ih _ nodup.2, setAll_cons]

/-- Making choices is making those that are left when all are collected. -/
theorem setAll_ofList (v : Variant) (choices : List Variation) :
    v.setAll (ofList choices).entries = v.setAll choices := by
  induction choices using List.reverseRecOn with
  | nil => rfl
  | append_singleton choices c ih =>
    rw [ofList_concat, set, setAll_assign _ _ _ (ofList_distinct choices), ih, setAll_append]
    rfl

end Overriding

end Variant

end BuildVariants
