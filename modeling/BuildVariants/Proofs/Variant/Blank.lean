import BuildVariants.Proofs.Variant

/-!
# Variants without a mutator

The entry of a mutator that assigns nothing cannot be seen: what can be asked of a variant is
answered in the same way when the entry is left out.
-/

set_option autoImplicit false

namespace BuildVariants.Variant

structure Alike (v w : Variant) : Prop where
  get : ∀ m, w.get m = v.get m
  name : w.name = v.name
  render : w.render = v.render
  beq : ∀ u, (w == u) = (v == u)

def without (v : Variant) (name : String) : Variant :=
  ⟨v.entries.filter fun e => e.mutator ≠ name⟩

/-- One entry for each mutator, and no value of the mutator `name`. -/
structure Blank (name : String) (v : Variant) : Prop where
  distinct : v.Distinct
  get : v.get name = ""

variable {name m value : String} {v w : Variant}

theorem get_without_of_ne (other : m ≠ name) : (v.without name).get m = v.get m := by
  have found : ((v.without name).entries.find? fun e => e.mutator = m) =
      v.entries.find? fun e => e.mutator = m := by
    rw [without, List.find?_filter]
    congr 1
    funext e
    by_cases here : e.mutator = m <;> simp [here, other]
  rw [get, get, found]

theorem get_without_self : (v.without name).get name = "" := by
  apply get_of_fresh
  rw [List.mem_map]
  rintro ⟨e, he, named⟩
  exact of_decide_eq_true (List.mem_filter.mp he).2 named

theorem set_without (other : m ≠ name) :
    (v.set m value).without name = (v.without name).set m value := by
  obtain ⟨entries⟩ := v
  simp only [without, set, Variant.mk.injEq]
  induction entries with
  | nil => simp [assign, other]
  | cons e rest ih =>
    rw [assign]
    by_cases here : e.mutator = m
    · simp [here, assign, other]
    · by_cases dropped : e.mutator = name
      · rw [if_neg here, List.filter_cons_of_neg (by simp [dropped]), ih,
          List.filter_cons_of_neg (by simp [dropped])]
      · rw [if_neg here, List.filter_cons_of_pos (by simp [dropped]), ih,
          List.filter_cons_of_pos (by simp [dropped]), assign, if_neg here]

theorem set_self_without : (v.set name value).without name = v.without name := by
  obtain ⟨entries⟩ := v
  simp only [without, set, Variant.mk.injEq]
  induction entries with
  | nil => simp [assign]
  | cons e rest ih =>
    rw [assign]
    by_cases here : e.mutator = name
    · simp [here]
    · rw [if_neg here, List.filter_cons_of_pos (by simp [here]), ih,
        List.filter_cons_of_pos (by simp [here])]

theorem setAll_without {choices : List Variation} (v : Variant)
    (others : ∀ c ∈ choices, c.mutator ≠ name) :
    (v.setAll choices).without name = (v.without name).setAll choices := by
  induction choices generalizing v with
  | nil => rfl
  | cons c choices ih =>
    rw [setAll_cons, setAll_cons, ih _ fun c' hc' => others c' (by simp [hc']),
      set_without (others c (by simp))]

theorem setAll_without_filter (choices : List Variation) (v : Variant) :
    (v.setAll choices).without name =
      (v.without name).setAll (choices.filter fun c => c.mutator ≠ name) := by
  induction choices generalizing v with
  | nil => rfl
  | cons c choices ih =>
    rw [setAll_cons, ih]
    by_cases named : c.mutator = name
    · rw [List.filter_cons_of_neg (by simp [named]), named, set_self_without]
    · rw [List.filter_cons_of_pos (by simp [named]), setAll_cons, set_without named]

namespace Blank

theorem empty : Blank name .empty := ⟨List.nodup_nil, rfl⟩

theorem set (blank : v.Blank name) (other : m ≠ name) : (v.set m value).Blank name where
  distinct := distinct_set blank.distinct m value
  get := by rw [get_set, if_neg other.symm, blank.get]

theorem set_default (distinct : v.Distinct) : (v.set name "").Blank name where
  distinct := distinct_set distinct name ""
  get := by rw [get_set, if_pos rfl]

theorem setAll {choices : List Variation} (blank : v.Blank name)
    (others : ∀ c ∈ choices, c.mutator = name → c.value = "") : (v.setAll choices).Blank name := by
  induction choices generalizing v with
  | nil => exact blank
  | cons c choices ih =>
    rw [setAll_cons]
    refine ih ?_ fun c' hc' => others c' (by simp [hc'])
    by_cases named : c.mutator = name
    · rw [named, others c (by simp) named]
      exact set_default blank.distinct
    · exact blank.set named

theorem get_without (blank : v.Blank name) (m : String) : (v.without name).get m = v.get m := by
  by_cases named : m = name
  · rw [named, get_without_self, blank.get]
  · exact get_without_of_ne named

theorem assigned_without (blank : v.Blank name) : (v.without name).assigned = v.assigned := by
  rw [assigned, assigned, without, List.filter_filter]
  apply List.filter_congr
  intro e he
  by_cases named : e.mutator = name
  · have value := get_of_mem blank.distinct he
    rw [named, blank.get] at value
    simp [Variation.isAssigned, ← value]
  · simp [named]

theorem name_without (blank : v.Blank name) : (v.without name).name = v.name := by
  rw [Variant.name, Variant.name, blank.assigned_without]

theorem isSubsetOf_without_left (blank : v.Blank name) (w : Variant) :
    (v.without name).isSubsetOf w = v.isSubsetOf w := by
  rw [isSubsetOf, isSubsetOf, blank.assigned_without]

theorem isSubsetOf_without_right (blank : w.Blank name) (v : Variant) :
    v.isSubsetOf (w.without name) = v.isSubsetOf w := by
  rw [isSubsetOf, isSubsetOf]
  congr 1
  funext e
  rw [blank.get_without]

/-- Leaving out the entry of a mutator without a value makes no difference to what can be asked. -/
theorem alike (blank : v.Blank name) : v.Alike (v.without name) where
  get := blank.get_without
  name := blank.name_without
  render := by rw [render, render, isDefault, isDefault, blank.assigned_without]
  beq u := by rw [beq_eq, beq_eq, blank.isSubsetOf_without_left, blank.isSubsetOf_without_right]

theorem beq_without (hv : v.Blank name) (hw : w.Blank name) :
    (v.without name == w.without name) = (v == w) := by
  rw [hv.alike.beq, beq_comm, hw.alike.beq, beq_comm]

theorem isSubsetOf_without (hv : v.Blank name) (hw : w.Blank name) :
    (v.without name).isSubsetOf (w.without name) = v.isSubsetOf w := by
  rw [hv.isSubsetOf_without_left, hw.isSubsetOf_without_right]

theorem matchesOn_without (hv : v.Blank name) (hw : w.Blank name) (mutators : List String) :
    (v.without name).matchesOn (w.without name) (mutators.filter (· ≠ name)) =
      v.matchesOn w mutators := by
  induction mutators with
  | nil => rfl
  | cons m rest ih =>
    simp only [matchesOn, List.all_cons] at ih ⊢
    by_cases named : m = name
    · rw [List.filter_cons_of_neg (by simp [named]), ih, named, hv.get, hw.get]
      simp
    · rw [List.filter_cons_of_pos (by simp [named]), List.all_cons, ih, hv.get_without,
        hw.get_without]

theorem beq_self (blank : v.Blank name) : (v.without name == v) = true := by
  rw [blank.alike.beq, blank.distinct.beq_self]

end Blank

end BuildVariants.Variant
