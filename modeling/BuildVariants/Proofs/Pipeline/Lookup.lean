import BuildVariants.Proofs.Pipeline.Run

/-!
# Looking up instances

A lookup goes through the members of a group and takes the first one that passes its test. In a
settled graph at most one member has a given variant, so that a lookup by module and variant finds
exactly the instance that is named by them. Under a single transition the name of a variant says as
much as the variant.
-/

set_option autoImplicit false

namespace BuildVariants

namespace Graph

variable {M T : Type} {g : Graph M T}

theorem findMember_eq_some_of_unique {grp : Group} {test : Variant → Bool}
    (unique : ∀ i ∈ grp.members, ∀ j ∈ grp.members, test (g.variant i) = true →
      test (g.variant j) = true → i = j) {id : Nat} :
    g.findMember grp test = some id ↔ id ∈ grp.members ∧ test (g.variant id) = true := by
  constructor
  · intro found
    exact ⟨List.mem_of_find?_eq_some found, List.find?_some (p := fun i => test (g.variant i)) found⟩
  · rintro ⟨member, passes⟩
    cases found : g.findMember grp test with
    | none => exact absurd passes (List.find?_eq_none.mp found id member)
    | some j =>
      have passesToo := List.find?_some (p := fun i => test (g.variant i)) found
      exact congrArg some (unique j (List.mem_of_find?_eq_some found) id member passesToo passes)

theorem WellFormed.lookup_eq_some_iff (wf : g.WellFormed) {test : Variant → Bool}
    (unique : ∀ grp ∈ g.groups, ∀ i ∈ grp.members, ∀ j ∈ grp.members, test (g.variant i) = true →
      test (g.variant j) = true → i = j) {name : String} {id : Nat} :
    ((g.group? name).bind fun grp => g.findMember grp test) = some id ↔
      id < g.size ∧ g.groupName id = name ∧ test (g.variant id) = true := by
  rw [Option.bind_eq_some_iff]
  constructor
  · rintro ⟨grp, defined, found⟩
    have hgrp := mem_of_group? defined
    obtain ⟨member, passes⟩ := (findMember_eq_some_of_unique (unique grp hgrp)).mp found
    exact ⟨wf.member_lt hgrp member,
      (wf.group_named grp hgrp id member).trans (name_of_group? defined), passes⟩
  · rintro ⟨inside, rfl, passes⟩
    obtain ⟨x, hx⟩ := g.exists_instance inside
    obtain ⟨grp, defined, member⟩ := wf.group_of_instance hx
    rw [groupName_of_instance hx]
    exact ⟨grp, defined,
      (findMember_eq_some_of_unique (unique grp (mem_of_group? defined))).mpr ⟨member, passes⟩⟩

namespace Settled

variable {names dims : List String} (settled : g.Settled names dims) (nodup : dims.Nodup)

include settled

theorem entries_variant {i : Nat} (inside : i < g.size) :
    (g.variant i).entries.map Variation.mutator = dims := by
  obtain ⟨x, hx⟩ := g.exists_instance inside
  rw [variant_of_instance hx]
  exact settled.entries x (mem_instances hx)

include nodup

theorem distinct_variant {i : Nat} (inside : i < g.size) : (g.variant i).Distinct := by
  rw [Variant.Distinct, settled.entries_variant inside]
  exact nodup

theorem member_eq_of_get {grp : Group} (hgrp : grp ∈ g.groups) {i j : Nat} (hi : i ∈ grp.members)
    (hj : j ∈ grp.members) (same : ∀ m, (g.variant i).get m = (g.variant j).get m) : i = j := by
  have distinct_i := settled.distinct_variant nodup (settled.member_lt hgrp hi)
  have distinct_j := settled.distinct_variant nodup (settled.member_lt hgrp hj)
  exact settled.distinct grp hgrp i hi j hj ((Variant.beq_iff_get distinct_i distinct_j).mpr same)

theorem byVariant?_eq_some_iff {name : String} {w : Variant} (distinct : w.Distinct) {id : Nat} :
    g.byVariant? name w = some id ↔
      id < g.size ∧ g.groupName id = name ∧ ∀ m, w.get m = (g.variant id).get m := by
  have passes_iff : ∀ i < g.size, (g.variant i == w) = true ↔ ∀ m, (g.variant i).get m = w.get m :=
    fun i inside => Variant.beq_iff_get (settled.distinct_variant nodup inside) distinct
  have unique : ∀ grp ∈ g.groups, ∀ i ∈ grp.members, ∀ j ∈ grp.members,
      (g.variant i == w) = true → (g.variant j == w) = true → i = j := by
    intro grp hgrp i hi j hj passes_i passes_j
    have agrees_i := (passes_iff i (settled.member_lt hgrp hi)).mp passes_i
    have agrees_j := (passes_iff j (settled.member_lt hgrp hj)).mp passes_j
    exact settled.member_eq_of_get nodup hgrp hi hj fun m => (agrees_i m).trans (agrees_j m).symm
  rw [byVariant?, settled.lookup_eq_some_iff unique]
  refine and_congr_right fun inside => and_congr_right fun _ => ?_
  rw [passes_iff id inside]
  exact forall_congr' fun m => eq_comm

omit nodup in
/-- A name gives away the only value of a variant, whatever characters it has. -/
theorem byVariantName?_eq_some_iff {dim : String} (single : dims = [dim]) {name text : String}
    {id : Nat} : g.byVariantName? name text = some id ↔
      id < g.size ∧ g.groupName id = name ∧ (g.variant id).name = text := by
  subst single
  have unique : ∀ grp ∈ g.groups, ∀ i ∈ grp.members, ∀ j ∈ grp.members,
      decide ((g.variant i).name = text) = true → decide ((g.variant j).name = text) = true →
      i = j := by
    intro grp hgrp i hi j hj named_i named_j
    have entries_i := settled.entries_variant (settled.member_lt hgrp hi)
    have entries_j := settled.entries_variant (settled.member_lt hgrp hj)
    have same : (g.variant i).get dim = (g.variant j).get dim := by
      rw [← Variant.name_of_single entries_i, ← Variant.name_of_single entries_j,
        of_decide_eq_true named_i, of_decide_eq_true named_j]
    refine settled.member_eq_of_get (List.nodup_singleton dim) hgrp hi hj fun m => ?_
    by_cases here : m = dim
    · rw [here, same]
    · rw [Variant.get_of_fresh (by simpa [entries_i] using here),
        Variant.get_of_fresh (by simpa [entries_j] using here)]
  rw [byVariantName?, settled.lookup_eq_some_iff unique, decide_eq_true_iff]

end Settled

end Graph

namespace Pipeline

variable {M T : Type} [BuildModule M T]

/-- In a graph that a run with distinct transitions has left, an instance is found by its module and by
any variant that assigns what its own does, and by nothing else. If there was one transition, it is
found by the name of its variant too. -/
theorem resolve_found {p : Pipeline M T} (distinct : p.dimensions.Nodup) {modules : List M}
    {g : Graph M T} (h : p.resolve modules = .ok g) :
    (∀ name (w : Variant) id, w.Built → (g.byVariant? name w = some id ↔
      id < g.size ∧ g.groupName id = name ∧ ∀ m, w.get m = (g.variant id).get m)) ∧
    (p.dimensions.length = 1 → ∀ name text id, g.byVariantName? name text = some id ↔
      id < g.size ∧ g.groupName id = name ∧ (g.variant id).name = text) := by
  have settled := resolve_settled distinct h
  constructor
  · intro name w id built
    exact settled.byVariant?_eq_some_iff distinct built.distinct
  · intro one name text id
    obtain ⟨dim, single⟩ := List.length_eq_one_iff.mp one
    exact settled.byVariantName?_eq_some_iff single

def underscored : List DeclaredModule := [
  { name := "app", deps := ["base"], split := ["a_b", "", "a"] },
  { name := "base", split := ["b", "_"] }]

theorem resolve_found_underscored :
    let p := DeclaredModule.pipeline {} ⟨false⟩
    p.dimensions.Nodup ∧ p.dimensions.length = 1 ∧ ∃ g, p.resolve underscored = .ok g ∧
      ((List.range g.size).map g.label) =
        ["app(a_b)", "app()", "app(a)", "base(b)", "base(_)", "base()", "base(a)", "base(a_b)"] ∧
      (∀ name (w : Variant) id, w.Built → (g.byVariant? name w = some id ↔
        id < g.size ∧ g.groupName id = name ∧ ∀ m, w.get m = (g.variant id).get m)) ∧
      (∀ name text id, g.byVariantName? name text = some id ↔
        id < g.size ∧ g.groupName id = name ∧ (g.variant id).name = text) ∧
      g.byVariant? "base" (.ofList [⟨"os", ""⟩, ⟨"transition", "a_b"⟩]) = some 7 ∧
      g.byVariantName? "base" "_" = some 4 := by
  intro p
  have distinct : p.dimensions.Nodup := by decide
  have one : p.dimensions.length = 1 := rfl
  have seen : (p.resolve underscored).toOption.map (fun g => ((List.range g.size).map g.label,
      g.byVariant? "base" (.ofList [⟨"os", ""⟩, ⟨"transition", "a_b"⟩]),
      g.byVariantName? "base" "_")) =
      some (["app(a_b)", "app()", "app(a)", "base(b)", "base(_)", "base()", "base(a)", "base(a_b)"],
        some 7, some 4) := by decide +kernel
  cases h : p.resolve underscored with
  | error fs => simp [h, Except.toOption] at seen
  | ok g =>
    simp only [h, Except.toOption, Option.map_some, Option.some.injEq, Prod.mk.injEq] at seen
    obtain ⟨labels, byVariant, byName⟩ := seen
    obtain ⟨found, named⟩ := resolve_found distinct h
    exact ⟨distinct, one, g, rfl, labels, found, named one, byVariant, byName⟩

end Pipeline

end BuildVariants
