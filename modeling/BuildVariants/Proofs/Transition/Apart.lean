import BuildVariants.Proofs.Transition.Unfolding

/-!
# Passes that keep instances apart

After a pass an instance has the variant of the old one, with its own value for the transition. A
value that the old variant had for the same name is overwritten, so instances that nothing else told
apart can end with equal variants.
-/

set_option autoImplicit false

namespace BuildVariants

variable {M T : Type}

def Graph.VariantsApart (g : Graph M T) : Prop :=
  ∀ grp ∈ g.groups, ∀ i ∈ grp.members, ∀ j ∈ grp.members,
    (g.variant i == g.variant j) = true → i = j

instance (g : Graph M T) : Decidable g.VariantsApart :=
  inferInstanceAs (Decidable (∀ grp ∈ g.groups, ∀ i ∈ grp.members, ∀ j ∈ grp.members,
    (g.variant i == g.variant j) = true → i = j))

def Variant.AgreeBut (mutator : String) (v w : Variant) : Prop :=
  ∀ m, m ≠ mutator → v.get m = w.get m

theorem Variant.set_beq_set_iff {v w : Variant} (hv : v.Distinct) (hw : w.Distinct)
    {m a b : String} : (v.set m a == w.set m b) = true ↔ a = b ∧ v.AgreeBut m w := by
  rw [beq_iff_get (distinct_set hv m a) (distinct_set hw m b)]
  simp only [get_set]
  constructor
  · intro same
    refine ⟨by simpa using same m, fun n other => ?_⟩
    simpa [other] using same n
  · rintro ⟨rfl, agree⟩ n
    by_cases here : n = m
    · rw [if_pos here, if_pos here]
    · rw [if_neg here, if_neg here, agree n here]

namespace Transition

variable [BuildModule M T] {t : Transition M T} {g rewired next : Graph M T}
  {plans : List InstancePlan}

section Keys

variable (wf : g.WellFormed) (accepted : t.Accepted g plans)
  (carried : t.rewire g plans = .ok rewired) (mutated : t.mutateAll rewired = .ok next)
include wf accepted carried mutated

theorem run_place {n : Nat} (hn : n < next.size) :
    ∃ key ∈ keys g plans, (keys g plans).idxOf key = n ∧ key.1 < g.size := by
  rw [run_size wf accepted carried mutated] at hn
  have there := List.getElem_mem hn
  exact ⟨_, there, (accepted.keys_nodup wf).idxOf_getElem n hn, ((mem_keys wf).mp there).1⟩

theorem run_variant {key : Nat × String} (there : key ∈ keys g plans) :
    next.variant ((keys g plans).idxOf key) = (g.variant key.1).set t.name key.2 := by
  obtain ⟨i, v⟩ := key
  obtain ⟨x, hx⟩ := g.exists_instance ((mem_keys wf).mp there).1
  obtain ⟨content, _, new⟩ :=
    run_instance_led wf accepted carried mutated (List.getElem?_idxOf there) hx
  rw [Graph.variant_of_instance new, Graph.variant_of_instance hx]

/-- A relation tells the members of the groups apart if it tells the keys apart, at their places. -/
theorem run_members_pairwise {R : Nat → Nat → Prop} :
    (∀ grp ∈ next.groups, ∀ n ∈ grp.members, ∀ m ∈ grp.members, R n m → n = m) ↔
      ∀ grp ∈ g.groups, ∀ key ∈ groupKeys plans grp, ∀ key' ∈ groupKeys plans grp,
        R ((keys g plans).idxOf key) ((keys g plans).idxOf key') → key = key' := by
  have place_inj : ∀ grp ∈ g.groups, ∀ key ∈ groupKeys plans grp, ∀ key',
      (keys g plans).idxOf key = (keys g plans).idxOf key' ↔ key = key' :=
    fun grp hgrp key hkey _ => List.idxOf_inj (List.mem_flatMap.mpr ⟨grp, hgrp, hkey⟩)
  simp only [run_groups wf accepted carried mutated, List.forall_mem_map]
  constructor
  · intro apart grp hgrp key hkey key' hkey' related
    exact (place_inj grp hgrp key hkey key').mp (apart grp hgrp key hkey key' hkey' related)
  · intro apart grp hgrp key hkey key' hkey' related
    exact (place_inj grp hgrp key hkey key').mpr (apart grp hgrp key hkey key' hkey' related)

end Keys

/-- A pass leaves the instances of each group apart exactly when no two old ones that differ at most
in the value that is overwritten have a planned variation in common. -/
theorem run_apart_iff (wf : g.WellFormed) (variants : ∀ i < g.size, (g.variant i).Distinct)
    (planned : t.plan g = .ok plans) (h : t.run g = .ok next) :
    next.VariantsApart ↔ ∀ grp ∈ g.groups, ∀ i ∈ grp.members, ∀ j ∈ grp.members, i ≠ j →
      (g.variant i).AgreeBut t.name (g.variant j) →
        (valuesOf plans i).Disjoint (valuesOf plans j) := by
  obtain ⟨plans', rewired, planned', carried, mutated⟩ := run_eq_ok_iff.mp h
  obtain rfl := Except.ok.inj (planned.symm.trans planned')
  have accepted := plan_accepted wf.targets_valid planned
  have equal_iff : ∀ grp ∈ g.groups, ∀ i ∈ grp.members, ∀ j ∈ grp.members,
      ∀ v ∈ valuesOf plans i, ∀ w ∈ valuesOf plans j,
        (next.variant ((keys g plans).idxOf (i, v)) ==
          next.variant ((keys g plans).idxOf (j, w))) = true ↔
            v = w ∧ (g.variant i).AgreeBut t.name (g.variant j) := by
    intro grp hgrp i hi j hj v hv w hw
    have inside := wf.member_lt hgrp hi
    have inside' := wf.member_lt hgrp hj
    rw [run_variant wf accepted carried mutated ((mem_keys wf).mpr ⟨inside, hv⟩),
      run_variant wf accepted carried mutated ((mem_keys wf).mpr ⟨inside', hw⟩)]
    exact Variant.set_beq_set_iff (variants i inside) (variants j inside')
  rw [Graph.VariantsApart, run_members_pairwise wf accepted carried mutated]
  constructor
  · intro apart grp hgrp i hi j hj other agree v hv hw
    apply other
    have same := (equal_iff grp hgrp i hi j hj v hv v hw).mpr ⟨rfl, agree⟩
    exact congrArg Prod.fst (apart grp hgrp (i, v) (mem_groupKeys.mpr ⟨hi, hv⟩) (j, v)
      (mem_groupKeys.mpr ⟨hj, hw⟩) same)
  · rintro apart grp hgrp ⟨i, v⟩ hkey ⟨j, w⟩ hkey' same
    obtain ⟨hi, hv⟩ := mem_groupKeys.mp hkey
    obtain ⟨hj, hw⟩ := mem_groupKeys.mp hkey'
    obtain ⟨rfl, agree⟩ := (equal_iff grp hgrp i hi j hj v hv w hw).mp same
    by_contra different
    have other : i ≠ j := fun here => different (by rw [here])
    exact apart grp hgrp i hi j hj other agree hv hw

end Transition

end BuildVariants
