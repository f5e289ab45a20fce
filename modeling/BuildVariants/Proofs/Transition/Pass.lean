import BuildVariants.Transition.Pass
import BuildVariants.Proofs.Transition.Rewiring

/-!
# Transition passes over settled graphs

A pass succeeds when its plan is accepted and no instance refuses its variation. It leaves a
well-formed graph well-formed and, for a new mutator, a settled graph settled.
-/

set_option autoImplicit false

namespace BuildVariants

variable {M T : Type} [BuildModule M T]

namespace Transition

theorem mutateInstance_eq_ok_iff {t : Transition M T} {x y : Instance M T} :
    t.mutateInstance x = .ok y ↔
      ∃ content, t.mutator.mutate x.content (x.variant.get t.name) = .ok content ∧
        y = { x with content } := by
  unfold mutateInstance
  cases t.mutator.mutate x.content (x.variant.get t.name) <;> simp [eq_comm]

theorem mutateAll_ok {t : Transition M T} {g next : Graph M T} (h : t.mutateAll g = .ok next) :
    next.groups = g.groups ∧
      List.Forall₂ (fun x y => t.mutateInstance x = .ok y) g.instances next.instances := by
  rw [mutateAll, Failures.guard_ofList_eq_ok_iff] at h
  obtain ⟨none, rfl⟩ := h
  refine ⟨rfl, filterMap_toOption_of_ok fun x hx => ?_⟩
  rw [List.flatMap_eq_nil_iff] at none
  obtain ⟨y, hy⟩ := failureOf_eq_nil_iff.mp (none _ (List.mem_map_of_mem hx))
  exact ⟨y, hy, hy⟩

theorem mutateAll_of_each {t : Transition M T} {g : Graph M T}
    (h : ∀ x ∈ g.instances, ∃ y, t.mutateInstance x = .ok y) : ∃ next, t.mutateAll g = .ok next := by
  refine ⟨_, Failures.guard_ofList_eq_ok_iff.mpr ⟨?_, rfl⟩⟩
  rw [List.flatMap_eq_nil_iff]
  intro decision hd
  obtain ⟨x, hx, rfl⟩ := List.mem_map.mp hd
  exact failureOf_eq_nil_iff.mpr (h x hx)

theorem mutateAll_instance {t : Transition M T} {g next : Graph M T}
    (h : t.mutateAll g = .ok next) {n : Nat} {x : Instance M T} (hx : g.instance? n = some x) :
    ∃ content, t.mutator.mutate x.content (x.variant.get t.name) = .ok content ∧
      next.instance? n = some { x with content } := by
  obtain ⟨_, related⟩ := mutateAll_ok h
  obtain ⟨length, each⟩ := List.forall₂_iff_get.mp related
  obtain ⟨hn, there⟩ := List.getElem?_eq_some_iff.mp hx
  have hn' : n < next.instances.length := length ▸ hn
  have became := each n hn hn'
  rw [List.get_eq_getElem, List.get_eq_getElem, there] at became
  obtain ⟨content, changed, result⟩ := mutateInstance_eq_ok_iff.mp became
  refine ⟨content, changed, ?_⟩
  rw [Graph.instance?, List.getElem?_eq_getElem hn']
  exact congrArg some result

theorem mutateAll_contentsApart {t : Transition M T} {g next : Graph M T}
    (h : t.mutateAll g = .ok next) : g.ContentsApart next where
  groups := (mutateAll_ok h).1
  size := (mutateAll_ok h).2.length_eq.symm
  instances n x hx := by
    obtain ⟨content, _, there⟩ := mutateAll_instance h hx
    exact ⟨content, there⟩

theorem run_eq_ok_iff {t : Transition M T} {g next : Graph M T} :
    t.run g = .ok next ↔ ∃ plans rewired, t.plan g = .ok plans ∧
      t.rewire g plans = .ok rewired ∧ t.mutateAll rewired = .ok next := by
  simp only [run, bind_eq_ok_iff]
  constructor
  · rintro ⟨plans, planned, rewired, carried, mutated⟩
    exact ⟨plans, rewired, planned, carried, mutated⟩
  · rintro ⟨plans, rewired, planned, carried, mutated⟩
    exact ⟨plans, planned, rewired, carried, mutated⟩

theorem run_wellFormed {t : Transition M T} {g next : Graph M T} (wf : g.WellFormed)
    (h : t.run g = .ok next) : next.WellFormed := by
  obtain ⟨plans, rewired, planned, carried, mutated⟩ := run_eq_ok_iff.mp h
  have accepted := plan_accepted wf.targets_valid planned
  exact (mutateAll_contentsApart mutated).wellFormed (rewire_wellFormed wf accepted carried)

theorem run_settled {t : Transition M T} {g next : Graph M T} {names dims : List String}
    (settled : g.Settled names dims) (dimsNodup : dims.Nodup) (fresh : t.name ∉ dims)
    (h : t.run g = .ok next) : next.Settled names (dims ++ [t.name]) := by
  obtain ⟨plans, rewired, planned, carried, mutated⟩ := run_eq_ok_iff.mp h
  have accepted := plan_accepted settled.targets_valid planned
  exact (mutateAll_contentsApart mutated).settled
    (rewire_settled settled dimsNodup fresh accepted carried)

end Transition

end BuildVariants
