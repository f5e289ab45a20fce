import BuildVariants.Proofs.Graph.Embedding
import BuildVariants.Proofs.Transition.Unfolding
import Mathlib.Data.List.Flatten

/-!
# Passes over a graph within a graph

A transition decides the same about an instance wherever the instance lies. In a larger graph it
may be asked for more, so it has its old variations there, in their old order, and others between
them. A pass that succeeds on the larger graph therefore succeeds on the smaller one, and the
graph that it makes of the smaller one lies within the graph that it makes of the larger.
-/

set_option autoImplicit false

namespace BuildVariants

namespace Transition

variable {M T : Type} [BuildModule M T] {t : Transition M T} {g g' : Graph M T} {σ : Nat → Nat}

theorem edgeValue_renumber (emb : Graph.Embeds σ g g') (x : Instance M T) (v : String) {e : Edge T}
    (inside : e.target < g.size) :
    t.edgeValue g' (x.renumber σ) v (e.renumber σ) = t.edgeValue g x v e := by
  obtain ⟨y, hy⟩ := g.exists_instance inside
  have there : g'.instance? (e.renumber σ).target = some (y.renumber σ) := emb.instances _ y hy
  rw [edgeValue, edgeValue, there, hy]
  rfl

section Plans

variable {plans plans' : List InstancePlan}

/-- What is planned for an instance is planned for it in the larger graph too. The induction is
on the order of the smaller graph: its requests come from dependents that come before. -/
theorem values_sublist (wf : g.WellFormed) (emb : Graph.Embeds σ g g') (agreed : t.Agreed g plans)
    (accepted : t.Accepted g' plans') {order : List Nat} (topDown : g.TopDownOrder order) (i : Nat) :
    ∀ x, g.instance? i = some x → (valuesOf plans i).Sublist (valuesOf plans' (σ i)) := by
  induction i using topDown.induct with
  | step i ih =>
    intro x hx
    have asked : ∀ w ∈ requestsOf g plans i, w ∈ requestsOf g' plans' (σ i) := by
      intro w hw
      obtain ⟨d, z, hz, v, hv, e, he, rfl, led⟩ := agreed.mem_requestsOf.mp hw
      have dependent : e.target ∈ g.targets d := by
        rw [g.targets_of_instance hz]
        exact List.mem_map_of_mem he
      rw [← edgeValue_renumber emb z v (wf.target_lt hz he)] at led
      exact accepted.mem_requestsOf.mpr ⟨σ d, z.renumber σ, emb.instances d z hz, v,
        (ih d dependent z hz).subset hv, e.renumber σ, List.mem_map_of_mem he, rfl, led⟩
    obtain ⟨split, found, values⟩ := accepted.values_eq (emb.instances i x hx)
    have found : t.splitOf x = .ok split := found
    have requests : (requestsOf g plans i).Sublist (requestsOf g' plans' (σ i)) :=
      Text.sortedSet_sublist fun w hw => Text.mem_sortedSet.mp (asked w (Text.mem_sortedSet.mpr hw))
    rw [agreed.valuesOf hx, values_planInstance found, values]
    exact (List.Sublist.refl split).append (requests.filter _)

theorem Accepted.of_embeds (wf : g.WellFormed) (emb : Graph.Embeds σ g g')
    (agreed : t.Agreed g plans) (accepted : t.Accepted g' plans') {order : List Nat}
    (topDown : g.TopDownOrder order) : t.Accepted g plans where
  toAgreed := agreed
  clean p hp := by
    obtain ⟨x, hx, own⟩ := agreed.mem_iff.mp hp
    have there := emb.instances _ x hx
    obtain ⟨split, found, _⟩ := accepted.values_eq there
    rw [own, failures_planInstance_eq_nil_iff, ← agreed.valuesOf hx]
    refine ⟨⟨split, found⟩, fun v hv e he => ?_⟩
    have planned := (values_sublist wf emb agreed accepted topDown _ x hx).subset hv
    rw [← edgeValue_renumber emb x v (wf.target_lt hx he)]
    exact accepted.decided there planned (List.mem_map_of_mem he)

def renumberKey (σ : Nat → Nat) (key : Nat × String) : Nat × String := (σ key.1, key.2)

def renumberPlace (σ : Nat → Nat) (g g' : Graph M T) (plans plans' : List InstancePlan)
    (n : Nat) : Nat :=
  (keys g' plans').idxOf (renumberKey σ (keyAt g plans n))

omit [BuildModule M T] in
theorem renumberPlace_idxOf {key : Nat × String} (there : key ∈ keys g plans) :
    renumberPlace σ g g' plans plans' ((keys g plans).idxOf key) =
      (keys g' plans').idxOf (renumberKey σ key) := by
  rw [renumberPlace, keyAt_eq (List.getElem?_idxOf there)]

omit [BuildModule M T] in
theorem groupKeys_sublist {grp grp' : Group} (within : (grp.members.map σ).Sublist grp'.members)
    (values : ∀ i ∈ grp.members, (valuesOf plans i).Sublist (valuesOf plans' (σ i))) :
    ((groupKeys plans grp).map (renumberKey σ)).Sublist (groupKeys plans' grp') := by
  have own : (groupKeys plans grp).map (renumberKey σ) =
      grp.members.flatMap fun i => (valuesOf plans i).map fun v => (σ i, v) := by
    simp only [groupKeys, List.map_flatMap, List.map_map]
    rfl
  have larger : (grp.members.flatMap fun i => (valuesOf plans' (σ i)).map fun v => (σ i, v)) =
      (grp.members.map σ).flatMap fun j => (valuesOf plans' j).map fun v => (j, v) := by
    rw [List.flatMap_map]
  rw [own]
  refine (List.Sublist.flatMap_right _ fun i hi => (values i hi).map _).trans ?_
  rw [larger]
  exact within.flatMap _

structure PlansWithin (t : Transition M T) (σ : Nat → Nat) (g g' : Graph M T)
    (plans plans' : List InstancePlan) : Prop where
  wf : g.WellFormed
  wf' : g'.WellFormed
  embeds : Graph.Embeds σ g g'
  accepted : t.Accepted g plans
  accepted' : t.Accepted g' plans'
  values : ∀ i x, g.instance? i = some x → (valuesOf plans i).Sublist (valuesOf plans' (σ i))

namespace PlansWithin

variable {rewired rewired' next next' : Graph M T}

theorem key_mem (within : t.PlansWithin σ g g' plans plans') {key : Nat × String}
    (there : key ∈ keys g plans) : renumberKey σ key ∈ keys g' plans' := by
  obtain ⟨hi, hv⟩ := (mem_keys within.wf).mp there
  obtain ⟨x, hx⟩ := g.exists_instance hi
  exact (mem_keys within.wf').mpr ⟨within.embeds.lt hi, (within.values _ x hx).subset hv⟩

theorem mutateAll (within : t.PlansWithin σ g g' plans plans')
    (carried : t.rewire g plans = .ok rewired) (carried' : t.rewire g' plans' = .ok rewired')
    (mutated' : t.mutateAll rewired' = .ok next') : ∃ next, t.mutateAll rewired = .ok next := by
  apply mutateAll_of_each
  intro y hy
  obtain ⟨n, hn, rfl⟩ := List.getElem_of_mem hy
  obtain ⟨i, v, x, there, hx, _⟩ := rewire_key within.wf within.accepted carried hn
  have new := rewire_instance_led within.wf within.accepted carried there hx
  have there' := List.getElem?_idxOf (within.key_mem (List.mem_of_getElem? there))
  obtain ⟨content, changed, _⟩ := run_instance_led within.wf' within.accepted' carried' mutated'
    there' (within.embeds.instances i x hx)
  rw [Option.some.inj ((List.getElem?_eq_getElem hn).symm.trans new)]
  refine ⟨_, mutateInstance_eq_ok_iff.mpr ⟨content, ?_, rfl⟩⟩
  rw [Variant.get_set, if_pos rfl]
  exact changed

theorem ledEdge (within : t.PlansWithin σ g g' plans plans') {i : Nat} {x : Instance M T}
    (hx : g.instance? i = some x) {v : String} (hv : v ∈ valuesOf plans i) {e : Edge T}
    (he : e ∈ x.deps) : t.ledEdge g' (keys g' plans') (x.renumber σ) v (e.renumber σ) =
      (t.ledEdge g (keys g plans) x v e).renumber (renumberPlace σ g g' plans plans') := by
  have value := edgeValue_renumber (t := t) within.embeds x v (within.wf.target_lt hx he)
  have there := led_mem_keys within.wf within.accepted hx hv he
  rw [Transition.ledEdge, value]
  simp only [Transition.ledEdge, Edge.renumber, renumberPlace_idxOf there, renumberKey]

theorem next_instance (within : t.PlansWithin σ g g' plans plans')
    (carried : t.rewire g plans = .ok rewired) (carried' : t.rewire g' plans' = .ok rewired')
    (mutated : t.mutateAll rewired = .ok next) (mutated' : t.mutateAll rewired' = .ok next')
    {n : Nat} (hn : n < (keys g plans).length) {y : Instance M T}
    (hy : next.instance? n = some y) : next'.instance? (renumberPlace σ g g' plans plans' n) =
      some (y.renumber (renumberPlace σ g g' plans plans')) := by
  have there := getElem?_keys hn
  generalize keyAt g plans n = key at there
  obtain ⟨hi, hv⟩ := (mem_keys within.wf).mp (List.mem_of_getElem? there)
  obtain ⟨x, hx⟩ := g.exists_instance hi
  have there' := List.getElem?_idxOf (within.key_mem (List.mem_of_getElem? there))
  obtain ⟨content, changed, new⟩ :=
    run_instance_led within.wf within.accepted carried mutated there hx
  obtain ⟨content', changed', new'⟩ := run_instance_led within.wf' within.accepted' carried'
    mutated' there' (within.embeds.instances _ x hx)
  obtain rfl : content = content' := Except.ok.inj (changed.symm.trans changed')
  obtain rfl : _ = y := Option.some.inj (new.symm.trans hy)
  rw [renumberPlace, keyAt_eq there, new']
  have deps : (x.renumber σ).deps.map (t.ledEdge g' (keys g' plans') (x.renumber σ) key.2) =
      (x.deps.map (t.ledEdge g (keys g plans) x key.2)).map
        (Edge.renumber (renumberPlace σ g g' plans plans')) := by
    rw [Instance.renumber, List.map_map, List.map_map]
    exact List.map_congr_left fun e he => within.ledEdge hx hv he
  simp only [deps]
  rfl

theorem next_embeds (within : t.PlansWithin σ g g' plans plans')
    (carried : t.rewire g plans = .ok rewired) (carried' : t.rewire g' plans' = .ok rewired')
    (mutated : t.mutateAll rewired = .ok next) (mutated' : t.mutateAll rewired' = .ok next') :
    Graph.Embeds (renumberPlace σ g g' plans plans') next next' := by
  have size := run_size within.wf within.accepted carried mutated
  refine ⟨?_, ?_, ?_⟩
  · intro n hn m hm same
    rw [size] at hn hm
    have keyN := List.mem_of_getElem? (getElem?_keys hn)
    have keyM := List.mem_of_getElem? (getElem?_keys hm)
    obtain ⟨old, value⟩ := Prod.mk.inj ((List.idxOf_inj (within.key_mem keyN)).mp same)
    have place : (keyAt g plans n).1 = (keyAt g plans m).1 := within.embeds.injective _
      ((mem_keys within.wf).mp keyN).1 _ ((mem_keys within.wf).mp keyM).1 old
    apply (List.getElem?_inj hn (within.accepted.keys_nodup within.wf)).mp
    rw [getElem?_keys hn, getElem?_keys hm]
    exact congrArg some (Prod.ext place value)
  · intro n y hy
    exact within.next_instance carried carried' mutated mutated' (size ▸ next.instance_lt hy) hy
  · intro grp hgrp
    rw [run_groups within.wf within.accepted carried mutated] at hgrp
    obtain ⟨old, hold, rfl⟩ := List.mem_map.mp hgrp
    obtain ⟨old', hold', named, members⟩ := within.embeds.groups old hold
    rw [run_groups within.wf' within.accepted' carried' mutated']
    refine ⟨_, List.mem_map_of_mem hold', named, ?_⟩
    have places : ((groupKeys plans old).map (keys g plans).idxOf).map
        (renumberPlace σ g g' plans plans') =
        ((groupKeys plans old).map (renumberKey σ)).map (keys g' plans').idxOf := by
      rw [List.map_map, List.map_map]
      apply List.map_congr_left
      intro key hkey
      exact renumberPlace_idxOf (List.mem_flatMap.mpr ⟨old, hold, hkey⟩)
    rw [places]
    apply List.Sublist.map
    apply groupKeys_sublist members
    intro i hi
    obtain ⟨x, hx⟩ := g.exists_instance (within.wf.member_lt hold hi)
    exact within.values i x hx

end PlansWithin

end Plans

/-- A pass that succeeds on a graph succeeds on every graph within it, and keeps it within. -/
theorem run_embeds (wf : g.WellFormed) (wf' : g'.WellFormed) (emb : Graph.Embeds σ g g')
    {next' : Graph M T} (h : t.run g' = .ok next') :
    ∃ next σ', t.run g = .ok next ∧ Graph.Embeds σ' next next' := by
  obtain ⟨plans', rewired', planned', carried', mutated'⟩ := run_eq_ok_iff.mp h
  have accepted' := plan_accepted wf'.targets_valid planned'
  obtain ⟨_, found', _⟩ := plan_eq_ok_iff.mp planned'
  have acyclic : g.Acyclic := emb.acyclic (g'.topDown_ok wf'.targets_valid found').acyclic
  obtain ⟨order, found⟩ := g.topDown_of_acyclic wf.targets_valid acyclic
  have topDown := g.topDown_ok wf.targets_valid found
  have agreed := planAll_agreed t topDown
  have accepted := Accepted.of_embeds wf emb agreed accepted' topDown
  have within : t.PlansWithin σ g g' (t.planAll g order []) plans' :=
    ⟨wf, wf', emb, accepted, accepted', values_sublist wf emb agreed accepted' topDown⟩
  have carried := rewire_ok wf accepted
  obtain ⟨next, mutated⟩ := within.mutateAll carried carried' mutated'
  have planned : t.plan g = .ok (t.planAll g order []) :=
    plan_eq_ok_iff.mpr ⟨order, found, rfl, accepted.clean⟩
  exact ⟨next, _, run_eq_ok_iff.mpr ⟨_, _, planned, carried, mutated⟩,
    within.next_embeds carried carried' mutated mutated'⟩

end Transition

end BuildVariants
