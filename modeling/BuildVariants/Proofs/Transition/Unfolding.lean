import BuildVariants.Proofs.Transition.Propagation

/-!
# The graph after a transition

A pass unfolds the graph: over every old instance there is one new instance for each of its
variations, with all the edges of the old one in their order. An edge that leads to a
variation ends at the new instance for just that variation of the old target.
-/

set_option autoImplicit false

namespace BuildVariants

namespace Transition

variable {M T : Type}

/-- The edge `e'` of a new instance, over the edge `e` of the instance `x` with the
variation `v`. -/
structure Lifts (t : Transition M T) (g next : Graph M T) (key : Nat → Nat × String)
    (x : Instance M T) (v : String) (e e' : Edge T) : Prop where
  tag : e'.tag = e.tag
  far : e'.far = e.far
  inside : e'.target < next.size
  target : ∃ w, key e'.target = (e.target, w) ∧ t.Leads g x v e w

structure Unfolds (t : Transition M T) (g next : Graph M T) (values : Nat → List String)
    (key : Nat → Nat × String) : Prop where
  surjective : ∀ i < g.size, ∃ n < next.size, (key n).1 = i
  keys : ∀ i v, (∃ n < next.size, key n = (i, v)) ↔ i < g.size ∧ v ∈ values i
  injective : ∀ n < next.size, ∀ m < next.size, key n = key m → n = m
  instances : ∀ n < next.size, ∀ i v, key n = (i, v) → ∃ x y,
    g.instance? i = some x ∧ next.instance? n = some y ∧ y.group = x.group ∧
      y.variant.entries = x.variant.entries ++ [⟨t.name, v⟩] ∧
      t.mutator.mutate x.content v = .ok y.content ∧
      List.Forall₂ (t.Lifts g next key x v) x.deps y.deps

def keyAt (g : Graph M T) (plans : List InstancePlan) (n : Nat) : Nat × String :=
  ((keys g plans)[n]?).getD (0, "")

theorem keyAt_eq {g : Graph M T} {plans : List InstancePlan} {n : Nat} {key : Nat × String}
    (h : (keys g plans)[n]? = some key) : keyAt g plans n = key := by
  rw [keyAt, h, Option.getD_some]

theorem getElem?_keys {g : Graph M T} {plans : List InstancePlan} {n : Nat}
    (h : n < (keys g plans).length) : (keys g plans)[n]? = some (keyAt g plans n) := by
  rw [keyAt, List.getElem?_eq_getElem h, Option.getD_some]

theorem exists_keyAt_iff {g : Graph M T} {plans : List InstancePlan} (wf : g.WellFormed) {i : Nat}
    {v : String} : (∃ n < (keys g plans).length, keyAt g plans n = (i, v)) ↔
      i < g.size ∧ v ∈ valuesOf plans i := by
  rw [← mem_keys wf, List.mem_iff_getElem?]
  constructor
  · rintro ⟨n, hn, hkey⟩
    exact ⟨n, hkey ▸ getElem?_keys hn⟩
  · rintro ⟨n, there⟩
    exact ⟨n, (List.getElem?_eq_some_iff.mp there).1, keyAt_eq there⟩

theorem Repointed.lifts {t : Transition M T} {g next : Graph M T} {plans : List InstancePlan}
    (size : next.size = (keys g plans).length) {x : Instance M T} {v : String} {e e' : Edge T}
    (h : t.Repointed g (keys g plans) x v e e') : t.Lifts g next (keyAt g plans) x v e e' where
  tag := h.tag
  far := h.far
  inside := by
    obtain ⟨w, place, _⟩ := h.target
    rw [size]
    exact (List.getElem?_eq_some_iff.mp place).1
  target := by
    obtain ⟨w, place, leads⟩ := h.target
    exact ⟨w, keyAt_eq place, leads⟩

variable [BuildModule M T] {t : Transition M T} {g next : Graph M T} {plans : List InstancePlan}

section Shape

variable {rewired : Graph M T} (wf : g.WellFormed) (accepted : t.Accepted g plans)
  (carried : t.rewire g plans = .ok rewired) (mutated : t.mutateAll rewired = .ok next)
include wf accepted carried mutated

theorem run_size : next.size = (keys g plans).length := by
  rw [(mutateAll_contentsApart mutated).size, rewire_size wf accepted carried]

theorem run_groups : next.groups = g.groups.map fun grp =>
    ⟨grp.name, (groupKeys plans grp).map (keys g plans).idxOf⟩ := by
  rw [(mutateAll_contentsApart mutated).groups, rewire_groups_places wf accepted carried]

end Shape

/-- What became of the old instance of a key. -/
theorem run_instance_led {rewired : Graph M T} (wf : g.WellFormed) (accepted : t.Accepted g plans)
    (carried : t.rewire g plans = .ok rewired) (mutated : t.mutateAll rewired = .ok next)
    {n i : Nat} {v : String} {x : Instance M T} (there : (keys g plans)[n]? = some (i, v))
    (hx : g.instance? i = some x) : ∃ content, t.mutator.mutate x.content v = .ok content ∧
      next.instance? n = some { x with
        content
        variant := x.variant.set t.name v
        deps := x.deps.map (t.ledEdge g (keys g plans) x v) } := by
  have led := rewire_instance_led wf accepted carried there hx
  obtain ⟨content, changed, new⟩ := mutateAll_instance mutated led
  have told : (x.variant.set t.name v).get t.name = v := by rw [Variant.get_set, if_pos rfl]
  rw [told] at changed
  exact ⟨content, changed, new⟩

/-- Every instance after a pass is what became of the old one of its key. -/
theorem run_key {rewired : Graph M T} (wf : g.WellFormed) (accepted : t.Accepted g plans)
    (carried : t.rewire g plans = .ok rewired) (mutated : t.mutateAll rewired = .ok next)
    {n : Nat} {y : Instance M T} (hy : next.instance? n = some y) : ∃ i v x,
      (keys g plans)[n]? = some (i, v) ∧ g.instance? i = some x ∧ v ∈ valuesOf plans i ∧
      t.mutator.mutate x.content v = .ok y.content ∧
      y = { x with
        content := y.content
        variant := x.variant.set t.name v
        deps := x.deps.map (t.ledEdge g (keys g plans) x v) } := by
  have hn : n < rewired.size := (mutateAll_contentsApart mutated).size ▸ next.instance_lt hy
  obtain ⟨i, v, x, there, hx, hv⟩ := rewire_key wf accepted carried hn
  obtain ⟨content, changed, new⟩ := run_instance_led wf accepted carried mutated there hx
  obtain rfl := Option.some.inj (new.symm.trans hy)
  exact ⟨i, v, x, there, hx, hv, changed, rfl⟩

theorem run_instance {rewired : Graph M T} (wf : g.WellFormed) (accepted : t.Accepted g plans)
    (fresh : ∀ x ∈ g.instances, t.name ∉ x.variant.entries.map Variation.mutator)
    (carried : t.rewire g plans = .ok rewired) (mutated : t.mutateAll rewired = .ok next)
    {n i : Nat} {v : String} {x : Instance M T} (there : (keys g plans)[n]? = some (i, v))
    (hx : g.instance? i = some x) : ∃ y, next.instance? n = some y ∧ y.group = x.group ∧
      y.variant.entries = x.variant.entries ++ [⟨t.name, v⟩] ∧
      t.mutator.mutate x.content v = .ok y.content ∧
      List.Forall₂ (t.Repointed g (keys g plans) x v) x.deps y.deps := by
  obtain ⟨_, hv⟩ := (mem_keys wf).mp (List.mem_of_getElem? there)
  obtain ⟨content, changed, new⟩ := run_instance_led wf accepted carried mutated there hx
  refine ⟨_, new, rfl, ?_, changed, ?_⟩
  · exact Variant.entries_set_of_fresh v (fresh x (Graph.mem_instances hx))
  · rw [List.forall₂_map_right_iff, List.forall₂_same]
    exact fun e he => ledEdge_repointed wf accepted hx hv he

/-- A pass of a new mutator unfolds the graph along the plan that it made. -/
theorem run_unfolds (wf : g.WellFormed)
    (fresh : ∀ x ∈ g.instances, t.name ∉ x.variant.entries.map Variation.mutator)
    (h : t.run g = .ok next) :
    ∃ plans key, t.plan g = .ok plans ∧ t.Unfolds g next (valuesOf plans) key := by
  obtain ⟨plans, rewired, planned, carried, mutated⟩ := run_eq_ok_iff.mp h
  have accepted := plan_accepted wf.targets_valid planned
  have size := run_size wf accepted carried mutated
  have covered : ∀ i v, (∃ n < next.size, keyAt g plans n = (i, v)) ↔
      i < g.size ∧ v ∈ valuesOf plans i := fun i v => size ▸ exists_keyAt_iff wf
  refine ⟨plans, keyAt g plans, planned, ?_, covered, ?_, ?_⟩
  · intro i hi
    obtain ⟨x, hx⟩ := g.exists_instance hi
    obtain ⟨v, hv⟩ := List.exists_mem_of_ne_nil _ (accepted.values_ne_nil hx)
    obtain ⟨n, hn, hkey⟩ := (covered i v).mpr ⟨hi, hv⟩
    exact ⟨n, hn, by rw [hkey]⟩
  · intro n hn m hm same
    rw [size] at hn hm
    apply (List.getElem?_inj hn (accepted.keys_nodup wf)).mp
    rw [getElem?_keys hn, getElem?_keys hm, same]
  · intro n hn i v hkey
    have there : (keys g plans)[n]? = some (i, v) := hkey ▸ getElem?_keys (size ▸ hn)
    obtain ⟨x, hx⟩ := g.exists_instance ((covered i v).mp ⟨n, hn, hkey⟩).1
    obtain ⟨y, new, group, variant, content, edges⟩ :=
      run_instance wf accepted fresh carried mutated there hx
    exact ⟨x, y, hx, new, group, variant, content,
      edges.imp fun e e' repointed => repointed.lifts size⟩

def shortcutGraph : Graph DeclaredModule DepKind := diamondGraph.addEdges [(0, ⟨3, .far, true⟩)]

theorem shortcutGraph_wellFormed : shortcutGraph.WellFormed :=
  diamondGraph_wellFormed.addEdges (by decide)

/-- The shortcut ends at the default variation of the bottom, the other edges at what was
asked for. -/
theorem run_unfolds_shortcut :
    ∃ next, byProperties.run shortcutGraph = .ok next ∧
      (List.range next.size).map (fun n => (next.label n, next.depLabels n)) = [
        ("app(x)", ["left(x)", "right(x)", "left(x)", "base()"]),
        ("app()", ["left()", "right()", "left()", "base()"]),
        ("left()", ["base()"]), ("left(x)", ["base(x)"]),
        ("right()", ["base(w)"]), ("right(x)", ["base(w)"]),
        ("base(z)", []), ("base(x)", []), ("base()", []), ("base(w)", [])] ∧
      ∃ plans key, byProperties.plan shortcutGraph = .ok plans ∧
        byProperties.Unfolds shortcutGraph next (valuesOf plans) key := by
  obtain ⟨next, h, labels⟩ : ∃ next, byProperties.run shortcutGraph = .ok next ∧
      (List.range next.size).map (fun n => (next.label n, next.depLabels n)) = [
        ("app(x)", ["left(x)", "right(x)", "left(x)", "base()"]),
        ("app()", ["left()", "right()", "left()", "base()"]),
        ("left()", ["base()"]), ("left(x)", ["base(x)"]),
        ("right()", ["base(w)"]), ("right(x)", ["base(w)"]),
        ("base(z)", []), ("base(x)", []), ("base()", []), ("base(w)", [])] :=
    ⟨_, rfl, by decide +kernel⟩
  have fresh : ∀ x ∈ shortcutGraph.instances,
      byProperties.name ∉ x.variant.entries.map Variation.mutator := by decide +kernel
  exact ⟨next, h, labels, run_unfolds shortcutGraph_wellFormed fresh h⟩

end Transition

end BuildVariants
