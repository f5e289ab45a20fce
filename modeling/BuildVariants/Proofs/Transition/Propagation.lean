import BuildVariants.Declared.Pipeline
import BuildVariants.Proofs.Graph.Loading
import BuildVariants.Proofs.Transition.Pass

/-!
# What variations spread

Which variations an instance is to have can be said without any walk over the graph: those of
its split, and those that the variations of its dependents lead to. The two depend on each
other along every path, but on an acyclic graph they have one solution. A pass that succeeds
gives every instance exactly that, whichever top-down order it walks.
-/

set_option autoImplicit false

namespace BuildVariants

namespace Transition

variable {M T : Type}

def Requested (t : Transition M T) (g : Graph M T) (given : Nat → List String) (i : Nat)
    (w : String) : Prop :=
  ∃ d x, g.instance? d = some x ∧ ∃ e ∈ x.deps, e.target = i ∧
    ∃ v ∈ given d, t.Leads g x v e w

/-- Every instance is given the variations of its split, in their order, and then the others
that are requested of it, in the order of their bytes. -/
def Specified (t : Transition M T) (g : Graph M T) (given : Nat → List String) : Prop :=
  ∀ i x, g.instance? i = some x → ∃ split tail,
    t.mutator.split ⟨x.content, x.variant⟩ = .ok split ∧ given i = split ++ tail ∧
      tail.Pairwise (fun a b => Text.utf8 a < Text.utf8 b) ∧
      ∀ w, w ∈ tail ↔ w ∉ split ∧ t.Requested g given i w

theorem Requested.of_dependents {t : Transition M T} {g : Graph M T}
    {given other : Nat → List String} {i : Nat} {w : String} (h : t.Requested g given i w)
    (same : ∀ d, i ∈ g.targets d → other d = given d) : t.Requested g other i w := by
  obtain ⟨d, x, hx, e, he, target, v, hv, leads⟩ := h
  have dependent : i ∈ g.targets d := by
    rw [g.targets_of_instance hx, ← target]
    exact List.mem_map_of_mem he
  exact ⟨d, x, hx, e, he, target, v, by rwa [same d dependent], leads⟩

/-- On a graph with a top-down order the specification has one solution. -/
theorem Specified.unique {t : Transition M T} {g : Graph M T} {given other : Nat → List String}
    {order : List Nat} (topDown : g.TopDownOrder order) (specified : t.Specified g given)
    (specified' : t.Specified g other) : ∀ i < g.size, other i = given i := by
  intro i
  induction i using topDown.induct with
  | step i ih =>
    intro hi
    obtain ⟨x, hx⟩ := g.exists_instance hi
    obtain ⟨split, tail, found, values, increasing, requested⟩ := specified i x hx
    obtain ⟨split', tail', found', values', increasing', requested'⟩ := specified' i x hx
    obtain rfl : split = split' := Except.ok.inj (found.symm.trans found')
    -- The dependents come first, so both solutions meet the same requests.
    have same : ∀ d, i ∈ g.targets d → other d = given d := fun d hd =>
      ih d hd (g.lt_of_mem_targets hd)
    have tails : tail' = tail := by
      apply List.Pairwise.eq_of_mem_iff (r := (· < ·))
        (increasing'.imp Text.lt_iff_utf8_lt.mpr) (increasing.imp Text.lt_iff_utf8_lt.mpr)
      intro w
      rw [requested, requested']
      exact and_congr_right fun _ =>
        ⟨fun h => h.of_dependents fun d hd => (same d hd).symm, fun h => h.of_dependents same⟩
    rw [values, values', tails]

variable [BuildModule M T]

theorem Accepted.mem_requestsOf_iff {t : Transition M T} {g : Graph M T}
    {plans : List InstancePlan} (accepted : t.Accepted g plans) (valid : g.TargetsValid) {i : Nat}
    {w : String} : w ∈ requestsOf g plans i ↔ t.Requested g (valuesOf plans) i w := by
  rw [accepted.mem_requestsOf]
  have leads : ∀ {d x v e}, g.instance? d = some x → v ∈ valuesOf plans d → e ∈ x.deps →
      (t.Leads g x v e w ↔ valueOf (t.edgeValue g x v e) = w) := by
    intro d x v e hx hv he
    have inside := valid.target_lt hx he
    obtain ⟨w', decided⟩ := accepted.decided hx hv he
    rw [← edgeValue_eq_ok_iff inside, decided]
    simp [valueOf]
  constructor
  · rintro ⟨d, x, hx, v, hv, e, he, target, value⟩
    exact ⟨d, x, hx, e, he, target, v, hv, (leads hx hv he).mpr value⟩
  · rintro ⟨d, x, hx, e, he, target, v, hv, led⟩
    exact ⟨d, x, hx, v, hv, e, he, target, (leads hx hv he).mp led⟩

theorem Accepted.specified {t : Transition M T} {g : Graph M T} {plans : List InstancePlan}
    (accepted : t.Accepted g plans) (valid : g.TargetsValid) :
    t.Specified g (valuesOf plans) := by
  intro i x hx
  obtain ⟨split, found, values⟩ := accepted.values_eq hx
  refine ⟨split, _, (splitOf_eq_ok_iff.mp found).1, values, ?_, ?_⟩
  · exact ((Text.increasing_sortedSet _).filter _).imp Text.lt_iff_utf8_lt.mp
  · intro w
    rw [List.mem_filter, accepted.mem_requestsOf_iff valid, decide_eq_true_iff]
    exact and_comm

theorem rewire_arena {t : Transition M T} {g next : Graph M T} {plans : List InstancePlan}
    (wf : g.WellFormed) (accepted : t.Accepted g plans) (h : t.rewire g plans = .ok next) :
    next.instances.map (fun y => (y.group, y.variant)) =
      (List.range g.size).flatMap fun i => (valuesOf plans i).map fun v =>
        (g.groupName i, (g.variant i).set t.name v) := by
  have keyed : ((List.range g.size).flatMap fun i => (valuesOf plans i).map fun v =>
      (g.groupName i, (g.variant i).set t.name v)) =
      (keys g plans).map fun key => (g.groupName key.1, (g.variant key.1).set t.name key.2) := by
    rw [keys_eq wf, List.map_flatMap]
    simp only [List.map_map, Function.comp_def]
  rw [keyed]
  apply List.ext_getElem
  · simpa [Graph.size] using rewire_size wf accepted h
  · intro n hn _
    have hn' : n < next.size := by simpa [Graph.size] using hn
    obtain ⟨i, v, x, there, hx, _⟩ := rewire_key wf accepted h hn'
    obtain ⟨deps, new, _⟩ := rewire_instance wf accepted h there hx
    obtain ⟨hk, atKey⟩ := List.getElem?_eq_some_iff.mp there
    obtain ⟨_, atNew⟩ := List.getElem?_eq_some_iff.mp new
    rw [List.getElem_map, List.getElem_map, atKey, atNew, Graph.groupName_of_instance hx,
      Graph.variant_of_instance hx]

def runAlong (t : Transition M T) (g : Graph M T) (order : List Nat) :
    Except Failures (Graph M T) := do
  let plans := t.planAll g order []
  let plans ← (Failures.ofList (plans.flatMap InstancePlan.failures)).guard plans
  let rewired ← t.rewire g plans
  t.mutateAll rewired

theorem run_eq_runAlong {t : Transition M T} {g : Graph M T} {order : List Nat}
    (h : g.topDown = .ok order) : t.run g = t.runAlong g order := by
  rw [run, plan, runAlong, h]
  rfl

/-- The top-down order that a pass walks makes no difference to its result. -/
theorem runAlong_eq {t : Transition M T} {g next : Graph M T} (wf : g.WellFormed)
    (h : t.run g = .ok next) {order : List Nat} (topDown : g.TopDownOrder order) :
    t.runAlong g order = .ok next := by
  obtain ⟨plans, rewired, planned, carried, mutated⟩ := run_eq_ok_iff.mp h
  have accepted := plan_accepted wf.targets_valid planned
  have agreed := planAll_agreed t topDown
  -- Both orders lead to the same plan for every instance, so neither leads to a failure.
  have same := accepted.planOf?_unique agreed topDown
  have clean : (t.planAll g order []).flatMap InstancePlan.failures = [] := by
    rw [List.flatMap_eq_nil_iff]
    intro p hp
    obtain ⟨x, hx, own⟩ := agreed.mem_iff.mp hp
    have found := agreed.planOf? hx
    rw [← own, ← same] at found
    exact accepted.clean p (List.mem_of_find?_eq_some found)
  have guarded : (Failures.ofList ((t.planAll g order []).flatMap InstancePlan.failures)).guard
      (t.planAll g order []) = .ok (t.planAll g order []) :=
    Failures.guard_ofList_eq_ok_iff.mpr ⟨clean, rfl⟩
  rw [runAlong]
  refine bind_eq_ok_iff.mpr ⟨_, guarded, bind_eq_ok_iff.mpr ⟨rewired, ?_, mutated⟩⟩
  rwa [← rewire_congr same]

/-- A pass that succeeds gives every instance exactly the specified variations: its plan is
the one solution of the specification, the new instances are the old ones with each of their
variations in turn, and walking any other top-down order leads to the same graph. -/
theorem run_specified {t : Transition M T} {g next : Graph M T} (wf : g.WellFormed)
    (h : t.run g = .ok next) :
    ∃ plans, t.plan g = .ok plans ∧ t.Specified g (valuesOf plans) ∧
      (∀ given, t.Specified g given → ∀ i < g.size, given i = valuesOf plans i) ∧
      next.instances.map (fun y => (y.group, y.variant)) =
        (List.range g.size).flatMap (fun i => (valuesOf plans i).map fun v =>
          (g.groupName i, (g.variant i).set t.name v)) ∧
      (∃ order, g.TopDownOrder order ∧ t.run g = t.runAlong g order) ∧
      ∀ order, g.TopDownOrder order → t.runAlong g order = .ok next := by
  obtain ⟨plans, rewired, planned, carried, mutated⟩ := run_eq_ok_iff.mp h
  have accepted := plan_accepted wf.targets_valid planned
  have specified := accepted.specified wf.targets_valid
  obtain ⟨order, found, _⟩ := plan_eq_ok_iff.mp planned
  have topDown := g.topDown_ok wf.targets_valid found
  refine ⟨plans, planned, specified, fun given specified' => specified.unique topDown specified',
    ?_, ⟨order, topDown, run_eq_runAlong found⟩, fun order' topDown' => runAlong_eq wf h topDown'⟩
  rw [← rewire_arena wf accepted carried]
  exact (mutateAll_contentsApart mutated).map_instances fun _ _ => rfl

def diamond : List DeclaredModule := [
  { name := "app", deps := ["left", "right", "left"], split := ["x", ""] },
  { name := "left", deps := ["base"] },
  { name := "right", deps := ["base"], outgoing := some "w" },
  { name := "base", split := ["z", "x"] }]

def diamondGraph : Graph DeclaredModule DepKind := Graph.initial diamond

def byProperties : Transition DeclaredModule DepKind :=
  ⟨"transition", false, DeclaredModule.propertyTransition⟩

theorem diamondGraph_wellFormed : diamondGraph.WellFormed :=
  Graph.initial_wellFormed (by decide)

/-- The bottom of the diamond has its split, one of which is requested too, and the rest of
the requests. -/
theorem run_specified_diamond :
    ∃ next, byProperties.run diamondGraph = .ok next ∧
      next.variations "base" "transition" = ["z", "x", "", "w"] ∧
      ∃ plans, byProperties.plan diamondGraph = .ok plans ∧
        byProperties.Specified diamondGraph (valuesOf plans) ∧
        (∀ given, byProperties.Specified diamondGraph given →
          ∀ i < diamondGraph.size, given i = valuesOf plans i) ∧
        next.instances.map (fun y => (y.group, y.variant)) =
          (List.range diamondGraph.size).flatMap (fun i => (valuesOf plans i).map fun v =>
            (diamondGraph.groupName i, (diamondGraph.variant i).set byProperties.name v)) ∧
        (∃ order, diamondGraph.TopDownOrder order ∧
          byProperties.run diamondGraph = byProperties.runAlong diamondGraph order) ∧
        ∀ order, diamondGraph.TopDownOrder order →
          byProperties.runAlong diamondGraph order = .ok next := by
  obtain ⟨next, h, values⟩ : ∃ next, byProperties.run diamondGraph = .ok next ∧
      next.variations "base" "transition" = ["z", "x", "", "w"] := ⟨_, rfl, by decide +kernel⟩
  exact ⟨next, h, values, run_specified diamondGraph_wellFormed h⟩

end Transition

end BuildVariants
