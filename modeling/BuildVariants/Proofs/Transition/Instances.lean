import BuildVariants.Transition.Pass
import BuildVariants.Proofs.Graph.Instances
import BuildVariants.Proofs.Transition.Decision

/-!
# Passes over graphs with other instances

A change of the instances that a transition does not notice makes no difference to a pass: it ends in
the same graph with the instances changed, or in the same failures.
-/

set_option autoImplicit false

namespace BuildVariants

namespace Transition

variable {M T : Type} [BuildModule M T] {t : Transition M T} {F : Instance M T → Instance M T}
  {P : Instance M T → Prop}

/-- A change of the instances with the property `P`, which they keep in a pass, that a transition
does not notice: it decides as before, and what it makes of a changed instance is what it made of the
instance, changed. -/
structure Overlooks (t : Transition M T) (F : Instance M T → Instance M T)
    (P : Instance M T → Prop) : Prop where
  group : ∀ x, P x → (F x).group = x.group
  label : ∀ x, P x → (F x).label = x.label
  deps : ∀ x, P x → (F x).deps = x.deps
  splitOf : ∀ x, P x → t.splitOf (F x) = t.splitOf x
  propagate : ∀ x y, P x → P y → ∀ v tag, t.propagate (F x) (F y) v tag = t.propagate x y v tag
  rewired : ∀ x, P x → ∀ v deps, { F x with variant := (F x).variant.set t.name v, deps } =
    F { x with variant := x.variant.set t.name v, deps }
  mutateInstance : ∀ x, P x → t.mutateInstance (F x) = (t.mutateInstance x).map F
  keeps : ∀ x, P x → ∀ v content deps,
    P { x with variant := x.variant.set t.name v, content, deps }

namespace Overlooks

variable {g : Graph M T} (overlooks : t.Overlooks F P) (all : ∀ x ∈ g.instances, P x)

include overlooks all

theorem keepsShape : g.KeepsShape F where
  group x hx := overlooks.group x (all x hx)
  label x hx := overlooks.label x (all x hx)
  deps x hx := overlooks.deps x (all x hx)

theorem edgeValue {x : Instance M T} (hx : P x) (v : String) (e : Edge T) :
    t.edgeValue (g.mapInstances F) (F x) v e = t.edgeValue g x v e := by
  rw [Transition.edgeValue, Transition.edgeValue, Graph.instance?_mapInstances]
  cases hy : g.instance? e.target with
  | none => rfl
  | some y =>
    simp only [Option.map_some, overlooks.propagate x y hx (all y (Graph.mem_instances hy))]

theorem planInstance {x : Instance M T} (hx : P x) (requested : List String) (i : Nat) :
    t.planInstance (g.mapInstances F) requested i (F x) = t.planInstance g requested i x := by
  have decisions : t.edgeValue (g.mapInstances F) (F x) = t.edgeValue g x := by
    funext v e
    exact overlooks.edgeValue all hx v e
  rw [Transition.planInstance, Transition.planInstance, overlooks.splitOf x hx, decisions,
    overlooks.deps x hx]

theorem requestsOf (plans : List InstancePlan) (i : Nat) :
    requestsOf (g.mapInstances F) plans i = requestsOf g plans i := by
  have asks : InstancePlan.requests (g.mapInstances F) = InstancePlan.requests g := by
    funext p
    rw [InstancePlan.requests, InstancePlan.requests, (overlooks.keepsShape all).targets]
  rw [Transition.requestsOf, Transition.requestsOf, asks]

theorem planAll (order : List Nat) (plans : List InstancePlan) :
    t.planAll (g.mapInstances F) order plans = t.planAll g order plans := by
  induction order generalizing plans with
  | nil => rfl
  | cons i order ih =>
    rw [Transition.planAll, Transition.planAll, Graph.instance?_mapInstances,
      overlooks.requestsOf all]
    cases hx : g.instance? i with
    | none => exact ih plans
    | some x =>
      simp only [Option.map_some, overlooks.planInstance all (all x (Graph.mem_instances hx))]
      exact ih _

theorem plan : t.plan (g.mapInstances F) = t.plan g := by
  simp only [Transition.plan, (overlooks.keepsShape all).topDown, overlooks.planAll all]

theorem rewireDeps (plans : List InstancePlan) (ks : List (Nat × String)) (key : Nat × String) :
    t.rewireDeps (g.mapInstances F) plans ks key = t.rewireDeps g plans ks key := by
  have edges : t.rewireEdge (g.mapInstances F) ks = t.rewireEdge g ks := by
    funext e w
    rw [rewireEdge, rewireEdge, (overlooks.keepsShape all).groupName]
  rw [Transition.rewireDeps, Transition.rewireDeps, (overlooks.keepsShape all).deps_eq, edges]

theorem rewireInstance (plans : List InstancePlan) (ks : List (Nat × String))
    (key : Nat × String) : t.rewireInstance (g.mapInstances F) plans ks key =
      (t.rewireInstance g plans ks key).map F := by
  rw [Transition.rewireInstance, Transition.rewireInstance, Graph.instance?_mapInstances,
    overlooks.rewireDeps all, Option.map_map, Option.map_map]
  cases hx : g.instance? key.1 with
  | none => rfl
  | some x => exact congrArg some (overlooks.rewired x (all x (Graph.mem_instances hx)) _ _)

theorem rewire (plans : List InstancePlan) :
    t.rewire (g.mapInstances F) plans = (t.rewire g plans).map (Graph.mapInstances F) := by
  have same : keys (g.mapInstances F) plans = keys g plans := rfl
  have rebuilt : t.rebuilt (g.mapInstances F) plans = (t.rebuilt g plans).mapInstances F := by
    refine Graph.ext_groups (Eq.trans ?_ List.map_filterMap.symm) rfl
    exact List.filterMap_congr fun key _ => overlooks.rewireInstance all plans _ key
  simp only [Transition.rewire, same, overlooks.rewireDeps all, Failures.map_guard, rebuilt]

theorem rewire_keeps {plans : List InstancePlan} {rewired : Graph M T}
    (h : t.rewire g plans = .ok rewired) : ∀ y ∈ rewired.instances, P y := by
  rw [Transition.rewire, Failures.guard_ofList_eq_ok_iff] at h
  obtain ⟨_, rfl⟩ := h
  intro y hy
  obtain ⟨key, _, made⟩ := List.mem_filterMap.mp hy
  obtain ⟨x, hx, rfl⟩ := Option.map_eq_some_iff.mp made
  exact overlooks.keeps x (all x (Graph.mem_instances hx)) _ _ _

theorem mutateAll :
    t.mutateAll (g.mapInstances F) = (t.mutateAll g).map (Graph.mapInstances F) := by
  have results : (g.mapInstances F).instances.map t.mutateInstance =
      (g.instances.map t.mutateInstance).map (Except.map F) := by
    rw [Graph.mapInstances, List.map_map, List.map_map]
    exact List.map_congr_left fun x hx => overlooks.mutateInstance x (all x hx)
  have failures : (fun decision : Except Failure (Instance M T) => failureOf (decision.map F)) =
      failureOf := by
    funext decision
    cases decision <;> rfl
  have became : Except.toOption ∘ Except.map F =
      fun decision : Except Failure (Instance M T) => decision.toOption.map F := by
    funext decision
    cases decision <;> rfl
  rw [Transition.mutateAll, Transition.mutateAll, Failures.map_guard, results, List.flatMap_map,
    List.filterMap_map, became, ← List.map_filterMap, failures]
  rfl

/-- A pass over the changed instances comes to what it would have come to, changed. -/
theorem run : t.run (g.mapInstances F) = (t.run g).map (Graph.mapInstances F) := by
  rw [Transition.run, Transition.run, overlooks.plan all]
  refine bind_map fun plans _ => ?_
  rw [overlooks.rewire all, map_bind]
  exact bind_map fun rewired h => overlooks.mutateAll (overlooks.rewire_keeps all h)

end Overlooks

end Transition

end BuildVariants
