import BuildVariants.Proofs.Transition.Genuine

/-!
# Failures that come of substitutes

Where a split or an edge failed, planning goes on with the default variation in its place, and asks for
it like for any other. What is planned are therefore the genuine variations and those that such a
substitute leads to, and exactly the failures at the ones and at the others are reported. A failure with
nothing failing above it is genuine.
-/

set_option autoImplicit false

namespace BuildVariants

namespace Transition

variable {M T : Type} [BuildModule M T]

/-- The variations that instances are planned for in place of what failed, and those that these lead
to. Where an edge fails once more, it leads to the default variation again. -/
inductive Substituted (t : Transition M T) (g : Graph M T) : Nat → String → Prop
  | split {i : Nat} {x : Instance M T} {f : Failure} (here : g.instance? i = some x)
      (refused : t.splitOf x = .error f) : Substituted t g i ""
  | edge {d : Nat} {x : Instance M T} {v : String} {e : Edge T} {f : Failure}
      (here : g.instance? d = some x) (genuine : t.Genuine g d v) (he : e ∈ x.deps)
      (failed : t.edgeValue g x v e = .error f) : Substituted t g e.target ""
  | onward {d : Nat} {x : Instance M T} {v : String} {e : Edge T} (here : g.instance? d = some x)
      (substituted : Substituted t g d v) (he : e ∈ x.deps) :
      Substituted t g e.target (valueOf (t.edgeValue g x v e))

/-- The failures of edges for variations that nobody has or asks for but for an earlier failure. -/
def SubstituteFailure (t : Transition M T) (g : Graph M T) (f : Failure) : Prop :=
  ∃ i x v, g.instance? i = some x ∧ t.Substituted g i v ∧ ∃ e ∈ x.deps, t.edgeValue g x v e = .error f

inductive FailsAt (t : Transition M T) (g : Graph M T) (i : Nat) : Prop
  | split {x : Instance M T} {f : Failure} (here : g.instance? i = some x)
      (refused : t.splitOf x = .error f)
  | edge {d : Nat} {x : Instance M T} {v : String} {e : Edge T} {f : Failure}
      (here : g.instance? d = some x) (genuine : t.Genuine g d v) (he : e ∈ x.deps)
      (failed : t.edgeValue g x v e = .error f) (target : e.target = i)

section Origin

variable {t : Transition M T} {g : Graph M T} {i : Nat} {v : String} {f : Failure}

/-- Substitutes are passed down from a place where something failed. -/
theorem Substituted.origin (h : t.Substituted g i v) :
    ∃ j, t.FailsAt g j ∧ (j = i ∨ g.DependsOn j i) := by
  induction h with
  | @split i x f here refused => exact ⟨i, .split here refused, Or.inl rfl⟩
  | @edge d x v e f here genuine he failed =>
    exact ⟨e.target, .edge here genuine he failed rfl, Or.inl rfl⟩
  | @onward d x v e here substituted he ih =>
    obtain ⟨j, fails, above⟩ := ih
    have step : e.target ∈ g.targets d := by
      rw [g.targets_of_instance here]
      exact List.mem_map_of_mem he
    refine ⟨j, fails, Or.inr ?_⟩
    rcases above with rfl | above
    · exact .single step
    · exact above.tail step

theorem SubstituteFailure.plain (h : t.SubstituteFailure g f) : f.Plain := by
  obtain ⟨_, _, _, _, _, _, _, failed⟩ := h
  obtain ⟨_, _, _, ⟨_, _, rfl⟩ | ⟨_, _, _, _, rfl⟩⟩ := edgeValue_eq_error_iff.mp failed <;> exact nofun

end Origin

section Planned

variable {t : Transition M T} {g : Graph M T} {plans : List InstancePlan}

theorem mem_values_planInstance {requested : List String} {id : Nat} {x : Instance M T} {v : String} :
    v ∈ (t.planInstance g requested id x).values ↔
      (∃ split, t.splitOf x = .ok split ∧ v ∈ split) ∨ ((∃ f, t.splitOf x = .error f) ∧ v = "") ∨
        v ∈ requested := by
  have merged : ∀ own, v ∈ mergeRequests own requested ↔ v ∈ own ∨ v ∈ requested := by
    intro own
    by_cases there : v ∈ own <;> simp [mergeRequests, there]
  cases own : t.splitOf x with
  | ok split => simp [planInstance, own, merged]
  | error f => simp [planInstance, own, merged]

/-- Plans that agree plan for what is genuine, for the substitutes of what failed and for what these
lead to. -/
theorem Agreed.planned_iff (agreed : t.Agreed g plans) (valid : g.TargetsValid) {order : List Nat}
    (topDown : g.TopDownOrder order) {i : Nat} {v : String} :
    v ∈ Transition.valuesOf plans i ↔ t.Genuine g i v ∨ t.Substituted g i v := by
  constructor
  · -- The requests of an instance come from its dependents, which stand before it.
    intro planned
    induction i using topDown.induct generalizing v with
    | step i ih =>
      by_cases inside : i < g.size
      · obtain ⟨x, here⟩ := g.exists_instance inside
        rw [agreed.valuesOf here, mem_values_planInstance] at planned
        rcases planned with ⟨split, own, hv⟩ | ⟨⟨f, refused⟩, rfl⟩ | requested
        · exact Or.inl (.of_splitOf here own hv)
        · exact Or.inr (.split here refused)
        · obtain ⟨d, y, there, w, planned, e, he, rfl, rfl⟩ := agreed.mem_requestsOf.mp requested
          have dependent : e.target ∈ g.targets d := by
            rw [g.targets_of_instance there]
            exact List.mem_map_of_mem he
          rcases ih d dependent planned with genuine | substituted
          · cases value : t.edgeValue g y w e with
            | ok u =>
              exact Or.inl (.led there genuine he
                ((edgeValue_eq_ok_iff (valid.target_lt there he)).mp value))
            | error f => exact Or.inr (.edge there genuine he value)
          · exact Or.inr (.onward there substituted he)
      · rw [Transition.valuesOf, agreed.planOf?_eq_none inside] at planned
        cases planned
  · rintro (genuine | substituted)
    · exact agreed.genuine_planned valid genuine
    · induction substituted with
      | split here refused =>
        rw [agreed.valuesOf here, mem_values_planInstance]
        exact Or.inr (Or.inl ⟨⟨_, refused⟩, rfl⟩)
      | edge here genuine he failed =>
        have led := agreed.led_planned valid here (agreed.genuine_planned valid genuine) he
        rwa [failed] at led
      | onward here substituted he ih => exact agreed.led_planned valid here ih he

theorem Agreed.mem_failures_iff (agreed : t.Agreed g plans) {f : Failure} :
    f ∈ plans.flatMap InstancePlan.failures ↔ ∃ i x, g.instance? i = some x ∧
      (t.splitOf x = .error f ∨
        ∃ v ∈ Transition.valuesOf plans i, ∃ e ∈ x.deps, t.edgeValue g x v e = .error f) := by
  rw [List.mem_flatMap]
  constructor
  · rintro ⟨p, hp, there⟩
    obtain ⟨x, here, own⟩ := agreed.mem_iff.mp hp
    rw [own, mem_failures_planInstance, ← agreed.valuesOf here] at there
    exact ⟨p.id, x, here, there⟩
  · rintro ⟨i, x, here, cause⟩
    refine ⟨_, List.mem_of_find?_eq_some (agreed.planOf? here), ?_⟩
    rwa [mem_failures_planInstance, ← agreed.valuesOf here]

/-- The failures of plans that agree are the genuine ones and those at substitutes. -/
theorem Agreed.failures_iff (agreed : t.Agreed g plans) (valid : g.TargetsValid) {order : List Nat}
    (topDown : g.TopDownOrder order) {f : Failure} :
    f ∈ plans.flatMap InstancePlan.failures ↔ t.GenuineFailure g f ∨ t.SubstituteFailure g f := by
  simp only [agreed.mem_failures_iff, agreed.planned_iff valid topDown, genuineFailure_iff]
  constructor
  · rintro ⟨i, x, here, refused | ⟨v, genuine | substituted, failed⟩⟩
    · exact Or.inl ⟨i, x, here, Or.inl refused⟩
    · exact Or.inl ⟨i, x, here, Or.inr ⟨v, genuine, failed⟩⟩
    · exact Or.inr ⟨i, x, v, here, substituted, failed⟩
  · rintro (⟨i, x, here, refused | ⟨v, genuine, failed⟩⟩ | ⟨i, x, v, here, substituted, failed⟩)
    · exact ⟨i, x, here, Or.inl refused⟩
    · exact ⟨i, x, here, Or.inr ⟨v, Or.inl genuine, failed⟩⟩
    · exact ⟨i, x, here, Or.inr ⟨v, Or.inr substituted, failed⟩⟩

end Planned

/-- Planning that fails ends the pass with the genuine failures and those of edges for substitutes, and
no others. A variation is only a substitute, or led to by one, below a place where something failed. -/
theorem plan_reports_iff {t : Transition M T} {g : Graph M T} (valid : g.TargetsValid)
    (acyclic : g.Acyclic) {fs : Failures} (h : t.plan g = .error fs) :
    t.run g = .error fs ∧
      (∀ f, f ∈ fs.items ↔ t.GenuineFailure g f ∨ t.SubstituteFailure g f) ∧
      ∀ i v, t.Substituted g i v → ∃ j, t.FailsAt g j ∧ (j = i ∨ g.DependsOn j i) := by
  have stops : t.run g = .error fs := by
    rw [run, h]
    rfl
  refine ⟨stops, fun f => ?_, fun i v => Substituted.origin⟩
  obtain ⟨order, found⟩ := g.topDown_of_acyclic valid acyclic
  have topDown := g.topDown_ok valid found
  have reported : ∀ {f}, f ∈ (t.planAll g order []).flatMap InstancePlan.failures ↔
      t.GenuineFailure g f ∨ t.SubstituteFailure g f :=
    (planAll_agreed t topDown).failures_iff valid topDown
  have plain : ∀ f ∈ (t.planAll g order []).flatMap InstancePlan.failures, f.Plain := by
    intro f there
    rcases reported.mp there with genuine | substitute
    · exact genuine.plain
    · exact substitute.plain
  rw [plan_of_topDown found, Failures.guard_eq_error_iff] at h
  rw [h.1, Failures.mem_ofList_iff_of_plain plain, reported]

def stuckGraph : Graph DeclaredModule DepKind := Graph.initial [
  { name := "app", deps := ["mid"], split := ["x"], outgoingError := some "no way" },
  { name := "mid", deps := ["base"], split := ["a"], outgoingError := some "stuck" },
  { name := "base" }]

theorem stuckGraph_genuine {i : Nat} {v : String} (h : byProperties.Genuine stuckGraph i v) :
    (i, v) ∈ [(0, "x"), (1, "a"), (2, "")] := by
  have noEdge : ∀ d x e w u, stuckGraph.instance? d = some x → e ∈ x.deps →
      ¬ byProperties.Leads stuckGraph x w e u := by
    intro d x e w u here he leads
    match d with
    | 0 | 1 =>
      cases here
      obtain rfl := List.mem_singleton.mp he
      cases leads with
      | negotiated _ _ outgoing => cases outgoing
      | default far => cases far
    | 2 =>
      cases here
      cases he
    | d + 3 => cases here
  cases h with
  | own here found ne nodup hv =>
    match i with
    | 0 | 1 | 2 =>
      cases here
      cases found
      obtain rfl := List.mem_singleton.mp hv
      decide
    | i + 3 => cases here
  | led here genuine he leads => exact absurd leads (noEdge _ _ _ _ _ here he)

/-- That `mid` is stuck in the default variation, which nobody asks for, comes of the substitute for
what `app` would have asked. -/
theorem plan_reports_iff_stuck :
    stuckGraph.TargetsValid ∧ stuckGraph.Acyclic ∧ ∃ fs, byProperties.plan stuckGraph = .error fs ∧
      fs.messages = [
        "module \"app\" variant \"x\": Error: no way",
        "module \"mid\" variant \"a\": Error: stuck",
        "module \"mid\": Error: stuck"] ∧
      byProperties.run stuckGraph = .error fs ∧
      (∀ f, f ∈ fs.items ↔
        byProperties.GenuineFailure stuckGraph f ∨ byProperties.SubstituteFailure stuckGraph f) ∧
      byProperties.Substituted stuckGraph 1 "" ∧
      ∀ i v, byProperties.Substituted stuckGraph i v →
        ∃ j, byProperties.FailsAt stuckGraph j ∧ (j = i ∨ stuckGraph.DependsOn j i) := by
  have valid : stuckGraph.TargetsValid := (Graph.initial_wellFormed (by decide)).targets_valid
  have acyclic : stuckGraph.Acyclic := (stuckGraph.topDown_ok_iff valid).mp ⟨_, rfl⟩
  obtain ⟨fs, failed, messages⟩ : ∃ fs, byProperties.plan stuckGraph = .error fs ∧
      fs.messages = [
        "module \"app\" variant \"x\": Error: no way",
        "module \"mid\" variant \"a\": Error: stuck",
        "module \"mid\": Error: stuck"] := ⟨_, rfl, by decide +kernel⟩
  have asks : byProperties.Genuine stuckGraph 0 "x" :=
    .own rfl rfl (by decide) (by decide) (.head _)
  have unasked : byProperties.Substituted stuckGraph 1 "" := .edge rfl asks (.head _) rfl
  obtain ⟨stops, reported, origin⟩ := plan_reports_iff valid acyclic failed
  exact ⟨valid, acyclic, fs, failed, messages, stops, reported, unasked, origin⟩

theorem plan_reports_unasked :
    stuckGraph.TargetsValid ∧ stuckGraph.Acyclic ∧ ∃ fs f, byProperties.plan stuckGraph = .error fs ∧
      f ∈ fs.items ∧ f.message = "module \"mid\": Error: stuck" ∧
      ¬ byProperties.GenuineFailure stuckGraph f := by
  have valid : stuckGraph.TargetsValid := (Graph.initial_wellFormed (by decide)).targets_valid
  have acyclic : stuckGraph.Acyclic := (stuckGraph.topDown_ok_iff valid).mp ⟨_, rfl⟩
  refine ⟨valid, acyclic, _, .mutatorError "mid" none "" "Error: stuck", rfl, .tail _ (.tail _ (.head _)),
    by decide +kernel, fun genuine => ?_⟩
  obtain ⟨i, x, here, refused | ⟨v, genuine, e, he, failed⟩⟩ := genuineFailure_iff.mp genuine
  · match i with
    | 0 | 1 | 2 =>
      cases here
      cases refused
    | i + 3 => cases here
  · have known := stuckGraph_genuine genuine
    simp only [List.mem_cons, Prod.mk.injEq, List.not_mem_nil, or_false] at known
    rcases known with ⟨rfl, rfl⟩ | ⟨rfl, rfl⟩ | ⟨rfl, rfl⟩
    · cases here
      obtain rfl := List.mem_singleton.mp he
      have other : Failure.mutatorError "app" none "x" "Error: no way" =
        .mutatorError "mid" none "" "Error: stuck" := Except.error.inj failed
      simp at other
    · cases here
      obtain rfl := List.mem_singleton.mp he
      have other : Failure.mutatorError "mid" none "a" "Error: stuck" =
        .mutatorError "mid" none "" "Error: stuck" := Except.error.inj failed
      simp at other
    · cases here
      cases he

end Transition

end BuildVariants
