import BuildVariants.Proofs.Pipeline.Run

/-!
# Failures of a run

Rewiring could fail for a reason of its own: an edge leads to a variation of its target for
which there is no instance. It never does. All that a run reports comes from the declared
modules and from the mutators, whatever those do.
-/

set_option autoImplicit false

namespace BuildVariants

namespace Failure

def isInternal : Failure → Bool
  | .missingTransitionVariant .. => true
  | _ => false

def External (f : Failure) : Prop := f.isInternal = false

def isCycle : Failure → Bool
  | .cycle .. => true
  | _ => false

/-- A failure of a single module, which is neither internal nor a cycle. In relaxed mode it is not
that a module is missing either. -/
structure Local (relaxed : Bool) (f : Failure) : Prop where
  external : f.External
  not_isCycle : f.isCycle = false
  not_isMissingModule : relaxed = true → f.isMissingModule = false

theorem external_of_isCycle {f : Failure} (h : f.isCycle = true) : f.External := by
  cases f with
  | cycle labels => rfl
  | _ => cases h

theorem OfDecision.toLocal {f : Failure} (h : f.OfDecision) (relaxed : Bool) : f.Local relaxed := by
  cases h <;> exact ⟨rfl, rfl, fun _ => rfl⟩

end Failure

variable {M T : Type}

theorem toFailure_ofDecision [BuildModule M T] (e : MutatorError) (m : M) (v : Variant) :
    (e.toFailure m v).OfDecision := .mutatorError _ _ _ _

namespace Graph

theorem topDown_isCycle (g : Graph M T) : FailsWith (fun f => f.isCycle = true) g.topDown := by
  intro f h
  obtain ⟨id, rfl⟩ := g.topDown_error h
  rfl

variable [BuildModule M T]

theorem load_fails (settings : Settings) (modules : List M) :
    FailsWith (Failures.All fun f => (∃ name, f = .duplicateModule name) ∨
      settings.allowMissing = false ∧ ∃ source location dep,
        f = .missingDependency source location dep) (load settings modules) := by
  apply Failures.guard_ofList_failsWith
  intro f hf
  rcases List.mem_append.mp hf with again | undefined
  · obtain ⟨name, _, rfl⟩ := List.mem_map.mp again
    exact Or.inl ⟨name, rfl⟩
  · by_cases missing : settings.allowMissing = true
    · simp [missing] at undefined
    · rw [if_neg missing] at undefined
      obtain ⟨m, _, hf⟩ := List.mem_flatMap.mp undefined
      obtain ⟨dep, _, rfl⟩ := List.mem_map.mp hf
      exact Or.inr ⟨Bool.eq_false_of_not_eq_true missing, _, _, dep, rfl⟩

theorem load_local (settings : Settings) (modules : List M) :
    FailsWith (Failures.All (Failure.Local settings.allowMissing)) (load settings modules) := by
  intro fs failed f hf
  rcases load_fails settings modules fs failed f hf with ⟨name, rfl⟩ | ⟨strict, _, _, _, rfl⟩
  · exact ⟨rfl, rfl, fun _ => rfl⟩
  · exact ⟨rfl, rfl, fun relaxed => absurd relaxed (Bool.eq_false_iff.mp strict)⟩

theorem load_plain (settings : Settings) (modules : List M) :
    FailsWith (Failures.All Failure.Plain) (load settings modules) := by
  intro fs failed f hf
  rcases load_fails settings modules fs failed f hf with ⟨name, rfl⟩ | ⟨_, _, _, _, rfl⟩
  · exact nofun
  · exact nofun

end Graph

variable [BuildModule M T]

theorem mapError_toFailure_ofDecision {α : Type} (x : Except MutatorError α) (m : M) (v : Variant) :
    FailsWith Failure.OfDecision (x.mapError (·.toFailure m v)) :=
  (failsWith_true x).mapError fun e _ => toFailure_ofDecision e m v

namespace Transition

variable (t : Transition M T) (g : Graph M T)

theorem checkSplit_ofDecision (source mutator : String) (split : List String) :
    FailsWith Failure.OfDecision (checkSplit source mutator split) := by
  unfold checkSplit
  split
  · exact failsWith_error (.emptySplit source mutator)
  · split
    · exact failsWith_error (.duplicateSplit source mutator _)
    · exact failsWith_ok _

theorem splitOf_ofDecision (x : Instance M T) : FailsWith Failure.OfDecision (t.splitOf x) :=
  (mapError_toFailure_ofDecision _ _ _).bind fun _ _ => checkSplit_ofDecision _ _ _

theorem edgeValue_ofDecision (x : Instance M T) (value : String) (e : Edge T) :
    FailsWith Failure.OfDecision (t.edgeValue g x value e) := by
  unfold edgeValue
  split
  · split
    · exact (mapError_toFailure_ofDecision _ _ _).bind fun _ _ => mapError_toFailure_ofDecision _ _ _
    · exact failsWith_ok _
  · exact failsWith_ok _

theorem planInstance_ofDecision (requested : List String) (id : Nat) (x : Instance M T) :
    ∀ f ∈ (t.planInstance g requested id x).failures, f.OfDecision := by
  intro f hf
  rcases mem_failures_planInstance.mp hf with refused | ⟨v, _, e, _, failed⟩
  · exact t.splitOf_ofDecision x f refused
  · exact t.edgeValue_ofDecision g x v e f failed

theorem planAll_ofDecision {order : List Nat} {plans : List InstancePlan}
    (h : ∀ p ∈ plans, ∀ f ∈ p.failures, f.OfDecision) :
    ∀ p ∈ t.planAll g order plans, ∀ f ∈ p.failures, f.OfDecision := by
  induction order generalizing plans with
  | nil => exact h
  | cons i order ih =>
    rw [planAll]
    cases hx : g.instance? i with
    | none => exact ih h
    | some x =>
      apply ih
      intro p hp
      rcases List.mem_append.mp hp with old | new
      · exact h p old
      · rw [List.mem_singleton.mp new]
        exact t.planInstance_ofDecision g _ i x

theorem plan_fails {fs : Failures} (h : t.plan g = .error fs) :
    (∃ f, g.topDown = .error f ∧ fs = .single f) ∨ fs.All Failure.OfDecision := by
  rw [plan] at h
  rcases bind_eq_error_iff.mp h with unordered | ⟨order, _, failed⟩
  · obtain ⟨f, found, rfl⟩ := mapError_eq_error_iff.mp unordered
    exact Or.inl ⟨f, found, rfl⟩
  · right
    refine Failures.guard_ofList_failsWith ?_ fs failed
    intro f hf
    obtain ⟨p, hp, hf⟩ := List.mem_flatMap.mp hf
    exact t.planAll_ofDecision g (by simp) p hp f hf

theorem mutateInstance_ofDecision (x : Instance M T) :
    FailsWith Failure.OfDecision (t.mutateInstance x) := by
  unfold mutateInstance
  split
  · exact failsWith_ok _
  · exact failsWith_error (toFailure_ofDecision _ _ _)

theorem mutateAll_ofDecision : FailsWith (Failures.All Failure.OfDecision) (t.mutateAll g) := by
  apply Failures.guard_ofList_failsWith
  intro f hf
  obtain ⟨decision, hd, hf⟩ := List.mem_flatMap.mp hf
  obtain ⟨x, _, rfl⟩ := List.mem_map.mp hd
  exact t.mutateInstance_ofDecision x f (mem_failureOf.mp hf)

theorem run_fails (wf : g.WellFormed) {fs : Failures} (h : t.run g = .error fs) :
    (∃ f, g.topDown = .error f ∧ fs = .single f) ∨ fs.All Failure.OfDecision := by
  rw [run] at h
  rcases bind_eq_error_iff.mp h with unplanned | ⟨plans, planned, failed⟩
  · exact t.plan_fails g unplanned
  · rw [rewire_ok wf (plan_accepted wf.targets_valid planned)] at failed
    exact Or.inr (t.mutateAll_ofDecision _ fs failed)

end Transition

namespace Site

variable (s : Site M T)

theorem forwardEdge_local (choices : List Variation) (tag : T) (name : String) (far : Bool) :
    FailsWith (Failure.Local s.allowMissing) (s.forwardEdge choices tag name far) := by
  cases defined : s.graph.group? name with
  | none =>
    rw [forwardEdge, defined]
    by_cases missing : s.allowMissing = true
    · exact if_pos missing ▸ failsWith_ok _
    · exact if_neg missing ▸ failsWith_error ⟨rfl, rfl, fun relaxed => absurd relaxed missing⟩
  | some grp =>
    rw [forwardEdge_of_group defined]
    have negotiated : FailsWith (Failure.Local s.allowMissing)
        (s.negotiate grp choices tag far s.completed [] (s.startVariant choices far)) :=
      fun f failed => (negotiate_refusal (fun _ there => there) _ _ f failed).ofDecision.toLocal _
    refine negotiated.bind fun wanted _ => ?_
    rw [place]
    cases s.search grp wanted far with
    | none => exact failsWith_error ⟨rfl, rfl, fun _ => rfl⟩
    | some target => exact failsWith_ok _

theorem reverseEdge_local (choices : List Variation) (tag : T) (name : String) :
    FailsWith (Failure.Local s.allowMissing) (s.reverseEdge choices tag name) := by
  unfold reverseEdge
  cases s.graph.group? name with
  | none =>
    by_cases missing : s.allowMissing = true
    · exact if_pos missing ▸ failsWith_ok _
    · exact if_neg missing ▸ failsWith_error ⟨rfl, rfl, fun relaxed => absurd relaxed missing⟩
  | some grp =>
    simp only
    cases s.graph.findMember grp (· == s.startVariant choices false) with
    | none => exact failsWith_error ⟨rfl, rfl, fun _ => rfl⟩
    | some source => exact failsWith_ok _

theorem resolve_local (a : Addition T) : FailsWith (Failure.Local s.allowMissing) (s.resolve a) := by
  cases a with
  | forward choices tag name far => exact s.forwardEdge_local choices tag name far
  | reverse choices tag name => exact s.reverseEdge_local choices tag name
  | failure message => exact failsWith_error ⟨rfl, rfl, fun _ => rfl⟩

end Site

namespace BottomUpMutator

theorem visitAt_local (b : BottomUpMutator M T) (s : Site M T) :
    ∀ f ∈ (b.visitAt s).1, f.Local s.allowMissing := by
  intro f hf
  rcases List.mem_append.mp hf with own | added
  · obtain ⟨e, _, rfl⟩ := Option.map_eq_some_iff.mp (Option.mem_toList.mp own)
    exact (toFailure_ofDecision e _ _).toLocal _
  · obtain ⟨outcome, ho, hf⟩ := List.mem_flatMap.mp added
    obtain ⟨a, _, rfl⟩ := List.mem_map.mp ho
    apply s.resolve_local a
    cases failed : s.resolve a with
    | ok edge => simp [failed] at hf
    | error f' =>
      simp only [failed, List.mem_singleton] at hf
      rw [hf]

theorem run_fails {b : BottomUpMutator M T} {allowMissing : Bool}
    {completed : List (Transition M T)} {g : Graph M T} {fs : Failures}
    (h : b.run allowMissing completed g = .error fs) :
    (∃ f, g.topDown = .error f ∧ fs = .single f) ∨ fs.All (Failure.Local allowMissing) ∨
      ∃ order f, g.bottomUp = .ok order ∧ b.failuresAlong allowMissing completed g order = [] ∧
        (g.addEdges (b.edgesAlong allowMissing completed g order)).topDown = .error f ∧
        fs = .single f := by
  rw [run] at h
  rcases bind_eq_error_iff.mp h with unordered | ⟨order, found, h⟩
  · obtain ⟨f, failed, rfl⟩ := mapError_eq_error_iff.mp unordered
    exact Or.inl ⟨f, g.bottomUp_error_iff.mp failed, rfl⟩
  · have found := mapError_eq_ok_iff.mp found
    right
    rcases bind_eq_error_iff.mp h with reported | ⟨edges, accepted, h⟩
    · left
      refine Failures.guard_ofList_failsWith ?_ fs reported
      intro f hf
      obtain ⟨visit, hvisit, hf⟩ := List.mem_flatMap.mp hf
      obtain ⟨s, hs, rfl⟩ := List.mem_map.mp hvisit
      obtain ⟨id, _, site⟩ := List.mem_filterMap.mp hs
      obtain ⟨self, _, rfl⟩ := site?_eq_some_iff.mp site
      exact b.visitAt_local _ f hf
    · right
      obtain ⟨clean, rfl⟩ := Failures.guard_ofList_eq_ok_iff.mp accepted
      rcases bind_eq_error_iff.mp h with closed | ⟨walk, _, finished⟩
      · obtain ⟨f, failed, rfl⟩ := mapError_eq_error_iff.mp closed
        exact ⟨order, f, found, clean, failed, rfl⟩
      · cases finished

end BottomUpMutator

namespace Pipeline

/-- What a run reports is a cycle, or the failure of a single module. -/
theorem resolve_blames (p : Pipeline M T) (modules : List M) :
    FailsWith (Failures.All fun f => f.isCycle = true ∨ f.Local p.settings.allowMissing)
      (p.resolve modules) := by
  have cyclic : ∀ {g : Graph M T} {f : Failure}, g.topDown = .error f → (Failures.single f).All
      fun f => f.isCycle = true ∨ f.Local p.settings.allowMissing := by
    intro g f failed
    exact Failures.all_single (Or.inl (g.topDown_isCycle f failed))
  have blamed : ∀ {fs : Failures}, fs.All (Failure.Local p.settings.allowMissing) →
      fs.All fun f => f.isCycle = true ∨ f.Local p.settings.allowMissing :=
    fun all f hf => Or.inr (all f hf)
  intro fs failed
  cases resolve_fails_in failed with
  | loading failed => exact blamed (Graph.load_local p.settings modules fs failed)
  | cyclic _ failed only => exact only ▸ cyclic failed
  | transition ran _ failed =>
    rcases Transition.run_fails _ _ (resolve_wellFormed ran) failed with ⟨f, found, rfl⟩ | all
    · exact cyclic found
    · exact blamed fun f hf => (all f hf).toLocal _
  | bottomUp _ _ failed =>
    rcases BottomUpMutator.run_fails failed with
      ⟨f, found, rfl⟩ | all | ⟨_, f, _, _, found, rfl⟩
    · exact cyclic found
    · exact blamed all
    · exact cyclic found

theorem resolve_external (p : Pipeline M T) (modules : List M) :
    FailsWith (Failures.All Failure.External) (p.resolve modules) := by
  intro fs failed f hf
  rcases p.resolve_blames modules fs failed f hf with cycle | blamed
  · exact Failure.external_of_isCycle cycle
  · exact blamed.external

theorem resolve_not_missing {p : Pipeline M T} (relaxed : p.settings.allowMissing = true)
    (modules : List M) :
    FailsWith (Failures.All fun f => f.isMissingModule = false) (p.resolve modules) := by
  intro fs failed f hf
  rcases p.resolve_blames modules fs failed f hf with cycle | blamed
  · cases f with
    | cycle labels => rfl
    | _ => cases cycle
  · exact blamed.not_isMissingModule relaxed

/-- No run fails for want of the instance of a planned variation. In each transition pass the
values recorded for the edges of an instance are planned for the edges' targets, even where
decisions failed. -/
theorem resolve_never_missing (p : Pipeline M T) (modules : List M) :
    (∀ fs, p.resolve modules = .error fs → ∀ source mutator value,
      .missingTransitionVariant source mutator value ∉ fs.items) ∧
    ∀ count g t order, (p.take count).resolve modules = .ok g →
      p.passes[count]? = some (.transition t) → g.topDown = .ok order →
      ∀ plan ∈ t.planAll g order [], ∀ v ∈ plan.values,
        List.Forall₂ (fun e w => w ∈ Transition.valuesOf (t.planAll g order []) e.target)
          (g.deps plan.id) (plan.row v) := by
  constructor
  · intro fs failed source mutator value there
    have external := p.resolve_external modules fs failed _ there
    cases external
  · intro count g t order ran _ found plan hplan v hv
    have wf := resolve_wellFormed ran
    have agreed := t.planAll_agreed (g.topDown_ok wf.targets_valid found)
    exact agreed.row_planned wf.targets_valid hplan hv

def faultyLibrary : List DeclaredModule := [
  { name := "app", deps := ["base"], split := ["x", ""] },
  { name := "base", outgoingError := some "no way on",
    postTransitionDeps := [⟨"tool", some "t"⟩] },
  { name := "tool", split := ["t"] }]

theorem resolve_never_missing_faulty :
    ∃ fs g order, layered.resolve faultyLibrary = .error fs ∧ fs.messages = [
        "module \"base\": Error: no way on",
        "module \"base\" variant \"x\": Error: no way on",
        "module \"base\" variant \"x_x\": Error: no way on"] ∧
      (∀ source mutator value, .missingTransitionVariant source mutator value ∉ fs.items) ∧
      (layered.take 2).resolve faultyLibrary = .ok g ∧ g.topDown = .ok order ∧
      ∀ plan ∈ byArch.planAll g order [], ∀ v ∈ plan.values,
        List.Forall₂ (fun e w => w ∈ Transition.valuesOf (byArch.planAll g order []) e.target)
          (g.deps plan.id) (plan.row v) := by
  obtain ⟨fs, failed, messages⟩ : ∃ fs, layered.resolve faultyLibrary = .error fs ∧
      fs.messages = [
        "module \"base\": Error: no way on",
        "module \"base\" variant \"x\": Error: no way on",
        "module \"base\" variant \"x_x\": Error: no way on"] := ⟨_, rfl, by decide +kernel⟩
  obtain ⟨g, ran, found⟩ : ∃ g, (layered.take 2).resolve faultyLibrary = .ok g ∧
      g.topDown = .ok [1, 2, 0, 3, 4] := ⟨_, rfl, rfl⟩
  obtain ⟨never, recorded⟩ := resolve_never_missing layered faultyLibrary
  exact ⟨fs, g, _, failed, messages, never fs failed, ran, found,
    recorded 2 g byArch _ ran rfl found⟩

end Pipeline

end BuildVariants
