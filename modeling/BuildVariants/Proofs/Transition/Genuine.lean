import BuildVariants.Proofs.Graph.Acyclic
import BuildVariants.Proofs.Transition.Propagation

/-!
# Genuine failures

Planning goes on after a failure with the default variation in place of what could not be decided, so
it may come to failures of its own making. A failure is genuine if it does not depend on such a
substitute. Whatever else fails, the variations that are planned for include the genuine ones, hence
no genuine failure is hidden by another one; and the first failure that is found is genuine.
-/

set_option autoImplicit false

namespace BuildVariants

namespace Transition

variable {M T : Type}

/-- The variations that instances have for reasons in which nothing fails: those of a valid split,
and those that a genuine variation of a dependent leads to. -/
inductive Genuine (t : Transition M T) (g : Graph M T) : Nat → String → Prop
  | own {i : Nat} {x : Instance M T} {split : List String} {v : String}
      (here : g.instance? i = some x)
      (found : t.mutator.split ⟨x.content, x.variant⟩ = .ok split) (ne : split ≠ [])
      (nodup : split.Nodup) (hv : v ∈ split) : Genuine t g i v
  | led {d : Nat} {x : Instance M T} {v w : String} {e : Edge T} (here : g.instance? d = some x)
      (genuine : Genuine t g d v) (he : e ∈ x.deps) (leads : t.Leads g x v e w) :
      Genuine t g e.target w

variable [BuildModule M T]

inductive GenuineFailure (t : Transition M T) (g : Graph M T) : Failure → Prop
  | split {i : Nat} {x : Instance M T} {err : MutatorError} (here : g.instance? i = some x)
      (failed : t.mutator.split ⟨x.content, x.variant⟩ = .error err) :
      GenuineFailure t g (err.toFailure x.content x.variant)
  | empty {i : Nat} {x : Instance M T} (here : g.instance? i = some x)
      (found : t.mutator.split ⟨x.content, x.variant⟩ = .ok []) :
      GenuineFailure t g (.emptySplit x.group t.name)
  | repeated {i : Nat} {x : Instance M T} {before after : List String} {v : String}
      (here : g.instance? i = some x)
      (found : t.mutator.split ⟨x.content, x.variant⟩ = .ok (before ++ v :: after))
      (nodup : before.Nodup) (again : v ∈ before) :
      GenuineFailure t g (.duplicateSplit x.group t.name v)
  | outgoing {i : Nat} {x y : Instance M T} {v : String} {e : Edge T} {err : MutatorError}
      (here : g.instance? i = some x) (genuine : t.Genuine g i v) (he : e ∈ x.deps)
      (reached : e.far = false ∨ t.neverFar = true) (target : g.instance? e.target = some y)
      (failed : t.mutator.outgoing ⟨x.content, x.variant, y.group, e.tag⟩ v = .error err) :
      GenuineFailure t g (err.toFailure x.content (x.variant.set t.name v))
  | incoming {i : Nat} {x y : Instance M T} {v asked : String} {e : Edge T} {err : MutatorError}
      (here : g.instance? i = some x) (genuine : t.Genuine g i v) (he : e ∈ x.deps)
      (reached : e.far = false ∨ t.neverFar = true) (target : g.instance? e.target = some y)
      (asks : t.mutator.outgoing ⟨x.content, x.variant, y.group, e.tag⟩ v = .ok asked)
      (failed : t.mutator.incoming ⟨y.content, y.variant, .structural⟩ asked = .error err) :
      GenuineFailure t g (err.toFailure y.content y.variant)

section Decisions

variable {t : Transition M T} {g : Graph M T} {i : Nat} {x : Instance M T} {f : Failure}

theorem Genuine.of_splitOf (here : g.instance? i = some x) {split : List String}
    (h : t.splitOf x = .ok split) {v : String} (hv : v ∈ split) : t.Genuine g i v := by
  obtain ⟨found, ne, nodup⟩ := splitOf_eq_ok_iff.mp h
  exact .own here found ne nodup hv

theorem GenuineFailure.of_splitOf (here : g.instance? i = some x) (h : t.splitOf x = .error f) :
    t.GenuineFailure g f := by
  rcases splitOf_eq_error_iff.mp h with
    ⟨err, failed, rfl⟩ | ⟨found, rfl⟩ | ⟨before, v, after, found, nodup, again, rfl⟩
  · exact .split here failed
  · exact .empty here found
  · exact .repeated here found nodup again

theorem GenuineFailure.of_edgeValue (here : g.instance? i = some x) {v : String}
    (genuine : t.Genuine g i v) {e : Edge T} (he : e ∈ x.deps)
    (h : t.edgeValue g x v e = .error f) : t.GenuineFailure g f := by
  obtain ⟨reached, y, target, ⟨err, failed, rfl⟩ | ⟨asked, err, asks, failed, rfl⟩⟩ :=
    edgeValue_eq_error_iff.mp h
  · exact .outgoing here genuine he reached target failed
  · exact .incoming here genuine he reached target asks failed

theorem genuineFailure_iff : t.GenuineFailure g f ↔
    ∃ i x, g.instance? i = some x ∧ (t.splitOf x = .error f ∨
      ∃ v, t.Genuine g i v ∧ ∃ e ∈ x.deps, t.edgeValue g x v e = .error f) := by
  constructor
  · intro h
    cases h with
    | split here failed =>
      exact ⟨_, _, here, Or.inl (splitOf_eq_error_iff.mpr (Or.inl ⟨_, failed, rfl⟩))⟩
    | empty here found =>
      exact ⟨_, _, here, Or.inl (splitOf_eq_error_iff.mpr (Or.inr (Or.inl ⟨found, rfl⟩)))⟩
    | repeated here found nodup again =>
      exact ⟨_, _, here, Or.inl (splitOf_eq_error_iff.mpr
        (Or.inr (Or.inr ⟨_, _, _, found, nodup, again, rfl⟩)))⟩
    | outgoing here genuine he reached target failed =>
      exact ⟨_, _, here, Or.inr ⟨_, genuine, _, he, edgeValue_eq_error_iff.mpr
        ⟨reached, _, target, Or.inl ⟨_, failed, rfl⟩⟩⟩⟩
    | incoming here genuine he reached target asks failed =>
      exact ⟨_, _, here, Or.inr ⟨_, genuine, _, he, edgeValue_eq_error_iff.mpr
        ⟨reached, _, target, Or.inr ⟨_, _, asks, failed, rfl⟩⟩⟩⟩
  · rintro ⟨i, x, here, refused | ⟨v, genuine, e, he, failed⟩⟩
    · exact .of_splitOf here refused
    · exact .of_edgeValue here genuine he failed

theorem GenuineFailure.plain (h : t.GenuineFailure g f) : f.Plain := by
  cases h <;> exact nofun

end Decisions

section Reported

variable {t : Transition M T} {g : Graph M T} {plans : List InstancePlan}

/-- Plans that agree plan for every genuine variation, whatever else failed. -/
theorem Agreed.genuine_planned (agreed : t.Agreed g plans) (valid : g.TargetsValid) {i : Nat}
    {v : String} (h : t.Genuine g i v) : v ∈ Transition.valuesOf plans i := by
  -- Plans agree with what is requested of them also where decisions failed, so the derivation of a
  -- genuine variation is followed from plan to plan.
  induction h with
  | own here found ne nodup hv =>
    rw [agreed.valuesOf here, values_planInstance (splitOf_eq_ok_iff.mpr ⟨found, ne, nodup⟩)]
    exact List.mem_append_left _ hv
  | @led d x v w e here genuine he leads ih =>
    have inside := valid.target_lt here he
    have value : valueOf (t.edgeValue g x v e) = w := by
      rw [(edgeValue_eq_ok_iff inside).mpr leads, valueOf]
    exact value ▸ agreed.led_planned valid here ih he

theorem Agreed.genuine_reported (agreed : t.Agreed g plans) (valid : g.TargetsValid) {f : Failure}
    (h : t.GenuineFailure g f) : f ∈ plans.flatMap InstancePlan.failures := by
  obtain ⟨i, x, here, cause⟩ := genuineFailure_iff.mp h
  have planned := agreed.planOf? here
  refine List.mem_flatMap.mpr ⟨_, List.mem_of_find?_eq_some planned, ?_⟩
  rw [mem_failures_planInstance, ← agreed.valuesOf here]
  rcases cause with refused | ⟨v, genuine, e, he, failed⟩
  · exact Or.inl refused
  · exact Or.inr ⟨v, agreed.genuine_planned valid genuine, e, he, failed⟩

end Reported

section First

variable {t : Transition M T} {g : Graph M T} {i : Nat} {x : Instance M T}

def AsksGenuine (t : Transition M T) (g : Graph M T) (plans : List InstancePlan) : Prop :=
  ∀ p ∈ plans, p.failures = [] ∧ ∀ j w, (j, w) ∈ p.requests g → t.Genuine g j w

omit [BuildModule M T] in
theorem AsksGenuine.requestsOf {plans : List InstancePlan} (asks : t.AsksGenuine g plans)
    {w : String} (hw : w ∈ Transition.requestsOf g plans i) : t.Genuine g i w := by
  obtain ⟨p, hp, request⟩ := mem_requestsOf.mp hw
  exact (asks p hp).2 i w request

theorem planInstance_genuine {requested : List String} (here : g.instance? i = some x)
    (asked : ∀ w ∈ requested, t.Genuine g i w) {split : List String} (h : t.splitOf x = .ok split)
    {v : String} (hv : v ∈ (t.planInstance g requested i x).values) : t.Genuine g i v := by
  rw [values_planInstance h] at hv
  rcases List.mem_append.mp hv with own | more
  · exact .of_splitOf here h own
  · exact asked v (List.mem_filter.mp more).1

theorem planInstance_first (valid : g.TargetsValid) {requested : List String}
    (here : g.instance? i = some x) (asked : ∀ w ∈ requested, t.Genuine g i w) :
    t.AsksGenuine g [t.planInstance g requested i x] ∨
      ∃ f more, (t.planInstance g requested i x).failures = f :: more ∧ t.GenuineFailure g f := by
  cases own : t.splitOf x with
  | error f =>
    obtain ⟨more, first⟩ := failures_planInstance_of_error own
    exact Or.inr ⟨f, more, first, .of_splitOf here own⟩
  | ok split =>
    have genuine : ∀ v ∈ (t.planInstance g requested i x).values, t.Genuine g i v :=
      fun v hv => planInstance_genuine here asked own hv
    cases failures : (t.planInstance g requested i x).failures with
    | cons f more =>
      have there : f ∈ (t.planInstance g requested i x).failures := by simp [failures]
      rcases mem_failures_planInstance.mp there with refused | ⟨v, hv, e, he, failed⟩
      · cases own.symm.trans refused
      · exact Or.inr ⟨f, more, rfl, .of_edgeValue here (genuine v hv) he failed⟩
    | nil =>
      obtain ⟨_, decided⟩ := failures_planInstance_eq_nil_iff.mp failures
      left
      intro p hp
      obtain rfl := List.mem_singleton.mp hp
      refine ⟨failures, fun j w request => ?_⟩
      obtain ⟨v, hv, e, he, rfl, rfl⟩ := (mem_requests_planInstance here).mp request
      obtain ⟨w, value⟩ := decided v hv e he
      have inside := valid.target_lt here he
      rw [value, valueOf]
      exact .led here (genuine v hv) he ((edgeValue_eq_ok_iff inside).mp value)

/-- The first failure that planning finds is genuine. -/
theorem planAll_first (valid : g.TargetsValid) {order : List Nat} (inside : ∀ i ∈ order, i < g.size)
    {plans : List InstancePlan} (asks : t.AsksGenuine g plans) :
    (∀ p ∈ t.planAll g order plans, p.failures = []) ∨
      ∃ f more, (t.planAll g order plans).flatMap InstancePlan.failures = f :: more ∧
        t.GenuineFailure g f := by
  -- Up to the first failure no value is a substitute: all that was asked so far is genuine.
  induction order generalizing plans with
  | nil => exact Or.inl fun p hp => (asks p hp).1
  | cons i order ih =>
    have insideRest : ∀ j ∈ order, j < g.size := fun j hj => inside j (by simp [hj])
    obtain ⟨x, here⟩ := g.exists_instance (inside i (by simp))
    simp only [planAll, here]
    rcases planInstance_first valid here fun w hw => asks.requestsOf hw with
      genuine | ⟨f, more, first, genuine⟩
    · apply ih insideRest
      intro p hp
      rcases List.mem_append.mp hp with old | new
      · exact asks p old
      · exact genuine p new
    · right
      obtain ⟨new, extended, _⟩ := planAll_extends t g insideRest
        (plans ++ [t.planInstance g (requestsOf g plans i) i x])
      have clean : plans.flatMap InstancePlan.failures = [] :=
        List.flatMap_eq_nil_iff.mpr fun p hp => (asks p hp).1
      refine ⟨f, more ++ new.flatMap InstancePlan.failures, ?_, genuine⟩
      rw [extended, List.flatMap_append, List.flatMap_append, clean, List.flatMap_singleton, first]
      rfl

end First

section Plan

variable {t : Transition M T} {g : Graph M T}

theorem no_genuineFailure_iff (valid : g.TargetsValid) : (∀ f, ¬ t.GenuineFailure g f) ↔
    (∀ i x, g.instance? i = some x → ∃ split,
      t.mutator.split ⟨x.content, x.variant⟩ = .ok split ∧ split ≠ [] ∧ split.Nodup) ∧
    ∀ i x, g.instance? i = some x → ∀ v, t.Genuine g i v → ∀ e ∈ x.deps,
      (e.far = false ∨ t.neverFar = true) → ∃ w, t.Leads g x v e w := by
  constructor
  · intro none
    constructor
    · intro i x here
      cases own : t.splitOf x with
      | error f => exact absurd (.of_splitOf here own) (none f)
      | ok split => exact ⟨split, splitOf_eq_ok_iff.mp own⟩
    · intro i x here v genuine e he _
      cases value : t.edgeValue g x v e with
      | error f => exact absurd (.of_edgeValue here genuine he value) (none f)
      | ok w => exact ⟨w, (edgeValue_eq_ok_iff (valid.target_lt here he)).mp value⟩
  · rintro ⟨splits, edges⟩ f failure
    obtain ⟨i, x, here, refused | ⟨v, genuine, e, he, failed⟩⟩ := genuineFailure_iff.mp failure
    · obtain ⟨split, found⟩ := splits i x here
      cases refused.symm.trans (splitOf_eq_ok_iff.mpr found)
    · obtain ⟨w, leads⟩ := edges i x here v genuine e he (edgeValue_eq_error_iff.mp failed).1
      cases failed.symm.trans ((edgeValue_eq_ok_iff (valid.target_lt here he)).mpr leads)

theorem plan_of_topDown {order : List Nat} (h : g.topDown = .ok order) : t.plan g =
    (Failures.ofList ((t.planAll g order []).flatMap InstancePlan.failures)).guard
      (t.planAll g order []) := by
  rw [plan, h]
  rfl

/-- Planning reports every genuine failure, and a genuine one first. -/
theorem plan_error_reports (valid : g.TargetsValid) (acyclic : g.Acyclic) {fs : Failures}
    (h : t.plan g = .error fs) : (∀ f, t.GenuineFailure g f → f ∈ fs.items) ∧
      ∃ f, fs.items.head? = some f ∧ t.GenuineFailure g f := by
  obtain ⟨order, found⟩ := g.topDown_of_acyclic valid acyclic
  have topDown := g.topDown_ok valid found
  have agreed := planAll_agreed t topDown
  rw [plan_of_topDown found, Failures.guard] at h
  split at h
  · cases h
  · next failed =>
    cases h
    constructor
    · intro f failure
      exact Failures.mem_ofList_of_plain (agreed.genuine_reported valid failure) failure.plain
    · have start : t.AsksGenuine g [] := fun p hp => absurd hp List.not_mem_nil
      rcases planAll_first valid (fun i => (topDown.complete i).mp) start with
        clean | ⟨f, more, first, genuine⟩
      · rw [List.flatMap_eq_nil_iff.mpr clean] at failed
        exact absurd rfl failed
      · rw [first]
        exact ⟨f, Failures.head?_ofList f more, genuine⟩

/-- Planning on an acyclic graph succeeds exactly when every split is valid and every edge that the
mutator decides about propagates the genuine variations of its source. If it fails, then it reports the
failure of each invalid split and of each edge that does not propagate a genuine variation, and the
first failure that it reports is one of these. -/
theorem plan_reports (valid : g.TargetsValid) (acyclic : g.Acyclic) :
    ((∃ plans, t.plan g = .ok plans) ↔
      (∀ i x, g.instance? i = some x → ∃ split,
        t.mutator.split ⟨x.content, x.variant⟩ = .ok split ∧ split ≠ [] ∧ split.Nodup) ∧
      ∀ i x, g.instance? i = some x → ∀ v, t.Genuine g i v → ∀ e ∈ x.deps,
        (e.far = false ∨ t.neverFar = true) → ∃ w, t.Leads g x v e w) ∧
    ∀ fs, t.plan g = .error fs → (∀ f, t.GenuineFailure g f → f ∈ fs.items) ∧
      ∃ f, fs.items.head? = some f ∧ t.GenuineFailure g f := by
  refine ⟨?_, fun fs => plan_error_reports valid acyclic⟩
  rw [← no_genuineFailure_iff valid]
  constructor
  · rintro ⟨plans, planned⟩ f failure
    have accepted := plan_accepted valid planned
    obtain ⟨p, hp, there⟩ := List.mem_flatMap.mp (accepted.genuine_reported valid failure)
    rw [accepted.clean p hp] at there
    cases there
  · intro none
    cases planned : t.plan g with
    | ok plans => exact ⟨plans, rfl⟩
    | error fs =>
      obtain ⟨_, f, _, genuine⟩ := plan_error_reports valid acyclic planned
      exact absurd genuine (none f)

end Plan

def faultyGraph : Graph DeclaredModule DepKind := Graph.initial [
  { name := "app", deps := ["mid"], split := ["x", "y", "x"] },
  { name := "mid", deps := ["base"], split := ["a"], outgoingError := some "stuck" },
  { name := "base", deps := ["tool"], split := ["b"] },
  { name := "tool", incomingError := some "closed" }]

/-- That `mid` is also stuck in the default variation comes of the substitute for what `app` would
have asked. The other three failures are genuine. -/
theorem plan_reports_faulty :
    faultyGraph.TargetsValid ∧ faultyGraph.Acyclic ∧ ∃ fs, byProperties.plan faultyGraph = .error fs ∧
      fs.messages = [
        "module \"app\": mutator \"transition\" split returned duplicate variation \"x\"",
        "module \"mid\" variant \"a\": Error: stuck",
        "module \"mid\": Error: stuck",
        "module \"tool\": Error: closed"] ∧
      byProperties.GenuineFailure faultyGraph (.mutatorError "tool" none "" "Error: closed") ∧
      (∀ f, byProperties.GenuineFailure faultyGraph f → f ∈ fs.items) ∧
      (∃ f, fs.items.head? = some f ∧ byProperties.GenuineFailure faultyGraph f) ∧
      ¬ ((∀ i x, faultyGraph.instance? i = some x → ∃ split,
          byProperties.mutator.split ⟨x.content, x.variant⟩ = .ok split ∧ split ≠ [] ∧ split.Nodup) ∧
        ∀ i x, faultyGraph.instance? i = some x → ∀ v, byProperties.Genuine faultyGraph i v →
          ∀ e ∈ x.deps, (e.far = false ∨ byProperties.neverFar = true) →
            ∃ w, byProperties.Leads faultyGraph x v e w) := by
  have valid : faultyGraph.TargetsValid :=
    (Graph.initial_wellFormed (by decide)).targets_valid
  have acyclic : faultyGraph.Acyclic := (faultyGraph.topDown_ok_iff valid).mp ⟨_, rfl⟩
  obtain ⟨fs, failed, messages⟩ : ∃ fs, byProperties.plan faultyGraph = .error fs ∧
      fs.messages = [
        "module \"app\": mutator \"transition\" split returned duplicate variation \"x\"",
        "module \"mid\" variant \"a\": Error: stuck",
        "module \"mid\": Error: stuck",
        "module \"tool\": Error: closed"] := ⟨_, rfl, by decide +kernel⟩
  have genuine : byProperties.Genuine faultyGraph 2 "b" :=
    .own rfl rfl (by decide) (by decide) (.head _)
  have closed : byProperties.GenuineFailure faultyGraph (MutatorError.toFailure ⟨"Error: closed"⟩
      ({ name := "tool", incomingError := some "closed" } : DeclaredModule) .empty) :=
    .incoming rfl genuine (.head _) (Or.inl rfl) rfl rfl rfl
  obtain ⟨succeeds, reports⟩ := plan_reports (t := byProperties) valid acyclic
  obtain ⟨all, first⟩ := reports fs failed
  refine ⟨valid, acyclic, fs, failed, messages, closed, all, first, fun sound => ?_⟩
  obtain ⟨plans, planned⟩ := succeeds.mpr sound
  cases failed.symm.trans planned

end Transition

end BuildVariants
