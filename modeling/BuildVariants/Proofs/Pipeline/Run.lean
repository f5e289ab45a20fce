import BuildVariants.Declared.Pipeline
import BuildVariants.Proofs.BottomUp.Pass
import BuildVariants.Proofs.Graph.Loading
import BuildVariants.Proofs.Transition.Pass

/-!
# Runs of a pipeline

What every pass of a run keeps holds of the graph after any number of passes. In particular
the graph is settled all along: it has the groups of the declared modules, and its variants
have one entry for each transition that has run.
-/

set_option autoImplicit false

namespace BuildVariants

namespace Pipeline

variable {M T : Type}

def transitions (passes : List (Pass M T)) : List (Transition M T) :=
  passes.filterMap fun pass => match pass with
    | .transition t => some t
    | .bottomUp .. => none

theorem dimensions_eq (p : Pipeline M T) :
    p.dimensions = (transitions p.passes).map Transition.name := by
  rw [dimensions, transitions, List.map_filterMap]
  congr
  funext pass
  cases pass <;> rfl

theorem dimensions_take_sublist (p : Pipeline M T) (count : Nat) :
    (p.take count).dimensions.Sublist p.dimensions :=
  (List.take_sublist count p.passes).filterMap _

variable [BuildModule M T]

theorem runPasses_append (settings : Settings) (first last : List (Pass M T))
    (completed : List (Transition M T)) (g : Graph M T) :
    runPasses settings (first ++ last) completed g =
      (runPasses settings first completed g >>= fun next =>
        runPasses settings last (completed ++ transitions first) next) := by
  induction first generalizing completed g with
  | nil => simp [runPasses, transitions, bind, Except.bind]
  | cons pass first ih =>
    cases pass with
    | transition t =>
      rw [List.cons_append, runPasses, runPasses, bind_assoc]
      congr
      funext next
      rw [ih, List.append_assoc]
      rfl
    | bottomUp name b =>
      rw [List.cons_append, runPasses, runPasses, bind_assoc]
      congr
      funext next
      rw [ih]
      rfl

structure Invariant (settings : Settings) (P : List (Transition M T) → Graph M T → Prop) :
    Prop where
  transition : ∀ {completed g t next}, P completed g → t.run g = .ok next →
    P (completed ++ [t]) next
  bottomUp : ∀ {completed g next} {b : BottomUpMutator M T}, P completed g →
    b.run settings.allowMissing completed g = .ok next → P completed next

theorem runPasses_keeps {settings : Settings} {P : List (Transition M T) → Graph M T → Prop}
    (kept : Invariant settings P) {passes : List (Pass M T)}
    {completed : List (Transition M T)} {g next : Graph M T}
    (start : P completed g) (h : runPasses settings passes completed g = .ok next) :
    P (completed ++ transitions passes) next := by
  induction passes generalizing completed g with
  | nil =>
    cases h
    simpa [transitions] using start
  | cons pass passes ih =>
    cases pass with
    | transition t =>
      obtain ⟨between, ran, h⟩ := bind_eq_ok_iff.mp h
      have after := ih (kept.transition start ran) h
      rwa [List.append_assoc] at after
    | bottomUp name b =>
      obtain ⟨between, ran, h⟩ := bind_eq_ok_iff.mp h
      exact ih (kept.bottomUp start ran) h

/-- A run that fails does so in one of its passes, on the graph that the earlier ones left. -/
theorem runPasses_fails {settings : Settings} {passes : List (Pass M T)}
    {completed : List (Transition M T)} {g : Graph M T} {fs : Failures}
    (h : runPasses settings passes completed g = .error fs) :
    ∃ count next, runPasses settings (passes.take count) completed g = .ok next ∧
      ((∃ t, passes[count]? = some (.transition t) ∧ t.run next = .error fs) ∨
        ∃ name b, passes[count]? = some (.bottomUp name b) ∧ b.run settings.allowMissing
          (completed ++ transitions (passes.take count)) next = .error fs) := by
  induction passes generalizing completed g with
  | nil => cases h
  | cons pass passes ih =>
    cases pass with
    | transition t =>
      rcases bind_eq_error_iff.mp h with failed | ⟨between, ran, h⟩
      · exact ⟨0, g, rfl, Or.inl ⟨t, rfl, failed⟩⟩
      · obtain ⟨count, next, before, failed⟩ := ih h
        refine ⟨count + 1, next, bind_eq_ok_iff.mpr ⟨between, ran, before⟩, ?_⟩
        rw [List.append_assoc] at failed
        exact failed
    | bottomUp name b =>
      rcases bind_eq_error_iff.mp h with failed | ⟨between, ran, h⟩
      · refine ⟨0, g, rfl, Or.inr ⟨name, b, rfl, ?_⟩⟩
        simpa [transitions] using failed
      · obtain ⟨count, next, before, failed⟩ := ih h
        exact ⟨count + 1, next, bind_eq_ok_iff.mpr ⟨between, ran, before⟩, failed⟩

theorem resolve_eq_ok_iff {p : Pipeline M T} {modules : List M} {g : Graph M T} :
    p.resolve modules = .ok g ↔ ∃ loaded order, Graph.load p.settings modules = .ok loaded ∧
      loaded.topDown = .ok order ∧ runPasses p.settings p.passes [] loaded = .ok g := by
  simp only [resolve, bind_eq_ok_iff, mapError_eq_ok_iff]
  constructor
  · rintro ⟨loaded, isLoaded, order, acyclic, ran⟩
    exact ⟨loaded, order, isLoaded, acyclic, ran⟩
  · rintro ⟨loaded, order, isLoaded, acyclic, ran⟩
    exact ⟨loaded, isLoaded, order, acyclic, ran⟩

theorem resolve_of_take {p : Pipeline M T} {modules : List M} {count : Nat} {g : Graph M T}
    (h : (p.take count).resolve modules = .ok g) : p.resolve modules =
      runPasses p.settings (p.passes.drop count) (transitions (p.passes.take count)) g := by
  obtain ⟨loaded, order, isLoaded, acyclic, ran⟩ := resolve_eq_ok_iff.mp h
  have whole : runPasses p.settings p.passes [] loaded =
      runPasses p.settings (p.passes.drop count) (transitions (p.passes.take count)) g := by
    conv_lhs => rw [← List.take_append_drop count p.passes]
    rw [runPasses_append]
    simp only [take] at ran
    rw [ran]
    rfl
  simp only [take] at isLoaded
  rw [resolve, isLoaded, ← whole]
  simp only [bind, Except.bind, acyclic]
  rfl

theorem exists_resolve_take {p : Pipeline M T} {modules : List M} {g : Graph M T}
    (h : p.resolve modules = .ok g) (count : Nat) :
    ∃ between, (p.take count).resolve modules = .ok between := by
  obtain ⟨loaded, order, isLoaded, acyclic, ran⟩ := resolve_eq_ok_iff.mp h
  rw [← List.take_append_drop count p.passes, runPasses_append] at ran
  obtain ⟨between, before, _⟩ := bind_eq_ok_iff.mp ran
  exact ⟨between, resolve_eq_ok_iff.mpr ⟨loaded, order, isLoaded, acyclic, before⟩⟩

/-- Where a run fails: while it loads the modules, at a cycle among them, or in a pass over the
graph that the passes before it left. -/
inductive FailsIn (p : Pipeline M T) (modules : List M) (fs : Failures) : Prop
  | loading (failed : Graph.load p.settings modules = .error fs)
  | cyclic {loaded : Graph M T} {f : Failure} (isLoaded : Graph.load p.settings modules = .ok loaded)
      (failed : loaded.topDown = .error f) (only : fs = .single f)
  | transition {count : Nat} {g : Graph M T} {t : Transition M T}
      (ran : (p.take count).resolve modules = .ok g)
      (pass : p.passes[count]? = some (.transition t)) (failed : t.run g = .error fs)
  | bottomUp {count : Nat} {g : Graph M T} {name : String} {b : BottomUpMutator M T}
      (ran : (p.take count).resolve modules = .ok g)
      (pass : p.passes[count]? = some (.bottomUp name b))
      (failed : b.run p.settings.allowMissing (transitions (p.passes.take count)) g = .error fs)

theorem resolve_fails_in {p : Pipeline M T} {modules : List M} {fs : Failures}
    (h : p.resolve modules = .error fs) : p.FailsIn modules fs := by
  rw [resolve] at h
  rcases bind_eq_error_iff.mp h with failed | ⟨loaded, isLoaded, h⟩
  · exact .loading failed
  · rcases bind_eq_error_iff.mp h with unordered | ⟨order, acyclic, h⟩
    · obtain ⟨f, failed, only⟩ := mapError_eq_error_iff.mp unordered
      exact .cyclic isLoaded failed only.symm
    · obtain ⟨count, g, ran, failed⟩ := runPasses_fails h
      have ran : (p.take count).resolve modules = .ok g :=
        resolve_eq_ok_iff.mpr ⟨loaded, order, isLoaded, mapError_eq_ok_iff.mp acyclic, ran⟩
      rcases failed with ⟨t, pass, failed⟩ | ⟨name, b, pass, failed⟩
      · exact .transition ran pass failed
      · exact .bottomUp ran pass failed

theorem wellFormed_invariant (settings : Settings) :
    Invariant settings fun _ (g : Graph M T) => g.WellFormed where
  transition wf ran := Transition.run_wellFormed wf ran
  bottomUp wf ran := BottomUpMutator.run_wellFormed wf ran

theorem resolve_wellFormed {p : Pipeline M T} {modules : List M} {g : Graph M T}
    (h : p.resolve modules = .ok g) : g.WellFormed := by
  obtain ⟨loaded, order, isLoaded, acyclic, ran⟩ := resolve_eq_ok_iff.mp h
  exact runPasses_keeps (wellFormed_invariant p.settings)
    (Graph.load_settled isLoaded).toWellFormed ran

theorem settled_invariant (settings : Settings) (names : List String) :
    Invariant settings fun completed (g : Graph M T) =>
      (completed.map Transition.name).Nodup →
        g.Settled names (completed.map Transition.name) where
  transition {completed g t next} settled ran distinct := by
    rw [List.map_append, List.map_singleton, ← List.concat_eq_append,
      List.nodup_concat] at distinct
    rw [List.map_append, List.map_singleton]
    exact Transition.run_settled (settled distinct.2) distinct.2 distinct.1 ran
  bottomUp settled ran distinct := BottomUpMutator.run_settled (settled distinct) ran

theorem resolve_settled {p : Pipeline M T} (distinct : p.dimensions.Nodup) {modules : List M}
    {g : Graph M T} (h : p.resolve modules = .ok g) :
    g.Settled (modules.map BuildModule.name) p.dimensions := by
  obtain ⟨loaded, order, isLoaded, acyclic, ran⟩ := resolve_eq_ok_iff.mp h
  have start := Graph.load_settled isLoaded
  rw [dimensions_eq] at distinct ⊢
  exact runPasses_keeps (settled_invariant p.settings _) (fun _ => start) ran distinct

/-- After each pass of a run with distinct transitions the graph is settled under those that
have run so far, its groups are found by their names, and the rest of the run goes on
from it. -/
theorem resolve_take_settled {p : Pipeline M T} (distinct : p.dimensions.Nodup)
    {modules : List M} {count : Nat} {g : Graph M T}
    (h : (p.take count).resolve modules = .ok g) :
    g.Settled (modules.map BuildModule.name) (p.take count).dimensions ∧
      (∀ name k, g.groupIndex? name = some k ↔ (g.groups[k]?).map Group.name = some name) ∧
      (∀ name, g.group? name = (g.groupIndex? name).bind fun k => g.groups[k]?) ∧
      p.resolve modules =
        runPasses p.settings (p.passes.drop count) (transitions (p.passes.take count)) g := by
  have settled := resolve_settled (distinct.sublist (p.dimensions_take_sublist count)) h
  refine ⟨settled, ?_, fun _ => rfl, resolve_of_take h⟩
  intro name k
  exact Graph.groupIndex?_eq_some_iff settled.names_nodup

def byOs : Transition DeclaredModule DepKind := ⟨"os", false, DeclaredModule.propertyTransition⟩

def byArch : Transition DeclaredModule DepKind :=
  ⟨"arch", true, DeclaredModule.propertyTransition⟩

def layered : Pipeline DeclaredModule DepKind where
  settings := ⟨false⟩
  passes := [
    .transition byOs,
    .bottomUp "late" (DeclaredModule.lateDependencies byOs.name),
    .transition byArch]

def library : List DeclaredModule := [
  { name := "app", deps := ["base"], split := ["x", ""], farDeps := ["base"] },
  { name := "base", split := ["z"], postTransitionDeps := [⟨"tool", some "t"⟩] },
  { name := "tool", split := ["t", "t2"] }]

/-- Before the last pass the variants have an entry for the first transition alone. -/
theorem resolve_take_settled_layered :
    layered.dimensions.Nodup ∧ ∃ g, (layered.take 2).resolve library = .ok g ∧
      ((List.range g.size).map fun n => (g.label n, g.depLabels n)) = [
        ("app(x)", ["base(x)", "base()"]), ("app()", ["base()", "base()"]),
        ("base(z)", ["tool(t)"]), ("base()", ["tool(t)"]), ("base(x)", ["tool(t)"]),
        ("tool(t)", []), ("tool(t2)", [])] ∧
      g.Settled (library.map BuildModule.name) (layered.take 2).dimensions ∧
      (∀ name k, g.groupIndex? name = some k ↔ (g.groups[k]?).map Group.name = some name) ∧
      (∀ name, g.group? name = (g.groupIndex? name).bind fun k => g.groups[k]?) ∧
      layered.resolve library =
        runPasses layered.settings (layered.passes.drop 2) (transitions (layered.passes.take 2))
          g := by
  have distinct : layered.dimensions.Nodup := by decide
  obtain ⟨g, h, labels⟩ : ∃ g, (layered.take 2).resolve library = .ok g ∧
      ((List.range g.size).map fun n => (g.label n, g.depLabels n)) = [
        ("app(x)", ["base(x)", "base()"]), ("app()", ["base()", "base()"]),
        ("base(z)", ["tool(t)"]), ("base()", ["tool(t)"]), ("base(x)", ["tool(t)"]),
        ("tool(t)", []), ("tool(t2)", [])] := ⟨_, rfl, by decide +kernel⟩
  exact ⟨distinct, g, h, labels, resolve_take_settled distinct h⟩

end Pipeline

end BuildVariants
