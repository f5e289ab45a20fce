import BuildVariants.Proofs.Graph.Acyclic
import BuildVariants.Proofs.Pipeline.External
import BuildVariants.Proofs.Transition.Unfolding

/-!
# Acyclic runs

No pass ever meets or leaves a cycle. The edges of a rewired graph lie over those of the old
one, so a cycle of new instances would lie over a cycle of old ones; and the edges that a
bottom-up pass adds are refused when they close one. A run reports a cycle only among the
declared modules or in such a refusal.
-/

set_option autoImplicit false

namespace BuildVariants

variable {M T : Type} [BuildModule M T]

theorem Transition.run_acyclic {t : Transition M T} {g next : Graph M T} (wf : g.WellFormed)
    (acyclic : g.Acyclic) (h : t.run g = .ok next) : next.Acyclic := by
  obtain ⟨plans, rewired, planned, carried, mutated⟩ := run_eq_ok_iff.mp h
  have accepted := plan_accepted wf.targets_valid planned
  apply acyclic.of_projection fun n => (keyAt g plans n).1
  intro n m hm
  rw [Graph.targets, (mutateAll_contentsApart mutated).deps] at hm
  have hn : n < rewired.size := rewired.lt_of_mem_targets hm
  obtain ⟨i, v, x, there, hx, _⟩ := rewire_key wf accepted carried hn
  obtain ⟨deps, new, edges⟩ := rewire_instance wf accepted carried there hx
  rw [rewired.deps_of_instance new] at hm
  obtain ⟨e', he', rfl⟩ := List.mem_map.mp hm
  obtain ⟨e, he, repointed⟩ := related_of_mem edges he'
  obtain ⟨w, place, _⟩ := repointed.target
  rw [keyAt_eq there, keyAt_eq place, g.targets_of_instance hx]
  exact List.mem_map_of_mem he

theorem BottomUpMutator.run_acyclic {b : BottomUpMutator M T} {allowMissing : Bool}
    {completed : List (Transition M T)} {g next : Graph M T} (wf : g.WellFormed)
    (h : b.run allowMissing completed g = .ok next) : next.Acyclic := by
  obtain ⟨_, walk, _, _, _, found⟩ := run_eq_ok_iff.mp h
  exact (next.topDown_ok (run_wellFormed wf h).targets_valid found).acyclic

theorem Failure.Local.not_cycle {relaxed : Bool} {f : Failure} (h : f.Local relaxed)
    (labels : List String) : f ≠ .cycle labels := by
  rintro rfl
  exact Bool.noConfusion h.not_isCycle

namespace Pipeline

theorem acyclic_invariant (settings : Settings) :
    Invariant settings fun _ (g : Graph M T) => g.WellFormed ∧ g.Acyclic where
  transition kept ran :=
    ⟨Transition.run_wellFormed kept.1 ran, Transition.run_acyclic kept.1 kept.2 ran⟩
  bottomUp kept ran :=
    ⟨BottomUpMutator.run_wellFormed kept.1 ran, BottomUpMutator.run_acyclic kept.1 ran⟩

theorem acyclic_of_resolve {p : Pipeline M T} {modules : List M} {g : Graph M T}
    (h : p.resolve modules = .ok g) : g.Acyclic := by
  obtain ⟨loaded, order, isLoaded, found, ran⟩ := resolve_eq_ok_iff.mp h
  have wf := (Graph.load_settled isLoaded).toWellFormed
  have start : loaded.Acyclic := (loaded.topDown_ok wf.targets_valid found).acyclic
  exact (runPasses_keeps (acyclic_invariant p.settings) ⟨wf, start⟩ ran).2

/-- Where a cycle comes from: the declared modules depend on themselves, or the edges that a
bottom-up pass was asked for make an acyclic graph cyclic. -/
inductive CycleFrom (p : Pipeline M T) (modules : List M) (labels : List String) : Prop
  | declared {loaded : Graph M T} (isLoaded : Graph.load p.settings modules = .ok loaded)
      (cyclic : ¬ loaded.Acyclic) (reported : loaded.topDown = .error (.cycle labels))
  | added {count : Nat} {g : Graph M T} {name : String} {b : BottomUpMutator M T}
      {edges : List (Nat × Edge T)} {order : List Nat}
      (ran : (p.take count).resolve modules = .ok g)
      (pass : p.passes[count]? = some (.bottomUp name b)) (acyclic : g.Acyclic)
      (visited : g.bottomUp = .ok order)
      (clean : b.failuresAlong p.settings.allowMissing (transitions (p.passes.take count)) g
        order = [])
      (asked : edges = b.edgesAlong p.settings.allowMissing
        (transitions (p.passes.take count)) g order)
      (closed : ¬ (g.addEdges edges).Acyclic)
      (reported : (g.addEdges edges).topDown = .error (.cycle labels))

theorem transition_local {t : Transition M T} {g : Graph M T} (wf : g.WellFormed)
    (acyclic : g.Acyclic) {fs : Failures} (h : t.run g = .error fs) :
    fs.All (Failure.Local false) := by
  rcases t.run_fails g wf h with ⟨f, unordered, _⟩ | all
  · exact absurd acyclic (g.not_acyclic_of_error wf.targets_valid unordered)
  · exact fun f hf => (all f hf).toLocal _

theorem cycleFrom_of_error {p : Pipeline M T} {modules : List M} {fs : Failures}
    (h : p.resolve modules = .error fs) {labels : List String} (there : .cycle labels ∈ fs.items) :
    fs = .single (.cycle labels) ∧ p.CycleFrom modules labels := by
  have only : ∀ {f : Failure}, fs = .single f → f = .cycle labels := by
    rintro f rfl
    exact (List.mem_singleton.mp there).symm
  have blamed : ∀ {relaxed : Bool}, ¬ fs.All (Failure.Local relaxed) :=
    fun all => (all _ there).not_cycle labels rfl
  cases resolve_fails_in h with
  | loading failed => exact absurd (Graph.load_local p.settings modules fs failed) blamed
  | cyclic isLoaded failed single =>
    obtain rfl := only single
    have valid := (Graph.load_settled isLoaded).targets_valid
    exact ⟨single, .declared isLoaded (Graph.not_acyclic_of_error _ valid failed) failed⟩
  | transition ran _ failed =>
    exact absurd (transition_local (resolve_wellFormed ran) (acyclic_of_resolve ran) failed) blamed
  | bottomUp ran pass failed =>
    have wf := resolve_wellFormed ran
    have acyclic := acyclic_of_resolve ran
    rcases BottomUpMutator.run_fails failed with
      ⟨f, unordered, _⟩ | all | ⟨order, f, visited, clean, closed, single⟩
    · exact absurd acyclic (Graph.not_acyclic_of_error _ wf.targets_valid unordered)
    · exact absurd all blamed
    · obtain rfl := only single
      refine ⟨single, .added ran pass acyclic visited clean rfl ?_ closed⟩
      apply Graph.not_acyclic_of_error _ ?_ closed
      exact (wf.addEdges fun p hp =>
        (BottomUpMutator.edgesAlong_lt wf order p hp).2).targets_valid

/-- Every graph that a pass of a run is given, and every graph that a run returns, is acyclic:
a transition makes none cyclic. So each pass finds its order, no transition reports a cycle, and
the cycle that a run reports is one of the declared modules or one that the edges added by a
bottom-up pass close. -/
theorem resolve_acyclic (p : Pipeline M T) (modules : List M) :
    (∀ count g, (p.take count).resolve modules = .ok g → g.Acyclic ∧
      (∃ order, g.topDown = .ok order ∧ g.bottomUp = .ok order.reverse) ∧
      (∀ t fs labels, p.passes[count]? = some (.transition t) → t.run g = .error fs →
        .cycle labels ∉ fs.items) ∧
      p.resolve modules =
        runPasses p.settings (p.passes.drop count) (transitions (p.passes.take count)) g) ∧
    (∀ g, p.resolve modules = .ok g → g.Acyclic) ∧
    (∀ (t : Transition M T) g next, g.WellFormed → g.Acyclic → t.run g = .ok next →
      next.Acyclic) ∧
    ∀ fs labels, p.resolve modules = .error fs → .cycle labels ∈ fs.items →
      fs = .single (.cycle labels) ∧ p.CycleFrom modules labels := by
  refine ⟨?_, fun g => acyclic_of_resolve, fun t g next => Transition.run_acyclic,
    fun fs labels failed there => cycleFrom_of_error failed there⟩
  intro count g ran
  have wf := resolve_wellFormed ran
  have acyclic := acyclic_of_resolve ran
  obtain ⟨order, ordered⟩ := g.topDown_of_acyclic wf.targets_valid acyclic
  refine ⟨acyclic, ⟨order, ordered, ?_⟩, ?_, resolve_of_take ran⟩
  · rw [g.bottomUp_ok_iff, List.reverse_reverse, ordered]
  · intro t fs labels _ failed there
    exact (transition_local wf acyclic failed _ there).not_cycle labels rfl

def circularLibrary : List DeclaredModule := [
  { name := "app", deps := ["base"], split := ["x", "y"] },
  { name := "base", split := ["x"], postTransitionDeps := [⟨"app", none⟩] }]

/-- The bottom-up pass is given an acyclic graph, on which the next transition could run, and
closes a cycle in each of two places. -/
theorem resolve_acyclic_circular :
    ∃ g next fs, (layered.take 1).resolve circularLibrary = .ok g ∧
      ((List.range g.size).map fun n => (g.label n, g.depLabels n)) = [
        ("app(x)", ["base(x)"]), ("app(y)", ["base(y)"]), ("base(x)", []), ("base(y)", [])] ∧
      g.Acyclic ∧ (∃ order, g.topDown = .ok order ∧ g.bottomUp = .ok order.reverse) ∧
      byArch.run g = .ok next ∧ next.Acyclic ∧
      layered.resolve circularLibrary = .error fs ∧
      .cycle ["app(y)", "base(y)"] ∈ fs.items ∧
      fs = .single (.cycle ["app(y)", "base(y)"]) ∧
      layered.CycleFrom circularLibrary ["app(y)", "base(y)"] := by
  obtain ⟨g, ran, labels⟩ : ∃ g, (layered.take 1).resolve circularLibrary = .ok g ∧
      ((List.range g.size).map fun n => (g.label n, g.depLabels n)) = [
        ("app(x)", ["base(x)"]), ("app(y)", ["base(y)"]), ("base(x)", []), ("base(y)", [])] :=
    ⟨_, rfl, by decide +kernel⟩
  obtain ⟨next, further⟩ : ∃ next, byArch.run g = .ok next := by
    cases ran
    exact ⟨_, rfl⟩
  obtain ⟨fs, failed, there⟩ : ∃ fs, layered.resolve circularLibrary = .error fs ∧
      .cycle ["app(y)", "base(y)"] ∈ fs.items := ⟨_, rfl, List.mem_singleton.mpr rfl⟩
  obtain ⟨given, _, kept, reported⟩ := resolve_acyclic layered circularLibrary
  obtain ⟨acyclic, ordered, _, _⟩ := given 1 g ran
  obtain ⟨only, origin⟩ := reported fs _ failed there
  exact ⟨g, next, fs, ran, labels, acyclic, ordered, further,
    kept byArch g next (resolve_wellFormed ran) acyclic further, failed, there, only, origin⟩

end Pipeline

end BuildVariants
