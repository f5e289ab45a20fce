import BuildVariants.Proofs.BottomUp.Renumbering
import BuildVariants.Proofs.Pipeline.Acyclic
import BuildVariants.Proofs.Transition.Contents

/-!
# Relaxed runs

Relaxed mode drops what refers to undeclared modules in two places, while the modules are loaded and
when the late dependencies are added. Together they come to deleting those references from the
declarations beforehand: everything else is treated as in strict mode, and fails as it does there.
-/

set_option autoImplicit false

namespace BuildVariants

variable {M T : Type}

namespace DeclaredModule

/-- The module without its references to modules of other names. -/
def erase (names : List String) (m : DeclaredModule) : DeclaredModule :=
  { m with
    deps := m.deps.filter fun dep => dep ∈ names
    postTransitionDeps := m.postTransitionDeps.filter fun r => r.name ∈ names
    farDeps := m.farDeps.filter fun dep => dep ∈ names
    reverseDeps := m.reverseDeps.filter fun dep => dep ∈ names
    reverseVariationDeps := m.reverseVariationDeps.filter fun r => r.name ∈ names }

theorem erase_keepsLabel (names : List String) : KeepsLabel (erase names) :=
  ⟨fun _ => rfl, fun _ => rfl⟩

theorem erase_blind (names : List String) (mutator : String) (neverFar : Bool) :
    (⟨mutator, neverFar, propertyTransition⟩ : Transition DeclaredModule DepKind).Blind
      (erase names) where
  split _ _ := rfl
  outgoing _ _ _ _ _ := rfl
  incoming _ _ _ _ := rfl
  mutate _ _ := rfl

theorem additions_erase (names : List String) (mutator : String) (m : DeclaredModule) :
    (m.erase names).additions mutator =
      (m.additions mutator).filter fun a => a.name?.all fun name => name ∈ names := by
  simp only [additions, erase, List.filter_append, List.filter_map]
  rfl

end DeclaredModule

namespace BottomUpMutator

theorem renumberAdded_id : (renumberAdded id : Nat × Edge T → Nat × Edge T) = id := rfl

theorem moves_mapContents {s : Site M T} (wf : s.graph.WellFormed) (f : M → M)
    (allowMissing : Bool) : Site.Moves id f s
      ⟨s.graph.mapContents f, s.completed, allowMissing, s.id, s.self.mapContent f⟩ where
  wf := wf
  group? name := by
    rw [Group.renumber_id, Option.map_id]
    rfl
  instances i x hx := ⟨x.deps, by rw [Graph.instance?_mapContents, id, hx]; rfl⟩
  completed := rfl
  id := rfl
  self := ⟨_, rfl⟩

theorem moves_relaxed {s : Site M T} (wf : s.graph.WellFormed) :
    Site.Moves id id s { s with allowMissing := true } where
  wf := wf
  group? name := by
    rw [Group.renumber_id, Option.map_id]
    rfl
  instances i x hx := ⟨x.deps, hx⟩
  completed := rfl
  id := rfl
  self := ⟨_, rfl⟩

variable [BuildModule M T]

theorem resolve_of_undefined {s : Site M T} {a : Addition T} {name : String}
    (named : a.name? = some name) (undefined : s.graph.group? name = none) :
    (s.allowMissing = true → s.resolve a = .ok none) ∧
      ∀ f, s.resolve a = .error f → f.isMissingModule = true := by
  cases a with
  | forward choices tag name' far =>
    obtain rfl : name' = name := Option.some.inj named
    rw [Site.resolve, Site.forwardEdge, undefined]
    cases s.allowMissing <;> simp +contextual [eq_comm, Failure.isMissingModule]
  | reverse choices tag name' =>
    obtain rfl : name' = name := Option.some.inj named
    rw [Site.resolve, Site.reverseEdge, undefined]
    cases s.allowMissing <;> simp +contextual [eq_comm, Failure.isMissingModule]
  | failure message => cases named

theorem resolve_error_relaxed {s : Site M T} (wf : s.graph.WellFormed) {a : Addition T} {f : Failure}
    (h : s.resolve a = .error f) (other : f.isMissingModule = false) :
    Site.resolve { s with allowMissing := true } a = .error f := by
  have defined : ∀ name ∈ a.name?, (s.graph.group? name).isSome = true := by
    intro name named
    by_contra undefined
    rw [Option.not_isSome_iff_eq_none] at undefined
    have missing := (resolve_of_undefined named undefined).2 f h
    rw [other] at missing
    cases missing
  rw [(moves_relaxed wf).resolve keepsLabel_id (fun t _ => t.blind_id) (Or.inr defined), h]
  rfl

theorem run_reports {b : BottomUpMutator M T} {allowMissing : Bool}
    {completed : List (Transition M T)} {g : Graph M T} (wf : g.WellFormed) (acyclic : g.Acyclic)
    {i : Nat} {s : Site M T} (site : site? allowMissing completed g i = some s) {a : Addition T}
    (ha : a ∈ (b.visit s.graph s.self).1) {f : Failure} (h : s.resolve a = .error f) :
    ∃ fs, b.run allowMissing completed g = .error fs ∧
      ∃ kept ∈ fs.items, kept = f ∨ (kept == f) = true := by
  obtain ⟨order, ordered⟩ := g.topDown_of_acyclic wf.targets_valid acyclic
  have found : g.bottomUp = .ok order.reverse :=
    g.bottomUp_ok_iff.mpr (by rw [List.reverse_reverse, ordered])
  obtain ⟨x, hx, _⟩ := site?_eq_some_iff.mp site
  have turn : i ∈ order.reverse :=
    (g.bottomUp_perm wf.targets_valid found).mem_iff.mpr (List.mem_range.mpr (g.instance_lt hx))
  have there : f ∈ b.failuresAlong allowMissing completed g order.reverse := by
    rw [failuresAlong_eq, List.mem_flatMap]
    refine ⟨i, turn, ?_⟩
    rw [visited, site, Option.map_some, Option.getD_some]
    exact mem_failures_visitAt ha h
  obtain ⟨fs, failed, reported⟩ := Failures.guard_ofList_of_mem
    (b.edgesAlong allowMissing completed g order.reverse) there
  refine ⟨fs, ?_, reported⟩
  rw [run_eq, found]
  exact bind_eq_error_iff.mpr (Or.inr ⟨_, rfl, bind_eq_error_iff.mpr (Or.inl failed)⟩)

end BottomUpMutator

namespace DeclaredModule

variable {g : Graph DeclaredModule DepKind} {names : List String}
  {completed : List (Transition DeclaredModule DepKind)}

/-- What a visit leaves behind in relaxed mode it leaves behind in strict mode, once the
references to undeclared modules are erased. -/
theorem visited_erase (wf : g.WellFormed) (declared : g.groups.map Group.name = names)
    (blind : ∀ t ∈ completed, t.Blind (erase names)) (mutator : String) (i : Nat) :
    (lateDependencies mutator).visited false completed (g.mapContents (erase names)) i =
      (lateDependencies mutator).visited true completed g i := by
  rw [BottomUpMutator.visited, BottomUpMutator.visited, BottomUpMutator.site?,
    BottomUpMutator.site?, Graph.instance?_mapContents]
  cases hx : g.instance? i with
  | none => rfl
  | some x =>
    have grouped : ∀ name, (g.group? name).isSome = true ↔ name ∈ names := by
      intro name
      rw [Graph.group?_isSome_iff, declared]
    have moves := BottomUpMutator.moves_mapContents (s := ⟨g, completed, true, i, x⟩) wf
      (erase names) false
    have left : (lateDependencies mutator).visitAt _ = _ :=
      BottomUpMutator.visitAt_of_kept (erase_keepsLabel names) moves
        (fun a => a.name?.all fun name => name ∈ names)
        (by simp only [lateDependencies, Instance.mapContent, additions_erase]) ?_ ?_
    · rw [BottomUpMutator.renumberAdded_id, List.map_id] at left
      exact left
    · intro a _ kept
      refine moves.resolve (erase_keepsLabel names) blind (Or.inr fun name named => ?_)
      rw [Option.mem_def.mp named] at kept
      exact (grouped name).mpr (by simpa using kept)
    · intro a _ dropped
      cases named : a.name? with
      | none => simp [named] at dropped
      | some name =>
        have absent : name ∉ names := by simpa [named] using dropped
        have undefined : g.group? name = none := by
          rw [← Option.not_isSome_iff_eq_none, grouped]
          exact absent
        exact (BottomUpMutator.resolve_of_undefined (s := ⟨g, completed, true, i, x⟩) named
          undefined).1 rfl

theorem run_erase (wf : g.WellFormed) (declared : g.groups.map Group.name = names)
    (blind : ∀ t ∈ completed, t.Blind (erase names)) (mutator : String) :
    (lateDependencies mutator).run false completed (g.mapContents (erase names)) =
      ((lateDependencies mutator).run true completed g).map (Graph.mapContents (erase names)) := by
  have visited := visited_erase wf declared blind mutator
  have failures : ∀ order,
      (lateDependencies mutator).failuresAlong false completed (g.mapContents (erase names)) order =
        (lateDependencies mutator).failuresAlong true completed g order := by
    intro order
    simp only [BottomUpMutator.failuresAlong_eq, visited]
  have edges : ∀ order,
      (lateDependencies mutator).edgesAlong false completed (g.mapContents (erase names)) order =
        (lateDependencies mutator).edgesAlong true completed g order := by
    intro order
    simp only [BottomUpMutator.edgesAlong_eq, visited]
  rw [BottomUpMutator.run_eq, BottomUpMutator.run_eq, Graph.bottomUp_mapContents]
  refine bind_map fun order _ => ?_
  rw [failures, edges]
  refine bind_map fun added _ => ?_
  rw [Graph.addEdges_mapContents, Graph.topDown_mapContents]
  exact bind_map fun _ _ => rfl

/-- A relaxed run is a strict run over what is left of the modules when their references to
undeclared modules are erased. -/
theorem resolve_erase (options : Options) (modules : List DeclaredModule) :
    (pipeline options ⟨false⟩).resolve (modules.map (erase (modules.map BuildModule.name))) =
      ((pipeline options ⟨true⟩).resolve modules).map
        (Graph.mapContents (erase (modules.map BuildModule.name))) := by
  have keeps := erase_keepsLabel (modules.map BuildModule.name)
  have blind := erase_blind (modules.map BuildModule.name) options.mutator options.neverFar
  simp only [Pipeline.resolve, pipeline, Pipeline.runPasses]
  rw [Graph.load_map keeps fun _ => rfl, map_bind]
  refine bind_map fun loaded isLoaded => ?_
  rw [Graph.topDown_mapContents]
  refine bind_map fun order _ => ?_
  have start := Graph.load_settled isLoaded
  rw [Transition.run_mapContents keeps blind, map_bind]
  refine bind_map fun next ran => ?_
  have settled := Transition.run_settled start List.nodup_nil List.not_mem_nil ran
  rw [run_erase settled.toWellFormed settled.group_names (by simpa using blind), map_bind]
  exact bind_map fun _ _ => rfl

/-- Relaxed mode is strict mode on the erased declarations. Either ends in the same graph, whose
modules differ in the erased references alone, or in the same failures in the same order. No missing
module is among them. But what else fails in strict mode, such as a missing variant of a module that
is there, fails in relaxed mode too. -/
theorem resolve_relaxed (options : Options) (modules : List DeclaredModule) :
    (pipeline options ⟨false⟩).resolve (modules.map (erase (modules.map BuildModule.name))) =
        ((pipeline options ⟨true⟩).resolve modules).map
          (Graph.mapContents (erase (modules.map BuildModule.name))) ∧
      (∀ fs, (pipeline options ⟨true⟩).resolve modules = .error fs →
        ∀ f ∈ fs.items, f.isMissingModule = false) ∧
      ∀ g i s, ((pipeline options ⟨true⟩).take 1).resolve modules = .ok g →
        BottomUpMutator.site? false
          (Pipeline.transitions ((pipeline options ⟨true⟩).passes.take 1)) g i = some s →
        ∀ a ∈ s.self.content.additions options.mutator, ∀ f, s.resolve a = .error f →
          f.isMissingModule = false →
          ∃ fs, (pipeline options ⟨true⟩).resolve modules = .error fs ∧
            ∃ kept ∈ fs.items, kept = f ∨ (kept == f) = true := by
  refine ⟨resolve_erase options modules, ?_, ?_⟩
  · exact Pipeline.resolve_not_missing rfl modules
  · intro g i s ran site a ha f failed other
    have wf := Pipeline.resolve_wellFormed ran
    obtain ⟨x, hx, rfl⟩ := BottomUpMutator.site?_eq_some_iff.mp site
    have relaxed : BottomUpMutator.site? true
        (Pipeline.transitions ((pipeline options ⟨true⟩).passes.take 1)) g i = some _ :=
      BottomUpMutator.site?_eq_some_iff.mpr ⟨x, hx, rfl⟩
    obtain ⟨fs, reported, kept⟩ := BottomUpMutator.run_reports
      (b := lateDependencies options.mutator) wf (Pipeline.acyclic_of_resolve ran) relaxed ha
      (BottomUpMutator.resolve_error_relaxed wf failed other)
    refine ⟨fs, ?_, kept⟩
    rw [Pipeline.resolve_of_take ran]
    exact bind_eq_error_iff.mpr (Or.inl reported)

def patchy : List DeclaredModule := [
  { name := "app", deps := ["base", "ghost"], split := ["x"], farDeps := ["ghost"] },
  { name := "base", postTransitionDeps := [⟨"ghost", none⟩, ⟨"tool", some "q"⟩],
    reverseDeps := ["ghost"], reverseVariationDeps := [⟨"ghost", "x"⟩] },
  { name := "tool" }]

/-- The first module alone resolves, without the others. With them the missing variant is reported,
which strict mode does not even come to before the undeclared names are erased. -/
theorem resolve_relaxed_patchy :
    (∃ g, (pipeline {} ⟨true⟩).resolve (patchy.take 1) = .ok g ∧
      (pipeline {} ⟨false⟩).resolve ((patchy.take 1).map (erase ["app"])) =
        .ok (g.mapContents (erase ["app"]))) ∧
    (∃ fs, (pipeline {} ⟨false⟩).resolve patchy = .error fs ∧
      fs.messages = ["\"app\" depends on undefined module \"ghost\""]) ∧
    ∃ g s f fs, ((pipeline {} ⟨true⟩).take 1).resolve patchy = .ok g ∧
      BottomUpMutator.site? false (Pipeline.transitions ((pipeline {} ⟨true⟩).passes.take 1)) g 1 =
        some s ∧
      s.resolve (.forward [⟨"transition", "q"⟩] .postTransition "tool" false) = .error f ∧
      f.isMissingModule = false ∧ (pipeline {} ⟨true⟩).resolve patchy = .error fs ∧
      fs.messages = ["dependency \"tool\" of \"base\" missing variant:\n  transition:q\n" ++
        "available variants:\n  <empty variant>"] ∧
      (∃ kept ∈ fs.items, kept = f ∨ (kept == f) = true) ∧
      (∀ f ∈ fs.items, f.isMissingModule = false) ∧
      (pipeline {} ⟨false⟩).resolve (patchy.map (erase ["app", "base", "tool"])) = .error fs := by
  refine ⟨?_, ⟨_, rfl, by decide +kernel⟩, ?_⟩
  · obtain ⟨same, _, _⟩ := resolve_relaxed {} (patchy.take 1)
    exact ⟨_, rfl, same⟩
  · obtain ⟨same, clean, reports⟩ := resolve_relaxed {} patchy
    obtain ⟨g, s, f, ran, site, asked, failed, other⟩ :
        ∃ g s f, ((pipeline {} ⟨true⟩).take 1).resolve patchy = .ok g ∧
          BottomUpMutator.site? false
            (Pipeline.transitions ((pipeline {} ⟨true⟩).passes.take 1)) g 1 = some s ∧
          (s.self.content.additions "transition")[1]? =
            some (.forward [⟨"transition", "q"⟩] .postTransition "tool" false) ∧
          s.resolve (.forward [⟨"transition", "q"⟩] .postTransition "tool" false) = .error f ∧
          f.isMissingModule = false := ⟨_, _, _, rfl, rfl, rfl, rfl, rfl⟩
    obtain ⟨fs, whole, messages⟩ : ∃ fs, (pipeline {} ⟨true⟩).resolve patchy = .error fs ∧
        fs.messages = ["dependency \"tool\" of \"base\" missing variant:\n  transition:q\n" ++
          "available variants:\n  <empty variant>"] := ⟨_, rfl, by decide +kernel⟩
    obtain ⟨_, again, kept⟩ :=
      reports g 1 s ran site _ (List.mem_of_getElem? asked) f failed other
    obtain rfl := Except.error.inj (again.symm.trans whole)
    rw [whole] at same
    exact ⟨g, s, f, _, ran, site, failed, other, whole, messages, kept, clean _ whole, same⟩

end DeclaredModule

end BuildVariants
