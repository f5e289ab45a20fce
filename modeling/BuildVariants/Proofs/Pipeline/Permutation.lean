import BuildVariants.Proofs.BottomUp.Renumbering
import BuildVariants.Proofs.Pipeline.Extension

/-!
# The order of declarations

The order in which modules are declared decides how their instances are numbered and in which
order they are visited, and no more than that. Two lists with the same modules lie within each
other, and so do the graphs that transitions make of them; a bottom-up pass that follows adds the
same edges to them, in the order of its visits.
-/

set_option autoImplicit false

namespace BuildVariants

def DeclaredModule.SameEdges (deps deps' : List (Edge DepKind)) : Prop :=
  deps.filter (fun e => e.tag = .static) = deps'.filter (fun e => e.tag = .static) ∧
    deps.Perm deps'

theorem DeclaredModule.sameEdges_of_late {deps deps' : List (Edge DepKind)}
    (h : ApartFromLate (· ≠ .static) deps deps') : SameEdges deps deps' := by
  obtain ⟨old, added, added', rfl, rfl, perm, late⟩ := h
  have none : ∀ edges : List (Edge DepKind), (∀ e ∈ edges, e.tag ≠ .static) →
      edges.filter (fun e => e.tag = .static) = [] := by
    intro edges all
    rw [List.filter_eq_nil_iff]
    intro e he
    simpa using all e he
  have late' : ∀ e ∈ added', e.tag ≠ .static := fun e he => late e (perm.symm.subset he)
  refine ⟨?_, (List.Perm.refl old).append perm⟩
  rw [List.filter_append, List.filter_append, none added late, none added' late']

theorem DeclaredModule.additions_late (mutator : String) (m : DeclaredModule) :
    ∀ a ∈ m.additions mutator, ∀ tag ∈ a.tag?, tag ≠ .static := by
  intro a ha tag htag
  simp only [additions, List.mem_append, List.mem_map] at ha
  rcases ha with ((⟨_, _, rfl⟩ | ⟨_, _, rfl⟩) | ⟨_, _, rfl⟩) | ⟨_, _, rfl⟩ <;>
  · cases htag
    decide

namespace Pipeline

variable {M T : Type} [BuildModule M T]

/-- A pipeline comes to the same for two lists of modules. It resolves both or neither, and in the
latter case the two graphs differ in their numbers, and in the edges of counterparts by `agree`
alone. As long as the transitions have distinct names, the counterpart of an instance is the one of
its module and its variant. -/
structure Alike (p : Pipeline M T) (agree : List (Edge T) → List (Edge T) → Prop)
    (modules modules' : List M) : Prop where
  resolves : (∃ g, p.resolve modules = .ok g) ↔ ∃ g', p.resolve modules' = .ok g'
  counterparts : ∀ g g', p.resolve modules = .ok g → p.resolve modules' = .ok g' →
    ∃ σ, Graph.Renumbers agree σ g g' ∧ (∀ name, g'.variants name = g.variants name) ∧
      (∀ name mutator, g'.variations name mutator = g.variations name mutator) ∧
      (p.dimensions.Nodup → ∀ i j x y, g.instance? i = some x → g'.instance? j = some y →
        x.group = y.group → (x.variant == y.variant) = true → σ i = j)

theorem alike_of_renumbers {p : Pipeline M T} {agree : List (Edge T) → List (Edge T) → Prop}
    {modules modules' : List M}
    (forth : ∀ g, p.resolve modules = .ok g →
      ∃ g' σ, p.resolve modules' = .ok g' ∧ Graph.Renumbers agree σ g g')
    (back : ∀ g', p.resolve modules' = .ok g' → ∃ g, p.resolve modules = .ok g) :
    p.Alike agree modules modules' where
  resolves := by
    constructor
    · rintro ⟨g, h⟩
      obtain ⟨g', _, h', _⟩ := forth g h
      exact ⟨g', h'⟩
    · rintro ⟨g', h'⟩
      exact back g' h'
  counterparts g g' h h' := by
    obtain ⟨_, σ, again, ren⟩ := forth g h
    obtain rfl := Except.ok.inj (again.symm.trans h')
    have variants := ren.variants (resolve_wellFormed h)
    refine ⟨σ, ren, variants, ?_, ?_⟩
    · intro name mutator
      rw [Graph.variations_eq, Graph.variations_eq, variants]
    · intro distinct i j x y hx hy group variant
      exact ren.identified (resolve_settled distinct h') hx hy group variant

variable {p : Pipeline M T} {modules modules' : List M}

theorem resolve_renumbers (structural : p.Structural) (perm : modules.Perm modules')
    {g : Graph M T} (h : p.resolve modules = .ok g) :
    ∃ g' σ, p.resolve modules' = .ok g' ∧ Graph.Renumbers Eq σ g g' := by
  have part : ∀ {kept all : List M} {large : Graph M T}, kept.Perm all →
      p.resolve all = .ok large →
      ∃ small τ, p.resolve kept = .ok small ∧ Graph.Embeds τ small large := by
    intro kept all large same ran
    obtain ⟨_, _, isLoaded, _⟩ := resolve_eq_ok_iff.mp ran
    have names := same.map BuildModule.name
    have nodup := names.nodup_iff.mpr (Graph.load_ok isLoaded).2
    exact resolve_embeds structural nodup same.subset (fun _ _ _ _ => (names.mem_iff).mpr) ran
  obtain ⟨g', τ, h', back⟩ := part perm.symm h
  obtain ⟨again, σ, same, emb⟩ := part perm h'
  obtain rfl := Except.ok.inj (same.symm.trans h)
  exact ⟨g', σ, h', emb.renumbers back (resolve_wellFormed h) (resolve_wellFormed h')⟩

theorem resolve_renumbers_late {count : Nat} (structural : (p.take count).Structural)
    {name : String} {b : BottomUpMutator M T} (last : p.passes.drop count = [.bottomUp name b])
    (content : b.ByContent) {late : T → Prop}
    (tags : ∀ g x, ∀ a ∈ (b.visit g x).1, ∀ tag ∈ a.tag?, late tag)
    (perm : modules.Perm modules') {g : Graph M T} (h : p.resolve modules = .ok g) :
    ∃ g' σ, p.resolve modules' = .ok g' ∧ Graph.Renumbers (ApartFromLate late) σ g g' := by
  obtain ⟨between, before⟩ := exists_resolve_take h count
  obtain ⟨between', σ, before', ren⟩ := resolve_renumbers structural perm before
  rw [resolve_of_take before, last] at h
  obtain ⟨g, ran, done⟩ := bind_eq_ok_iff.mp h
  cases done
  obtain ⟨g', ran', extended⟩ := BottomUpMutator.run_renumbers content tags
    (resolve_wellFormed before) (resolve_wellFormed before') ren ran
  refine ⟨g', σ, ?_, extended⟩
  rw [resolve_of_take before', last]
  exact bind_eq_ok_iff.mpr ⟨g', ran', rfl⟩

/-- Declaration order does not matter. Transitions, whatever they decide, make the same graph of
permuted modules but for its numbers. Declared modules come to the same under all options and
settings: the same variations in the same order, and instances with the same contents, the same
declared edges in the same order, and the same edges in all. -/
theorem resolve_perm :
    (∀ (M T : Type) [BuildModule M T] (p : Pipeline M T) (modules modules' : List M),
      p.Structural → modules.Perm modules' → p.Alike Eq modules modules') ∧
    ∀ (options : DeclaredModule.Options) (settings : Settings)
      (modules modules' : List DeclaredModule), modules.Perm modules' →
      (DeclaredModule.pipeline options settings).Alike DeclaredModule.SameEdges modules
        modules' := by
  constructor
  · intro M T _ p modules modules' structural perm
    refine alike_of_renumbers (fun g h => resolve_renumbers structural perm h) fun g' h' => ?_
    obtain ⟨g, _, h, _⟩ := resolve_renumbers structural perm.symm h'
    exact ⟨g, h⟩
  · intro options settings modules modules' perm
    have forth : ∀ {modules modules' : List DeclaredModule}, modules.Perm modules' → ∀ g,
        (DeclaredModule.pipeline options settings).resolve modules = .ok g →
        ∃ g' σ, (DeclaredModule.pipeline options settings).resolve modules' = .ok g' ∧
          Graph.Renumbers (ApartFromLate (· ≠ DepKind.static)) σ g g' := by
      intro modules modules' perm g h
      have structural : ((DeclaredModule.pipeline options settings).take 1).Structural := by
        intro pass hpass
        exact ⟨_, List.mem_singleton.mp hpass⟩
      have content : (DeclaredModule.lateDependencies options.mutator).ByContent := by
        intro _ x _ x' same
        simp only [DeclaredModule.lateDependencies, same]
      exact resolve_renumbers_late structural rfl content
        (fun _ x => x.content.additions_late options.mutator) perm h
    refine alike_of_renumbers (fun g h => ?_) fun g' h' => ?_
    · obtain ⟨g', σ, h', ren⟩ := forth perm g h
      exact ⟨g', σ, h', ren.imp fun _ _ => DeclaredModule.sameEdges_of_late⟩
    · obtain ⟨g, _, h, _⟩ := forth perm.symm g' h'
      exact ⟨g, h⟩

def spokes : List DeclaredModule := [
  { name := "hub", deps := ["base"], split := ["x", ""] },
  { name := "left", reverseDeps := ["hub"] },
  { name := "right", reverseDeps := ["hub"], split := ["x", ""], incoming := some "x" },
  { name := "base" }]

/-- The order of the late edges of `hub` is that of the visits. -/
theorem resolve_perm_spokes :
    osThenArch.Alike Eq (client :: plugin :: services) (client :: plugin :: services).reverse ∧
      ∃ g g', (DeclaredModule.pipeline {} ⟨false⟩).resolve spokes = .ok g ∧
        (DeclaredModule.pipeline {} ⟨false⟩).resolve spokes.reverse = .ok g' ∧
        g.label 1 = "hub()" ∧ g.depLabels 1 = ["base()", "left()", "right()"] ∧
        g'.label 6 = "hub()" ∧ g'.depLabels 6 = ["base()", "right()", "left()"] ∧
        (DeclaredModule.pipeline {} ⟨false⟩).Alike DeclaredModule.SameEdges spokes
          spokes.reverse := by
  obtain ⟨structural, declared⟩ := resolve_perm
  have either := structural _ _ osThenArch _ _ osThenArch_structural
    (List.reverse_perm (client :: plugin :: services)).symm
  exact ⟨either, _, _, rfl, rfl, by decide +kernel, by decide +kernel, by decide +kernel,
    by decide +kernel, declared {} ⟨false⟩ spokes _ (List.reverse_perm spokes).symm⟩

end Pipeline

end BuildVariants
