import BuildVariants.Proofs.BottomUp.Forward
import BuildVariants.Proofs.BottomUp.InPlace
import BuildVariants.Proofs.Failure.Equality
import BuildVariants.Proofs.Pipeline.External

/-!
# Visits in any order

What a visit leaves behind does not depend on the visits before it, so the order of the visits decides
about nothing but order: that of the edges that different visits give to one instance, and that of the
failures. Whether a pass succeeds, fails for what its visits report, or fails for a cycle is the same
along any two orders.
-/

set_option autoImplicit false

namespace BuildVariants

variable {M T : Type}

namespace Graph

variable {g : Graph M T}

/-- In what order edges are added makes no difference to what depends on what. -/
theorem acyclic_addEdges_of_perm {added added' : List (Nat × Edge T)} (perm : added.Perm added')
    (acyclic : (g.addEdges added).Acyclic) : (g.addEdges added').Acyclic := by
  refine acyclic.of_projection id fun i j hj => ?_
  have hi : i < g.size := by simpa using (g.addEdges added').lt_of_mem_targets hj
  rw [targets_addEdges hi, List.mem_append] at hj
  rw [id, id, targets_addEdges hi, List.mem_append]
  exact hj.imp_right ((perm.filter _).map _).mem_iff.mpr

end Graph

variable [BuildModule M T]

namespace Site

variable {s : Site M T} (variants : ∀ x ∈ s.graph.instances, x.variant.Distinct)
include variants

theorem missingVariant_distinct (direction : Direction) (grp : Group) {wanted : Variant}
    (distinct : wanted.Distinct) : (s.missingVariant direction grp wanted).Distinct := by
  refine ⟨distinct, fun v hv => ?_⟩
  obtain ⟨i, _, rfl⟩ := List.mem_map.mp hv
  cases hx : s.graph.instance? i with
  | none =>
    rw [Graph.variant, hx]
    exact List.nodup_nil
  | some x =>
    rw [Graph.variant_of_instance hx]
    exact variants x (Graph.mem_instances hx)

theorem forwardEdge_distinct (choices : List Variation) (tag : T) (name : String) (far : Bool) :
    FailsWith Failure.Distinct (s.forwardEdge choices tag name far) := by
  cases defined : s.graph.group? name with
  | none =>
    rw [forwardEdge, defined]
    by_cases missing : s.allowMissing = true
    · exact if_pos missing ▸ failsWith_ok _
    · exact if_neg missing ▸ failsWith_error trivial
  | some grp =>
    rw [forwardEdge_of_group defined]
    have negotiated : FailsWith Failure.Distinct
        (s.negotiate grp choices tag far s.completed [] (s.startVariant choices far)) :=
      fun f failed => (negotiate_refusal (fun _ there => there) _ _ f failed).ofDecision.plain.distinct
    refine negotiated.bind fun wanted settled => ?_
    rw [place]
    cases s.search grp wanted far with
    | none =>
      have distinct := negotiate_distinct (s.startVariant_distinct choices far) settled
      exact failsWith_error (missingVariant_distinct variants .forward grp distinct)
    | some target => exact failsWith_ok _

theorem reverseEdge_distinct (choices : List Variation) (tag : T) (name : String) :
    FailsWith Failure.Distinct (s.reverseEdge choices tag name) := by
  unfold reverseEdge
  cases s.graph.group? name with
  | none =>
    by_cases missing : s.allowMissing = true
    · exact if_pos missing ▸ failsWith_ok _
    · exact if_neg missing ▸ failsWith_error trivial
  | some grp =>
    simp only
    cases s.graph.findMember grp (· == s.startVariant choices false) with
    | none =>
      have distinct := s.startVariant_distinct choices false
      exact failsWith_error (missingVariant_distinct variants .reverse grp distinct)
    | some source => exact failsWith_ok _

theorem resolve_distinct (a : Addition T) : FailsWith Failure.Distinct (s.resolve a) := by
  cases a with
  | forward choices tag name far => exact forwardEdge_distinct variants choices tag name far
  | reverse choices tag name => exact reverseEdge_distinct variants choices tag name
  | failure message => exact failsWith_error trivial

end Site

namespace BottomUpMutator

variable (b : BottomUpMutator M T) (allowMissing : Bool) (completed : List (Transition M T))
  {g : Graph M T}

theorem visitAt_distinct {s : Site M T} (variants : ∀ x ∈ s.graph.instances, x.variant.Distinct) :
    ∀ f ∈ (b.visitAt s).1, f.Distinct := by
  intro f hf
  rw [visitAt_eq] at hf
  rcases List.mem_append.mp hf with own | added
  · obtain ⟨e, _, rfl⟩ := Option.map_eq_some_iff.mp (Option.mem_toList.mp own)
    exact (toFailure_ofDecision e _ _).plain.distinct
  · obtain ⟨a, _, hf⟩ := List.mem_flatMap.mp added
    rw [Site.contribution] at hf
    cases outcome : s.resolve a with
    | ok edge => simp [outcome] at hf
    | error f' =>
      rw [outcome, List.mem_singleton] at hf
      rw [hf]
      exact Site.resolve_distinct variants a f' outcome

theorem visited_all {P : Failure → Prop} (each : ∀ x i, g.instance? i = some x →
      ∀ f ∈ (b.visitAt ⟨g, completed, allowMissing, i, x⟩).1, P f) (i : Nat) :
    ∀ f ∈ (b.visited allowMissing completed g i).1, P f := by
  intro f hf
  rw [visited, site?] at hf
  cases hx : g.instance? i with
  | none => simp [hx] at hf
  | some x =>
    rw [hx] at hf
    exact each x i hx f hf

theorem cycle_notMem_failuresAlong (order : List Nat) (labels : List String) :
    .cycle labels ∉ b.failuresAlong allowMissing completed g order := by
  intro there
  rw [failuresAlong_eq] at there
  obtain ⟨i, _, there⟩ := List.mem_flatMap.mp there
  have blamed := b.visited_all allowMissing completed (P := fun f => f.Local allowMissing)
    (fun x i _ => b.visitAt_local _) i _ there
  exact Bool.noConfusion blamed.not_isCycle

theorem failuresAlong_distinct (variants : ∀ x ∈ g.instances, x.variant.Distinct) (order : List Nat) :
    ∀ f ∈ b.failuresAlong allowMissing completed g order, f.Distinct := by
  intro f hf
  rw [failuresAlong_eq] at hf
  obtain ⟨i, _, hf⟩ := List.mem_flatMap.mp hf
  exact b.visited_all allowMissing completed (fun x i _ => b.visitAt_distinct variants) i f hf

section Ends

variable {b allowMissing completed} {order : List Nat}

theorem extended_targetsValid (wf : g.WellFormed) :
    (g.addEdges (b.edgesAlong allowMissing completed g order)).TargetsValid :=
  (wf.addEdges fun p hp => (edgesAlong_lt wf order p hp).2).targets_valid

/-- Along any order a pass succeeds when no visit reports anything and the new edges close no cycle. -/
theorem inOrder_ok_iff (wf : g.WellFormed) : (b.inOrder allowMissing completed order g).1 = .ok () ↔
    b.failuresAlong allowMissing completed g order = [] ∧
      (g.addEdges (b.edgesAlong allowMissing completed g order)).Acyclic := by
  rw [← Graph.topDown_ok_iff _ (extended_targetsValid wf)]
  by_cases clean : b.failuresAlong allowMissing completed g order = []
  · rw [inOrder_of_clean clean]
    cases (g.addEdges (b.edgesAlong allowMissing completed g order)).topDown <;>
      simp [clean, Except.mapError, Except.map]
  · simp [inOrder_of_failures clean, clean]

theorem inOrder_cycle_iff (wf : g.WellFormed) :
    (∃ labels, (b.inOrder allowMissing completed order g).1 = .error (.single (.cycle labels))) ↔
      b.failuresAlong allowMissing completed g order = [] ∧
        ¬ (g.addEdges (b.edgesAlong allowMissing completed g order)).Acyclic := by
  rw [← Graph.topDown_ok_iff _ (extended_targetsValid wf)]
  by_cases clean : b.failuresAlong allowMissing completed g order = []
  · rw [inOrder_of_clean clean]
    cases walked : (g.addEdges (b.edgesAlong allowMissing completed g order)).topDown with
    | ok walk => simp [Except.mapError, Except.map]
    | error f =>
      obtain ⟨id, rfl⟩ := Graph.topDown_error _ walked
      simp only [clean, Except.mapError, Except.map, Graph.cycleFailure, true_and]
      exact iff_of_true ⟨_, rfl⟩ (by simp)
  · have others : ∀ labels, Failures.ofList (b.failuresAlong allowMissing completed g order) ≠
        .single (.cycle labels) := by
      intro labels same
      apply b.cycle_notMem_failuresAlong allowMissing completed order labels
      apply Failures.mem_of_mem_ofList
      rw [same]
      exact List.mem_singleton_self _
    simp [inOrder_of_failures clean, clean, others]

end Ends

def givenTo (g : Graph M T) (i j : Nat) : List (Edge T) :=
  ((b.visited allowMissing completed g j).2.filter fun p => p.1 = i).map Prod.snd

theorem inOrder_instance {order : List Nat}
    (clean : b.failuresAlong allowMissing completed g order = []) {i : Nat} {x : Instance M T}
    (hx : g.instance? i = some x) : (b.inOrder allowMissing completed order g).2.instance? i =
      some { x with deps := x.deps ++ order.flatMap (b.givenTo allowMissing completed g i) } := by
  rw [inOrder_of_clean clean, Graph.instance?_addEdges, hx, Option.map_some, edgesAlong_eq,
    List.filter_flatMap, List.map_flatMap]
  rfl

/-- What the passes along two orders have in common. -/
structure AlikeAlong (g : Graph M T) (order order' : List Nat) : Prop where
  succeeds_iff : (b.inOrder allowMissing completed order g).1 = .ok () ↔
    (b.inOrder allowMissing completed order' g).1 = .ok ()
  success : (b.inOrder allowMissing completed order g).1 = .ok () →
    (b.inOrder allowMissing completed order g).2.size = g.size ∧
    (b.inOrder allowMissing completed order' g).2.size = g.size ∧
    (b.inOrder allowMissing completed order g).2.groups = g.groups ∧
    (b.inOrder allowMissing completed order' g).2.groups = g.groups ∧
    ∀ i x, g.instance? i = some x → ∃ deps deps',
      (b.inOrder allowMissing completed order g).2.instance? i = some { x with deps } ∧
      (b.inOrder allowMissing completed order' g).2.instance? i = some { x with deps := deps' } ∧
      deps.Perm deps' ∧ deps = x.deps ++ order.flatMap (b.givenTo allowMissing completed g i) ∧
      deps' = x.deps ++ order'.flatMap (b.givenTo allowMissing completed g i)
  /-- Where a visit reports something, both report the same. As long as the variants of the graph have
  one entry for each mutator, this holds even of the number of failures. -/
  failure : ∀ i, (b.visited allowMissing completed g i).1 ≠ [] → ∃ fs fs',
    b.inOrder allowMissing completed order g = (.error fs, g) ∧
    b.inOrder allowMissing completed order' g = (.error fs', g) ∧
    (∀ f ∈ fs.items, ∃ f' ∈ fs'.items, f' = f ∨ (f' == f) = true) ∧
    (∀ f' ∈ fs'.items, ∃ f ∈ fs.items, f = f' ∨ (f == f') = true) ∧
    ((∀ x ∈ g.instances, x.variant.Distinct) → ∃ reordered, reordered.Perm fs'.items ∧
      List.Forall₂ (fun f f' => (f == f') = true) fs.items reordered)
  cycle_iff : (∃ labels, (b.inOrder allowMissing completed order g).1 =
      .error (.single (.cycle labels))) ↔
    ∃ labels, (b.inOrder allowMissing completed order' g).1 = .error (.single (.cycle labels))
  outcomes : (b.inOrder allowMissing completed order g).1 = .ok () ∨
    (∃ i, (b.visited allowMissing completed g i).1 ≠ []) ∨
    ∃ labels, (b.inOrder allowMissing completed order g).1 = .error (.single (.cycle labels))

/-- A pass over an acyclic graph could visit the instances in any order: what it comes to along two
orders is alike. Its own order, bottom-up, is one of them. -/
theorem inOrder_alike (wf : g.WellFormed) (acyclic : g.Acyclic) :
    (∃ order, g.bottomUp = .ok order ∧ order.Perm (List.range g.size) ∧
      b.run allowMissing completed g = (b.inOrder allowMissing completed order g).1.map
        fun _ => (b.inOrder allowMissing completed order g).2) ∧
    ∀ order order' : List Nat, order.Perm (List.range g.size) → order'.Perm (List.range g.size) →
      b.AlikeAlong allowMissing completed g order order' := by
  constructor
  · obtain ⟨downward, ordered⟩ := g.topDown_of_acyclic wf.targets_valid acyclic
    have upward : g.bottomUp = .ok downward.reverse :=
      g.bottomUp_ok_iff.mpr (by rw [List.reverse_reverse, ordered])
    refine ⟨downward.reverse, upward, g.bottomUp_perm wf.targets_valid upward, ?_⟩
    rw [run_eq_inPlace, inPlace_of_order upward]
  · intro order order' everywhere everywhere'
    have perm := everywhere.trans everywhere'.symm
    have reports : (b.failuresAlong allowMissing completed g order).Perm
        (b.failuresAlong allowMissing completed g order') := by
      rw [failuresAlong_eq, failuresAlong_eq]
      exact perm.flatMap_right _
    have edges : (b.edgesAlong allowMissing completed g order).Perm
        (b.edgesAlong allowMissing completed g order') := by
      rw [edgesAlong_eq, edgesAlong_eq]
      exact perm.flatMap_right _
    have clean_iff : b.failuresAlong allowMissing completed g order = [] ↔
        b.failuresAlong allowMissing completed g order' = [] :=
      ⟨fun clean => (clean ▸ reports).nil_eq.symm, fun clean => (clean ▸ reports).eq_nil⟩
    have closed_iff : (g.addEdges (b.edgesAlong allowMissing completed g order)).Acyclic ↔
        (g.addEdges (b.edgesAlong allowMissing completed g order')).Acyclic :=
      ⟨Graph.acyclic_addEdges_of_perm edges, Graph.acyclic_addEdges_of_perm edges.symm⟩
    constructor
    case succeeds_iff => rw [inOrder_ok_iff wf, inOrder_ok_iff wf, clean_iff, closed_iff]
    case cycle_iff => rw [inOrder_cycle_iff wf, inOrder_cycle_iff wf, clean_iff, closed_iff]
    case success =>
      intro succeeds
      have clean := ((inOrder_ok_iff wf).mp succeeds).1
      have clean' := clean_iff.mp clean
      refine ⟨by simp [inOrder_of_clean clean], by simp [inOrder_of_clean clean'],
        by rw [inOrder_of_clean clean]; rfl, by rw [inOrder_of_clean clean']; rfl, ?_⟩
      intro i x hx
      exact ⟨_, _, b.inOrder_instance allowMissing completed clean hx,
        b.inOrder_instance allowMissing completed clean' hx,
        (perm.flatMap_right _).append_left _, rfl, rfl⟩
    case failure =>
      intro i fails
      have failed := failuresAlong_ne_nil everywhere fails
      refine ⟨_, _, inOrder_of_failures failed, inOrder_of_failures (mt clean_iff.mpr failed),
        ?_, ?_, ?_⟩
      · exact fun f hf => Failures.exists_mem_ofList (reports.mem_iff.mp (Failures.mem_of_mem_ofList hf))
      · exact fun f hf => Failures.exists_mem_ofList (reports.mem_iff.mpr (Failures.mem_of_mem_ofList hf))
      · intro variants
        exact Failures.ofList_perm (b.failuresAlong_distinct allowMissing completed variants order) reports
    case outcomes =>
      by_cases clean : b.failuresAlong allowMissing completed g order = []
      · rw [inOrder_ok_iff wf, inOrder_cycle_iff wf]
        tauto
      · right; left
        rw [failuresAlong_eq, List.flatMap_eq_nil_iff] at clean
        push Not at clean
        obtain ⟨i, _, fails⟩ := clean
        exact ⟨i, fails⟩

def edgesOfFirst (order : List Nat) (g : Graph DeclaredModule DepKind) : List (String × String) :=
  let extended := ((DeclaredModule.lateDependencies "os").inOrder false [] order g).2
  (extended.deps 0).map fun e => (extended.label e.target, e.tag.render)

def complaints (order : List Nat) (g : Graph DeclaredModule DepKind) : List String :=
  match (unwell.inOrder false [] order g).1 with
  | .ok () => []
  | .error fs => fs.messages

theorem inOrder_alike_workshop :
    ∃ g, Graph.load ⟨false⟩ workshop = .ok g ∧ g.WellFormed ∧ g.Acyclic ∧ g.size = 3 ∧
      (DeclaredModule.lateDependencies "os").AlikeAlong false [] g [0, 1, 2] [1, 2, 0] ∧
      edgesOfFirst [0, 1, 2] g = [("base()", "static"), ("tool()", "post_transition"),
        ("base()", "far"), ("base()", "reverse")] ∧
      edgesOfFirst [1, 2, 0] g = [("base()", "static"), ("base()", "reverse"),
        ("tool()", "post_transition"), ("base()", "far")] ∧
      unwell.AlikeAlong false [] g [0, 1, 2] [1, 2, 0] ∧
      complaints [0, 1, 2] g = [
        "module \"app\": loose", "\"app\" depends on undefined module \"glue\"",
        "module \"base\": unwell", "module \"base\": loose",
        "\"base\" depends on undefined module \"glue\"", "module \"tool\": loose",
        "\"tool\" depends on undefined module \"glue\""] ∧
      complaints [1, 2, 0] g = [
        "module \"base\": unwell", "module \"base\": loose",
        "\"base\" depends on undefined module \"glue\"", "module \"tool\": loose",
        "\"tool\" depends on undefined module \"glue\"", "module \"app\": loose",
        "\"app\" depends on undefined module \"glue\""] := by
  obtain ⟨g, loaded, rfl⟩ : ∃ g, Graph.load ⟨false⟩ workshop = .ok g ∧ g = Graph.initial workshop :=
    ⟨_, rfl, rfl⟩
  have wf := (Graph.load_settled loaded).toWellFormed
  have acyclic := ((Graph.initial workshop).topDown_ok_iff wf.targets_valid).mp ⟨_, rfl⟩
  exact ⟨_, loaded, wf, acyclic, rfl,
    (inOrder_alike _ false [] wf acyclic).2 _ _ (by decide) (by decide), by decide +kernel,
    by decide +kernel, (inOrder_alike unwell false [] wf acyclic).2 _ _ (by decide) (by decide),
    by decide +kernel, by decide +kernel⟩

end BottomUpMutator

end BuildVariants
