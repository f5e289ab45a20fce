import BuildVariants.Declared.Pipeline
import BuildVariants.Proofs.BottomUp.Pass
import BuildVariants.Proofs.Graph.Acyclic
import BuildVariants.Proofs.Graph.Loading

/-!
# Bottom-up passes in place

A pass can work on a single graph, which it also leaves behind when it fails. It visits one instance
after the other and keeps what the visits ask for to the end. Only when none of them failed it attaches
the new edges, one by one, so a visit never meets an edge of its own pass and a failed visit leaves the
graph as it was.
-/

set_option autoImplicit false

namespace BuildVariants

variable {M T : Type}

namespace Graph

def addEdge (g : Graph M T) (added : Nat × Edge T) : Graph M T :=
  { g with instances := g.instances.modify added.1 fun x => { x with deps := x.deps ++ [added.2] } }

theorem ext_instance? {g g' : Graph M T} (groups : g.groups = g'.groups)
    (instances : ∀ id, g.instance? id = g'.instance? id) : g = g' :=
  ext_groups (List.ext_getElem? instances) groups

theorem instance?_addEdge (g : Graph M T) (p : Nat × Edge T) (id : Nat) :
    (g.addEdge p).instance? id = (g.instance? id).map fun x =>
      { x with deps := x.deps ++ ([p].filter fun p => p.1 = id).map Prod.snd } := by
  rw [instance?, addEdge, List.getElem?_modify]
  by_cases here : p.1 = id <;> simp [here, instance?]

theorem addEdges_nil (g : Graph M T) : g.addEdges [] = g := by
  refine ext_instance? rfl fun id => ?_
  rw [instance?_addEdges]
  simp

theorem addEdges_cons (g : Graph M T) (p : Nat × Edge T) (added : List (Nat × Edge T)) :
    g.addEdges (p :: added) = (g.addEdge p).addEdges added := by
  refine ext_instance? rfl fun id => ?_
  rw [instance?_addEdges, instance?_addEdges, instance?_addEdge, Option.map_map]
  congr 1
  funext x
  simp only [Function.comp, List.append_assoc, ← List.map_append, ← List.filter_append]
  rfl

/-- Attaching edges one by one loses none of them and keeps their order. -/
theorem foldl_addEdge (g : Graph M T) (added : List (Nat × Edge T)) :
    added.foldl addEdge g = g.addEdges added := by
  induction added generalizing g with
  | nil => exact g.addEdges_nil.symm
  | cons p added ih => rw [List.foldl_cons, ih, addEdges_cons]

end Graph

namespace BottomUpMutator

variable [BuildModule M T] (b : BottomUpMutator M T) (allowMissing : Bool)
  (completed : List (Transition M T))

structure Work (M T : Type) where
  graph : Graph M T
  failures : Failures := .empty
  edges : List (Nat × Edge T) := []

def Work.visit (w : Work M T) (i : Nat) : Work M T :=
  let left := b.visited allowMissing completed w.graph i
  { w with failures := w.failures.extend left.1, edges := w.edges ++ left.2 }

def inPlace (g : Graph M T) : Except Failures Unit × Graph M T :=
  match g.bottomUp with
  | .error f => (.error (.single f), g)
  | .ok order =>
    let done := order.foldl (Work.visit b allowMissing completed) { graph := g }
    if done.failures.isEmpty then
      let extended := done.edges.foldl Graph.addEdge done.graph
      ((extended.topDown.mapError Failures.single).map fun _ => (), extended)
    else (.error done.failures, done.graph)

def inOrder (order : List Nat) (g : Graph M T) : Except Failures Unit × Graph M T :=
  let done := order.foldl (Work.visit b allowMissing completed) { graph := g }
  if done.failures.isEmpty then
    let extended := done.edges.foldl Graph.addEdge done.graph
    ((extended.topDown.mapError Failures.single).map fun _ => (), extended)
  else (.error done.failures, done.graph)

/-- No visit changes the graph, and each leaves behind what it would leave behind as the first one. -/
theorem foldl_visit (w : Work M T) (order : List Nat) :
    order.foldl (Work.visit b allowMissing completed) w =
      ⟨w.graph, w.failures.extend (b.failuresAlong allowMissing completed w.graph order),
        w.edges ++ b.edgesAlong allowMissing completed w.graph order⟩ := by
  rw [failuresAlong_eq, edgesAlong_eq]
  induction order generalizing w with
  | nil => simp
  | cons i order ih =>
    rw [List.foldl_cons, ih, List.flatMap_cons, List.flatMap_cons, Failures.extend_append,
      ← List.append_assoc]
    rfl

section Outcome

variable {b allowMissing completed} {g : Graph M T} {order : List Nat}

theorem inOrder_of_failures (failed : b.failuresAlong allowMissing completed g order ≠ []) :
    b.inOrder allowMissing completed order g =
      (.error (.ofList (b.failuresAlong allowMissing completed g order)), g) := by
  have some : ¬ (Failures.ofList (b.failuresAlong allowMissing completed g order)).isEmpty = true := by
    rwa [Failures.isEmpty, List.isEmpty_iff, Failures.ofList_items_eq_nil_iff]
  simp only [inOrder, foldl_visit]
  exact if_neg some

theorem inOrder_of_clean (clean : b.failuresAlong allowMissing completed g order = []) :
    b.inOrder allowMissing completed order g =
      (((g.addEdges (b.edgesAlong allowMissing completed g order)).topDown.mapError
          Failures.single).map fun _ => (),
        g.addEdges (b.edgesAlong allowMissing completed g order)) := by
  simp only [inOrder, foldl_visit, clean, Failures.extend_nil, List.nil_append, Graph.foldl_addEdge]
  rfl

theorem failuresAlong_ne_nil (everywhere : order.Perm (List.range g.size)) {i : Nat}
    (fails : (b.visited allowMissing completed g i).1 ≠ []) :
    b.failuresAlong allowMissing completed g order ≠ [] := by
  rw [failuresAlong_eq, Ne, List.flatMap_eq_nil_iff]
  intro clean
  cases hx : g.instance? i with
  | none => exact fails (by rw [visited, site?, hx]; rfl)
  | some x => exact fails (clean i (everywhere.mem_iff.mpr (List.mem_range.mpr (g.instance_lt hx))))

variable (found : g.bottomUp = .ok order)
include found

theorem inPlace_of_order :
    b.inPlace allowMissing completed g = b.inOrder allowMissing completed order g := by
  rw [inPlace, found]
  rfl

theorem inPlace_of_failures (failed : b.failuresAlong allowMissing completed g order ≠ []) :
    b.inPlace allowMissing completed g =
      (.error (.ofList (b.failuresAlong allowMissing completed g order)), g) := by
  rw [inPlace_of_order found, inOrder_of_failures failed]

theorem inPlace_of_clean (clean : b.failuresAlong allowMissing completed g order = []) :
    b.inPlace allowMissing completed g =
      (((g.addEdges (b.edgesAlong allowMissing completed g order)).topDown.mapError
          Failures.single).map fun _ => (),
        g.addEdges (b.edgesAlong allowMissing completed g order)) := by
  rw [inPlace_of_order found, inOrder_of_clean clean]

theorem run_ok_iff_of_order {next : Graph M T} : b.run allowMissing completed g = .ok next ↔
    b.failuresAlong allowMissing completed g order = [] ∧
      next = g.addEdges (b.edgesAlong allowMissing completed g order) ∧
      ∃ walk, next.topDown = .ok walk := by
  rw [run_eq_ok_iff]
  constructor
  · rintro ⟨order', walk, found', clean, rfl, closed⟩
    obtain rfl : order = order' := Except.ok.inj (found.symm.trans found')
    exact ⟨clean, rfl, walk, closed⟩
  · rintro ⟨clean, rfl, walk, closed⟩
    exact ⟨order, walk, found, clean, rfl, closed⟩

end Outcome

/-- The pass in place ends as the pass does, which gives the graph that it leaves behind. -/
theorem run_eq_inPlace (g : Graph M T) : b.run allowMissing completed g =
    (b.inPlace allowMissing completed g).1.map fun _ => (b.inPlace allowMissing completed g).2 := by
  rw [run_eq]
  cases found : g.bottomUp with
  | error f =>
    simp only [inPlace, found]
    rfl
  | ok order =>
    by_cases clean : b.failuresAlong allowMissing completed g order = []
    · have goes : (Failures.ofList (b.failuresAlong allowMissing completed g order)).guard
          (b.edgesAlong allowMissing completed g order) = .ok _ :=
        Failures.guard_ofList_eq_ok_iff.mpr ⟨clean, rfl⟩
      rw [inPlace_of_clean found clean]
      simp only [Except.mapError, bind, Except.bind, goes]
      cases (g.addEdges (b.edgesAlong allowMissing completed g order)).topDown <;> rfl
    · have stops : (Failures.ofList (b.failuresAlong allowMissing completed g order)).guard
          (b.edgesAlong allowMissing completed g order) = .error _ :=
        Failures.guard_eq_error_iff.mpr ⟨rfl, mt Failures.ofList_items_eq_nil_iff.mp clean⟩
      rw [inPlace_of_failures found clean]
      simp only [Except.mapError, bind, Except.bind, stops]
      rfl

theorem inPlace_congr {g : Graph M T} {b' : BottomUpMutator M T}
    (same : ∀ x ∈ g.instances, b'.visit g x = b.visit g x) :
    b'.inPlace allowMissing completed g = b.inPlace allowMissing completed g := by
  have visits : ∀ i, b'.visited allowMissing completed g i = b.visited allowMissing completed g i := by
    intro i
    rw [visited, visited]
    cases site : site? allowMissing completed g i with
    | none => rfl
    | some s =>
      obtain ⟨x, hx, rfl⟩ := site?_eq_some_iff.mp site
      simp only [Option.map_some, visitAt, same x (Graph.mem_instances hx)]
  simp only [inPlace, foldl_visit, failuresAlong_eq, edgesAlong_eq, visits]

/-- What a pass over a graph comes to. The visits go along `order`, and `found` and `edges` are what
all of them leave behind. -/
structure Effect (g : Graph M T) (order : List Nat) (found : List Failure)
    (edges : List (Nat × Edge T)) : Prop where
  upward : g.bottomUp = .ok order
  dependencies_first : g.TopDownOrder order.reverse
  everywhere : order.Perm (List.range g.size)
  found_eq : found = order.flatMap fun i => (b.visited allowMissing completed g i).1
  edges_eq : edges = order.flatMap fun i => (b.visited allowMissing completed g i).2
  visited_eq : ∀ i x, g.instance? i = some x → b.visited allowMissing completed g i =
    (((b.visit g x).2.map fun e => e.toFailure x.content x.variant).toList ++
        (b.visit g x).1.flatMap fun a =>
          (Site.contribution ⟨g, completed, allowMissing, i, x⟩ a).1,
      (b.visit g x).1.flatMap fun a =>
        (Site.contribution ⟨g, completed, allowMissing, i, x⟩ a).2)
  run_eq : b.run allowMissing completed g = (b.inPlace allowMissing completed g).1.map
    fun _ => (b.inPlace allowMissing completed g).2
  failure : ∀ i, (b.visited allowMissing completed g i).1 ≠ [] →
    b.run allowMissing completed g =
        .error ⟨found.eraseDupsBy fun new kept => kept == new⟩ ∧
      (b.inPlace allowMissing completed g).2 = g
  success : ∀ next, b.run allowMissing completed g = .ok next →
    (b.inPlace allowMissing completed g).2 = next ∧ found = [] ∧
      next.groups = g.groups ∧ (∀ name, next.groupIndex? name = g.groupIndex? name) ∧
      next.size = g.size ∧ ∀ i x, g.instance? i = some x → next.instance? i =
        some { x with deps := x.deps ++ (edges.filter fun p => p.1 = i).map Prod.snd }
  succeeds_iff : g.WellFormed → (∀ p ∈ edges, p.1 < g.size) ∧
    ((∃ next, b.run allowMissing completed g = .ok next) ↔
      found = [] ∧ (g.addEdges edges).Acyclic)
  unchanged : ∀ count, ((order.take count).foldl (Work.visit b allowMissing completed)
    { graph := g }).graph = g
  /-- What the visits would do on any other graph, with new edges for one, is of no consequence. -/
  unobserved : ∀ b' : BottomUpMutator M T, (∀ x ∈ g.instances, b'.visit g x = b.visit g x) →
    b'.inPlace allowMissing completed g = b.inPlace allowMissing completed g

/-- On an acyclic graph a pass visits every instance, dependencies first. If any visit fails, the pass
fails with what all of them found, each failure once, and leaves the graph as it was. If it succeeds,
every instance has its old edges, followed by those that the visits call for there, in the order of the
visits, and nothing else has changed. No visit sees the edges of another. -/
theorem run_all_or_nothing {g : Graph M T} (valid : g.TargetsValid) (acyclic : g.Acyclic) :
    ∃ order found edges, b.Effect allowMissing completed g order found edges := by
  obtain ⟨downward, ordered⟩ := g.topDown_of_acyclic valid acyclic
  have upward : g.bottomUp = .ok downward.reverse :=
    g.bottomUp_ok_iff.mpr (by rw [List.reverse_reverse, ordered])
  have perm := g.bottomUp_perm valid upward
  refine ⟨downward.reverse, b.failuresAlong allowMissing completed g downward.reverse,
    b.edgesAlong allowMissing completed g downward.reverse, ?_⟩
  constructor
  case upward => exact upward
  case dependencies_first =>
    rw [List.reverse_reverse]
    exact g.topDown_ok valid ordered
  case everywhere => exact perm
  case found_eq => exact failuresAlong_eq _
  case edges_eq => exact edgesAlong_eq _
  case visited_eq =>
    intro i x hx
    rw [visited, site?, hx, Option.map_some, Option.map_some, Option.getD_some, visitAt_eq]
  case run_eq => exact b.run_eq_inPlace allowMissing completed g
  case failure =>
    intro i fails
    have failed := failuresAlong_ne_nil perm fails
    rw [run_eq_inPlace, inPlace_of_failures upward failed, ← Failures.ofList_eq_eraseDups]
    exact ⟨rfl, rfl⟩
  case success =>
    intro next succeeds
    obtain ⟨clean, rfl, _⟩ := (run_ok_iff_of_order upward).mp succeeds
    refine ⟨by rw [inPlace_of_clean upward clean], clean, rfl, fun _ => rfl, g.size_addEdges _, ?_⟩
    intro i x hx
    rw [Graph.instance?_addEdges, hx, Option.map_some]
  case succeeds_iff =>
    intro wf
    have inside : ∀ p ∈ b.edgesAlong allowMissing completed g downward.reverse,
        p.1 < g.size ∧ p.2.target < g.size := edgesAlong_lt wf downward.reverse
    have extended := (wf.addEdges fun p hp => (inside p hp).2).targets_valid
    refine ⟨fun p hp => (inside p hp).1, ?_⟩
    rw [← Graph.topDown_ok_iff _ extended]
    constructor
    · rintro ⟨next, succeeds⟩
      obtain ⟨clean, rfl, closed⟩ := (run_ok_iff_of_order upward).mp succeeds
      exact ⟨clean, closed⟩
    · rintro ⟨clean, closed⟩
      exact ⟨_, (run_ok_iff_of_order upward).mpr ⟨clean, rfl, closed⟩⟩
  case unchanged =>
    intro count
    rw [foldl_visit]
  case unobserved =>
    intro b' same
    exact inPlace_congr b allowMissing completed same

def workshop : List DeclaredModule := [
  { name := "app", deps := ["base"], postTransitionDeps := [⟨"tool", none⟩], farDeps := ["base"] },
  { name := "base", reverseDeps := ["app"] },
  { name := "tool" }]

def unwell : BottomUpMutator DeclaredModule DepKind where
  visit _ x :=
    (x.content.additions "os" ++
        [.failure "loose", .forward [] .far "glue" true, .failure "loose"],
      if x.group = "base" then some ⟨"unwell"⟩ else none)

theorem run_all_or_nothing_workshop :
    ∃ g, Graph.load ⟨false⟩ workshop = .ok g ∧ g.TargetsValid ∧ g.Acyclic ∧
      (∃ next, (DeclaredModule.lateDependencies "os").run false [] g = .ok next ∧
        (next.deps 0).map (fun e => (next.label e.target, e.tag.render)) =
          [("base()", "static"), ("base()", "reverse"), ("tool()", "post_transition"),
            ("base()", "far")] ∧
        ((DeclaredModule.lateDependencies "os").inPlace false [] g).2 = next) ∧
      ∃ fs, unwell.run false [] g = .error fs ∧
        fs.messages = [
          "module \"base\": unwell", "module \"base\": loose",
          "\"base\" depends on undefined module \"glue\"", "module \"app\": loose",
          "\"app\" depends on undefined module \"glue\"", "module \"tool\": loose",
          "\"tool\" depends on undefined module \"glue\""] ∧
        (unwell.inPlace false [] g).2 = g := by
  obtain ⟨g, loaded, ⟨walk, ordered⟩, ⟨next, succeeds, edges⟩, fs, fails, messages, visit⟩ :
      ∃ g, Graph.load ⟨false⟩ workshop = .ok g ∧ (∃ walk, g.topDown = .ok walk) ∧
        (∃ next, (DeclaredModule.lateDependencies "os").run false [] g = .ok next ∧
          (next.deps 0).map (fun e => (next.label e.target, e.tag.render)) =
            [("base()", "static"), ("base()", "reverse"), ("tool()", "post_transition"),
              ("base()", "far")]) ∧
        ∃ fs, unwell.run false [] g = .error fs ∧
          fs.messages = [
            "module \"base\": unwell", "module \"base\": loose",
            "\"base\" depends on undefined module \"glue\"", "module \"app\": loose",
            "\"app\" depends on undefined module \"glue\"", "module \"tool\": loose",
            "\"tool\" depends on undefined module \"glue\""] ∧
          (unwell.visited false [] g 1).1 ≠ [] :=
    ⟨_, rfl, ⟨_, rfl⟩, ⟨_, rfl, by decide +kernel⟩, _, rfl, by decide +kernel,
      List.cons_ne_nil _ _⟩
  have valid := (Graph.load_settled loaded).targets_valid
  have acyclic := (g.topDown_ok valid ordered).acyclic
  obtain ⟨_, _, _, late⟩ :=
    run_all_or_nothing (DeclaredModule.lateDependencies "os") false [] valid acyclic
  obtain ⟨_, _, _, ill⟩ := run_all_or_nothing unwell false [] valid acyclic
  exact ⟨g, loaded, valid, acyclic, ⟨next, succeeds, edges, (late.success next succeeds).1⟩,
    fs, fails, messages, (ill.failure 1 visit).2⟩

end BottomUpMutator

end BuildVariants
