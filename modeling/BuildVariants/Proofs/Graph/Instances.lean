import BuildVariants.Proofs.Graph.WellFormed

/-!
# Graphs with other instances

The orders of a graph depend on its edges alone, and the failures that report a cycle on its labels.
A change of the instances that keeps both makes no difference to them.
-/

set_option autoImplicit false

namespace BuildVariants

variable {M T : Type}

theorem Failures.map_guard {α β : Type} (fs : Failures) (value : α) (F : α → β) :
    (fs.guard value).map F = fs.guard (F value) := by
  unfold guard
  split <;> rfl

namespace Graph

def mapInstances (F : Instance M T → Instance M T) (g : Graph M T) : Graph M T :=
  { g with instances := g.instances.map F }

section Instances

variable (F : Instance M T → Instance M T) (g : Graph M T)

@[simp] theorem size_mapInstances : (g.mapInstances F).size = g.size := by
  simp [mapInstances, size]

@[simp] theorem instance?_mapInstances (i : Nat) :
    (g.mapInstances F).instance? i = (g.instance? i).map F := by
  simp [mapInstances, instance?]

theorem addEdges_mapInstances (blind : ∀ x deps, F { x with deps } = { F x with deps })
    (added : List (Nat × Edge T)) :
    (g.mapInstances F).addEdges added = (g.addEdges added).mapInstances F := by
  have keeps : ∀ x, (F x).deps = x.deps := by
    intro x
    have same := congrArg Instance.deps (blind x x.deps)
    exact same
  have instances : ((g.mapInstances F).addEdges added).instances =
      ((g.addEdges added).mapInstances F).instances := by
    apply List.ext_getElem?
    intro i
    simp only [addEdges, mapInstances, List.getElem?_mapIdx, List.getElem?_map, Option.map_map]
    congr 1
    funext x
    rw [Function.comp_apply, Function.comp_apply, keeps]
    exact (blind x _).symm
  exact ext_groups instances rfl

end Instances

/-- A change of the instances of a graph that keeps their modules, their labels and their edges. -/
structure KeepsShape (F : Instance M T → Instance M T) (g : Graph M T) : Prop where
  group : ∀ x ∈ g.instances, (F x).group = x.group
  label : ∀ x ∈ g.instances, (F x).label = x.label
  deps : ∀ x ∈ g.instances, (F x).deps = x.deps

namespace KeepsShape

variable {F : Instance M T → Instance M T} {g : Graph M T}

theorem map_eq {α : Type} {read : Instance M T → α}
    (same : ∀ x ∈ g.instances, read (F x) = read x) (i : Nat) :
    ((g.mapInstances F).instance? i).map read = (g.instance? i).map read := by
  rw [instance?_mapInstances, Option.map_map]
  cases hx : g.instance? i with
  | none => rfl
  | some x => exact congrArg some (same x (mem_instances hx))

theorem deps_eq (keeps : g.KeepsShape F) : (g.mapInstances F).deps = g.deps := by
  funext i
  rw [Graph.deps, Graph.deps, map_eq keeps.deps]

theorem targets (keeps : g.KeepsShape F) : (g.mapInstances F).targets = g.targets := by
  funext i
  rw [Graph.targets, Graph.targets, keeps.deps_eq]

theorem groupName (keeps : g.KeepsShape F) : (g.mapInstances F).groupName = g.groupName := by
  funext i
  rw [Graph.groupName, Graph.groupName, map_eq keeps.group]

theorem label_eq (keeps : g.KeepsShape F) : (g.mapInstances F).label = g.label := by
  funext i
  rw [Graph.label, Graph.label, map_eq keeps.label]

theorem edgeCount (keeps : g.KeepsShape F) : (g.mapInstances F).edgeCount = g.edgeCount := by
  rw [edgeCount_eq_sum, edgeCount_eq_sum, mapInstances, List.map_map]
  congr 1
  exact List.map_congr_left fun x hx => congrArg List.length (keeps.deps x hx)

theorem dependents (keeps : g.KeepsShape F) : (g.mapInstances F).dependents = g.dependents := by
  funext i
  rw [Graph.dependents, Graph.dependents, size_mapInstances, keeps.targets]

theorem misplaced (keeps : g.KeepsShape F) (before rest : List Nat) :
    (g.mapInstances F).misplaced before rest = g.misplaced before rest := by
  induction rest generalizing before with
  | nil => rfl
  | cons i rest ih => rw [Graph.misplaced, Graph.misplaced, keeps.dependents, ih]

theorem topDown (keeps : g.KeepsShape F) : (g.mapInstances F).topDown = g.topDown := by
  simp only [Graph.topDown, finishOrder, cycleFailure, component, size_mapInstances, keeps.targets,
    keeps.label_eq, keeps.edgeCount, keeps.dependents, keeps.misplaced]

theorem bottomUp (keeps : g.KeepsShape F) : (g.mapInstances F).bottomUp = g.bottomUp := by
  rw [Graph.bottomUp, Graph.bottomUp, keeps.topDown]

end KeepsShape

end Graph

end BuildVariants
