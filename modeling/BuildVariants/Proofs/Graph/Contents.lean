import BuildVariants.Proofs.Graph.Instances
import BuildVariants.Proofs.Graph.Loading

/-!
# Graphs with other contents

The orders of a graph, its groups and the labels of its instances have nothing to do with what the
instances hold. A list of modules loads in strict mode, once the undeclared names are deleted from
the dependencies, just as the list itself loads in relaxed mode.
-/

set_option autoImplicit false

namespace BuildVariants

variable {M T : Type}

/-- A change of modules after which failures blame them as before. -/
structure KeepsLabel [BuildModule M T] (f : M → M) : Prop where
  name : ∀ m, BuildModule.name (f m) = BuildModule.name m
  location : ∀ m, BuildModule.location (f m) = BuildModule.location m

theorem keepsLabel_id [BuildModule M T] : KeepsLabel (id : M → M) := ⟨fun _ => rfl, fun _ => rfl⟩

def Instance.mapContent (f : M → M) (x : Instance M T) : Instance M T :=
  { x with content := f x.content }

namespace Graph

def mapContents (f : M → M) (g : Graph M T) : Graph M T :=
  { g with instances := g.instances.map (Instance.mapContent f) }

section Orders

variable (f : M → M) (g : Graph M T)

theorem keepsShape_mapContent : g.KeepsShape (Instance.mapContent f) :=
  ⟨fun _ _ => rfl, fun _ _ => rfl, fun _ _ => rfl⟩

@[simp] theorem instance?_mapContents (i : Nat) :
    (g.mapContents f).instance? i = (g.instance? i).map (Instance.mapContent f) :=
  g.instance?_mapInstances _ i

@[simp] theorem topDown_mapContents : (g.mapContents f).topDown = g.topDown :=
  (g.keepsShape_mapContent f).topDown

@[simp] theorem bottomUp_mapContents : (g.mapContents f).bottomUp = g.bottomUp :=
  (g.keepsShape_mapContent f).bottomUp

theorem addEdges_mapContents (added : List (Nat × Edge T)) :
    (g.mapContents f).addEdges added = (g.addEdges added).mapContents f :=
  g.addEdges_mapInstances _ (fun _ _ => rfl) added

end Orders

section Loading

variable [BuildModule M T] {f : M → M} (keeps : KeepsLabel f)

include keeps in
theorem partitionDeclared_map (seen : List String) (modules : List M) :
    partitionDeclared seen (modules.map f) =
      ((partitionDeclared seen modules).1.map f, (partitionDeclared seen modules).2) := by
  induction modules generalizing seen with
  | nil => rfl
  | cons m rest ih =>
    rw [List.map_cons, partitionDeclared, partitionDeclared, keeps.name]
    by_cases again : BuildModule.name m ∈ seen
    · simp only [again, if_true, ih]
    · simp only [again, if_false, ih, List.map_cons]

theorem mem_names_partitionDeclared {seen : List String} {modules : List M} {name : String}
    (h : name ∈ modules.map BuildModule.name) (fresh : name ∉ seen) :
    name ∈ (partitionDeclared seen modules).1.map BuildModule.name := by
  induction modules generalizing seen with
  | nil => cases h
  | cons m rest ih =>
    rw [List.map_cons, List.mem_cons] at h
    rw [partitionDeclared]
    by_cases again : BuildModule.name m ∈ seen
    · have other : name ≠ BuildModule.name m := fun same => fresh (same ▸ again)
      simp only [again, if_true]
      exact ih (h.resolve_left other) fresh
    · simp only [again, if_false, List.map_cons, List.mem_cons]
      by_cases same : name = BuildModule.name m
      · exact Or.inl same
      · exact Or.inr (ih (h.resolve_left same) (by simp [same, fresh]))

theorem partitionDeclared_subset {seen : List String} {modules : List M} :
    (partitionDeclared seen modules).1 ⊆ modules := by
  induction modules generalizing seen with
  | nil => exact List.Subset.refl _
  | cons m rest ih =>
    rw [partitionDeclared]
    by_cases again : BuildModule.name m ∈ seen
    · simp only [again, if_true]
      exact List.Subset.trans ih (List.subset_cons_self m rest)
    · simp only [again, if_false]
      exact List.cons_subset_cons m ih

include keeps in
theorem declaredAt?_map (kept : List M) (name : String) :
    declaredAt? (kept.map f) name = declaredAt? kept name := by
  rw [declaredAt?, declaredAt?, List.findIdx?_map]
  congr 1
  funext m
  rw [Function.comp_apply, keeps.name]

section Erased

variable {kept : List M} {names : List String}
  (declared : ∀ dep, dep ∈ kept.map BuildModule.name ↔ dep ∈ names)
  (deps : ∀ m, BuildModule.deps (f m) = (BuildModule.deps m).filter fun dep => dep ∈ names)

include keeps declared deps

theorem staticEdges_map (m : M) :
    (staticEdges (kept.map f) (f m) : List (Edge T)) = staticEdges kept m := by
  rw [staticEdges, staticEdges, deps, List.filterMap_filter]
  apply List.filterMap_congr
  intro dep _
  rw [declaredAt?_map keeps]
  by_cases there : dep ∈ names
  · simp [there]
  · have absent := declaredAt?_eq_none_iff.mpr (mt (declared dep).mp there)
    simp [there, absent]

theorem undefinedDeps_map : (kept.map f).flatMap (undefinedDeps (kept.map f)) = [] := by
  rw [List.flatMap_eq_nil_iff]
  intro m' hm'
  obtain ⟨m, _, rfl⟩ := List.mem_map.mp hm'
  rw [undefinedDeps_eq_nil_iff]
  intro dep hdep
  rw [deps, List.mem_filter, decide_eq_true_iff] at hdep
  have same : (kept.map f).map BuildModule.name = kept.map BuildModule.name := by
    rw [List.map_map]
    exact List.map_congr_left fun m _ => keeps.name m
  rw [same]
  exact (declared dep).mpr hdep.2

theorem initial_map : (initial (kept.map f) : Graph M T) = (initial kept).mapContents f := by
  have edges : ∀ m, (staticEdges (kept.map f) (f m) : List (Edge T)) = staticEdges kept m :=
    staticEdges_map keeps declared deps
  have groups : (initial (kept.map f) : Graph M T).groups = (initial kept).groups := by
    apply List.ext_getElem?
    intro i
    simp only [initial, List.getElem?_mapIdx, List.getElem?_map, Option.map_map, Function.comp_def,
      keeps.name]
  have instances : (initial (kept.map f) : Graph M T).instances =
      ((initial kept).mapContents f).instances := by
    simp only [initial, mapContents, List.map_map, Function.comp_def, edges, keeps.name]
    rfl
  exact ext_groups instances groups

end Erased

include keeps in
/-- Modules from whose dependencies the undeclared names are deleted load in strict mode as they
load in relaxed mode without that. -/
theorem load_map {modules : List M}
    (deps : ∀ m, BuildModule.deps (f m) =
      (BuildModule.deps m).filter fun dep => dep ∈ modules.map BuildModule.name) :
    (load ⟨false⟩ (modules.map f) : Except Failures (Graph M T)) =
      (load ⟨true⟩ modules).map (mapContents f) := by
  have declared : ∀ dep, dep ∈ (partitionDeclared [] modules).1.map BuildModule.name ↔
      dep ∈ modules.map BuildModule.name := by
    intro dep
    constructor
    · intro h
      exact List.map_subset BuildModule.name partitionDeclared_subset h
    · intro h
      exact mem_names_partitionDeclared h List.not_mem_nil
  rw [load, load, Failures.map_guard, loadFailures, loadFailures, partitionDeclared_map keeps]
  generalize (partitionDeclared [] modules).1 = kept at declared
  have complete := undefinedDeps_map keeps declared deps
  have loaded : (initial (kept.map f) : Graph M T) = _ := initial_map keeps declared deps
  simp only [complete, loaded, if_true, Bool.false_eq_true, if_false]

end Loading

end Graph

end BuildVariants
