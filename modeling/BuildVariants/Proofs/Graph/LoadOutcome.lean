import BuildVariants.Declared.Module
import BuildVariants.Proofs.Graph.Contents

/-!
# The outcome of loading

A list of modules loads exactly when its names are distinct and, unless missing modules are allowed,
only declared modules are depended on. What is loaded has one group and one instance for each module,
in order. What is reported otherwise are the names that are declared again, at their second
declarations, and after them the undefined dependencies of the first declarations, each once.
-/

set_option autoImplicit false

namespace BuildVariants

section Earlier

variable {α : Type}

/-- The entries of a list whose key is that of just so many entries before them. -/
def withEarlier (count : Nat) (key : α → String) (as : List α) : List α :=
  (as.zipIdx.filter fun p => ((as.take p.2).map key).count (key p.1) = count).map Prod.fst

theorem withEarlier_concat (count : Nat) (key : α → String) (as : List α) (a : α) :
    withEarlier count key (as ++ [a]) = withEarlier count key as ++
      if (as.map key).count (key a) = count then [a] else [] := by
  have last := filterAfter_concat (fun before a => (before.map key).count (key a) = count) as a
  simp only [decide_eq_true_eq] at last
  exact last

end Earlier

namespace Failures

theorem extend_map {K : Type} [BEq K] [LawfulBEq K] {F : K → Failure} (injective : Function.Injective F)
    (plain : ∀ k, (F k).Plain) {fs : Failures} (fresh : ∀ k, F k ∉ fs.items) (ks : List K) :
    (fs.extend (ks.map F)).items = fs.items ++ ks.eraseDups.map F := by
  induction ks using List.reverseRecOn with
  | nil => simp
  | append_singleton ks k ih =>
    have known : F k ∈ (fs.extend (ks.map F)).items ↔ k ∈ ks := by
      simp [ih, fresh, injective.eq_iff]
    rw [List.map_append, extend_append, eraseDups_concat, List.map_singleton, extend_singleton]
    by_cases there : k ∈ ks
    · rw [push_of_mem (plain k) (known.mpr there), ih, if_pos there]
    · rw [push_of_notMem (plain k) (mt known.mp there), ih, if_neg there, List.map_append,
        List.append_assoc, List.map_singleton]

end Failures

namespace Graph

variable {M T : Type} [BuildModule M T]

theorem partitionDeclared_concat (seen : List String) (modules : List M) (m : M) :
    partitionDeclared seen (modules ++ [m]) =
      if BuildModule.name m ∈ seen ∨ BuildModule.name m ∈ modules.map BuildModule.name then
        ((partitionDeclared seen modules).1,
          (partitionDeclared seen modules).2 ++ [BuildModule.name m])
      else ((partitionDeclared seen modules).1 ++ [m], (partitionDeclared seen modules).2) := by
  induction modules generalizing seen with
  | nil => by_cases again : BuildModule.name m ∈ seen <;> simp [partitionDeclared, again]
  | cons m' rest ih =>
    rw [List.cons_append, partitionDeclared, partitionDeclared, ih, ih]
    by_cases again : BuildModule.name m' ∈ seen
    · have absorbed : BuildModule.name m = BuildModule.name m' → BuildModule.name m ∈ seen :=
        fun same => same ▸ again
      simp only [again, if_true, List.map_cons, List.mem_cons]
      split_ifs <;> grind
    · simp only [again, if_false, List.map_cons, List.mem_cons]
      split_ifs <;> grind

/-- The first declarations are kept. -/
theorem partitionDeclared_kept (modules : List M) :
    (partitionDeclared [] modules).1 = withEarlier 0 BuildModule.name modules := by
  induction modules using List.reverseRecOn with
  | nil => rfl
  | append_singleton modules m ih =>
    rw [partitionDeclared_concat, withEarlier_concat, ← ih]
    by_cases there : BuildModule.name m ∈ modules.map BuildModule.name
    · simp [there, List.count_eq_zero]
    · simp [there, List.count_eq_zero]

theorem mem_again_iff {modules : List M} {name : String} :
    name ∈ (partitionDeclared [] modules).2 ↔ 2 ≤ (modules.map BuildModule.name).count name := by
  induction modules using List.reverseRecOn with
  | nil => simp [partitionDeclared]
  | append_singleton modules m ih =>
    rw [partitionDeclared_concat, List.map_append, List.count_append, List.map_singleton,
      List.count_singleton]
    have some := List.count_pos_iff (a := BuildModule.name m) (l := modules.map BuildModule.name)
    split_ifs <;> grind

/-- Each name that is declared again is reported in the place of its second declaration. -/
theorem again_eraseDups (modules : List M) : (partitionDeclared [] modules).2.eraseDups =
    (withEarlier 1 BuildModule.name modules).map BuildModule.name := by
  induction modules using List.reverseRecOn with
  | nil => rfl
  | append_singleton modules m ih =>
    have twice : BuildModule.name m ∈ (partitionDeclared [] modules).2 ↔
        2 ≤ (modules.map BuildModule.name).count (BuildModule.name m) := mem_again_iff
    have once := List.count_pos_iff (a := BuildModule.name m) (l := modules.map BuildModule.name)
    rw [partitionDeclared_concat, withEarlier_concat, List.map_append, ← ih]
    by_cases declared : BuildModule.name m ∈ modules.map BuildModule.name
    · have some := once.mpr declared
      rw [if_pos (Or.inr declared), eraseDups_concat]
      by_cases again : BuildModule.name m ∈ (partitionDeclared [] modules).2
      · have more := twice.mp again
        rw [if_pos again, if_neg (by omega), List.map_nil, List.append_nil]
      · have less := mt twice.mpr again
        rw [if_neg again, if_pos (by omega), List.map_singleton]
    · have none := mt once.mp declared
      rw [if_neg (by simp [declared]), if_neg (by omega), List.map_nil, List.append_nil]

abbrev UndefinedDep := String × Option String × String

def UndefinedDep.toFailure (u : UndefinedDep) : Failure := .missingDependency u.1 u.2.1 u.2.2

theorem UndefinedDep.plain (u : UndefinedDep) : u.toFailure.Plain := nofun

theorem UndefinedDep.toFailure_injective : Function.Injective UndefinedDep.toFailure := by
  rintro ⟨source, location, dep⟩ ⟨source', location', dep'⟩ same
  obtain ⟨rfl, rfl, rfl⟩ := Failure.missingDependency.inj same
  rfl

theorem duplicateModule_plain (name : String) : (Failure.duplicateModule name).Plain := nofun

def undefinedIn (modules : List M) : List UndefinedDep :=
  (withEarlier 0 BuildModule.name modules).flatMap fun m =>
    ((BuildModule.deps m).filter fun dep => dep ∉ modules.map BuildModule.name).map fun dep =>
      (BuildModule.name m, BuildModule.location m, dep)

theorem mem_names_kept {modules : List M} {name : String} :
    name ∈ (partitionDeclared [] modules).1.map BuildModule.name ↔
      name ∈ modules.map BuildModule.name :=
  ⟨fun h => List.map_subset BuildModule.name partitionDeclared_subset h,
    fun h => mem_names_partitionDeclared h List.not_mem_nil⟩

theorem undefinedDeps_kept (modules : List M) :
    (partitionDeclared [] modules).1.flatMap (undefinedDeps (partitionDeclared [] modules).1) =
      (undefinedIn modules).map UndefinedDep.toFailure := by
  rw [undefinedIn, List.map_flatMap, ← partitionDeclared_kept]
  congr 1
  funext m
  have undefined : ∀ dep, (declaredAt? (partitionDeclared [] modules).1 dep).isNone =
      decide (dep ∉ modules.map BuildModule.name) := by
    intro dep
    rw [Bool.eq_iff_iff, Option.isNone_iff_eq_none, declaredAt?_eq_none_iff, mem_names_kept,
      decide_eq_true_iff]
  simp only [undefinedDeps, undefined, List.map_map]
  rfl

theorem loadFailures_items (settings : Settings) (modules : List M) :
    (loadFailures settings modules).items =
      (withEarlier 1 BuildModule.name modules).map (fun m => .duplicateModule (BuildModule.name m)) ++
        if settings.allowMissing then []
        else (undefinedIn modules).eraseDups.map UndefinedDep.toFailure := by
  have parts : loadFailures settings modules =
      (Failures.ofList ((partitionDeclared [] modules).2.map .duplicateModule)).extend
        (if settings.allowMissing then []
        else (partitionDeclared [] modules).1.flatMap
          (undefinedDeps (partitionDeclared [] modules).1)) :=
    Failures.extend_append _ _ _
  have repeats : (Failures.ofList ((partitionDeclared [] modules).2.map .duplicateModule)).items =
      (withEarlier 1 BuildModule.name modules).map fun m => .duplicateModule (BuildModule.name m) := by
    have injective : Function.Injective Failure.duplicateModule :=
      fun _ _ => Failure.duplicateModule.inj
    have fresh : ∀ name, Failure.duplicateModule name ∉ Failures.empty.items :=
      fun _ => List.not_mem_nil
    rw [Failures.ofList, Failures.extend_map injective duplicateModule_plain fresh, again_eraseDups,
      List.map_map]
    rfl
  rw [parts]
  cases settings.allowMissing with
  | true => exact repeats.trans (List.append_nil _).symm
  | false =>
    have apart : ∀ u : UndefinedDep, u.toFailure ∉
        (Failures.ofList ((partitionDeclared [] modules).2.map .duplicateModule)).items := by
      intro u there
      rw [repeats] at there
      obtain ⟨_, _, same⟩ := List.mem_map.mp there
      cases same
    simp only [Bool.false_eq_true, if_false]
    rw [undefinedDeps_kept,
      Failures.extend_map UndefinedDep.toFailure_injective UndefinedDep.plain apart, repeats]

theorem loadFailures_nodup (settings : Settings) (modules : List M) :
    (loadFailures settings modules).items.Nodup := by
  apply Failures.nodup_ofList
  intro f hf
  rcases List.mem_append.mp hf with repeated | undefined
  · obtain ⟨name, _, rfl⟩ := List.mem_map.mp repeated
    exact duplicateModule_plain name
  · cases allowed : settings.allowMissing with
    | true => simp [allowed] at undefined
    | false =>
      rw [allowed, if_neg Bool.false_ne_true, undefinedDeps_kept] at undefined
      obtain ⟨u, _, rfl⟩ := List.mem_map.mp undefined
      exact u.plain

/-- The edge for a dependency on a declared module, wherever in the list that module stands. -/
structure EdgeTo (modules : List M) (dep : String) (e : Edge T) : Prop where
  target : (modules[e.target]?).map BuildModule.name = some dep
  tag : e.tag = BuildModule.staticTag M
  far : e.far = false

structure InstanceOf (modules : List M) (m : M) (x : Instance M T) : Prop where
  group : x.group = BuildModule.name m
  content : x.content = m
  variant : x.variant = .empty
  deps : List.Forall₂ (EdgeTo modules)
    ((BuildModule.deps m).filter fun dep => dep ∈ modules.map BuildModule.name) x.deps

theorem staticEdges_edgeTo {modules : List M} (nodup : (modules.map BuildModule.name).Nodup) (m : M) :
    List.Forall₂ (EdgeTo modules)
      ((BuildModule.deps m).filter fun dep => dep ∈ modules.map BuildModule.name)
      (staticEdges modules m) := by
  refine forall₂_filterMap (fun dep _ there => ?_) fun dep _ absent => ?_
  · cases found : declaredAt? modules dep with
    | none => exact absurd (of_decide_eq_true there) (declaredAt?_eq_none_iff.mp found)
    | some k => exact ⟨_, rfl, (declaredAt?_eq_some_iff nodup).mp found, rfl, rfl⟩
  · rw [declaredAt?_eq_none_iff.mpr (of_decide_eq_false absent), Option.map_none]

/-- Loading succeeds exactly for distinct names that, unless missing modules are allowed, are all that
the modules depend on. The graph has a group and an instance for each module, in their order. A
failure lists the names with a second declaration, in the order of these, and then the undefined
dependencies of the first declarations, in their order: each of them once. -/
theorem load_exact (settings : Settings) (modules : List M) :
    ((∃ g, load settings modules = .ok g) ↔ (modules.map BuildModule.name).Nodup ∧
      (settings.allowMissing = false → ∀ m ∈ modules, ∀ dep ∈ BuildModule.deps m,
        dep ∈ modules.map BuildModule.name)) ∧
    (∀ g, load settings modules = .ok g →
      g.groups = modules.mapIdx (fun i m => ⟨BuildModule.name m, [i]⟩) ∧
        List.Forall₂ (InstanceOf modules) modules g.instances) ∧
    ∀ fs, load (T := T) settings modules = .error fs → fs.items.Nodup ∧ fs.items =
      (withEarlier 1 BuildModule.name modules).map (fun m => .duplicateModule (BuildModule.name m)) ++
        if settings.allowMissing then []
        else (undefinedIn modules).eraseDups.map UndefinedDep.toFailure := by
  refine ⟨?_, ?_, ?_⟩
  · constructor
    · rintro ⟨g, loaded⟩
      obtain ⟨nodup, defined, _⟩ := load_eq_ok_iff.mp loaded
      exact ⟨nodup, defined⟩
    · rintro ⟨nodup, defined⟩
      exact ⟨_, load_eq_ok_iff.mpr ⟨nodup, defined, rfl⟩⟩
  · intro g loaded
    obtain ⟨rfl, nodup⟩ := load_ok loaded
    refine ⟨rfl, ?_⟩
    rw [initial, List.forall₂_map_right_iff, List.forall₂_same]
    exact fun m _ => ⟨rfl, rfl, rfl, staticEdges_edgeTo nodup m⟩
  · intro fs failed
    obtain ⟨rfl, _⟩ := Failures.guard_eq_error_iff.mp failed
    exact ⟨loadFailures_nodup settings modules, loadFailures_items settings modules⟩

def repetitive : List DeclaredModule := [
  { name := "lib", deps := ["glue", "app"] },
  { name := "app", deps := ["lib", "rust", "glue", "lib", "rust"], location := "modules.lua:2" },
  { name := "app", deps := ["ghost"] },
  { name := "lib" },
  { name := "app" }]

theorem load_exact_repetitive :
    (∃ fs, load ⟨false⟩ repetitive = .error fs ∧ fs.items.Nodup ∧
      fs.items = (withEarlier 1 DeclaredModule.name repetitive).map (.duplicateModule ·.name) ++
        (undefinedIn repetitive).eraseDups.map UndefinedDep.toFailure ∧
      fs.messages = [
        "module \"app\" is defined more than once", "module \"lib\" is defined more than once",
        "\"lib\" depends on undefined module \"glue\"",
        "modules.lua:2: \"app\" depends on undefined module \"rust\"",
        "modules.lua:2: \"app\" depends on undefined module \"glue\""]) ∧
    ∃ g, load ⟨true⟩ (repetitive.take 2) = .ok g ∧
      List.Forall₂ (InstanceOf (repetitive.take 2)) (repetitive.take 2) g.instances ∧
      (List.range g.size).map (fun i => (g.label i, g.depLabels i)) =
        [("lib()", ["app()"]), ("app()", ["lib()", "lib()"])] := by
  obtain ⟨fs, fails, messages⟩ : ∃ fs, load ⟨false⟩ repetitive = .error fs ∧ fs.messages = [
        "module \"app\" is defined more than once", "module \"lib\" is defined more than once",
        "\"lib\" depends on undefined module \"glue\"",
        "modules.lua:2: \"app\" depends on undefined module \"rust\"",
        "modules.lua:2: \"app\" depends on undefined module \"glue\""] := ⟨_, rfl, by decide +kernel⟩
  obtain ⟨g, loaded, labels⟩ : ∃ g, load ⟨true⟩ (repetitive.take 2) = .ok g ∧
      (List.range g.size).map (fun i => (g.label i, g.depLabels i)) =
        [("lib()", ["app()"]), ("app()", ["lib()", "lib()"])] := ⟨_, rfl, by decide +kernel⟩
  obtain ⟨nodup, items⟩ := (load_exact ⟨false⟩ repetitive).2.2 fs fails
  exact ⟨⟨fs, fails, nodup, items, messages⟩,
    g, loaded, ((load_exact ⟨true⟩ (repetitive.take 2)).2.1 g loaded).2, labels⟩

end Graph

end BuildVariants
