import BuildVariants.Proofs.Graph.WellFormed

/-!
# Loaded graphs

A list of modules that loads has distinct names, and its graph is settled under no mutator:
one group and one instance for each module, in order.
-/

set_option autoImplicit false

namespace BuildVariants.Graph

variable {M T : Type} [BuildModule M T]

theorem partitionDeclared_of_no_repeats {seen : List String} {modules : List M}
    (h : (partitionDeclared seen modules).2 = []) :
    (partitionDeclared seen modules).1 = modules ∧ (modules.map BuildModule.name).Nodup ∧
      ∀ m ∈ modules, BuildModule.name m ∉ seen := by
  induction modules generalizing seen with
  | nil => simp [partitionDeclared]
  | cons m rest ih =>
    rw [partitionDeclared] at h ⊢
    by_cases again : BuildModule.name m ∈ seen
    · simp [again] at h
    · simp only [again, if_false] at h ⊢
      obtain ⟨kept, nodup, fresh⟩ := ih h
      refine ⟨by rw [kept], ?_, ?_⟩
      · rw [List.map_cons, List.nodup_cons]
        refine ⟨fun there => ?_, nodup⟩
        obtain ⟨m', hm', same⟩ := List.mem_map.mp there
        exact fresh m' hm' (by simp [same])
      · intro m' hm'
        rcases List.mem_cons.mp hm' with rfl | hm'
        · exact again
        · exact fun there => fresh m' hm' (by simp [there])

theorem partitionDeclared_of_nodup {seen : List String} {modules : List M}
    (nodup : (modules.map BuildModule.name).Nodup) (fresh : ∀ m ∈ modules, BuildModule.name m ∉ seen) :
    partitionDeclared seen modules = (modules, []) := by
  induction modules generalizing seen with
  | nil => rfl
  | cons m rest ih =>
    rw [List.map_cons, List.nodup_cons] at nodup
    have freshRest : ∀ m' ∈ rest, BuildModule.name m' ∉ BuildModule.name m :: seen := by
      intro m' hm'
      rw [List.mem_cons, not_or]
      exact ⟨fun same => nodup.1 (same ▸ List.mem_map_of_mem hm'), fresh m' (by simp [hm'])⟩
    rw [partitionDeclared, if_neg (fresh m (by simp)), ih nodup.2 freshRest]

theorem forall₂_filterMap {α β : Type} {R : α → β → Prop} {f : α → Option β} {test : α → Bool}
    {as : List α} (passing : ∀ a ∈ as, test a = true → ∃ b, f a = some b ∧ R a b)
    (failing : ∀ a ∈ as, test a = false → f a = none) :
    List.Forall₂ R (as.filter test) (as.filterMap f) := by
  induction as with
  | nil => exact .nil
  | cons a as ih =>
    have later := ih (fun c hc => passing c (by simp [hc])) fun c hc => failing c (by simp [hc])
    cases passes : test a with
    | true =>
      obtain ⟨b, led, related⟩ := passing a (by simp) passes
      rw [List.filter_cons_of_pos passes, List.filterMap_cons_some led]
      exact .cons related later
    | false =>
      rw [List.filter_cons_of_neg (by simp [passes]),
        List.filterMap_cons_none (failing a (by simp) passes)]
      exact later

theorem declaredAt?_eq_none_iff {kept : List M} {name : String} :
    declaredAt? kept name = none ↔ name ∉ kept.map BuildModule.name := by
  rw [declaredAt?, List.findIdx?_eq_none_iff, List.mem_map]
  constructor
  · rintro h ⟨m, hm, named⟩
    simpa [named] using h m hm
  · intro h m hm
    exact decide_eq_false fun named => h ⟨m, hm, named⟩

theorem declaredAt?_eq_some_iff {kept : List M} (nodup : (kept.map BuildModule.name).Nodup)
    {name : String} {k : Nat} :
    declaredAt? kept name = some k ↔ (kept[k]?).map BuildModule.name = some name :=
  findIdx?_key_eq_some_iff nodup

theorem undefinedDeps_eq_nil_iff {kept : List M} {m : M} :
    undefinedDeps kept m = [] ↔ ∀ dep ∈ BuildModule.deps m, dep ∈ kept.map BuildModule.name := by
  simp only [undefinedDeps, List.map_eq_nil_iff, List.filter_eq_nil_iff, Option.isNone_iff_eq_none,
    declaredAt?_eq_none_iff, not_not]

/-- What loads has distinct names and, unless missing modules are allowed, names only declared
ones as dependencies. -/
theorem load_eq_ok_iff {settings : Settings} {modules : List M} {g : Graph M T} :
    load settings modules = .ok g ↔ (modules.map BuildModule.name).Nodup ∧
      (settings.allowMissing = false → ∀ m ∈ modules, ∀ dep ∈ BuildModule.deps m,
        dep ∈ modules.map BuildModule.name) ∧ g = initial modules := by
  rw [load, loadFailures, Failures.guard_ofList_eq_ok_iff, List.append_eq_nil_iff,
    List.map_eq_nil_iff]
  have declared : ((if settings.allowMissing then [] else modules.flatMap (undefinedDeps modules)) =
      ([] : List Failure)) ↔ (settings.allowMissing = false → ∀ m ∈ modules,
        ∀ dep ∈ BuildModule.deps m, dep ∈ modules.map BuildModule.name) := by
    cases settings.allowMissing <;>
      simp only [Bool.false_eq_true, Bool.true_eq_false, if_true, if_false, false_implies,
        true_implies, List.flatMap_eq_nil_iff, undefinedDeps_eq_nil_iff]
  constructor
  · rintro ⟨⟨repeats, defined⟩, rfl⟩
    obtain ⟨kept, nodup, _⟩ := partitionDeclared_of_no_repeats repeats
    rw [kept] at defined ⊢
    exact ⟨nodup, declared.mp defined, rfl⟩
  · rintro ⟨nodup, defined, rfl⟩
    rw [partitionDeclared_of_nodup nodup (by simp)]
    exact ⟨⟨rfl, declared.mpr defined⟩, rfl⟩

theorem load_ok {settings : Settings} {modules : List M} {g : Graph M T}
    (h : load settings modules = .ok g) :
    g = initial modules ∧ (modules.map BuildModule.name).Nodup :=
  ⟨(load_eq_ok_iff.mp h).2.2, (load_eq_ok_iff.mp h).1⟩

theorem declaredAt?_lt {kept : List M} {name : String} {k : Nat}
    (h : declaredAt? kept name = some k) : k < kept.length := by
  obtain ⟨hk, _⟩ := List.findIdx?_eq_some_iff_getElem.mp h
  exact hk

theorem instance?_initial (kept : List M) (i : Nat) :
    (initial kept).instance? i =
      (kept[i]?).map fun m => ⟨BuildModule.name m, m, .empty, staticEdges kept m⟩ := by
  simp [initial, instance?]

@[simp] theorem size_initial (kept : List M) : (initial kept : Graph M T).size = kept.length := by
  simp [initial, size]

theorem groups_initial_names (kept : List M) :
    (initial kept : Graph M T).groups.map Group.name = kept.map BuildModule.name := by
  apply List.ext_getElem <;> simp [initial]

theorem groups_initial_members (kept : List M) :
    (initial kept : Graph M T).groups.map Group.members =
      (List.range kept.length).map fun i => [i] := by
  apply List.ext_getElem <;> simp [initial]

theorem initial_wellFormed {kept : List M} (nodup : (kept.map BuildModule.name).Nodup) :
    (initial kept : Graph M T).WellFormed where
  names_nodup := by rwa [groups_initial_names]
  members_ne_nil grp hgrp := by
    obtain ⟨i, hi, rfl⟩ := List.mem_mapIdx.mp hgrp
    simp
  members_arena := by
    rw [List.flatMap_def, groups_initial_members, ← List.flatMap_def, List.flatMap_singleton',
      size_initial]
  group_named grp hgrp id hid := by
    obtain ⟨i, hi, rfl⟩ := List.mem_mapIdx.mp hgrp
    rw [List.mem_singleton] at hid
    subst hid
    simp [groupName, instance?_initial, List.getElem?_eq_getElem hi]
  targets_valid i j hj := by
    rw [size_initial]
    cases hm : kept[i]? with
    | none => simp [targets, deps, instance?_initial, hm] at hj
    | some m =>
      rw [targets_of_instance _ (x := ⟨BuildModule.name m, m, .empty, staticEdges kept m⟩)
        (by rw [instance?_initial, hm]; rfl)] at hj
      obtain ⟨e, he, rfl⟩ := List.mem_map.mp hj
      obtain ⟨dep, _, edge⟩ := List.mem_filterMap.mp he
      obtain ⟨target, found, rfl⟩ := Option.map_eq_some_iff.mp edge
      exact declaredAt?_lt found

/-- What loads is settled before any mutator ran. -/
theorem load_settled {settings : Settings} {modules : List M} {g : Graph M T}
    (h : load settings modules = .ok g) : g.Settled (modules.map BuildModule.name) [] := by
  obtain ⟨rfl, nodup⟩ := load_ok h
  refine ⟨initial_wellFormed nodup, groups_initial_names modules, ?_, ?_⟩
  · intro x hx
    obtain ⟨m, _, rfl⟩ := List.mem_map.mp hx
    rfl
  · intro grp hgrp
    obtain ⟨k, _, rfl⟩ := List.mem_mapIdx.mp hgrp
    intro i hi j hj _
    rw [List.mem_singleton.mp hi, List.mem_singleton.mp hj]

end BuildVariants.Graph
