import BuildVariants.Proofs.Graph.Acyclic
import BuildVariants.Proofs.Graph.Loading

/-!
# Graphs within graphs

A graph lies within another when its instances are found there under other numbers: with the
same contents and variants, with the same edges in the same order, and in the same order among
the instances of their module. Two graphs that lie within each other differ in their numbers only.
-/

set_option autoImplicit false

namespace BuildVariants

variable {M T : Type}

def Edge.renumber (σ : Nat → Nat) (e : Edge T) : Edge T := { e with target := σ e.target }

def Instance.renumber (σ : Nat → Nat) (x : Instance M T) : Instance M T :=
  { x with deps := x.deps.map (Edge.renumber σ) }

def Group.renumber (σ : Nat → Nat) (grp : Group) : Group := { grp with members := grp.members.map σ }

@[simp] theorem Group.renumber_id : Group.renumber id = id := by
  funext grp
  simp [Group.renumber]

namespace Graph

def variants (g : Graph M T) (name : String) : List Variant :=
  ((g.group? name).map fun grp => grp.members.map g.variant).getD []

theorem map_range_subperm {σ : Nat → Nat} {n n' : Nat}
    (injective : ∀ i < n, ∀ j < n, σ i = σ j → i = j) (inside : ∀ i < n, σ i < n') :
    ((List.range n).map σ).Subperm (List.range n') := by
  have nodup : ((List.range n).map σ).Nodup := by
    apply List.Nodup.map_on _ List.nodup_range
    intro i hi j hj same
    exact injective i (List.mem_range.mp hi) j (List.mem_range.mp hj) same
  apply List.subperm_of_subset nodup
  intro j hj
  obtain ⟨i, hi, rfl⟩ := List.mem_map.mp hj
  exact List.mem_range.mpr (inside i (List.mem_range.mp hi))

structure Embeds (σ : Nat → Nat) (g g' : Graph M T) : Prop where
  injective : ∀ i < g.size, ∀ j < g.size, σ i = σ j → i = j
  instances : ∀ i x, g.instance? i = some x → g'.instance? (σ i) = some (x.renumber σ)
  groups : ∀ grp ∈ g.groups, ∃ grp' ∈ g'.groups,
    grp'.name = grp.name ∧ (grp.members.map σ).Sublist grp'.members

namespace Embeds

variable {σ : Nat → Nat} {g g' : Graph M T}

theorem variant (emb : Embeds σ g g') {i : Nat} (hi : i < g.size) :
    g'.variant (σ i) = g.variant i := by
  obtain ⟨x, hx⟩ := g.exists_instance hi
  rw [Graph.variant, Graph.variant, emb.instances i x hx, hx]
  rfl

theorem lt (emb : Embeds σ g g') {i : Nat} (hi : i < g.size) : σ i < g'.size := by
  obtain ⟨x, hx⟩ := g.exists_instance hi
  exact g'.instance_lt (emb.instances i x hx)

theorem targets (emb : Embeds σ g g') {i : Nat} (hi : i < g.size) :
    g'.targets (σ i) = (g.targets i).map σ := by
  obtain ⟨x, hx⟩ := g.exists_instance hi
  rw [g.targets_of_instance hx, g'.targets_of_instance (emb.instances i x hx), Instance.renumber,
    List.map_map, List.map_map]
  rfl

theorem acyclic (emb : Embeds σ g g') (h : g'.Acyclic) : g.Acyclic := by
  apply h.of_projection σ
  intro i j hj
  rw [emb.targets (g.lt_of_mem_targets hj)]
  exact List.mem_map_of_mem hj

theorem size_le (emb : Embeds σ g g') : g.size ≤ g'.size := by
  simpa using (map_range_subperm emb.injective fun _ => emb.lt).length_le

theorem group? (emb : Embeds σ g g') (wf' : g'.WellFormed) {name : String} {grp : Group}
    (h : g.group? name = some grp) : ∃ grp', g'.group? name = some grp' ∧
      (grp.members.map σ).Sublist grp'.members := by
  obtain ⟨grp', hgrp', named, within⟩ := emb.groups grp (mem_of_group? h)
  exact ⟨grp', wf'.group?_eq_some_iff.mpr ⟨hgrp', named.trans (name_of_group? h)⟩, within⟩

theorem variants (emb : Embeds σ g g') (wf : g.WellFormed) (wf' : g'.WellFormed) (name : String) :
    (g.variants name).Sublist (g'.variants name) := by
  cases found : g.group? name with
  | none =>
    rw [Graph.variants, found]
    exact List.nil_sublist _
  | some grp =>
    obtain ⟨grp', found', within⟩ := emb.group? wf' found
    have same : grp.members.map g.variant = (grp.members.map σ).map g'.variant := by
      rw [List.map_map]
      apply List.map_congr_left
      intro i hi
      exact (emb.variant (wf.member_lt (mem_of_group? found) hi)).symm
    rw [Graph.variants, Graph.variants, found, found', Option.map_some, Option.map_some,
      Option.getD_some, Option.getD_some, same]
    exact within.map _

end Embeds

section Loading

variable [BuildModule M T] {kept kept' : List M}

def placeIn (kept kept' : List M) (i : Nat) : Nat :=
  ((kept[i]?).bind fun m => declaredAt? kept' (BuildModule.name m)).getD 0

theorem getElem?_placeIn (nodup : (kept'.map BuildModule.name).Nodup) (subset : kept ⊆ kept')
    {i : Nat} {m : M} (h : kept[i]? = some m) : kept'[placeIn kept kept' i]? = some m := by
  obtain ⟨j, hj⟩ := List.getElem?_of_mem (subset (List.mem_of_getElem? h))
  have declared : declaredAt? kept' (BuildModule.name m) = some j :=
    (declaredAt?_eq_some_iff nodup).mpr (by rw [hj, Option.map_some])
  rw [placeIn, h, Option.bind_some, declared, Option.getD_some, hj]

/-- The edges of a module that names the same declared modules in both lists. -/
theorem staticEdges_placeIn (nodup : (kept.map BuildModule.name).Nodup)
    (nodup' : (kept'.map BuildModule.name).Nodup) (subset : kept ⊆ kept') {m : M}
    (defined : ∀ dep ∈ BuildModule.deps m,
      dep ∈ kept'.map BuildModule.name → dep ∈ kept.map BuildModule.name) :
    (staticEdges kept' m : List (Edge T)) =
      (staticEdges kept m).map (Edge.renumber (placeIn kept kept')) := by
  rw [staticEdges, staticEdges, List.map_filterMap]
  apply List.filterMap_congr
  intro dep hdep
  cases found : declaredAt? kept dep with
  | none =>
    have absent := mt (defined dep hdep) (declaredAt?_eq_none_iff.mp found)
    rw [declaredAt?_eq_none_iff.mpr absent]
    rfl
  | some k =>
    obtain ⟨m', hm', named⟩ := Option.map_eq_some_iff.mp ((declaredAt?_eq_some_iff nodup).mp found)
    have there := getElem?_placeIn nodup' subset hm'
    have found' : declaredAt? kept' dep = some (placeIn kept kept' k) :=
      (declaredAt?_eq_some_iff nodup').mpr (by rw [there, Option.map_some, named])
    rw [found']
    rfl

theorem initial_embeds (nodup : (kept.map BuildModule.name).Nodup)
    (nodup' : (kept'.map BuildModule.name).Nodup) (subset : kept ⊆ kept')
    (defined : ∀ m ∈ kept, ∀ dep ∈ BuildModule.deps m,
      dep ∈ kept'.map BuildModule.name → dep ∈ kept.map BuildModule.name) :
    Embeds (placeIn kept kept') (initial kept : Graph M T) (initial kept') where
  injective i hi j hj same := by
    rw [size_initial] at hi hj
    have atI := getElem?_placeIn nodup' subset (List.getElem?_eq_getElem hi)
    have atJ := getElem?_placeIn nodup' subset (List.getElem?_eq_getElem hj)
    apply (List.getElem?_inj hi (List.Nodup.of_map _ nodup)).mp
    rw [List.getElem?_eq_getElem hi, List.getElem?_eq_getElem hj, ← atI, ← atJ, same]
  instances i x hx := by
    rw [instance?_initial] at hx ⊢
    obtain ⟨m, hm, rfl⟩ := Option.map_eq_some_iff.mp hx
    rw [getElem?_placeIn nodup' subset hm, Option.map_some,
      staticEdges_placeIn nodup nodup' subset (defined m (List.mem_of_getElem? hm))]
    rfl
  groups grp hgrp := by
    obtain ⟨i, hi, rfl⟩ := List.mem_mapIdx.mp hgrp
    have there := getElem?_placeIn nodup' subset (List.getElem?_eq_getElem hi)
    obtain ⟨hj, at_⟩ := List.getElem?_eq_some_iff.mp there
    refine ⟨_, List.mem_mapIdx.mpr ⟨placeIn kept kept' i, hj, rfl⟩, ?_, List.Sublist.refl _⟩
    rw [at_]

end Loading

end Graph

end BuildVariants
