import BuildVariants.Proofs.Graph.Embedding

/-!
# Renumbered graphs

Two graphs that lie within each other are the same but for the numbers of their instances: the
modules have the same variants in the same order, and an instance is as acyclic as its
counterpart. Where passes add edges in an order of their own, the counterparts have the same
edges up to that order only.
-/

set_option autoImplicit false

namespace BuildVariants

namespace Graph

variable {M T : Type}

/-- The graph `g'` has the instances of `g` under the numbers that `σ` gives them. The edges of
counterparts agree in the given sense. -/
structure Renumbers (agree : List (Edge T) → List (Edge T) → Prop) (σ : Nat → Nat)
    (g g' : Graph M T) : Prop where
  size : g'.size = g.size
  injective : ∀ i < g.size, ∀ j < g.size, σ i = σ j → i = j
  group? : ∀ name, g'.group? name = (g.group? name).map (Group.renumber σ)
  instances : ∀ i x, g.instance? i = some x → ∃ deps,
    g'.instance? (σ i) = some { x with deps } ∧ agree (x.deps.map (Edge.renumber σ)) deps

section Variants

variable {g : Graph M T}

theorem variations_eq (name mutator : String) :
    g.variations name mutator = (g.variants name).map fun v => v.get mutator := by
  rw [variations, variants]
  cases g.group? name with
  | none => rfl
  | some grp =>
    rw [Option.map_some, Option.getD_some, List.map_map]
    rfl

end Variants

section Embedded

variable {σ τ : Nat → Nat} {g g' : Graph M T}

theorem Embeds.group?_eq (emb : Embeds σ g g') (back : Embeds τ g' g) (wf : g.WellFormed)
    (wf' : g'.WellFormed) (name : String) :
    g'.group? name = (g.group? name).map (Group.renumber σ) := by
  cases found : g.group? name with
  | none =>
    cases found' : g'.group? name with
    | none => rfl
    | some grp' =>
      obtain ⟨grp, there, _⟩ := back.group? wf found'
      rw [found] at there
      cases there
  | some grp =>
    obtain ⟨grp', found', within⟩ := emb.group? wf' found
    obtain ⟨grp'', there, within'⟩ := back.group? wf found'
    obtain rfl : grp = grp'' := Option.some.inj (found.symm.trans there)
    have members : grp.members.map σ = grp'.members := by
      apply within.eq_of_length_le
      simpa using within'.length_le
    have named : grp'.name = grp.name := (name_of_group? found').trans (name_of_group? found).symm
    rw [found', Option.map_some, Group.renumber, members, ← named]

theorem Embeds.renumbers (emb : Embeds σ g g') (back : Embeds τ g' g) (wf : g.WellFormed)
    (wf' : g'.WellFormed) : Renumbers Eq σ g g' where
  size := Nat.le_antisymm back.size_le emb.size_le
  injective := emb.injective
  group? := emb.group?_eq back wf wf'
  instances i x hx := ⟨_, emb.instances i x hx, rfl⟩

end Embedded

namespace Renumbers

variable {agree : List (Edge T) → List (Edge T) → Prop} {σ : Nat → Nat} {g g' : Graph M T}

theorem lt (ren : Renumbers agree σ g g') {i : Nat} (hi : i < g.size) : σ i < g'.size := by
  obtain ⟨x, hx⟩ := g.exists_instance hi
  obtain ⟨deps, there, _⟩ := ren.instances i x hx
  exact g'.instance_lt there

theorem perm_range (ren : Renumbers agree σ g g') :
    ((List.range g.size).map σ).Perm (List.range g'.size) := by
  apply (map_range_subperm ren.injective fun _ => ren.lt).perm_of_length_le
  simp [ren.size]

theorem surjective (ren : Renumbers agree σ g g') {n : Nat} (hn : n < g'.size) :
    ∃ i < g.size, σ i = n := by
  have there := ren.perm_range.symm.subset (List.mem_range.mpr hn)
  obtain ⟨i, hi, named⟩ := List.mem_map.mp there
  exact ⟨i, List.mem_range.mp hi, named⟩

theorem variant (ren : Renumbers agree σ g g') {i : Nat} (hi : i < g.size) :
    g'.variant (σ i) = g.variant i := by
  obtain ⟨x, hx⟩ := g.exists_instance hi
  obtain ⟨deps, there, _⟩ := ren.instances i x hx
  rw [variant_of_instance hx, variant_of_instance there]

theorem variants (ren : Renumbers agree σ g g') (wf : g.WellFormed) (name : String) :
    g'.variants name = g.variants name := by
  rw [Graph.variants, Graph.variants, ren.group? name]
  cases found : g.group? name with
  | none => rfl
  | some grp =>
    rw [Option.map_some, Option.map_some, Option.map_some, Option.getD_some, Option.getD_some,
      Group.renumber, List.map_map]
    apply List.map_congr_left
    intro i hi
    exact ren.variant (wf.member_lt (mem_of_group? found) hi)

theorem imp {agree' : List (Edge T) → List (Edge T) → Prop} (ren : Renumbers agree σ g g')
    (weaker : ∀ deps deps', agree deps deps' → agree' deps deps') : Renumbers agree' σ g g' where
  size := ren.size
  injective := ren.injective
  group? := ren.group?
  instances i x hx := by
    obtain ⟨deps, there, agreed⟩ := ren.instances i x hx
    exact ⟨deps, there, weaker _ _ agreed⟩

/-- The counterpart of an instance is the one of its module that has its variant. -/
theorem identified (ren : Renumbers agree σ g g') {names dims : List String}
    (settled' : g'.Settled names dims) {i j : Nat} {x y : Instance M T}
    (hx : g.instance? i = some x) (hy : g'.instance? j = some y) (group : x.group = y.group)
    (variant : (x.variant == y.variant) = true) : σ i = j := by
  obtain ⟨deps, there, _⟩ := ren.instances i x hx
  exact settled'.eq_of_variant there hy group variant

/-- A path of the one graph runs between the counterparts of a path of the other. -/
theorem dependsOn (ren : Renumbers agree σ g g') (wf : g.WellFormed)
    (only : ∀ deps deps', agree deps deps' → deps' ⊆ deps) {n m : Nat} (path : g'.DependsOn n m) :
    ∀ i < g.size, σ i = n → ∃ j < g.size, σ j = m ∧ g.DependsOn i j := by
  have edge : ∀ i < g.size, ∀ m ∈ g'.targets (σ i), ∃ j ∈ g.targets i, j < g.size ∧ σ j = m := by
    intro i hi m hm
    obtain ⟨x, hx⟩ := g.exists_instance hi
    obtain ⟨deps, there, agreed⟩ := ren.instances i x hx
    rw [g'.targets_of_instance there] at hm
    obtain ⟨e', he', rfl⟩ := List.mem_map.mp hm
    obtain ⟨e, he, rfl⟩ := List.mem_map.mp (only _ _ agreed he')
    refine ⟨e.target, ?_, wf.target_lt hx he, rfl⟩
    rw [g.targets_of_instance hx]
    exact List.mem_map_of_mem he
  induction path with
  | single hm =>
    rintro i hi rfl
    obtain ⟨j, hj, inside, named⟩ := edge i hi _ hm
    exact ⟨j, inside, named, .single hj⟩
  | tail _ hm ih =>
    intro i hi named
    obtain ⟨k, hk, rfl, path⟩ := ih i hi named
    obtain ⟨j, hj, inside, named⟩ := edge k hk _ hm
    exact ⟨j, inside, named, .tail path hj⟩

theorem acyclic (ren : Renumbers agree σ g g') (wf : g.WellFormed)
    (only : ∀ deps deps', agree deps deps' → deps' ⊆ deps) (h : g.Acyclic) : g'.Acyclic := by
  intro n loop
  have inside : n < g'.size := by
    rcases Relation.TransGen.head'_iff.mp loop with ⟨m, hm, _⟩
    exact g'.lt_of_mem_targets hm
  obtain ⟨i, hi, rfl⟩ := ren.surjective inside
  obtain ⟨j, hj, same, path⟩ := ren.dependsOn wf only loop i hi rfl
  obtain rfl := ren.injective j hj i hi same
  exact h j path

end Renumbers

end Graph

end BuildVariants
