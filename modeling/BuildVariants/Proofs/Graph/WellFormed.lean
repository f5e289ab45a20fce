import BuildVariants.Graph.Loading
import BuildVariants.Proofs.Failure
import BuildVariants.Proofs.Graph.VisitOrder
import BuildVariants.Proofs.Variant
import Mathlib.Data.List.Nodup

/-!
# Well-formed graphs

In a well-formed graph the groups share out the arena in order and every edge ends in it. In
a settled graph, moreover, the variants of the instances have one entry for each completed
mutator and tell the instances of a group apart. Loading builds a settled graph, and edges
that end in the arena keep it one.
-/

set_option autoImplicit false

namespace BuildVariants

namespace Graph

variable {M T : Type}

structure WellFormed (g : Graph M T) : Prop where
  names_nodup : (g.groups.map Group.name).Nodup
  members_ne_nil : ∀ grp ∈ g.groups, grp.members ≠ []
  /-- The groups' members in a row are the arena indices. -/
  members_arena : g.groups.flatMap Group.members = List.range g.size
  group_named : ∀ grp ∈ g.groups, ∀ id ∈ grp.members, g.groupName id = grp.name
  targets_valid : g.TargetsValid

/-- The graph of the modules of the given names, after mutators of the given names. -/
structure Settled (names dims : List String) (g : Graph M T) : Prop extends g.WellFormed where
  group_names : g.groups.map Group.name = names
  entries : ∀ x ∈ g.instances, x.variant.entries.map Variation.mutator = dims
  distinct : ∀ grp ∈ g.groups, ∀ i ∈ grp.members, ∀ j ∈ grp.members,
    g.variant i == g.variant j → i = j

theorem variant_of_instance {g : Graph M T} {i : Nat} {x : Instance M T}
    (h : g.instance? i = some x) : g.variant i = x.variant := by
  simp [variant, h]

theorem groupName_of_instance {g : Graph M T} {i : Nat} {x : Instance M T}
    (h : g.instance? i = some x) : g.groupName i = x.group := by
  simp [groupName, h]

theorem mem_instances {g : Graph M T} {i : Nat} {x : Instance M T} (h : g.instance? i = some x) :
    x ∈ g.instances :=
  List.mem_of_getElem? h

theorem WellFormed.member_lt {g : Graph M T} (wf : g.WellFormed) {grp : Group}
    (hgrp : grp ∈ g.groups) {id : Nat} (hid : id ∈ grp.members) : id < g.size := by
  have inside : id ∈ g.groups.flatMap Group.members := List.mem_flatMap.mpr ⟨grp, hgrp, hid⟩
  rw [wf.members_arena] at inside
  exact List.mem_range.mp inside

theorem TargetsValid.target_lt {g : Graph M T} (valid : g.TargetsValid) {i : Nat} {x : Instance M T}
    (hx : g.instance? i = some x) {e : Edge T} (he : e ∈ x.deps) : e.target < g.size :=
  g.targetsValid_iff.mp valid x (mem_instances hx) e he

theorem WellFormed.target_lt {g : Graph M T} (wf : g.WellFormed) {i : Nat} {x : Instance M T}
    (hx : g.instance? i = some x) {e : Edge T} (he : e ∈ x.deps) : e.target < g.size :=
  wf.targets_valid.target_lt hx he

theorem findIdx?_key_eq_some_iff {α : Type} {f : α → String} {as : List α}
    (nodup : (as.map f).Nodup) {key : String} {k : Nat} :
    (as.findIdx? fun a => f a = key) = some k ↔ (as[k]?).map f = some key := by
  rw [List.findIdx?_eq_some_iff_getElem]
  constructor
  · rintro ⟨hk, named, _⟩
    simpa [List.getElem?_eq_getElem hk] using named
  · intro h
    obtain ⟨a, ha, named⟩ := Option.map_eq_some_iff.mp h
    obtain ⟨hk, found⟩ := List.getElem?_eq_some_iff.mp ha
    refine ⟨hk, by simp [found, named], ?_⟩
    intro j hj same
    have atJ : (as.map f)[j]? = (as.map f)[k]? := by
      have hj' : j < as.length := Nat.lt_trans hj hk
      rw [List.getElem?_map, List.getElem?_map, ha, List.getElem?_eq_getElem hj', Option.map_some,
        Option.map_some, named]
      exact congrArg some (of_decide_eq_true same)
    have inside : j < (as.map f).length := by
      rw [List.length_map]
      omega
    have : j = k := (List.getElem?_inj inside nodup).mp atJ
    omega

theorem groupIndex?_eq_some_iff {g : Graph M T} (nodup : (g.groups.map Group.name).Nodup)
    {name : String} {k : Nat} :
    g.groupIndex? name = some k ↔ (g.groups[k]?).map Group.name = some name := by
  rw [groupIndex?_eq]
  exact findIdx?_key_eq_some_iff nodup

theorem mem_of_group? {g : Graph M T} {name : String} {grp : Group}
    (h : g.group? name = some grp) : grp ∈ g.groups := by
  rw [group?_eq] at h
  exact List.mem_of_find?_eq_some h

theorem name_of_group? {g : Graph M T} {name : String} {grp : Group}
    (h : g.group? name = some grp) : grp.name = name := by
  rw [group?_eq] at h
  simpa using List.find?_some h

theorem group?_isSome_iff {g : Graph M T} {name : String} :
    (g.group? name).isSome = true ↔ name ∈ g.groups.map Group.name := by
  rw [group?_eq, List.find?_isSome, List.mem_map]
  simp

theorem WellFormed.group?_eq_some_iff {g : Graph M T} (wf : g.WellFormed) {name : String}
    {grp : Group} : g.group? name = some grp ↔ grp ∈ g.groups ∧ grp.name = name := by
  constructor
  · intro h
    exact ⟨mem_of_group? h, name_of_group? h⟩
  · rintro ⟨hgrp, rfl⟩
    cases found : g.group? grp.name with
    | none =>
      have absent := group?_isSome_iff.mpr (List.mem_map_of_mem hgrp)
      rw [found] at absent
      cases absent
    | some other =>
      exact congrArg some (List.inj_on_of_nodup_map wf.names_nodup (mem_of_group? found) hgrp
        (name_of_group? found))

theorem WellFormed.findMember_lt {g : Graph M T} (wf : g.WellFormed) {grp : Group}
    (hgrp : grp ∈ g.groups) {test : Variant → Bool} {id : Nat}
    (h : g.findMember grp test = some id) : id < g.size :=
  wf.member_lt hgrp (List.mem_of_find?_eq_some h)

theorem WellFormed.group_of_instance {g : Graph M T} (wf : g.WellFormed) {i : Nat}
    {x : Instance M T} (hx : g.instance? i = some x) :
    ∃ grp, g.group? x.group = some grp ∧ i ∈ grp.members := by
  have inside : i ∈ g.groups.flatMap Group.members := by
    rw [wf.members_arena]
    exact List.mem_range.mpr (g.instance_lt hx)
  obtain ⟨grp, hgrp, member⟩ := List.mem_flatMap.mp inside
  refine ⟨grp, wf.group?_eq_some_iff.mpr ⟨hgrp, ?_⟩, member⟩
  rw [← wf.group_named grp hgrp i member, groupName_of_instance hx]

theorem WellFormed.group_of_member {g : Graph M T} (wf : g.WellFormed) {name : String} {grp : Group}
    (defined : g.group? name = some grp) {i : Nat} (member : i ∈ grp.members) {x : Instance M T}
    (hx : g.instance? i = some x) : x.group = name := by
  rw [← groupName_of_instance hx, wf.group_named grp (mem_of_group? defined) i member,
    name_of_group? defined]

theorem Settled.variant_distinct {g : Graph M T} {names dims : List String}
    (settled : g.Settled names dims) (nodup : dims.Nodup) {i : Nat} {x : Instance M T}
    (hx : g.instance? i = some x) : x.variant.Distinct := by
  rw [Variant.Distinct, settled.entries x (mem_instances hx)]
  exact nodup

/-- In a settled graph an instance is known by its module and its variant. -/
theorem Settled.eq_of_variant {g : Graph M T} {names dims : List String}
    (settled : g.Settled names dims) {i j : Nat} {x y : Instance M T}
    (hx : g.instance? i = some x) (hy : g.instance? j = some y) (group : x.group = y.group)
    (variant : (x.variant == y.variant) = true) : i = j := by
  obtain ⟨grp, found, memberX⟩ := settled.group_of_instance hx
  obtain ⟨grp', found', memberY⟩ := settled.group_of_instance hy
  rw [group, found'] at found
  obtain rfl := Option.some.inj found
  apply settled.distinct grp' (mem_of_group? found') i memberX j memberY
  rwa [variant_of_instance hx, variant_of_instance hy]

section Contents

variable {g next : Graph M T}

structure ContentsApart (g next : Graph M T) : Prop where
  groups : next.groups = g.groups
  size : next.size = g.size
  instances : ∀ i x, g.instance? i = some x →
    ∃ content, next.instance? i = some { x with content }

namespace ContentsApart

theorem absent (h : ContentsApart g next) {i : Nat} (hi : g.instance? i = none) :
    next.instance? i = none := by
  rw [instance?, List.getElem?_eq_none_iff] at hi ⊢
  have same : next.instances.length = g.instances.length := h.size
  omega

theorem map_eq (h : ContentsApart g next) {α : Type} {f : Instance M T → α}
    (blind : ∀ x content, f { x with content } = f x) (i : Nat) :
    (next.instance? i).map f = (g.instance? i).map f := by
  cases hi : g.instance? i with
  | none => rw [h.absent hi]
  | some x =>
    obtain ⟨content, there⟩ := h.instances i x hi
    rw [there, Option.map_some, Option.map_some, blind]

theorem map_instances (h : ContentsApart g next) {α : Type} {f : Instance M T → α}
    (blind : ∀ x content, f { x with content } = f x) :
    next.instances.map f = g.instances.map f := by
  apply List.ext_getElem?
  intro i
  rw [List.getElem?_map, List.getElem?_map]
  exact h.map_eq blind i

theorem variant (h : ContentsApart g next) (i : Nat) : next.variant i = g.variant i := by
  rw [Graph.variant, Graph.variant, h.map_eq fun _ _ => rfl]

theorem groupName (h : ContentsApart g next) (i : Nat) : next.groupName i = g.groupName i := by
  rw [Graph.groupName, Graph.groupName, h.map_eq fun _ _ => rfl]

theorem deps (h : ContentsApart g next) (i : Nat) : next.deps i = g.deps i := by
  rw [Graph.deps, Graph.deps, h.map_eq fun _ _ => rfl]

theorem wellFormed (h : ContentsApart g next) (wf : g.WellFormed) : next.WellFormed where
  names_nodup := h.groups ▸ wf.names_nodup
  members_ne_nil := h.groups ▸ wf.members_ne_nil
  members_arena := by
    rw [h.groups, h.size]
    exact wf.members_arena
  group_named grp hgrp id hid := by
    rw [h.groupName]
    exact wf.group_named grp (h.groups ▸ hgrp) id hid
  targets_valid i j hj := by
    rw [targets, h.deps] at hj
    rw [h.size]
    exact wf.targets_valid i j hj

theorem settled (h : ContentsApart g next) {names dims : List String}
    (settled : g.Settled names dims) : next.Settled names dims where
  toWellFormed := h.wellFormed settled.toWellFormed
  group_names := h.groups ▸ settled.group_names
  entries y hy := by
    obtain ⟨i, hi, rfl⟩ := List.getElem_of_mem hy
    obtain ⟨x, hx⟩ := g.exists_instance (i := i) (h.size ▸ hi)
    obtain ⟨content, there⟩ := h.instances i x hx
    have same : next.instances[i] = { x with content } :=
      Option.some.inj ((List.getElem?_eq_getElem hi).symm.trans there)
    rw [same]
    exact settled.entries x (mem_instances hx)
  distinct grp hgrp i hi j hj := by
    rw [h.variant, h.variant]
    exact settled.distinct grp (h.groups ▸ hgrp) i hi j hj

end ContentsApart

end Contents

section AddEdges

variable {g : Graph M T} {added : List (Nat × Edge T)}

theorem instance?_addEdges (id : Nat) :
    (g.addEdges added).instance? id = (g.instance? id).map fun x =>
      { x with deps := x.deps ++ (added.filter fun p => p.1 = id).map Prod.snd } := by
  simp [addEdges, instance?]

theorem variant_addEdges (id : Nat) : (g.addEdges added).variant id = g.variant id := by
  rw [variant, variant, instance?_addEdges]
  cases g.instance? id <;> rfl

theorem groupName_addEdges (id : Nat) : (g.addEdges added).groupName id = g.groupName id := by
  rw [groupName, groupName, instance?_addEdges]
  cases g.instance? id <;> rfl

theorem targets_addEdges {id : Nat} (h : id < g.size) :
    (g.addEdges added).targets id =
      g.targets id ++ ((added.filter fun p => p.1 = id).map fun p => p.2.target) := by
  rw [targets, g.deps_addEdges added id h, List.map_append, List.map_map]
  rfl

theorem WellFormed.addEdges (wf : g.WellFormed) (ends : ∀ p ∈ added, p.2.target < g.size) :
    (g.addEdges added).WellFormed where
  names_nodup := wf.names_nodup
  members_ne_nil := wf.members_ne_nil
  members_arena := by
    rw [g.size_addEdges]
    exact wf.members_arena
  group_named grp hgrp id hid := by
    rw [groupName_addEdges]
    exact wf.group_named grp hgrp id hid
  targets_valid i j hj := by
    have hi : i < g.size := by simpa using (g.addEdges added).lt_of_mem_targets hj
    rw [g.size_addEdges]
    rw [targets_addEdges hi] at hj
    rcases List.mem_append.mp hj with old | new
    · exact wf.targets_valid i j old
    · obtain ⟨p, hp, rfl⟩ := List.mem_map.mp new
      exact ends p (List.mem_filter.mp hp).1

theorem Settled.addEdges {names dims : List String} (settled : g.Settled names dims)
    (ends : ∀ p ∈ added, p.2.target < g.size) : (g.addEdges added).Settled names dims where
  toWellFormed := settled.toWellFormed.addEdges ends
  group_names := settled.group_names
  entries x hx := by
    obtain ⟨i, hi, rfl⟩ := List.mem_mapIdx.mp hx
    exact settled.entries g.instances[i] (List.getElem_mem hi)
  distinct grp hgrp := by
    simpa only [variant_addEdges] using settled.distinct grp hgrp

end AddEdges

end Graph

end BuildVariants
