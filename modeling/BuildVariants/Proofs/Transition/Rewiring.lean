import BuildVariants.Proofs.Transition.Plan
import BuildVariants.Proofs.Variant

/-!
# Rewired graphs

An accepted plan can always be carried out: every edge finds the planned variation of its
target. The new instances are in one-to-one correspondence with the keys, pairs of an old
instance and one of its variations, and an edge of a new instance ends at the key that the
old edge leads to. The new groups share out the new arena as the old ones did the old.
-/

set_option autoImplicit false

namespace BuildVariants

namespace Transition

section Keys

variable {M T : Type} {g : Graph M T} {plans : List InstancePlan}

theorem mem_groupKeys {plans : List InstancePlan} {grp : Group} {i : Nat} {v : String} :
    (i, v) ∈ groupKeys plans grp ↔ i ∈ grp.members ∧ v ∈ valuesOf plans i := by
  simp [groupKeys]

theorem keys_eq (wf : g.WellFormed) (plans : List InstancePlan) :
    keys g plans = (List.range g.size).flatMap fun i => (valuesOf plans i).map fun v => (i, v) := by
  rw [← wf.members_arena, List.flatMap_assoc]
  rfl

theorem mem_keys (wf : g.WellFormed) {i : Nat} {v : String} :
    (i, v) ∈ keys g plans ↔ i < g.size ∧ v ∈ valuesOf plans i := by
  rw [keys_eq wf]
  simp

theorem keys_nodup (wf : g.WellFormed) (nodup : ∀ i < g.size, (valuesOf plans i).Nodup) :
    (keys g plans).Nodup := by
  rw [keys_eq wf, List.nodup_flatMap]
  constructor
  · intro i hi
    refine (nodup i (List.mem_range.mp hi)).map ?_
    intro v w same
    exact (Prod.mk.inj same).2
  · refine List.nodup_range.imp ?_
    intro i j distinct key first second
    obtain ⟨v, _, rfl⟩ := List.mem_map.mp first
    obtain ⟨w, _, same⟩ := List.mem_map.mp second
    exact distinct (Prod.mk.inj same).1.symm

end Keys

section Groups

variable {plans : List InstancePlan}

theorem regroup_members (plans : List InstancePlan) (start : Nat) (groups : List Group) :
    (regroup plans start groups).flatMap Group.members =
      List.range' start (groups.flatMap (groupKeys plans)).length := by
  induction groups generalizing start with
  | nil => rfl
  | cons grp rest ih =>
    rw [regroup, List.flatMap_cons, List.flatMap_cons, ih, List.length_append,
      List.range'_append_1]

theorem map_idxOf_eq_range' {α : Type} [BEq α] [LawfulBEq α] {before mid after : List α}
    (nodup : (before ++ mid ++ after).Nodup) :
    mid.map (before ++ mid ++ after).idxOf = List.range' before.length mid.length := by
  apply List.ext_getElem
  · simp
  · intro j hj _
    rw [List.length_map] at hj
    have inside : before.length + j < (before ++ mid ++ after).length := by
      rw [List.length_append, List.length_append]
      omega
    have there : (before ++ mid ++ after)[before.length + j] = mid[j] := by
      simp [hj]
    rw [List.getElem_map, List.getElem_range', ← there, nodup.idxOf_getElem]
    omega

/-- The members of a new group are the places of the keys of the old one. -/
theorem regroup_eq_places {plans : List InstancePlan} (before : List (Nat × String))
    {groups : List Group} (nodup : (before ++ groups.flatMap (groupKeys plans)).Nodup) :
    regroup plans before.length groups = groups.map fun grp => ⟨grp.name,
      (groupKeys plans grp).map (before ++ groups.flatMap (groupKeys plans)).idxOf⟩ := by
  induction groups generalizing before with
  | nil => rfl
  | cons grp rest ih =>
    have split : before ++ (grp :: rest).flatMap (groupKeys plans) =
        before ++ groupKeys plans grp ++ rest.flatMap (groupKeys plans) := by
      rw [List.flatMap_cons, List.append_assoc]
    rw [split] at nodup ⊢
    rw [regroup, List.map_cons, map_idxOf_eq_range' nodup, ← ih _ nodup, List.length_append]

theorem key_of_member {M T : Type} {g : Graph M T} (nodup : (keys g plans).Nodup) {grp : Group}
    (h : grp ∈ regroup plans 0 g.groups) :
    ∃ old ∈ g.groups, grp.name = old.name ∧ (groupKeys plans old ≠ [] → grp.members ≠ []) ∧
      ∀ n ∈ grp.members, ∃ key ∈ groupKeys plans old, (keys g plans)[n]? = some key := by
  have places := regroup_eq_places [] nodup
  rw [List.nil_append, List.length_nil] at places
  rw [places] at h
  obtain ⟨old, hold, rfl⟩ := List.mem_map.mp h
  refine ⟨old, hold, rfl, fun some => by simpa using some, ?_⟩
  intro n hn
  obtain ⟨key, hkey, rfl⟩ := List.mem_map.mp hn
  exact ⟨key, hkey, List.getElem?_idxOf (List.mem_flatMap.mpr ⟨old, hold, hkey⟩)⟩

end Groups

section Edges

variable {M T : Type} {t : Transition M T} {g : Graph M T}

theorem rewireEdge_of_mem {ks : List (Nat × String)} {e : Edge T} {w : String}
    (h : (e.target, w) ∈ ks) :
    t.rewireEdge g ks e w = .ok { e with target := ks.idxOf (e.target, w) } := by
  cases found : ks.idxOf? (e.target, w) with
  | none => exact absurd h (List.idxOf?_eq_none_iff.mp found)
  | some n => rw [rewireEdge, found, List.idxOf_eq_getD_idxOf?, found, Option.getD_some]

theorem filterMap_toOption_of_ok {α β ε : Type} {f : α → Except ε β} {R : α → β → Prop}
    {as : List α} (h : ∀ a ∈ as, ∃ b, f a = .ok b ∧ R a b) :
    List.Forall₂ R as ((as.map f).filterMap Except.toOption) := by
  induction as with
  | nil => exact .nil
  | cons a as ih =>
    obtain ⟨b, decided, related⟩ := h a (by simp)
    rw [List.map_cons, decided]
    exact .cons related (ih fun a' ha' => h a' (by simp [ha']))

theorem related_of_mem {α β : Type} {R : α → β → Prop} {as : List α} {bs : List β}
    (h : List.Forall₂ R as bs) {b : β} (hb : b ∈ bs) : ∃ a ∈ as, R a b := by
  induction h with
  | nil => simp at hb
  | cons related _ ih =>
    rcases List.mem_cons.mp hb with rfl | hb
    · exact ⟨_, by simp, related⟩
    · obtain ⟨a, ha, found⟩ := ih hb
      exact ⟨a, by simp [ha], found⟩

/-- The new edge has the tag and the far flag of the old one and ends at a key of its target
to which the old one leads. -/
structure Repointed (t : Transition M T) (g : Graph M T) (ks : List (Nat × String))
    (x : Instance M T) (v : String) (e e' : Edge T) : Prop where
  tag : e'.tag = e.tag
  far : e'.far = e.far
  target : ∃ w, ks[e'.target]? = some (e.target, w) ∧ t.Leads g x v e w

variable [BuildModule M T] {plans : List InstancePlan} {i : Nat} {x : Instance M T} {v : String}

theorem rewireDeps_eq (accepted : t.Accepted g plans) (hx : g.instance? i = some x)
    (hv : v ∈ valuesOf plans i) (ks : List (Nat × String)) :
    t.rewireDeps g plans ks (i, v) =
      x.deps.map fun e => t.rewireEdge g ks e (valueOf (t.edgeValue g x v e)) := by
  rw [accepted.valuesOf hx] at hv
  simp only [rewireDeps, accepted.planOf? hx, row_planInstance hv, g.deps_of_instance hx]
  rw [← List.map_id x.deps, List.map_map, List.zip_map', List.map_map, List.map_map]
  rfl

def ledEdge (t : Transition M T) (g : Graph M T) (ks : List (Nat × String)) (x : Instance M T)
    (v : String) (e : Edge T) : Edge T :=
  { e with target := ks.idxOf (e.target, valueOf (t.edgeValue g x v e)) }

theorem Accepted.keys_nodup (accepted : t.Accepted g plans) (wf : g.WellFormed) :
    (keys g plans).Nodup := by
  apply Transition.keys_nodup wf
  intro i hi
  obtain ⟨x, hx⟩ := g.exists_instance hi
  exact accepted.values_nodup hx

theorem led_mem_keys (wf : g.WellFormed) (accepted : t.Accepted g plans)
    (hx : g.instance? i = some x) (hv : v ∈ valuesOf plans i) {e : Edge T} (he : e ∈ x.deps) :
    (e.target, valueOf (t.edgeValue g x v e)) ∈ keys g plans :=
  (mem_keys wf).mpr ⟨wf.target_lt hx he, accepted.led_planned wf.targets_valid hx hv he⟩

theorem rewireDeps_led (wf : g.WellFormed) (accepted : t.Accepted g plans)
    (hx : g.instance? i = some x) (hv : v ∈ valuesOf plans i) :
    t.rewireDeps g plans (keys g plans) (i, v) =
      x.deps.map fun e => .ok (t.ledEdge g (keys g plans) x v e) := by
  rw [rewireDeps_eq accepted hx hv]
  apply List.map_congr_left
  intro e he
  exact rewireEdge_of_mem (led_mem_keys wf accepted hx hv he)

theorem ledEdge_repointed (wf : g.WellFormed) (accepted : t.Accepted g plans)
    (hx : g.instance? i = some x) (hv : v ∈ valuesOf plans i) {e : Edge T} (he : e ∈ x.deps) :
    t.Repointed g (keys g plans) x v e (t.ledEdge g (keys g plans) x v e) where
  tag := rfl
  far := rfl
  target := by
    obtain ⟨w, decided⟩ := accepted.decided hx hv he
    have place := List.getElem?_idxOf (led_mem_keys wf accepted hx hv he)
    refine ⟨w, ?_, (edgeValue_eq_ok_iff (wf.target_lt hx he)).mp decided⟩
    rw [ledEdge, place, decided, valueOf]

/-- Carrying out an accepted plan never fails. -/
theorem rewire_ok (wf : g.WellFormed) (accepted : t.Accepted g plans) :
    t.rewire g plans = .ok (t.rebuilt g plans) := by
  rw [rewire, Failures.guard_ofList_eq_ok_iff]
  refine ⟨?_, rfl⟩
  rw [List.flatMap_eq_nil_iff]
  rintro ⟨i, v⟩ hkey
  obtain ⟨hi, hv⟩ := (mem_keys wf).mp hkey
  obtain ⟨x, hx⟩ := g.exists_instance hi
  rw [rewireDeps_led wf accepted hx hv, List.flatMap_eq_nil_iff]
  intro decision hd
  obtain ⟨e, _, rfl⟩ := List.mem_map.mp hd
  rfl

end Edges

/-- What is carried out depends on the plans found for the instances alone. -/
theorem rewire_congr {M T : Type} {t : Transition M T} {g : Graph M T}
    {plans plans' : List InstancePlan} (h : planOf? plans = planOf? plans') :
    t.rewire g plans = t.rewire g plans' := by
  have values : valuesOf plans = valuesOf plans' := by
    funext i
    rw [valuesOf, valuesOf, h]
  have groups : groupKeys plans = groupKeys plans' := by
    funext grp
    rw [groupKeys, groupKeys, values]
  have all : keys g plans = keys g plans' := by
    rw [keys, keys, groups]
  have deps : t.rewireDeps g plans = t.rewireDeps g plans' := by
    funext ks key
    rw [rewireDeps, rewireDeps, h]
  have numbers : ∀ (old : List Group) (start : Nat),
      regroup plans start old = regroup plans' start old := by
    intro old
    induction old with
    | nil => exact fun _ => rfl
    | cons grp rest ih =>
      intro start
      rw [regroup, regroup, groups, ih]
  have instances : t.rewireInstance g plans = t.rewireInstance g plans' := by
    funext ks key
    rw [rewireInstance, rewireInstance, deps]
  have same : t.rebuilt g plans = t.rebuilt g plans' := by
    refine Graph.ext_groups ?_ (numbers g.groups 0)
    rw [rebuilt, rebuilt, all, instances]
  rw [rewire, rewire, all, deps, same]

theorem getElem?_filterMap_of_isSome {α β : Type} {f : α → Option β} {as : List α}
    (h : ∀ a ∈ as, (f a).isSome) (n : Nat) : (as.filterMap f)[n]? = (as[n]?).bind f := by
  induction as generalizing n with
  | nil => simp
  | cons a as ih =>
    obtain ⟨b, hb⟩ := Option.isSome_iff_exists.mp (h a (by simp))
    rw [List.filterMap_cons_some hb]
    cases n with
    | zero => simp [hb]
    | succ n => simpa using ih (fun a' ha' => h a' (by simp [ha'])) n

section Instances

variable {M T : Type} [BuildModule M T] {t : Transition M T} {g next : Graph M T}
  {plans : List InstancePlan}

/-- The instance at the place of a key is the old one with the variation added to its variant
and its edges led on. -/
theorem rewire_instance_led (wf : g.WellFormed) (accepted : t.Accepted g plans)
    (h : t.rewire g plans = .ok next) {n i : Nat} {v : String} {x : Instance M T}
    (hn : (keys g plans)[n]? = some (i, v)) (hx : g.instance? i = some x) :
    next.instance? n = some { x with
      variant := x.variant.set t.name v
      deps := x.deps.map (t.ledEdge g (keys g plans) x v) } := by
  rw [rewire_ok wf accepted] at h
  cases h
  obtain ⟨_, hv⟩ := (mem_keys wf).mp (List.mem_of_getElem? hn)
  have led : (x.deps.map fun e => (.ok (t.ledEdge g (keys g plans) x v e) :
      Except Failure (Edge T))).filterMap Except.toOption =
        x.deps.map (t.ledEdge g (keys g plans) x v) := by
    rw [List.filterMap_map, ← List.filterMap_eq_map]
    rfl
  rw [Graph.instance?, rebuilt, getElem?_filterMap_of_isSome ?_ n, hn, Option.bind_some, rewireInstance, hx,
    rewireDeps_led wf accepted hx hv, led]
  · rfl
  · rintro ⟨j, w⟩ hkey
    obtain ⟨y, hy⟩ := g.exists_instance ((mem_keys wf).mp hkey).1
    simp [rewireInstance, hy]

theorem rewire_instance (wf : g.WellFormed) (accepted : t.Accepted g plans)
    (h : t.rewire g plans = .ok next) {n i : Nat} {v : String} {x : Instance M T}
    (hn : (keys g plans)[n]? = some (i, v)) (hx : g.instance? i = some x) :
    ∃ deps, next.instance? n = some { x with variant := x.variant.set t.name v, deps } ∧
      List.Forall₂ (t.Repointed g (keys g plans) x v) x.deps deps := by
  obtain ⟨_, hv⟩ := (mem_keys wf).mp (List.mem_of_getElem? hn)
  refine ⟨_, rewire_instance_led wf accepted h hn hx, ?_⟩
  rw [List.forall₂_map_right_iff, List.forall₂_same]
  exact fun e he => ledEdge_repointed wf accepted hx hv he

theorem rewire_groups (wf : g.WellFormed) (accepted : t.Accepted g plans)
    (h : t.rewire g plans = .ok next) : next.groups = regroup plans 0 g.groups := by
  rw [rewire_ok wf accepted] at h
  cases h
  rfl

theorem rewire_groups_places (wf : g.WellFormed) (accepted : t.Accepted g plans)
    (h : t.rewire g plans = .ok next) : next.groups = g.groups.map fun grp =>
      ⟨grp.name, (groupKeys plans grp).map (keys g plans).idxOf⟩ := by
  rw [rewire_groups wf accepted h]
  exact regroup_eq_places [] (accepted.keys_nodup wf)

theorem rewire_size (wf : g.WellFormed) (accepted : t.Accepted g plans)
    (h : t.rewire g plans = .ok next) : next.size = (keys g plans).length := by
  rw [rewire_ok wf accepted] at h
  cases h
  apply List.filterMap_length_eq_length.mpr
  rintro ⟨i, v⟩ hkey
  obtain ⟨x, hx⟩ := g.exists_instance ((mem_keys wf).mp hkey).1
  simp [rewireInstance, hx]

theorem rewire_key (wf : g.WellFormed) (accepted : t.Accepted g plans)
    (h : t.rewire g plans = .ok next) {n : Nat} (hn : n < next.size) :
    ∃ i v x, (keys g plans)[n]? = some (i, v) ∧ g.instance? i = some x ∧
      v ∈ valuesOf plans i := by
  rw [rewire_size wf accepted h] at hn
  have there := List.getElem?_eq_getElem hn
  obtain ⟨hi, hv⟩ := (mem_keys wf).mp (List.getElem_mem hn)
  obtain ⟨x, hx⟩ := g.exists_instance hi
  exact ⟨_, _, x, there, hx, hv⟩

theorem rewire_wellFormed (wf : g.WellFormed) (accepted : t.Accepted g plans)
    (h : t.rewire g plans = .ok next) : next.WellFormed where
  names_nodup := by
    rw [rewire_groups wf accepted h, regroup_names]
    exact wf.names_nodup
  members_ne_nil grp hgrp := by
    rw [rewire_groups wf accepted h] at hgrp
    obtain ⟨old, hold, _, ne, _⟩ := key_of_member (accepted.keys_nodup wf) hgrp
    apply ne
    obtain ⟨i, hi⟩ := List.exists_mem_of_ne_nil _ (wf.members_ne_nil old hold)
    obtain ⟨x, hx⟩ := g.exists_instance (wf.member_lt hold hi)
    obtain ⟨v, hv⟩ := List.exists_mem_of_ne_nil _ (accepted.values_ne_nil hx)
    exact List.ne_nil_of_mem (mem_groupKeys.mpr ⟨hi, hv⟩)
  members_arena := by
    rw [rewire_groups wf accepted h, regroup_members, rewire_size wf accepted h,
      List.range_eq_range']
    rfl
  group_named grp hgrp n hn := by
    rw [rewire_groups wf accepted h] at hgrp
    obtain ⟨old, hold, named, _, place⟩ := key_of_member (accepted.keys_nodup wf) hgrp
    obtain ⟨⟨i, v⟩, hkey, there⟩ := place n hn
    have hi := (mem_groupKeys.mp hkey).1
    obtain ⟨x, hx⟩ := g.exists_instance (wf.member_lt hold hi)
    obtain ⟨deps, new, _⟩ := rewire_instance wf accepted h there hx
    rw [Graph.groupName_of_instance new, named, ← wf.group_named old hold i hi,
      Graph.groupName_of_instance hx]
  targets_valid n j hj := by
    obtain ⟨i, v, x, there, hx, _⟩ := rewire_key wf accepted h (next.lt_of_mem_targets hj)
    obtain ⟨deps, new, edges⟩ := rewire_instance wf accepted h there hx
    rw [next.targets_of_instance new] at hj
    obtain ⟨e', he', rfl⟩ := List.mem_map.mp hj
    obtain ⟨e, _, repointed⟩ := related_of_mem edges he'
    obtain ⟨w, place, _⟩ := repointed.target
    rw [rewire_size wf accepted h]
    exact (List.getElem?_eq_some_iff.mp place).1

/-- Rewiring for a new mutator gives every variant an entry for it at the end, and keeps the
variants of a group apart. -/
theorem rewire_settled {names dims : List String} (settled : g.Settled names dims)
    (dimsNodup : dims.Nodup) (fresh : t.name ∉ dims) (accepted : t.Accepted g plans)
    (h : t.rewire g plans = .ok next) : next.Settled names (dims ++ [t.name]) where
  toWellFormed := rewire_wellFormed settled.toWellFormed accepted h
  group_names := by
    rw [rewire_groups settled.toWellFormed accepted h, regroup_names]
    exact settled.group_names
  entries y hy := by
    obtain ⟨n, hn, rfl⟩ := List.getElem_of_mem hy
    obtain ⟨i, v, x, there, hx, _⟩ := rewire_key settled.toWellFormed accepted h hn
    obtain ⟨deps, new, _⟩ := rewire_instance settled.toWellFormed accepted h there hx
    have old := settled.entries x (Graph.mem_instances hx)
    rw [Option.some.inj ((List.getElem?_eq_getElem hn).symm.trans new),
      Variant.entries_set_of_fresh v (old ▸ fresh), List.map_append, old, List.map_singleton]
  distinct grp hgrp n hn m hm same := by
    have wf := settled.toWellFormed
    rw [rewire_groups wf accepted h] at hgrp
    obtain ⟨old, hold, _, _, place⟩ := key_of_member (accepted.keys_nodup wf) hgrp
    obtain ⟨⟨i, v⟩, keyN, atN⟩ := place n hn
    obtain ⟨⟨j, w⟩, keyM, atM⟩ := place m hm
    have hi := (mem_groupKeys.mp keyN).1
    have hj := (mem_groupKeys.mp keyM).1
    obtain ⟨x, hx⟩ := g.exists_instance (wf.member_lt hold hi)
    obtain ⟨y, hy⟩ := g.exists_instance (wf.member_lt hold hj)
    obtain ⟨_, newX, _⟩ := rewire_instance wf accepted h atN hx
    obtain ⟨_, newY, _⟩ := rewire_instance wf accepted h atM hy
    rw [Graph.variant_of_instance newX, Graph.variant_of_instance newY] at same
    have assigned : ∀ {k z}, g.instance? k = some z →
        z.variant.Distinct ∧ t.name ∉ z.variant.entries.map Variation.mutator := by
      intro k z hz
      rw [Variant.Distinct, settled.entries z (Graph.mem_instances hz)]
      exact ⟨dimsNodup, fresh⟩
    -- Equal new variants come from equal old ones, hence from one key.
    obtain ⟨before, value⟩ := Variant.beq_of_set_beq (assigned hx).1 (assigned hy).1
      (assigned hx).2 (assigned hy).2 same
    have instance_eq : i = j := settled.distinct old hold i hi j hj (by
      rwa [Graph.variant_of_instance hx, Graph.variant_of_instance hy])
    rw [← instance_eq, ← value] at atM
    have inside := (List.getElem?_eq_some_iff.mp atN).1
    exact (List.getElem?_inj inside (accepted.keys_nodup wf)).mp (atN.trans atM.symm)

end Instances

end Transition

end BuildVariants
