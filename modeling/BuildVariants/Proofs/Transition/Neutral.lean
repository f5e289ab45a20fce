import BuildVariants.Proofs.Graph.Acyclic
import BuildVariants.Proofs.Transition.Instances
import BuildVariants.Proofs.Transition.Unfolding
import BuildVariants.Proofs.Variant.Blank

/-!
# Neutral passes

A transition that leaves out all decisions adds to every variant an entry that assigns nothing, and
changes nothing else. Later transitions do not notice the entry, as long as they see of a variant only
what can be asked of it.
-/

set_option autoImplicit false

namespace BuildVariants

variable {M T : Type}

def Instance.without (name : String) (x : Instance M T) : Instance M T :=
  { x with variant := x.variant.without name }

def Graph.without (name : String) (g : Graph M T) : Graph M T :=
  g.mapInstances (Instance.without name)

def Graph.Blank (name : String) (g : Graph M T) : Prop :=
  ∀ x ∈ g.instances, x.variant.Blank name

theorem Graph.Blank.variant {g : Graph M T} {name : String} (blank : g.Blank name) (i : Nat) :
    (g.variant i).Blank name := by
  cases hx : g.instance? i with
  | none =>
    rw [Graph.variant, hx]
    exact Variant.Blank.empty
  | some x =>
    rw [Graph.variant_of_instance hx]
    exact blank x (Graph.mem_instances hx)

namespace Transition

/-- The transition sees of a variant only what can be asked of it. -/
structure Discreet (t : Transition M T) : Prop where
  split : ∀ {v w : Variant}, v.Alike w → ∀ m, t.mutator.split ⟨m, w⟩ = t.mutator.split ⟨m, v⟩
  outgoing : ∀ {v w : Variant}, v.Alike w → ∀ m name tag value,
    t.mutator.outgoing ⟨m, w, name, tag⟩ value = t.mutator.outgoing ⟨m, v, name, tag⟩ value
  incoming : ∀ {v w : Variant}, v.Alike w → ∀ m phase asked,
    t.mutator.incoming ⟨m, w, phase⟩ asked = t.mutator.incoming ⟨m, v, phase⟩ asked

variable [BuildModule M T]

theorem toFailure_without {name : String} {v : Variant} (blank : v.Blank name) (e : MutatorError)
    (m : M) : e.toFailure m (v.without name) = e.toFailure m v := by
  rw [MutatorError.toFailure, MutatorError.toFailure, blank.name_without]

theorem Discreet.overlooks {t : Transition M T} (discreet : t.Discreet) {name : String}
    (other : t.name ≠ name) :
    t.Overlooks (Instance.without name) fun x => x.variant.Blank name where
  group _ _ := rfl
  label x blank := by rw [Instance.label, Instance.label, Instance.without, blank.name_without]
  deps _ _ := rfl
  splitOf x blank := by
    simp only [splitOf, Instance.without, discreet.split blank.alike, toFailure_without blank]
  propagate x y hx hy v tag := by
    simp only [propagate, Instance.without, discreet.outgoing hx.alike, discreet.incoming hy.alike,
      ← Variant.set_without other, toFailure_without (hx.set other), toFailure_without hy]
  rewired x blank v deps := by
    simp only [Instance.without, Variant.set_without other]
  mutateInstance x blank := by
    simp only [mutateInstance, Instance.without, blank.get_without]
    cases t.mutator.mutate x.content (x.variant.get t.name) with
    | ok content => rfl
    | error e => simp only [Except.map, toFailure_without blank]
  keeps x blank v _ _ := blank.set other

theorem Overlooks.run_keeps {t : Transition M T} {F : Instance M T → Instance M T}
    {P : Instance M T → Prop} (overlooks : t.Overlooks F P) {g next : Graph M T} (wf : g.WellFormed)
    (all : ∀ x ∈ g.instances, P x) (h : t.run g = .ok next) : ∀ y ∈ next.instances, P y := by
  obtain ⟨plans, rewired, planned, carried, mutated⟩ := run_eq_ok_iff.mp h
  intro y hy
  obtain ⟨n, hn⟩ := List.mem_iff_getElem?.mp hy
  obtain ⟨i, v, x, _, hx, _, _, made⟩ :=
    run_key wf (plan_accepted wf.targets_valid planned) carried mutated hn
  rw [made]
  exact overlooks.keeps x (all x (Graph.mem_instances hx)) _ _ _

def neutral (name : String) (neverFar : Bool) : Transition M T := ⟨name, neverFar, {}⟩

section Neutral

variable {name : String} {neverFar : Bool} {g : Graph M T}

def setDefault (name : String) (x : Instance M T) : Instance M T :=
  { x with variant := x.variant.set name "" }

omit [BuildModule M T] in
theorem setDefault_without (name : String) (g : Graph M T) :
    (g.mapInstances (setDefault name)).without name = g.without name := by
  have same : Instance.without name ∘ setDefault name = Instance.without (M := M) (T := T) name := by
    funext x
    rw [Function.comp_apply, setDefault, Instance.without, Instance.without, Variant.set_self_without]
  rw [Graph.without, Graph.without, Graph.mapInstances, Graph.mapInstances, Graph.mapInstances,
    List.map_map, same]

omit [BuildModule M T] in
theorem setDefault_blank (blank : g.Blank name) : (g.mapInstances (setDefault name)).Blank name := by
  intro y hy
  obtain ⟨x, hx, rfl⟩ := List.mem_map.mp hy
  exact .set_default (blank x hx).distinct

omit [BuildModule M T] in
theorem neutral_leads {x : Instance M T} {e : Edge T} {w : String}
    (h : (neutral name neverFar).Leads g x "" e w) : w = "" := by
  cases h with
  | negotiated _ _ outgoing incoming =>
    obtain rfl := Except.ok.inj outgoing
    exact (Except.ok.inj incoming).symm
  | default => rfl

variable (name neverFar g) in
theorem neutral_decided (x : Instance M T) (v : String) (e : Edge T) :
    ∃ w, (neutral name neverFar).edgeValue g x v e = .ok w := by
  rw [edgeValue]
  split
  · cases g.instance? e.target with
    | none => exact ⟨"", rfl⟩
    | some y => exact ⟨v, rfl⟩
  · exact ⟨"", rfl⟩

omit [BuildModule M T] in
theorem neutral_specified : (neutral name neverFar).Specified g fun _ => [""] := by
  intro i x _
  refine ⟨[""], [], rfl, rfl, .nil, fun w => ⟨nofun, ?_⟩⟩
  rintro ⟨fresh, d, y, _, e, _, _, v, hv, leads⟩
  obtain rfl := List.mem_singleton.mp hv
  exact absurd (List.mem_singleton.mpr (neutral_leads leads)) fresh

theorem neutral_plan (wf : g.WellFormed) (acyclic : g.Acyclic) :
    ∃ plans, (neutral name neverFar).plan g = .ok plans ∧
      (neutral name neverFar).Accepted g plans ∧ ∀ i < g.size, valuesOf plans i = [""] := by
  obtain ⟨order, found⟩ := g.topDown_of_acyclic wf.targets_valid acyclic
  have topDown := g.topDown_ok wf.targets_valid found
  have agreed := planAll_agreed (neutral name neverFar) topDown
  have clean : ∀ p ∈ (neutral name neverFar).planAll g order [], p.failures = [] := by
    intro p hp
    obtain ⟨x, _, own⟩ := agreed.mem_iff.mp hp
    rw [own, failures_planInstance_eq_nil_iff]
    exact ⟨⟨[""], rfl⟩, fun v _ e _ => neutral_decided name neverFar g x v e⟩
  have accepted : (neutral name neverFar).Accepted g _ := ⟨agreed, clean⟩
  refine ⟨_, plan_eq_ok_iff.mpr ⟨order, found, rfl, clean⟩, accepted, fun i hi => ?_⟩
  -- The splits and the edges determine what is planned, and the default variations satisfy both.
  exact ((accepted.specified wf.targets_valid).unique topDown neutral_specified i hi).symm

omit [BuildModule M T] in
theorem neutral_keys (wf : g.WellFormed) {plans : List InstancePlan}
    (values : ∀ i < g.size, valuesOf plans i = [""]) :
    keys g plans = (List.range g.size).map fun i => (i, "") := by
  rw [keys_eq wf, List.map_eq_flatMap]
  apply List.flatMap_congr
  intro i hi
  rw [values i (List.mem_range.mp hi), List.map_singleton]

theorem idxOf_defaults {n i : Nat} (hi : i < n) :
    ((List.range n).map fun j => (j, "")).idxOf (i, "") = i := by
  have nodup : ((List.range n).map fun j => (j, "")).Nodup :=
    List.nodup_range.map fun _ _ same => (Prod.mk.inj same).1
  have inside : i < ((List.range n).map fun j => (j, "")).length := by simpa using hi
  have there : ((List.range n).map fun j => (j, ""))[i] = (i, "") := by simp
  rw [← there, nodup.idxOf_getElem i inside]

theorem neutral_ledEdge (wf : g.WellFormed) {plans : List InstancePlan}
    (values : ∀ i < g.size, valuesOf plans i = [""]) {i : Nat} {x : Instance M T}
    (hx : g.instance? i = some x) {e : Edge T} (he : e ∈ x.deps) :
    (neutral name neverFar).ledEdge g (keys g plans) x "" e = e := by
  have inside := wf.target_lt hx he
  obtain ⟨w, decided⟩ := neutral_decided name neverFar g x "" e
  obtain rfl := neutral_leads ((edgeValue_eq_ok_iff inside).mp decided)
  rw [ledEdge, decided, valueOf, neutral_keys wf values, idxOf_defaults inside]

theorem neutral_groups (wf : g.WellFormed) {plans : List InstancePlan}
    (accepted : (neutral name neverFar).Accepted g plans)
    (values : ∀ i < g.size, valuesOf plans i = [""]) {rewired : Graph M T}
    (h : (neutral name neverFar).rewire g plans = .ok rewired) : rewired.groups = g.groups := by
  rw [rewire_groups_places wf accepted h]
  conv_rhs => rw [← List.map_id g.groups]
  apply List.map_congr_left
  intro grp hgrp
  have members : ((groupKeys plans grp).map (keys g plans).idxOf) = grp.members := by
    rw [groupKeys, List.map_flatMap]
    conv_rhs => rw [← List.flatMap_singleton' grp.members]
    apply List.flatMap_congr
    intro i hi
    have inside := wf.member_lt hgrp hi
    rw [values i inside, List.map_singleton, List.map_singleton, neutral_keys wf values,
      idxOf_defaults inside]
  rw [members]
  rfl

theorem neutral_rewire (wf : g.WellFormed) {plans : List InstancePlan}
    (accepted : (neutral name neverFar).Accepted g plans)
    (values : ∀ i < g.size, valuesOf plans i = [""]) {rewired : Graph M T}
    (h : (neutral name neverFar).rewire g plans = .ok rewired) :
    rewired = g.mapInstances (setDefault name) := by
  have keyed := neutral_keys wf values
  have groups := neutral_groups wf accepted values h
  have size : rewired.size = g.size := by
    rw [rewire_size wf accepted h, keyed, List.length_map, List.length_range]
  have instances : rewired.instances = (g.mapInstances (setDefault name)).instances := by
    apply List.ext_getElem?
    intro n
    rw [← Graph.instance?, ← Graph.instance?, Graph.instance?_mapInstances]
    by_cases hn : n < g.size
    · obtain ⟨x, hx⟩ := g.exists_instance hn
      have there : (keys g plans)[n]? = some (n, "") := by
        rw [keyed, List.getElem?_map, List.getElem?_range hn, Option.map_some]
      have deps : x.deps.map ((neutral name neverFar).ledEdge g (keys g plans) x "") = x.deps := by
        conv_rhs => rw [← List.map_id x.deps]
        exact List.map_congr_left fun e he => neutral_ledEdge wf values hx he
      rw [rewire_instance_led wf accepted h there hx, deps, hx]
      rfl
    · have beyond : ∀ g' : Graph M T, g'.size = g.size → g'.instance? n = none := by
        intro g' same
        rw [Graph.instance?, List.getElem?_eq_none_iff]
        rw [← same, Graph.size] at hn
        omega
      rw [beyond rewired size, beyond g rfl]
      rfl
  exact Graph.ext_groups instances groups

theorem neutral_mutateAll (g : Graph M T) : (neutral name neverFar).mutateAll g = .ok g := by
  have told : (neutral name neverFar).mutateInstance = (.ok : Instance M T → Except Failure _) := rfl
  rw [mutateAll, Failures.guard_ofList_eq_ok_iff, told]
  constructor
  · rw [List.flatMap_map, List.flatMap_eq_nil_iff]
    exact fun _ _ => rfl
  · rw [List.filterMap_map]
    exact Graph.ext_groups List.filterMap_some.symm rfl

/-- The pass gives every variant an entry without a value and leaves all else as it is. -/
theorem neutral_run (wf : g.WellFormed) (acyclic : g.Acyclic) :
    (neutral name neverFar).run g = .ok (g.mapInstances (setDefault name)) := by
  obtain ⟨plans, planned, accepted, values⟩ := neutral_plan wf acyclic
  have carried := rewire_ok wf accepted
  rw [neutral_rewire wf accepted values carried] at carried
  exact run_eq_ok_iff.mpr ⟨plans, _, planned, carried, neutral_mutateAll _⟩

end Neutral

end Transition

end BuildVariants
