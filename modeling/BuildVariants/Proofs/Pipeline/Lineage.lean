import BuildVariants.Proofs.Pipeline.Run
import BuildVariants.Proofs.Transition.Apart
import BuildVariants.Proofs.Variant.History
import BuildVariants.Ruled.Module

/-!
# Lineages of instances

The instances of a module descend from its single instance before the first pass, and every
transition gives each of them a value. All these values tell the instances of a group apart. Their
variants need not do so: nothing keeps two transitions from having the same name, and of the values
given under one name only the last is left.
-/

set_option autoImplicit false

namespace BuildVariants

variable {M T : Type}

structure Traced (M T : Type) where
  graph : Graph M T
  histories : List (List String)

namespace Traced

def start (g : Graph M T) : Traced M T := ⟨g, List.replicate g.size []⟩

def history (s : Traced M T) (i : Nat) : List String := s.histories.getD i []

theorem start_history (g : Graph M T) (i : Nat) : (start g).history i = [] := by
  rw [history, start, List.getD_eq_getElem?_getD, List.getElem?_replicate]
  split <;> rfl

def prolong (s : Traced M T) (keys : List (Nat × String)) (next : Graph M T) : Traced M T :=
  ⟨next, keys.map fun key => s.history key.1 ++ [key.2]⟩

theorem history_prolong (s : Traced M T) {keys : List (Nat × String)} (next : Graph M T)
    {key : Nat × String} (there : key ∈ keys) :
    (s.prolong keys next).history (keys.idxOf key) = s.history key.1 ++ [key.2] := by
  rw [history, prolong, List.getD_eq_getElem?_getD, List.getElem?_map, List.getElem?_idxOf there]
  rfl

/-- The histories, for transitions of the given names, account for the variants and tell the instances
of a group apart. -/
structure Faithful (names : List String) (s : Traced M T) : Prop where
  wellFormed : s.graph.WellFormed
  length : s.histories.length = s.graph.size
  complete : ∀ i < s.graph.size, (s.history i).length = names.length
  variant : ∀ i < s.graph.size, s.graph.variant i = .ofHistory names (s.history i)
  apart : ∀ grp ∈ s.graph.groups, ∀ i ∈ grp.members, ∀ j ∈ grp.members,
    s.history i = s.history j → i = j

section Faithful

variable {names : List String} {s : Traced M T} (faithful : s.Faithful names)
include faithful

theorem Faithful.distinct {i : Nat} (hi : i < s.graph.size) : (s.graph.variant i).Distinct :=
  faithful.variant i hi ▸ Variant.ofHistory_distinct

theorem Faithful.equal_iff {i j : Nat} (hi : i < s.graph.size) (hj : j < s.graph.size) :
    (s.graph.variant i == s.graph.variant j) = true ↔
      Variant.SameInTheEnd names (s.history i) (s.history j) := by
  rw [faithful.variant i hi, faithful.variant j hj]
  exact Variant.ofHistory_beq_iff (faithful.complete i hi) (faithful.complete j hj)

theorem Faithful.apart_iff : s.graph.VariantsApart ↔
    ∀ grp ∈ s.graph.groups, ∀ i ∈ grp.members, ∀ j ∈ grp.members,
      Variant.SameInTheEnd names (s.history i) (s.history j) → s.history i = s.history j := by
  have same_iff : ∀ grp ∈ s.graph.groups, ∀ i ∈ grp.members, ∀ j ∈ grp.members,
      (s.graph.variant i == s.graph.variant j) = true ↔
        Variant.SameInTheEnd names (s.history i) (s.history j) :=
    fun grp hgrp i hi j hj => faithful.equal_iff (faithful.wellFormed.member_lt hgrp hi)
      (faithful.wellFormed.member_lt hgrp hj)
  constructor
  · intro apart grp hgrp i hi j hj same
    rw [apart grp hgrp i hi j hj ((same_iff grp hgrp i hi j hj).mpr same)]
  · intro whole grp hgrp i hi j hj equal
    apply faithful.apart grp hgrp i hi j hj
    exact whole grp hgrp i hi j hj ((same_iff grp hgrp i hi j hj).mp equal)

theorem Faithful.addEdges {added : List (Nat × Edge T)}
    (ends : ∀ p ∈ added, p.2.target < s.graph.size) :
    Faithful names { s with graph := s.graph.addEdges added } where
  wellFormed := faithful.wellFormed.addEdges ends
  length := faithful.length.trans (s.graph.size_addEdges added).symm
  complete i hi := faithful.complete i (by simpa using hi)
  variant i hi := (Graph.variant_addEdges i).trans (faithful.variant i (by simpa using hi))
  apart := faithful.apart

end Faithful

end Traced

variable [BuildModule M T]

def Transition.runTraced (t : Transition M T) (s : Traced M T) : Except Failures (Traced M T) := do
  let plans ← t.plan s.graph
  let rewired ← t.rewire s.graph plans
  let next ← t.mutateAll rewired
  return s.prolong (keys s.graph plans) next

theorem Transition.runTraced_graph (t : Transition M T) (s : Traced M T) :
    t.run s.graph = (t.runTraced s).map Traced.graph :=
  bind_map fun plans _ => bind_map fun rewired _ => by
    cases t.mutateAll rewired <;> rfl

section Steps

open Transition

theorem Traced.start_faithful {settings : Settings} {modules : List M} {g : Graph M T}
    (isLoaded : Graph.load settings modules = .ok g) : (start g).Faithful [] := by
  have settled := Graph.load_settled isLoaded
  have unassigned : ∀ i < g.size, g.variant i = .empty := by
    intro i hi
    obtain ⟨x, hx⟩ := g.exists_instance hi
    have none := List.map_eq_nil_iff.mp (settled.entries x (Graph.mem_instances hx))
    rw [Graph.variant_of_instance hx, Variant.empty, ← none]
  refine ⟨settled.toWellFormed, List.length_replicate, fun i _ => ?_, fun i hi => ?_,
    fun grp hgrp i hi j hj _ => ?_⟩
  · rw [start_history]
  · rw [start_history]
    exact unassigned i hi
  · apply settled.distinct grp hgrp i hi j hj
    rw [unassigned i (settled.member_lt hgrp hi), unassigned j (settled.member_lt hgrp hj)]
    rfl

/-- A transition prolongs the histories, whether its name is a new one or not. -/
theorem Traced.Faithful.runTraced {names : List String} {s next : Traced M T}
    (faithful : s.Faithful names) {t : Transition M T} (h : t.runTraced s = .ok next) :
    next.Faithful (names ++ [t.name]) := by
  obtain ⟨plans, planned, h⟩ := bind_eq_ok_iff.mp h
  obtain ⟨rewired, carried, h⟩ := bind_eq_ok_iff.mp h
  obtain ⟨g, mutated, ⟨⟩⟩ := bind_eq_ok_iff.mp h
  have wf := faithful.wellFormed
  have accepted := plan_accepted wf.targets_valid planned
  constructor
  case wellFormed =>
    exact run_wellFormed wf (run_eq_ok_iff.mpr ⟨_, _, planned, carried, mutated⟩)
  case length => exact List.length_map _ |>.trans (run_size wf accepted carried mutated).symm
  case complete =>
    intro n hn
    obtain ⟨key, there, rfl, inside⟩ := run_place wf accepted carried mutated hn
    rw [s.history_prolong g there, List.length_append, List.length_append, faithful.complete _ inside]
    rfl
  case variant =>
    intro n hn
    obtain ⟨key, there, rfl, inside⟩ := run_place wf accepted carried mutated hn
    rw [s.history_prolong g there, Variant.ofHistory_concat (faithful.complete _ inside),
      ← faithful.variant _ inside]
    exact run_variant wf accepted carried mutated there
  case apart =>
    refine (run_members_pairwise wf accepted carried mutated).mpr ?_
    rintro grp hgrp ⟨i, v⟩ hkey ⟨j, w⟩ hkey' same
    have there : ∀ {key}, key ∈ groupKeys plans grp → key ∈ keys s.graph plans :=
      fun hkey => List.mem_flatMap.mpr ⟨grp, hgrp, hkey⟩
    rw [s.history_prolong g (there hkey), s.history_prolong g (there hkey')] at same
    obtain ⟨before, last⟩ := List.append_inj' same rfl
    have value : v = w := List.singleton_inj.mp last
    have old : i = j := faithful.apart grp hgrp i (mem_groupKeys.mp hkey).1 j
      (mem_groupKeys.mp hkey').1 before
    rw [old, value]

end Steps

namespace Pipeline

def runPassesTraced (settings : Settings) :
    List (Pass M T) → List (Transition M T) → Traced M T → Except Failures (Traced M T)
  | [], _, s => .ok s
  | .transition t :: rest, completed, s => do
    let next ← t.runTraced s
    runPassesTraced settings rest (completed ++ [t]) next
  | .bottomUp _ b :: rest, completed, s => do
    let next ← b.run settings.allowMissing completed s.graph
    runPassesTraced settings rest completed { s with graph := next }

def resolveTraced (p : Pipeline M T) (modules : List M) : Except Failures (Traced M T) := do
  let g ← Graph.load p.settings modules
  let _ ← g.topDown.mapError Failures.single
  runPassesTraced p.settings p.passes [] (.start g)

theorem runPassesTraced_graph (settings : Settings) (passes : List (Pass M T))
    (completed : List (Transition M T)) (s : Traced M T) :
    runPasses settings passes completed s.graph =
      (runPassesTraced settings passes completed s).map Traced.graph := by
  induction passes generalizing completed s with
  | nil => rfl
  | cons pass passes ih =>
    cases pass with
    | transition t =>
      rw [runPasses, runPassesTraced, t.runTraced_graph, map_bind]
      exact bind_map fun next _ => ih _ next
    | bottomUp name b => exact bind_map fun next _ => ih _ { s with graph := next }

theorem resolveTraced_graph (p : Pipeline M T) (modules : List M) :
    p.resolve modules = (p.resolveTraced modules).map Traced.graph :=
  bind_map fun g _ => bind_map fun _ _ => runPassesTraced_graph p.settings p.passes [] (.start g)

theorem exists_resolveTraced {p : Pipeline M T} {modules : List M} {g : Graph M T}
    (h : p.resolve modules = .ok g) : ∃ s, p.resolveTraced modules = .ok s ∧ s.graph = g := by
  rw [resolveTraced_graph] at h
  cases traced : p.resolveTraced modules with
  | error fs => cases traced ▸ h
  | ok s => exact ⟨s, rfl, Except.ok.inj (traced ▸ h)⟩

theorem runPassesTraced_faithful {settings : Settings} {passes : List (Pass M T)}
    {completed : List (Transition M T)} {names : List String} {s next : Traced M T}
    (faithful : s.Faithful names) (h : runPassesTraced settings passes completed s = .ok next) :
    next.Faithful (names ++ (transitions passes).map Transition.name) := by
  induction passes generalizing completed names s with
  | nil =>
    cases h
    simpa [transitions] using faithful
  | cons pass passes ih =>
    cases pass with
    | transition t =>
      obtain ⟨between, ran, h⟩ := bind_eq_ok_iff.mp h
      have after := ih (faithful.runTraced ran) h
      rwa [List.append_assoc] at after
    | bottomUp name b =>
      obtain ⟨between, ran, h⟩ := bind_eq_ok_iff.mp h
      obtain ⟨added, rfl, ends⟩ := BottomUpMutator.run_addEdges faithful.wellFormed ran
      exact ih (faithful.addEdges ends) h

theorem resolveTraced_faithful {p : Pipeline M T} {modules : List M} {s : Traced M T}
    (h : p.resolveTraced modules = .ok s) : s.Faithful p.dimensions := by
  obtain ⟨g, isLoaded, h⟩ := bind_eq_ok_iff.mp h
  obtain ⟨order, _, ran⟩ := bind_eq_ok_iff.mp h
  rw [dimensions_eq]
  exact runPassesTraced_faithful (Traced.start_faithful isLoaded) ran

structure Lineage (p : Pipeline M T) (s : Traced M T) : Prop extends s.Faithful p.dimensions where
  equal_iff : ∀ i < s.graph.size, ∀ j < s.graph.size,
    (s.graph.variant i == s.graph.variant j) = true ↔
      Variant.SameInTheEnd p.dimensions (s.history i) (s.history j)
  /-- Two instances of a group with equal variants differ in overwritten values alone. -/
  apart_iff : s.graph.VariantsApart ↔
    ∀ grp ∈ s.graph.groups, ∀ i ∈ grp.members, ∀ j ∈ grp.members,
      Variant.SameInTheEnd p.dimensions (s.history i) (s.history j) → s.history i = s.history j

/-- A run leaves the instances of each group apart exactly when none of them differ in overwritten
values alone, that is, in values given under a name that a later transition has as well. After any
number of passes it is the plan of the next transition that decides about that. -/
theorem resolve_apart_iff (p : Pipeline M T) (modules : List M) :
    p.resolve modules = (p.resolveTraced modules).map Traced.graph ∧
    (∀ s, p.resolveTraced modules = .ok s → p.Lineage s) ∧
    ∀ (count : Nat) (g next : Graph M T) (t : Transition M T) (plans : List InstancePlan),
      (p.take count).resolve modules = .ok g → t.plan g = .ok plans → t.run g = .ok next →
        (next.VariantsApart ↔
          ∀ grp ∈ g.groups, ∀ i ∈ grp.members, ∀ j ∈ grp.members, i ≠ j →
            (g.variant i).AgreeBut t.name (g.variant j) →
              (Transition.valuesOf plans i).Disjoint (Transition.valuesOf plans j)) := by
  refine ⟨p.resolveTraced_graph modules, fun s traced => ?_, ?_⟩
  · have faithful := resolveTraced_faithful traced
    exact { faithful with
      equal_iff := fun i hi j hj => faithful.equal_iff hi hj
      apart_iff := faithful.apart_iff }
  · intro count g next t plans h planned ran
    obtain ⟨s, traced, rfl⟩ := exists_resolveTraced h
    have faithful := resolveTraced_faithful traced
    exact Transition.run_apart_iff faithful.wellFormed (fun i => faithful.distinct) planned ran

section Repeated

open Ruled

def byLink : Transition RuledModule String := ⟨"link", false, RuledModule.ruledTransition "link"⟩

def repeated (last : TransitionMutator RuledModule String) : Pipeline RuledModule String where
  settings := ⟨false⟩
  passes := [.transition byLink, .transition { byLink with mutator := last }]

def growing : List RuledModule := [
  ⟨"app", ["lib"], none, [], []⟩,
  ⟨"lib", [], none, [("link", { split := some ["{variant}a", "{variant}b"] })], []⟩]

theorem resolve_apart_iff_growing :
    ∃ s, (repeated byLink.mutator).resolveTraced growing = .ok s ∧
      (s.graph.instances.map Instance.label).zip s.histories = [
        ("app()", ["", ""]), ("lib(aa)", ["a", "aa"]), ("lib(ab)", ["a", "ab"]),
        ("lib(ba)", ["b", "ba"]), ("lib(bb)", ["b", "bb"]), ("lib(a)", ["", "a"]),
        ("lib(b)", ["", "b"]), ("lib()", ["", ""])] ∧
      (repeated byLink.mutator).resolve growing = .ok s.graph ∧
      (repeated byLink.mutator).Lineage s ∧ s.graph.VariantsApart ∧
      ∃ g plans, ((repeated byLink.mutator).take 1).resolve growing = .ok g ∧
        byLink.plan g = .ok plans ∧ byLink.run g = .ok s.graph ∧
        (g.variant 1).AgreeBut "link" (g.variant 2) ∧
        (Transition.valuesOf plans 1).Disjoint (Transition.valuesOf plans 2) := by
  obtain ⟨s, g, plans, traced, histories, apart, ran, planned, last, members, one, two⟩ :
      ∃ s g plans, (repeated byLink.mutator).resolveTraced growing = .ok s ∧
        (s.graph.instances.map Instance.label).zip s.histories = [
          ("app()", ["", ""]), ("lib(aa)", ["a", "aa"]), ("lib(ab)", ["a", "ab"]),
          ("lib(ba)", ["b", "ba"]), ("lib(bb)", ["b", "bb"]), ("lib(a)", ["", "a"]),
          ("lib(b)", ["", "b"]), ("lib()", ["", ""])] ∧ s.graph.VariantsApart ∧
        ((repeated byLink.mutator).take 1).resolve growing = .ok g ∧ byLink.plan g = .ok plans ∧
        byLink.run g = .ok s.graph ∧ (⟨"lib", [1, 2, 3]⟩ : Group) ∈ g.groups ∧
        g.variant 1 = ⟨[⟨"link", "a"⟩]⟩ ∧ g.variant 2 = ⟨[⟨"link", "b"⟩]⟩ :=
    ⟨_, _, _, rfl, by decide +kernel, by decide +kernel, rfl, rfl, rfl, .tail _ (.head _), rfl, rfl⟩
  have agree : (g.variant 1).AgreeBut "link" (g.variant 2) := by
    intro m other
    simp [one, two, Variant.get, Ne.symm other]
  obtain ⟨erased, lineage, planned_iff⟩ := resolve_apart_iff (repeated byLink.mutator) growing
  have disjoint := (planned_iff 1 g s.graph byLink plans ran planned last).mp apart _ members
    1 (by decide) 2 (by decide) (by decide) agree
  exact ⟨s, traced, histories, by rw [erased, traced]; rfl, lineage s traced, apart, g, plans, ran,
    planned, last, agree, disjoint⟩

/-- The last transition gives both instances of `lib` the default. Only the first is found again. -/
theorem resolve_apart_overwritten :
    ∃ g, (repeated {}).resolve
        [⟨"lib", [], none, [("link", { split := some ["x", "y"] })], []⟩] = .ok g ∧
      g.groups.map Group.members = [[0, 1]] ∧ (g.variant 0 == g.variant 1) = true ∧
      ¬ g.VariantsApart ∧ g.byVariant? "lib" (g.variant 1) = some 0 :=
  ⟨_, rfl, rfl, by decide +kernel, by decide +kernel, rfl⟩

end Repeated

end Pipeline

end BuildVariants
