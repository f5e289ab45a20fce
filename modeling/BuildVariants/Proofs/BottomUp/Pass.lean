import BuildVariants.Proofs.BottomUp.Negotiation

/-!
# Bottom-up passes over settled graphs

Every edge that an addition calls for ends at an instance of the graph, so a bottom-up pass
leaves a well-formed graph well-formed and a settled graph settled.
-/

set_option autoImplicit false

namespace BuildVariants

variable {M T : Type}

namespace Site

theorem search_lt {s : Site M T} (wf : s.graph.WellFormed) {grp : Group}
    (hgrp : grp ∈ s.graph.groups) {wanted : Variant} {far : Bool} {n : Nat}
    (h : s.search grp wanted far = some n) : n < s.graph.size := by
  rw [search, Option.or_eq_some_iff] at h
  rcases h with exactly | ⟨_, h⟩
  · exact wf.findMember_lt hgrp exactly
  · by_cases hfar : far = true
    · rw [if_pos hfar] at h
      exact wf.findMember_lt hgrp h
    · simp [hfar] at h

variable [BuildModule M T]

theorem forwardEdge_added {s : Site M T} {choices : List Variation} {tag : T} {name : String}
    {far : Bool} {p : Nat × Edge T} (h : s.forwardEdge choices tag name far = .ok (some p)) :
    ∃ grp wanted target, s.graph.group? name = some grp ∧
      s.search grp wanted far = some target ∧ p = (s.id, ⟨target, tag, far⟩) := by
  cases defined : s.graph.group? name with
  | none =>
    rw [forwardEdge, defined] at h
    by_cases missing : s.allowMissing = true <;> simp [missing] at h
  | some grp =>
    rw [forwardEdge_of_group defined] at h
    obtain ⟨wanted, _, placed⟩ := bind_eq_ok_iff.mp h
    obtain ⟨target, found, called⟩ := place_eq_ok_iff.mp placed
    exact ⟨grp, wanted, target, rfl, found, Option.some.inj called⟩

theorem reverseEdge_added {s : Site M T} {choices : List Variation} {tag : T} {name : String}
    {p : Nat × Edge T} (h : s.reverseEdge choices tag name = .ok (some p)) :
    ∃ grp source, s.graph.group? name = some grp ∧
      s.graph.findMember grp (· == s.startVariant choices false) = some source ∧
      p = (source, ⟨s.id, tag, false⟩) := by
  unfold reverseEdge at h
  cases defined : s.graph.group? name with
  | none =>
    rw [defined] at h
    by_cases missing : s.allowMissing = true <;> simp [missing] at h
  | some grp =>
    simp only [defined] at h
    cases found : s.graph.findMember grp (· == s.startVariant choices false) with
    | none => simp [found] at h
    | some source =>
      simp only [found, Except.ok.injEq, Option.some.injEq] at h
      exact ⟨grp, source, rfl, found, h.symm⟩

theorem resolve_lt {s : Site M T} (wf : s.graph.WellFormed)
    (inside : s.id < s.graph.size) {a : Addition T} {p : Nat × Edge T}
    (h : s.resolve a = .ok (some p)) : p.1 < s.graph.size ∧ p.2.target < s.graph.size := by
  cases a with
  | forward choices tag name far =>
    obtain ⟨grp, wanted, target, defined, found, rfl⟩ := forwardEdge_added h
    exact ⟨inside, search_lt wf (Graph.mem_of_group? defined) found⟩
  | reverse choices tag name =>
    obtain ⟨grp, source, defined, found, rfl⟩ := reverseEdge_added h
    exact ⟨wf.findMember_lt (Graph.mem_of_group? defined) found, inside⟩
  | failure message => cases h

/-- What an addition leaves behind: a failure, or the edge that it calls for. -/
def contribution (s : Site M T) (a : Addition T) : List Failure × List (Nat × Edge T) :=
  match s.resolve a with
  | .ok edge => ([], edge.toList)
  | .error f => ([f], [])

theorem contribution_eq_edge_iff {s : Site M T} {a : Addition T} {p : Nat × Edge T} :
    s.contribution a = ([], [p]) ↔ s.resolve a = .ok (some p) := by
  rw [contribution]
  cases s.resolve a with
  | ok edge => cases edge <;> simp
  | error f => simp

theorem contribution_eq_failure_iff {s : Site M T} {a : Addition T} {f : Failure} :
    s.contribution a = ([f], []) ↔ s.resolve a = .error f := by
  rw [contribution]
  cases s.resolve a <;> simp

end Site

namespace BottomUpMutator

variable {b : BottomUpMutator M T} {allowMissing : Bool} {completed : List (Transition M T)}
  {g next : Graph M T}

theorem site?_eq_some_iff {id : Nat} {s : Site M T} :
    site? allowMissing completed g id = some s ↔
      ∃ self, g.instance? id = some self ∧ s = ⟨g, completed, allowMissing, id, self⟩ := by
  rw [site?, Option.map_eq_some_iff]
  simp only [eq_comm]

variable [BuildModule M T]

variable (b allowMissing completed g) in
def failuresAlong (order : List Nat) : List Failure :=
  ((order.filterMap (site? allowMissing completed g)).map b.visitAt).flatMap Prod.fst

variable (b allowMissing completed g) in
def edgesAlong (order : List Nat) : List (Nat × Edge T) :=
  ((order.filterMap (site? allowMissing completed g)).map b.visitAt).flatMap Prod.snd

variable (b allowMissing completed g) in
def visited (i : Nat) : List Failure × List (Nat × Edge T) :=
  ((site? allowMissing completed g i).map b.visitAt).getD ([], [])

theorem visits_flatMap {α : Type} (left : List Failure × List (Nat × Edge T) → List α)
    (none : left ([], []) = []) (order : List Nat) :
    ((order.filterMap (site? allowMissing completed g)).map b.visitAt).flatMap left =
      order.flatMap fun i => left (b.visited allowMissing completed g i) := by
  induction order with
  | nil => rfl
  | cons i order ih =>
    cases site : site? allowMissing completed g i <;>
      simp [visited, site, none, ih]

theorem failuresAlong_eq (order : List Nat) : b.failuresAlong allowMissing completed g order =
    order.flatMap fun i => (b.visited allowMissing completed g i).1 :=
  visits_flatMap Prod.fst rfl order

theorem edgesAlong_eq (order : List Nat) : b.edgesAlong allowMissing completed g order =
    order.flatMap fun i => (b.visited allowMissing completed g i).2 :=
  visits_flatMap Prod.snd rfl order

theorem run_eq : b.run allowMissing completed g = (do
    let order ← g.bottomUp.mapError Failures.single
    let edges ← (Failures.ofList (b.failuresAlong allowMissing completed g order)).guard
      (b.edgesAlong allowMissing completed g order)
    let _ ← (g.addEdges edges).topDown.mapError Failures.single
    return g.addEdges edges) := rfl

theorem mem_edges_visitAt {s : Site M T} {p : Nat × Edge T} :
    p ∈ (b.visitAt s).2 ↔ ∃ a ∈ (b.visit s.graph s.self).1, s.resolve a = .ok (some p) := by
  simp only [visitAt, List.mem_filterMap, List.mem_map]
  constructor
  · rintro ⟨o, ⟨a, ha, rfl⟩, called⟩
    refine ⟨a, ha, ?_⟩
    cases outcome : s.resolve a with
    | error f => simp [outcome] at called
    | ok edge =>
      simp only [outcome] at called
      rw [called]
  · rintro ⟨a, ha, outcome⟩
    exact ⟨s.resolve a, ⟨a, ha, rfl⟩, by rw [outcome]⟩

/-- A visit leaves behind its own error and what its additions leave behind, in order. -/
theorem visitAt_eq (s : Site M T) : b.visitAt s =
    (((b.visit s.graph s.self).2.map fun e => e.toFailure s.self.content s.self.variant).toList ++
        (b.visit s.graph s.self).1.flatMap fun a => (s.contribution a).1,
      (b.visit s.graph s.self).1.flatMap fun a => (s.contribution a).2) := by
  simp only [visitAt, List.flatMap_map, List.filterMap_eq_flatMap_toList]
  congr 3
  all_goals
    funext a
    rw [Site.contribution]
    cases s.resolve a <;> rfl

theorem mem_failures_visitAt {s : Site M T} {a : Addition T} {f : Failure}
    (ha : a ∈ (b.visit s.graph s.self).1) (h : s.resolve a = .error f) :
    f ∈ (b.visitAt s).1 := by
  simp only [visitAt, List.mem_append, List.mem_flatMap, List.mem_map]
  exact Or.inr ⟨_, ⟨a, ha, rfl⟩, by simp [h]⟩

/-- A pass succeeds when no visit fails and the new edges close no cycle. -/
theorem run_eq_ok_iff : b.run allowMissing completed g = .ok next ↔ ∃ order walk,
    g.bottomUp = .ok order ∧
      b.failuresAlong allowMissing completed g order = [] ∧
      next = g.addEdges (b.edgesAlong allowMissing completed g order) ∧
      next.topDown = .ok walk := by
  simp only [run, bind_eq_ok_iff, mapError_eq_ok_iff, Failures.guard_ofList_eq_ok_iff]
  constructor
  · rintro ⟨order, found, edges, ⟨clean, rfl⟩, walk, acyclic, result⟩
    cases result
    exact ⟨order, walk, found, clean, rfl, acyclic⟩
  · rintro ⟨order, walk, found, clean, rfl, acyclic⟩
    exact ⟨order, found, _, ⟨clean, rfl⟩, walk, acyclic, rfl⟩

/-- An edge that a pass adds was asked for by an addition, at some site of the graph. -/
theorem mem_edgesAlong {order : List Nat} {p : Nat × Edge T} :
    p ∈ b.edgesAlong allowMissing completed g order ↔ ∃ id ∈ order, ∃ s,
      site? allowMissing completed g id = some s ∧
        ∃ a ∈ (b.visit s.graph s.self).1, s.resolve a = .ok (some p) := by
  simp only [edgesAlong, List.mem_flatMap, List.mem_map, List.mem_filterMap]
  constructor
  · rintro ⟨_, ⟨s, ⟨id, hid, site⟩, rfl⟩, hp⟩
    exact ⟨id, hid, s, site, mem_edges_visitAt.mp hp⟩
  · rintro ⟨id, hid, s, site, asked⟩
    exact ⟨_, ⟨s, ⟨id, hid, site⟩, rfl⟩, mem_edges_visitAt.mpr asked⟩

theorem edgesAlong_lt (wf : g.WellFormed) (order : List Nat) :
    ∀ p ∈ b.edgesAlong allowMissing completed g order, p.1 < g.size ∧ p.2.target < g.size := by
  intro p hp
  obtain ⟨id, _, s, site, a, _, called⟩ := mem_edgesAlong.mp hp
  obtain ⟨self, here, rfl⟩ := site?_eq_some_iff.mp site
  exact Site.resolve_lt wf (g.instance_lt here) called

theorem run_addEdges (wf : g.WellFormed) (h : b.run allowMissing completed g = .ok next) :
    ∃ added, next = g.addEdges added ∧ ∀ p ∈ added, p.2.target < g.size := by
  obtain ⟨order, _, _, _, result, _⟩ := run_eq_ok_iff.mp h
  exact ⟨_, result, fun p hp => (edgesAlong_lt wf order p hp).2⟩

theorem run_wellFormed (wf : g.WellFormed) (h : b.run allowMissing completed g = .ok next) :
    next.WellFormed := by
  obtain ⟨added, rfl, ends⟩ := run_addEdges wf h
  exact wf.addEdges ends

theorem run_settled {names dims : List String} (settled : g.Settled names dims)
    (h : b.run allowMissing completed g = .ok next) : next.Settled names dims := by
  obtain ⟨added, rfl, ends⟩ := run_addEdges settled.toWellFormed h
  exact settled.addEdges ends

end BottomUpMutator

end BuildVariants
