import BuildVariants.Proofs.BottomUp.Negotiation
import BuildVariants.Proofs.Graph.Renumbering
import BuildVariants.Proofs.Transition.Decision

/-!
# Additions asked for in another graph

What an addition comes to depends on the order in which the instances of a group stand, on their
variants and on what the transitions decide about their contents. It depends neither on how the
instances are numbered nor on the edges that are there already.
-/

set_option autoImplicit false

namespace BuildVariants

variable {M T : Type}

def Addition.name? : Addition T → Option String
  | .forward _ _ name _ => some name
  | .reverse _ _ name => some name
  | .failure _ => none

def renumberAdded (σ : Nat → Nat) (added : Nat × Edge T) : Nat × Edge T :=
  (σ added.1, added.2.renumber σ)

namespace Site

/-- The site `s'` is the site `s` in a graph with other numbers, where the modules are changed by
`f` and the edges may be others. -/
structure Moves (σ : Nat → Nat) (f : M → M) (s s' : Site M T) : Prop where
  wf : s.graph.WellFormed
  group? : ∀ name, s'.graph.group? name = (s.graph.group? name).map (Group.renumber σ)
  instances : ∀ i x, s.graph.instance? i = some x → ∃ deps,
    s'.graph.instance? (σ i) = some { x with content := f x.content, deps }
  completed : s'.completed = s.completed
  id : s'.id = σ s.id
  self : ∃ deps, s'.self = { s.self with content := f s.self.content, deps }

namespace Moves

variable {σ : Nat → Nat} {f : M → M} {s s' : Site M T} {grp : Group}

theorem variant (moves : Moves σ f s s') {i : Nat} (hi : i < s.graph.size) :
    s'.graph.variant (σ i) = s.graph.variant i := by
  obtain ⟨x, hx⟩ := s.graph.exists_instance hi
  obtain ⟨deps, there⟩ := moves.instances i x hx
  rw [Graph.variant_of_instance hx, Graph.variant_of_instance there]

theorem findMember (moves : Moves σ f s s') (hgrp : grp ∈ s.graph.groups)
    (test : Variant → Bool) :
    s'.graph.findMember (grp.renumber σ) test = (s.graph.findMember grp test).map σ := by
  have same : grp.members.filter ((fun i => test (s'.graph.variant i)) ∘ σ) =
      grp.members.filter fun i => test (s.graph.variant i) := by
    apply List.filter_congr
    intro i hi
    rw [Function.comp_apply, moves.variant (moves.wf.member_lt hgrp hi)]
  rw [Graph.findMember, Graph.findMember, Group.renumber, List.find?_map, ← List.head?_filter, same,
    List.head?_filter]

theorem startVariant (moves : Moves σ f s s') (choices : List Variation) (far : Bool) :
    s'.startVariant choices far = s.startVariant choices far := by
  obtain ⟨deps, self⟩ := moves.self
  simp only [Site.startVariant, completedVariant, moves.completed, self]

theorem search (moves : Moves σ f s s') (hgrp : grp ∈ s.graph.groups) (wanted : Variant)
    (far : Bool) : s'.search (grp.renumber σ) wanted far = (s.search grp wanted far).map σ := by
  have exactly := moves.findMember hgrp (· == wanted)
  have larger := moves.findMember hgrp wanted.isSubsetOf
  rw [Site.search, Site.search, exactly, larger]
  cases far <;> cases s.graph.findMember grp (· == wanted) <;> rfl

variable [BuildModule M T] (keeps : KeepsLabel f)

include keeps in
theorem missingVariant (moves : Moves σ f s s') (hgrp : grp ∈ s.graph.groups)
    (direction : Direction) (wanted : Variant) :
    s'.missingVariant direction (grp.renumber σ) wanted = s.missingVariant direction grp wanted := by
  have available : (grp.members.map σ).map s'.graph.variant = grp.members.map s.graph.variant := by
    rw [List.map_map]
    apply List.map_congr_left
    intro i hi
    exact moves.variant (moves.wf.member_lt hgrp hi)
  obtain ⟨deps, self⟩ := moves.self
  simp only [Site.missingVariant, Group.renumber, available, self, keeps.location]

section Negotiation

variable {t : Transition M T} {choices : List Variation} {tag : T}

include keeps in
theorem request (moves : Moves σ f s s') (blind : t.Blind f) (name : String) (wanted : Variant) :
    s'.request t choices tag name wanted = s.request t choices tag name wanted := by
  obtain ⟨deps, self⟩ := moves.self
  simp only [Site.request, self, blind.outgoing, keeps.toFailure]

include keeps in
theorem grant (moves : Moves σ f s s') (blind : t.Blind f) (hgrp : grp ∈ s.graph.groups)
    (earlier : List String) (wanted : Variant) (asked : String) :
    s'.grant t (grp.renumber σ) earlier wanted asked = s.grant t grp earlier wanted asked := by
  rw [Site.grant, Site.grant, moves.findMember hgrp]
  cases found : s.graph.findMember grp fun v => v.matchesOn wanted earlier with
  | none => rfl
  | some i =>
    obtain ⟨y, hy⟩ := s.graph.exists_instance (moves.wf.findMember_lt hgrp found)
    obtain ⟨deps, there⟩ := moves.instances i y hy
    simp only [Option.map_some, Option.bind_some, hy, there, blind.incoming, keeps.toFailure]

include keeps in
theorem negotiate (moves : Moves σ f s s') (hgrp : grp ∈ s.graph.groups) {far : Bool}
    {ts : List (Transition M T)} (blind : ∀ t ∈ ts, t.Blind f) (earlier : List String)
    (wanted : Variant) : s'.negotiate (grp.renumber σ) choices tag far ts earlier wanted =
      s.negotiate grp choices tag far ts earlier wanted := by
  induction ts generalizing earlier wanted with
  | nil => rfl
  | cons t rest ih =>
    have here := blind t (by simp)
    have blindRest : ∀ u ∈ rest, u.Blind f := fun u hu => blind u (List.mem_cons_of_mem _ hu)
    by_cases applies : t.appliesTo far = true
    · have named : (grp.renumber σ).name = grp.name := rfl
      simp only [negotiate_cons applies, named, moves.request keeps here,
        moves.grant keeps here hgrp, ih blindRest]
    · rw [negotiate_cons_of_not applies, negotiate_cons_of_not applies, ih blindRest]

end Negotiation

section Additions

variable (blind : ∀ t ∈ s.completed, t.Blind f) {choices : List Variation} {tag : T}
  {name : String}

include keeps blind in
theorem forwardEdge (moves : Moves σ f s s') (defined : s.graph.group? name = some grp)
    (far : Bool) : s'.forwardEdge choices tag name far =
      (s.forwardEdge choices tag name far).map (Option.map (renumberAdded σ)) := by
  have hgrp := Graph.mem_of_group? defined
  have defined' : s'.graph.group? name = some (grp.renumber σ) := by
    rw [moves.group?, defined, Option.map_some]
  rw [forwardEdge_of_group defined, forwardEdge_of_group defined', moves.completed,
    moves.startVariant, moves.negotiate keeps hgrp blind]
  cases s.negotiate grp choices tag far s.completed [] (s.startVariant choices far) with
  | error e => rfl
  | ok wanted =>
    have placed : s'.place (grp.renumber σ) tag far wanted =
        (s.place grp tag far wanted).map (Option.map (renumberAdded σ)) := by
      rw [place, place, moves.search hgrp, moves.missingVariant keeps hgrp, moves.id]
      cases s.search grp wanted far <;> rfl
    exact placed

include keeps in
theorem reverseEdge (moves : Moves σ f s s') (defined : s.graph.group? name = some grp) :
    s'.reverseEdge choices tag name =
      (s.reverseEdge choices tag name).map (Option.map (renumberAdded σ)) := by
  have hgrp := Graph.mem_of_group? defined
  have defined' : s'.graph.group? name = some (grp.renumber σ) := by
    rw [moves.group?, defined, Option.map_some]
  rw [Site.reverseEdge, Site.reverseEdge, defined, defined']
  simp only [moves.startVariant, moves.findMember hgrp, moves.missingVariant keeps hgrp, moves.id]
  cases s.graph.findMember grp (· == s.startVariant choices false) <;> rfl

include keeps in
/-- An addition that names no module of the graph is dropped, or refused by its name alone. -/
theorem resolve_undefined (moves : Moves σ f s s') (same : s'.allowMissing = s.allowMissing)
    {a : Addition T} (named : a.name? = some name) (undefined : s.graph.group? name = none) :
    s'.resolve a = (s.resolve a).map (Option.map (renumberAdded σ)) := by
  have undefined' : s'.graph.group? name = none := by
    rw [moves.group?, undefined, Option.map_none]
  obtain ⟨deps, self⟩ := moves.self
  cases a with
  | forward choices tag name' far =>
    obtain rfl : name' = name := Option.some.inj named
    rw [resolve, resolve, Site.forwardEdge, Site.forwardEdge, undefined, undefined']
    simp only [same, self, keeps.location]
    cases s.allowMissing <;> rfl
  | reverse choices tag name' =>
    obtain rfl : name' = name := Option.some.inj named
    rw [resolve, resolve, Site.reverseEdge, Site.reverseEdge, undefined, undefined']
    simp only [same, self, keeps.location]
    cases s.allowMissing <;> rfl
  | failure message => cases named

include keeps blind in
/-- An addition comes to the same in either graph, unless it names an undefined module and the
graphs treat those differently. -/
theorem resolve (moves : Moves σ f s s') {a : Addition T}
    (same : s'.allowMissing = s.allowMissing ∨
      ∀ name ∈ a.name?, (s.graph.group? name).isSome = true) :
    s'.resolve a = (s.resolve a).map (Option.map (renumberAdded σ)) := by
  obtain ⟨deps, self⟩ := moves.self
  cases named : a.name? with
  | none =>
    cases a with
    | failure message => simp only [Site.resolve, self, keeps.location, Except.map]
    | _ => cases named
  | some name =>
    cases defined : s.graph.group? name with
    | none =>
      refine moves.resolve_undefined keeps (same.resolve_right fun all => ?_) named defined
      have found := all name named
      rw [defined] at found
      cases found
    | some grp =>
      cases a with
      | forward choices tag name' far =>
        obtain rfl : name' = name := Option.some.inj named
        exact moves.forwardEdge keeps blind defined far
      | reverse choices tag name' =>
        obtain rfl : name' = name := Option.some.inj named
        exact moves.reverseEdge keeps defined
      | failure message => cases named

end Additions

end Moves

end Site

end BuildVariants
