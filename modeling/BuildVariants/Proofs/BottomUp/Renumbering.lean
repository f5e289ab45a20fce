import BuildVariants.Proofs.BottomUp.Moving
import BuildVariants.Proofs.BottomUp.Pass
import BuildVariants.Proofs.Graph.Acyclic

/-!
# Bottom-up passes over renumbered graphs

A pass may visit renumbered instances in another order. Every visit is resolved against the graph
before the pass, so it asks for the same edges whenever its turn comes, and only the order of the
edges that are added to one instance can change.
-/

set_option autoImplicit false

namespace BuildVariants

variable {M T : Type}

def Addition.tag? : Addition T → Option T
  | .forward _ tag _ _ => some tag
  | .reverse _ tag _ => some tag
  | .failure _ => none

/-- The same edges in the same order, but for some at the end, which come in any order and have
tags that `late` allows. -/
def ApartFromLate (late : T → Prop) (deps deps' : List (Edge T)) : Prop :=
  ∃ old added added', deps = old ++ added ∧ deps' = old ++ added' ∧ added.Perm added' ∧
    ∀ e ∈ added, late e.tag

namespace Graph

variable {σ : Nat → Nat} {g g' : Graph M T}

theorem added_renumber (injective : ∀ i < g.size, ∀ j < g.size, σ i = σ j → i = j)
    {added : List (Nat × Edge T)} (sources : ∀ p ∈ added, p.1 < g.size) {i : Nat}
    (hi : i < g.size) :
    ((added.map (renumberAdded σ)).filter fun p => p.1 = σ i).map Prod.snd =
      ((added.filter fun p => p.1 = i).map Prod.snd).map (Edge.renumber σ) := by
  have own : added.filter ((fun p => decide (p.1 = σ i)) ∘ renumberAdded σ) =
      added.filter fun p => p.1 = i := by
    apply List.filter_congr
    intro p hp
    have : σ p.1 = σ i ↔ p.1 = i :=
      ⟨injective _ (sources p hp) i hi, fun same => by rw [same]⟩
    simp [renumberAdded, this]
  rw [List.filter_map, own, List.map_map, List.map_map]
  rfl

theorem Renumbers.addEdges (ren : Renumbers Eq σ g g') {late : T → Prop}
    {added added' : List (Nat × Edge T)} (sources : ∀ p ∈ added, p.1 < g.size)
    (tags : ∀ p ∈ added, late p.2.tag) (perm : (added.map (renumberAdded σ)).Perm added') :
    Renumbers (ApartFromLate late) σ (g.addEdges added) (g'.addEdges added') where
  size := by rw [g.size_addEdges, g'.size_addEdges, ren.size]
  injective := by
    rw [g.size_addEdges]
    exact ren.injective
  group? := ren.group?
  instances i y hy := by
    rw [instance?_addEdges] at hy
    obtain ⟨x, hx, rfl⟩ := Option.map_eq_some_iff.mp hy
    obtain ⟨_, there, rfl⟩ := ren.instances i x hx
    refine ⟨_, by rw [instance?_addEdges, there, Option.map_some], x.deps.map (Edge.renumber σ),
      ((added.filter fun p => p.1 = i).map Prod.snd).map (Edge.renumber σ), _,
      by rw [List.map_append], rfl, ?_, ?_⟩
    · rw [← added_renumber ren.injective sources (g.instance_lt hx)]
      exact (perm.filter _).map Prod.snd
    · intro e' he'
      obtain ⟨e, he, rfl⟩ := List.mem_map.mp he'
      obtain ⟨p, hp, rfl⟩ := List.mem_map.mp he
      exact tags p (List.mem_filter.mp hp).1

end Graph

variable [BuildModule M T]

theorem Site.resolve_tag {s : Site M T} {a : Addition T} {p : Nat × Edge T}
    (h : s.resolve a = .ok (some p)) : a.tag? = some p.2.tag := by
  cases a with
  | forward choices tag name far =>
    obtain ⟨_, _, _, _, _, rfl⟩ := forwardEdge_added h
    rfl
  | reverse choices tag name =>
    obtain ⟨_, _, _, _, rfl⟩ := reverseEdge_added h
    rfl
  | failure message => cases h

namespace BottomUpMutator

variable {b : BottomUpMutator M T} {allowMissing : Bool} {completed : List (Transition M T)}
  {σ : Nat → Nat} {g g' next : Graph M T}

omit [BuildModule M T] in
variable (b) in
def ByContent : Prop := ∀ g x g' x', x.content = x'.content → b.visit g x = b.visit g' x'

/-- A visit that asks for some of the additions of another leaves the same behind, if those come
to the same and the rest to nothing. -/
theorem visitAt_of_kept {s s' : Site M T} {f : M → M} (keeps : KeepsLabel f)
    (moves : Site.Moves σ f s s') (kept : Addition T → Bool)
    (visit : b.visit s'.graph s'.self =
      ((b.visit s.graph s.self).1.filter kept, (b.visit s.graph s.self).2))
    (same : ∀ a ∈ (b.visit s.graph s.self).1, kept a = true →
      s'.resolve a = (s.resolve a).map (Option.map (renumberAdded σ)))
    (dropped : ∀ a ∈ (b.visit s.graph s.self).1, kept a = false → s.resolve a = .ok none) :
    b.visitAt s' = ((b.visitAt s).1, (b.visitAt s).2.map (renumberAdded σ)) := by
  obtain ⟨deps, self⟩ := moves.self
  have own : ∀ e : MutatorError, e.toFailure s'.self.content s'.self.variant =
      e.toFailure s.self.content s.self.variant := by
    intro e
    rw [self, keeps.toFailure]
  rw [visitAt, visitAt, visit]
  generalize b.visit s.graph s.self = visited at same dropped
  obtain ⟨additions, error⟩ := visited
  simp only [own, Prod.mk.injEq, List.append_cancel_left_eq]
  induction additions with
  | nil => exact ⟨rfl, rfl⟩
  | cons a rest ih =>
    obtain ⟨failures, edges⟩ := ih (fun c hc => same c (List.mem_cons_of_mem a hc))
      fun c hc => dropped c (List.mem_cons_of_mem a hc)
    cases here : kept a with
    | false =>
      have nothing := dropped a (by simp) here
      rw [List.filter_cons_of_neg (by simp [here])]
      simp [nothing, failures, edges]
    | true =>
      have outcome := same a (by simp) here
      rw [List.filter_cons_of_pos here]
      cases resolved : s.resolve a with
      | error e =>
        rw [resolved] at outcome
        simp [outcome, resolved, Except.map, failures, edges]
      | ok added =>
        rw [resolved] at outcome
        cases added <;> simp [outcome, resolved, Except.map, failures, edges]

omit [BuildModule M T] in
theorem moves_of_renumbers (wf : g.WellFormed) (ren : Graph.Renumbers Eq σ g g')
    (allowMissing : Bool) (completed : List (Transition M T)) (i : Nat) (x : Instance M T) :
    Site.Moves σ id ⟨g, completed, allowMissing, i, x⟩
      ⟨g', completed, allowMissing, σ i, x.renumber σ⟩ where
  wf := wf
  group? := ren.group?
  instances j y hy := by
    obtain ⟨deps, there, _⟩ := ren.instances j y hy
    exact ⟨deps, there⟩
  completed := rfl
  id := rfl
  self := ⟨_, rfl⟩

theorem visited_renumber (content : b.ByContent) (wf : g.WellFormed)
    (ren : Graph.Renumbers Eq σ g g') {i : Nat} (hi : i < g.size) :
    b.visited allowMissing completed g' (σ i) =
      ((b.visited allowMissing completed g i).1,
        (b.visited allowMissing completed g i).2.map (renumberAdded σ)) := by
  obtain ⟨x, hx⟩ := g.exists_instance hi
  obtain ⟨_, there, rfl⟩ := ren.instances i x hx
  have moves := moves_of_renumbers wf ren allowMissing completed i x
  have visit : b.visit g' (x.renumber σ) =
      ((b.visit g x).1.filter fun _ => true, (b.visit g x).2) := by
    rw [List.filter_true]
    exact content _ _ _ _ rfl
  simp only [visited, site?, there, hx, Option.map_some, Option.getD_some]
  apply visitAt_of_kept keepsLabel_id moves (fun _ => true) visit
  · intro a _ _
    exact moves.resolve keepsLabel_id (fun t _ => t.blind_id) (Or.inl rfl)
  · intro a _ dropped
    cases dropped

theorem edgesAlong_renumber (content : b.ByContent) (wf : g.WellFormed)
    (ren : Graph.Renumbers Eq σ g g') {order : List Nat} (inside : ∀ i ∈ order, i < g.size) :
    b.edgesAlong allowMissing completed g' (order.map σ) =
      (b.edgesAlong allowMissing completed g order).map (renumberAdded σ) := by
  rw [edgesAlong_eq, edgesAlong_eq, List.map_flatMap, List.flatMap_map]
  apply List.flatMap_congr
  intro i hi
  rw [visited_renumber content wf ren (inside i hi)]

theorem failuresAlong_renumber (content : b.ByContent) (wf : g.WellFormed)
    (ren : Graph.Renumbers Eq σ g g') {order order' : List Nat}
    (inside : ∀ i ∈ order, i < g.size) (perm : (order.map σ).Perm order')
    (clean : b.failuresAlong allowMissing completed g order = []) :
    b.failuresAlong allowMissing completed g' order' = [] := by
  rw [failuresAlong_eq, List.flatMap_eq_nil_iff] at clean ⊢
  intro j hj
  obtain ⟨i, hi, rfl⟩ := List.mem_map.mp (perm.symm.subset hj)
  rw [visited_renumber content wf ren (inside i hi)]
  exact clean i hi

/-- A pass that succeeds succeeds on every renumbered graph, and adds the counterparts of the
same edges. -/
theorem run_renumbers {late : T → Prop} (content : b.ByContent)
    (tags : ∀ g x, ∀ a ∈ (b.visit g x).1, ∀ tag ∈ a.tag?, late tag) (wf : g.WellFormed)
    (wf' : g'.WellFormed) (ren : Graph.Renumbers Eq σ g g')
    (h : b.run allowMissing completed g = .ok next) :
    ∃ next', b.run allowMissing completed g' = .ok next' ∧
      Graph.Renumbers (ApartFromLate late) σ next next' := by
  obtain ⟨order, walk, found, clean, rfl, closed⟩ := run_eq_ok_iff.mp h
  have visitedOnce := g.bottomUp_perm wf.targets_valid found
  have each : ∀ i ∈ order, i < g.size := fun i hi => List.mem_range.mp (visitedOnce.subset hi)
  have acyclic := (g.topDown_ok wf.targets_valid (g.bottomUp_ok_iff.mp found)).acyclic
  obtain ⟨downward, ordered⟩ := g'.topDown_of_acyclic wf'.targets_valid
    (ren.acyclic wf (by rintro deps _ rfl; exact List.Subset.refl deps) acyclic)
  have found' : g'.bottomUp = .ok downward.reverse :=
    g'.bottomUp_ok_iff.mpr (by rw [List.reverse_reverse, ordered])
  have perm : (order.map σ).Perm downward.reverse :=
    (visitedOnce.map σ).trans
      (ren.perm_range.trans (g'.bottomUp_perm wf'.targets_valid found').symm)
  have clean' := failuresAlong_renumber content wf ren each perm clean
  have edges : ((b.edgesAlong allowMissing completed g order).map (renumberAdded σ)).Perm
      (b.edgesAlong allowMissing completed g' downward.reverse) := by
    rw [← edgesAlong_renumber content wf ren each, edgesAlong_eq, edgesAlong_eq]
    exact perm.flatMap_right _
  have inside : ∀ p ∈ b.edgesAlong allowMissing completed g order,
      p.1 < g.size ∧ p.2.target < g.size := edgesAlong_lt wf order
  have inside' : ∀ p ∈ b.edgesAlong allowMissing completed g' downward.reverse,
      p.1 < g'.size ∧ p.2.target < g'.size := edgesAlong_lt wf' downward.reverse
  have allowed : ∀ p ∈ b.edgesAlong allowMissing completed g order, late p.2.tag := by
    intro p hp
    obtain ⟨_, _, s, _, a, ha, asked⟩ := mem_edgesAlong.mp hp
    exact tags _ _ a ha _ (Site.resolve_tag asked)
  -- The new edges close no cycle of the one graph, so they close none of the other.
  have extended := ren.addEdges (fun p hp => (inside p hp).1) allowed edges
  have wfNext := wf.addEdges fun p hp => (inside p hp).2
  have wfNext' := wf'.addEdges fun p hp => (inside' p hp).2
  have acyclicNext := (Graph.topDown_ok _ wfNext.targets_valid closed).acyclic
  have only : ∀ deps deps' : List (Edge T), ApartFromLate late deps deps' → deps' ⊆ deps := by
    rintro _ _ ⟨old, added, added', rfl, rfl, same, _⟩
    exact ((List.Perm.refl old).append same).symm.subset
  obtain ⟨walk', closed'⟩ := Graph.topDown_of_acyclic _ wfNext'.targets_valid
    (extended.acyclic wfNext only acyclicNext)
  exact ⟨_, run_eq_ok_iff.mpr ⟨_, walk', found', clean', rfl, closed'⟩, extended⟩

end BottomUpMutator

end BuildVariants
