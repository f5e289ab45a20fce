import BuildVariants.Declared.Module
import BuildVariants.Proofs.Graph.Acyclic
import BuildVariants.Proofs.Graph.Loading
import Mathlib.Algebra.BigOperators.Group.Finset.Basic
import Mathlib.Combinatorics.Enumerative.DoubleCounting

/-!
# Cycle failures

A graph without a top-down order has a cycle, and the failure names one of its strongly connected
components: the one of the instance at which the walk or the check after it got stuck. That instance
depends on itself, so the component has a cycle, and what only leads to the cycle or is only reached
from it is not named.
-/

set_option autoImplicit false

namespace BuildVariants.Graph

variable {M T : Type}

section Search

variable {next : Nat → List Nat} {size : Nat}

def searchBudget (next : Nat → List Nat) (size : Nat) (pending found : List Nat) : Nat :=
  Walk.budget next size ⟨pending, found, []⟩

theorem searchBudget_found {i : Nat} {pending found : List Nat} :
    searchBudget next size pending found < searchBudget next size (i :: pending) found := by
  simp [searchBudget, Walk.budget]

theorem searchBudget_fresh {i : Nat} {pending found : List Nat} (fresh : i ∉ found) (hi : i < size) :
    searchBudget next size (next i ++ pending) (i :: found) <
      searchBudget next size (i :: pending) found := by
  have paid := Walk.costs_see next i found (List.range size) fresh (List.mem_range.mpr hi)
  simp only [searchBudget, Walk.budget, List.length_append, List.length_cons]
  omega

theorem reach_sound {P : Nat → Prop} (closed : ∀ i, P i → ∀ j ∈ next i, P j) {steps : Nat}
    {pending found : List Nat} (hpending : ∀ i ∈ pending, P i) (hfound : ∀ i ∈ found, P i) :
    ∀ i ∈ reach next steps pending found, P i := by
  induction steps generalizing pending found with
  | zero => simpa [reach] using hfound
  | succ steps ih =>
    cases pending with
    | nil => simpa [reach] using hfound
    | cons i pending =>
      have hi := hpending i (by simp)
      have hrest : ∀ j ∈ pending, P j := fun j hj => hpending j (by simp [hj])
      rw [reach]
      by_cases there : i ∈ found
      · rw [if_pos there]
        exact ih hrest hfound
      · rw [if_neg there]
        apply ih
        · intro j hj
          rcases List.mem_append.mp hj with new | old
          · exact closed i hi j new
          · exact hrest j old
        · intro j hj
          rcases List.mem_cons.mp hj with rfl | old
          · exact hi
          · exact hfound j old

theorem reach_nodup {steps : Nat} {pending found : List Nat} (nodup : found.Nodup) :
    (reach next steps pending found).Nodup := by
  induction steps generalizing pending found with
  | zero => simpa [reach] using nodup
  | succ steps ih =>
    cases pending with
    | nil => simpa [reach] using nodup
    | cons i pending =>
      rw [reach]
      by_cases there : i ∈ found
      · rw [if_pos there]
        exact ih nodup
      · rw [if_neg there]
        exact ih (List.nodup_cons.mpr ⟨there, nodup⟩)

/-- A search that has the steps it needs finds the pending instances and goes on from each that it
found. The targets of those found so far are among the found or the pending ones. -/
theorem reach_complete (closed : ∀ i, ∀ j ∈ next i, j < size) {steps : Nat} {pending found : List Nat}
    (enough : searchBudget next size pending found ≤ steps) (inside : ∀ i ∈ pending, i < size)
    (frontier : ∀ i ∈ found, ∀ j ∈ next i, j ∈ found ∨ j ∈ pending) :
    (∀ i, i ∈ found ∨ i ∈ pending → i ∈ reach next steps pending found) ∧
      ∀ i ∈ reach next steps pending found, ∀ j ∈ next i, j ∈ reach next steps pending found := by
  induction steps generalizing pending found with
  | zero =>
    have none : pending = [] := by
      have : pending.length ≤ 0 := Nat.le_trans (Nat.le_add_right _ _) enough
      exact List.eq_nil_of_length_eq_zero (Nat.le_zero.mp this)
    subst none
    simpa [reach] using frontier
  | succ steps ih =>
    cases pending with
    | nil => simpa [reach] using frontier
    | cons i pending =>
      have hrest : ∀ j ∈ pending, j < size := fun j hj => inside j (by simp [hj])
      rw [reach]
      by_cases there : i ∈ found
      · rw [if_pos there]
        have less : searchBudget next size pending found < searchBudget next size (i :: pending) found :=
          searchBudget_found
        obtain ⟨starts, goesOn⟩ := @ih pending found (by omega) hrest (by grind)
        exact ⟨fun j hj => starts j (by grind), goesOn⟩
      · rw [if_neg there]
        have less : searchBudget next size (next i ++ pending) (i :: found) <
            searchBudget next size (i :: pending) found :=
          searchBudget_fresh there (inside i (by simp))
        obtain ⟨starts, goesOn⟩ := @ih (next i ++ pending) (i :: found) (by omega) (by grind) (by grind)
        exact ⟨fun j hj => starts j (by grind), goesOn⟩

/-- From where it starts a search finds all that can be reached, and nothing else. -/
theorem mem_reach_iff (closed : ∀ i, ∀ j ∈ next i, j < size) {steps start : Nat} (hstart : start < size)
    (enough : searchBudget next size [start] [] ≤ steps) {j : Nat} :
    j ∈ reach next steps [start] [] ↔ Relation.ReflTransGen (fun i j => j ∈ next i) start j := by
  constructor
  · have start : ∀ i ∈ [start], Relation.ReflTransGen (fun i j => j ∈ next i) start i := by
      intro i hi
      rw [List.mem_singleton.mp hi]
    exact reach_sound (fun i reached j hj => reached.tail hj) start (by simp) j
  · obtain ⟨starts, goesOn⟩ := reach_complete closed enough (by simpa using hstart) (by simp)
    intro reached
    induction reached with
    | refl => exact starts start (by simp)
    | tail _ hj ih => exact goesOn _ ih _ hj

end Search

variable (g : Graph M T)

abbrev Leads : Nat → Nat → Prop := Relation.ReflTransGen fun i j => j ∈ g.targets i

/-- A strongly connected component: all the instances that lead to one of its members and back. -/
structure IsComponent (members : List Nat) : Prop where
  ne_nil : members ≠ []
  nodup : members.Nodup
  inside : ∀ i ∈ members, i < g.size
  mutual_iff : ∀ i ∈ members, ∀ j, j ∈ members ↔ g.Leads i j ∧ g.Leads j i

theorem sum_range_targets :
    ((List.range g.size).map fun i => (g.targets i).length).sum = g.edgeCount := by
  rw [edgeCount_eq_sum]
  congr 1
  apply List.ext_getElem
  · simp [size]
  · intro i h _
    have hi : i < g.instances.length := by simpa [size] using h
    simp [targets, deps, instance?, List.getElem?_eq_getElem hi]

theorem sum_range_dependents_le :
    ((List.range g.size).map fun i => (g.dependents i).length).sum ≤ g.edgeCount := by
  calc ((List.range g.size).map fun i => (g.dependents i).length).sum
      = ∑ i ∈ Finset.range g.size,
          ((Finset.range g.size).bipartiteAbove (fun i j => i ∈ g.targets j) i).card := rfl
    _ = ∑ j ∈ Finset.range g.size,
          ((Finset.range g.size).bipartiteBelow (fun i j => i ∈ g.targets j) j).card :=
        Finset.sum_card_bipartiteAbove_eq_sum_card_bipartiteBelow _
    _ ≤ ∑ j ∈ Finset.range g.size, (g.targets j).length := by
        apply Finset.sum_le_sum
        intro j _
        have ends : (Finset.range g.size).bipartiteBelow (fun i j => i ∈ g.targets j) j ⊆
            (g.targets j).toFinset := by
          intro i hi
          exact List.mem_toFinset.mpr (Finset.mem_filter.mp hi).2
        exact (Finset.card_le_card ends).trans (List.toFinset_card_le _)
    _ = g.edgeCount := g.sum_range_targets

theorem searchBudget_start {next : Nat → List Nat}
    (edges : ((List.range g.size).map fun i => (next i).length).sum ≤ g.edgeCount) (start : Nat) :
    searchBudget next g.size [start] [] ≤ g.size + g.edgeCount + 1 := by
  have costs : Walk.cost next [] = fun i => (next i).length + 1 := by
    funext i
    simp [Walk.cost]
  simp only [searchBudget, Walk.budget, costs, List.sum_map_add, List.map_const',
    List.sum_replicate_nat, List.length_singleton, List.length_range]
  omega

theorem mem_component {id : Nat} (valid : g.TargetsValid) (hid : id < g.size) {i : Nat} :
    i ∈ g.component id ↔ g.Leads id i ∧ g.Leads i id := by
  have arena : ∀ i, ∀ j ∈ g.dependents i, j < g.size := fun i j hj =>
    g.lt_of_mem_targets (g.mem_dependents.mp hj)
  have below := mem_reach_iff valid hid (j := i)
    (g.searchBudget_start (Nat.le_of_eq g.sum_range_targets) id)
  have above := mem_reach_iff arena hid (j := i)
    (g.searchBudget_start g.sum_range_dependents_le id)
  have reversed : Relation.ReflTransGen (fun i j => j ∈ g.dependents i) id i ↔ g.Leads i id := by
    simp only [mem_dependents]
    exact Relation.reflTransGen_swap
  rw [component, List.mem_filter, decide_eq_true_iff, below, above, reversed]

theorem component_isComponent {id : Nat} (valid : g.TargetsValid) (hid : id < g.size) :
    g.IsComponent (g.component id) where
  ne_nil := List.ne_nil_of_mem ((g.mem_component valid hid).mpr ⟨.refl, .refl⟩)
  nodup := (reach_nodup List.nodup_nil).filter _
  inside i hi := by
    rcases Relation.ReflTransGen.cases_tail ((g.mem_component valid hid).mp hi).1 with rfl | ⟨j, _, edge⟩
    · exact hid
    · exact valid j i edge
  mutual_iff i hi j := by
    obtain ⟨there, back⟩ := (g.mem_component valid hid).mp hi
    rw [g.mem_component valid hid]
    exact ⟨fun h => ⟨back.trans h.1, h.2.trans there⟩, fun h => ⟨there.trans h.1, h.2.trans back⟩⟩

theorem misplaced_some {before rest : List Nat} {j : Nat} (h : g.misplaced before rest = some j) :
    ∃ first i last, rest = first ++ i :: last ∧ i ∈ g.targets j ∧ j ∉ before ∧ j ∉ first := by
  induction rest generalizing before with
  | nil => cases h
  | cons a rest ih =>
    rw [misplaced] at h
    split at h
    · next k found =>
      obtain rfl := Option.some.inj h
      have unplaced := List.find?_some found
      exact ⟨[], a, rest, rfl, g.mem_dependents.mp (List.mem_of_find?_eq_some found),
        by simpa using unplaced, List.not_mem_nil⟩
    · obtain ⟨first, i, last, split, target, outside, later⟩ := ih h
      rw [List.mem_cons, not_or] at outside
      exact ⟨a :: first, i, last, by rw [split, List.cons_append], target, outside.2,
        by simp [outside.1, later]⟩

/-- Where the search for a top-down order gets stuck: at an instance with an edge to itself, or at
the second instance that a search along reversed edges finds. -/
def StuckAt (id : Nat) : Prop :=
  g.finishOrder = .error id ∨
    ∃ order, g.finishOrder = .ok order ∧ g.reverseSearch [] order = some id

theorem topDown_stuck (valid : g.TargetsValid) {f : Failure} (h : g.topDown = .error f) :
    ∃ id, g.StuckAt id ∧ f = g.cycleFailure id := by
  unfold topDown at h
  split at h
  · next id found => exact ⟨id, Or.inl found, (Except.error.inj h).symm⟩
  · next order found =>
    split at h
    · next id checked =>
      rw [← g.reverseSearch_finishOrder valid found] at checked
      exact ⟨id, Or.inr ⟨order, found, checked⟩, (Except.error.inj h).symm⟩
    · cases h

/-- An instance that is misplaced in the finish order has an edge that leads back to it. -/
theorem StuckAt.dependsOn_self {g : Graph M T} (valid : g.TargetsValid) {id : Nat}
    (stuck : g.StuckAt id) : g.DependsOn id id := by
  rcases stuck with found | ⟨order, found, checked⟩
  · exact .single (g.finishOrder_error valid found)
  · rw [g.reverseSearch_finishOrder valid found] at checked
    obtain ⟨first, i, last, split, target, _, outside⟩ := g.misplaced_some checked
    rcases g.finishOrder_forward valid found target with forward | back
    · -- Everything from `i` on stands behind `first`, so the edge does not lead forward.
      obtain ⟨nodup, _⟩ := g.finishOrder_ok valid found
      rw [split] at nodup forward
      have behind : i ∉ first := fun hi =>
        (List.nodup_append.mp nodup).2.2 i hi i (by simp) rfl
      rw [List.idxOf_append_of_notMem behind, List.idxOf_append_of_notMem outside,
        List.idxOf_cons_self] at forward
      omega
    · exact .head target back

/-- A component around an instance that depends on itself has another member, or an edge from its
only member to itself. -/
theorem IsComponent.cyclic {g : Graph M T} {members : List Nat} (component : g.IsComponent members)
    {id : Nat} (member : id ∈ members) (loop : g.DependsOn id id) :
    (∃ i ∈ members, ∃ j ∈ members, i ≠ j) ∨ members = [id] ∧ id ∈ g.targets id := by
  by_cases alone : ∀ i ∈ members, i = id
  · right
    obtain ⟨j, edge, back⟩ := Relation.TransGen.head'_iff.mp loop
    have same : j = id := alone j ((component.mutual_iff id member j).mpr ⟨.single edge, back⟩)
    refine ⟨?_, same ▸ edge⟩
    exact List.perm_singleton.mp <| (List.perm_ext_iff_of_nodup component.nodup (by simp)).mpr
      fun i => ⟨fun hi => by simp [alone i hi], fun hi => List.mem_singleton.mp hi ▸ member⟩
  · left
    push Not at alone
    obtain ⟨i, hi, different⟩ := alone
    exact ⟨i, hi, id, member, different⟩

/-- The failure for a graph without a top-down order names one strongly connected component, that of
the instance where the search for an order got stuck. It lists the labels of the component's members
in increasing order and no others, and the component has a cycle: two members, each of which leads to
the other, or a single one with an edge to itself. -/
theorem topDown_names_cycle (valid : g.TargetsValid) {f : Failure} (h : g.topDown = .error f) :
    ∃ labels members id, f = .cycle labels ∧ g.StuckAt id ∧ id ∈ members ∧ g.IsComponent members ∧
      labels.Pairwise (· < ·) ∧
      (∀ label, label ∈ labels ↔ ∃ i ∈ members, g.label i = label) ∧
      ((∃ i ∈ members, ∃ j ∈ members, i ≠ j ∧ g.DependsOn i j ∧ g.DependsOn j i) ∨
        members = [id] ∧ id ∈ g.targets id) := by
  obtain ⟨id, stuck, rfl⟩ := g.topDown_stuck valid h
  have loop := stuck.dependsOn_self valid
  obtain ⟨_, edge, _⟩ := Relation.TransGen.head'_iff.mp loop
  have hid : id < g.size := g.lt_of_mem_targets edge
  have component := g.component_isComponent valid hid
  have member : id ∈ g.component id := (g.mem_component valid hid).mpr ⟨.refl, .refl⟩
  refine ⟨_, g.component id, id, rfl, stuck, member, component, Text.increasing_sortedSet _, ?_, ?_⟩
  · intro label
    rw [Text.mem_sortedSet, List.mem_map]
  · refine (component.cyclic member loop).imp_left ?_
    rintro ⟨i, hi, j, hj, different⟩
    obtain ⟨there, back⟩ := (component.mutual_iff i hi j).mp hj
    exact ⟨i, hi, j, hj, different,
      (Relation.reflTransGen_iff_eq_or_transGen.mp there).resolve_left (Ne.symm different),
      (Relation.reflTransGen_iff_eq_or_transGen.mp back).resolve_left different⟩

def circular : List DeclaredModule := [
  { name := "tool" },
  { name := "pong", deps := ["ping"] },
  { name := "app", deps := ["mid", "tool"] },
  { name := "mid", deps := ["tool", "core"] },
  { name := "core", deps := ["mid", "link"] },
  { name := "link", deps := ["core", "tool"] },
  { name := "ping", deps := ["pong"] }]

theorem topDown_names_cycle_circular :
    ∃ g, load ⟨false⟩ circular = .ok g ∧ g.TargetsValid ∧
      g.topDown = .error (.cycle ["core()", "link()", "mid()"]) ∧
      ∃ labels members id, .cycle ["core()", "link()", "mid()"] = Failure.cycle labels ∧
        g.StuckAt id ∧ id ∈ members ∧ g.IsComponent members ∧ labels.Pairwise (· < ·) ∧
        (∀ label, label ∈ labels ↔ ∃ i ∈ members, g.label i = label) ∧
        ((∃ i ∈ members, ∃ j ∈ members, i ≠ j ∧ g.DependsOn i j ∧ g.DependsOn j i) ∨
          members = [id] ∧ id ∈ g.targets id) := by
  obtain ⟨g, loaded, fails⟩ : ∃ g, load ⟨false⟩ circular = .ok g ∧
      g.topDown = .error (.cycle ["core()", "link()", "mid()"]) := ⟨_, rfl, rfl⟩
  have valid := (load_settled loaded).targets_valid
  exact ⟨g, loaded, valid, fails, g.topDown_names_cycle valid fails⟩

end BuildVariants.Graph
