import BuildVariants.Graph.VisitOrder
import Mathlib.Algebra.GroupWithZero.Nat
import Mathlib.Algebra.Order.BigOperators.Group.List
import Mathlib.Algebra.Order.Group.Nat
import Mathlib.Data.List.Nodup
import Mathlib.Logic.Relation

/-!
# Top-down orders

A top-down order lists every instance once, and every dependent before what it depends on.
The depth-first walk goes through the whole arena within its bound of steps, and the check
after it compares the places of dependents: an order that passes is a top-down order.
-/

set_option autoImplicit false

namespace BuildVariants

namespace Walk

variable (next : Nat → List Nat)

inductive Step : Walk → Walk → Prop
  | finish {i : Nat} {rest seen finished : List Nat} (again : i ∈ seen) :
      Step ⟨i :: rest, seen, finished⟩
        ⟨rest, seen, if i ∈ finished then finished else i :: finished⟩
  | see {i : Nat} {rest seen finished : List Nat} (fresh : i ∉ seen) (loopless : i ∉ next i) :
      Step ⟨i :: rest, seen, finished⟩
        ⟨(next i).filter (fun j => j ∉ i :: seen) ++ i :: rest, i :: seen, finished⟩

abbrev Steps : Walk → Walk → Prop := Relation.ReflTransGen (Step next)

def cost (seen : List Nat) (i : Nat) : Nat :=
  if i ∈ seen then 0 else (next i).length + 1

/-- A bound for the steps that are left in an arena of the given size. -/
def budget (size : Nat) (w : Walk) : Nat :=
  w.stack.length + ((List.range size).map (cost next w.seen)).sum

theorem cost_antitone (i : Nat) (seen : List Nat) (j : Nat) :
    cost next (i :: seen) j ≤ cost next seen j := by
  unfold cost
  by_cases hj : j ∈ seen
  · simp [hj]
  · by_cases hi : j = i <;> simp [hi, hj]

theorem costs_see (i : Nat) (seen arena : List Nat) (fresh : i ∉ seen) (hi : i ∈ arena) :
    (arena.map (cost next (i :: seen))).sum + ((next i).length + 1)
      ≤ (arena.map (cost next seen)).sum := by
  induction arena with
  | nil => simp at hi
  | cons a arena ih =>
    simp only [List.map_cons, List.sum_cons]
    by_cases ha : a = i
    · subst ha
      have rest : (arena.map (cost next (a :: seen))).sum ≤ (arena.map (cost next seen)).sum :=
        List.sum_le_sum fun j _ => cost_antitone next a seen j
      have paid : cost next (a :: seen) a = 0 := by simp [cost]
      have due : cost next seen a = (next a).length + 1 := by simp [cost, fresh]
      omega
    · have rest := ih ((List.mem_cons.mp hi).resolve_left (Ne.symm ha))
      have same := cost_antitone next i seen a
      omega

theorem step_budget {size : Nat} {w w' : Walk} (h : Step next w w')
    (inside : ∀ i ∈ w.stack, i < size) : w'.budget next size < w.budget next size := by
  cases h with
  | finish _ => simp [budget]
  | @see i rest seen finished fresh _ =>
    have paid := costs_see next i seen (List.range size) fresh
      (List.mem_range.mpr (inside i (by simp)))
    have pushed := List.length_filter_le (fun j => decide (j ∉ i :: seen)) (next i)
    simp only [budget, List.length_append, List.length_cons]
    omega

/-- What the steps of a walk keep: nothing outside the arena, nothing finished twice. -/
structure Tidy (size : Nat) (w : Walk) : Prop where
  stack_lt : ∀ i ∈ w.stack, i < size
  finished_lt : ∀ i ∈ w.finished, i < size
  finished_nodup : w.finished.Nodup

theorem step_tidy {size : Nat} (closed : ∀ i, ∀ j ∈ next i, j < size) {w w' : Walk}
    (h : Step next w w') (tidy : w.Tidy size) : w'.Tidy size := by
  obtain ⟨hs, hf, hn⟩ := tidy
  cases h with
  | @finish i rest seen finished _ =>
    have hi : i < size := hs i (by simp)
    have hrest : ∀ j ∈ rest, j < size := fun j hj => hs j (by simp [hj])
    by_cases done : i ∈ finished
    · simp only [done, if_true]
      exact ⟨hrest, hf, hn⟩
    · simp only [done, if_false]
      refine ⟨hrest, ?_, List.nodup_cons.mpr ⟨done, hn⟩⟩
      intro j hj
      rcases List.mem_cons.mp hj with rfl | hj
      · exact hi
      · exact hf j hj
  | @see i rest seen finished _ _ =>
    refine ⟨?_, hf, hn⟩
    intro j hj
    rcases List.mem_append.mp hj with new | old
    · exact closed i j (List.mem_filter.mp new).1
    · exact hs j old

/-- What is on the stack stays there until it is finished, and what is finished stays so. -/
theorem step_keeps {w w' : Walk} (h : Step next w w') {j : Nat}
    (hj : j ∈ w.stack ∨ j ∈ w.finished) : j ∈ w'.stack ∨ j ∈ w'.finished := by
  cases h with
  | @finish i rest seen finished _ =>
    have grows : ∀ k ∈ i :: finished, k ∈ if i ∈ finished then finished else i :: finished := by
      intro k hk
      by_cases done : i ∈ finished
      · simp only [done, if_true]
        rcases List.mem_cons.mp hk with rfl | hk
        · exact done
        · exact hk
      · simpa only [done, if_false] using hk
    rcases hj with stacked | done
    · rcases List.mem_cons.mp stacked with rfl | stacked
      · exact Or.inr (grows j (by simp))
      · exact Or.inl stacked
    · exact Or.inr (grows j (by simp [show j ∈ finished from done]))
  | see _ _ =>
    rcases hj with stacked | done
    · exact Or.inl (List.mem_append.mpr (Or.inr stacked))
    · exact Or.inr done

/-- No walk goes on forever. -/
theorem not_endless {size : Nat} (closed : ∀ i, ∀ j ∈ next i, j < size) {walk : Nat → Walk}
    (tidy : (walk 0).Tidy size) : ¬ ∀ n, Step next (walk n) (walk (n + 1)) := by
  intro endless
  have spent : ∀ n, (walk n).Tidy size ∧
      (walk n).budget next size + n ≤ (walk 0).budget next size := by
    intro n
    induction n with
    | zero => exact ⟨tidy, Nat.le_refl _⟩
    | succ n ih =>
      have less := step_budget next (endless n) ih.1.stack_lt
      exact ⟨step_tidy next closed (endless n) ih.1, by omega⟩
  have := (spent ((walk 0).budget next size + 1)).2
  omega

theorem steps_tidy {size : Nat} (closed : ∀ i, ∀ j ∈ next i, j < size) {w w' : Walk}
    (h : Steps next w w') (tidy : w.Tidy size) : w'.Tidy size := by
  induction h with
  | refl => exact tidy
  | tail _ last ih => exact step_tidy next closed last ih

theorem steps_keep {w w' : Walk} (h : Steps next w w') {j : Nat}
    (hj : j ∈ w.stack ∨ j ∈ w.finished) : j ∈ w'.stack ∨ j ∈ w'.finished := by
  induction h with
  | refl => exact hj
  | tail _ last ih => exact step_keeps next last ih

inductive Ends : Walk → Except Nat (List Nat) → Prop
  | empty {seen finished : List Nat} : Ends ⟨[], seen, finished⟩ (.ok finished)
  | loop {i : Nat} {rest seen finished : List Nat} (fresh : i ∉ seen) (loop : i ∈ next i) :
      Ends ⟨i :: rest, seen, finished⟩ (.error i)

/-- With a budget that suffices, a run goes on to the end of the walk. -/
theorem run_ends {size : Nat} (closed : ∀ i, ∀ j ∈ next i, j < size) {steps : Nat} {w : Walk}
    (tidy : w.Tidy size) (enough : w.budget next size < steps) :
    ∃ w', Steps next w w' ∧ Ends next w' (run next steps w) := by
  induction steps generalizing w with
  | zero => omega
  | succ steps ih =>
    obtain ⟨stack, seen, finished⟩ := w
    have go : ∀ w', Step next ⟨stack, seen, finished⟩ w' →
        ∃ w'', Steps next ⟨stack, seen, finished⟩ w'' ∧ Ends next w'' (run next steps w') := by
      intro w' first
      have less := step_budget next first tidy.stack_lt
      obtain ⟨w'', rest, ends⟩ := ih (step_tidy next closed first tidy) (by omega)
      exact ⟨w'', Relation.ReflTransGen.head first rest, ends⟩
    cases stack with
    | nil => exact ⟨_, Relation.ReflTransGen.refl, Ends.empty⟩
    | cons i rest =>
      simp only [run]
      by_cases again : i ∈ seen
      · rw [if_pos again]
        exact go _ (Step.finish again)
      · rw [if_neg again]
        by_cases loop : i ∈ next i
        · rw [if_pos loop]
          exact ⟨_, Relation.ReflTransGen.refl, Ends.loop again loop⟩
        · rw [if_neg loop]
          exact go _ (Step.see again loop)

end Walk

namespace Graph

variable {M T : Type} (g : Graph M T)

def TargetsValid : Prop := ∀ i, ∀ j ∈ g.targets i, j < g.size

structure TopDownOrder (order : List Nat) : Prop where
  complete : ∀ i, i ∈ order ↔ i < g.size
  nodup : order.Nodup
  earlier : ∀ i, ∀ j ∈ g.targets i, order.idxOf i < order.idxOf j

theorem instance_lt {i : Nat} {x : Instance M T} (h : g.instance? i = some x) : i < g.size :=
  (List.getElem?_eq_some_iff.mp h).1

theorem exists_instance {i : Nat} (h : i < g.size) : ∃ x, g.instance? i = some x :=
  ⟨_, List.getElem?_eq_getElem h⟩

theorem deps_of_instance {i : Nat} {x : Instance M T} (h : g.instance? i = some x) :
    g.deps i = x.deps := by
  simp [deps, h]

theorem targets_of_instance {i : Nat} {x : Instance M T} (h : g.instance? i = some x) :
    g.targets i = x.deps.map Edge.target := by
  rw [targets, g.deps_of_instance h]

theorem targetsValid_iff :
    g.TargetsValid ↔ ∀ x ∈ g.instances, ∀ e ∈ x.deps, e.target < g.size := by
  constructor
  · intro valid x hx e he
    obtain ⟨i, hi⟩ := List.getElem?_of_mem hx
    apply valid i
    rw [g.targets_of_instance hi]
    exact List.mem_map_of_mem he
  · intro inside i j hj
    cases hx : g.instance? i with
    | none => simp [targets, deps, hx] at hj
    | some x =>
      rw [g.targets_of_instance hx] at hj
      obtain ⟨e, he, rfl⟩ := List.mem_map.mp hj
      exact inside x (List.mem_of_getElem? hx) e he

instance : Decidable g.TargetsValid := decidable_of_iff _ g.targetsValid_iff.symm

theorem lt_of_mem_targets {i j : Nat} (h : j ∈ g.targets i) : i < g.size := by
  cases hx : g.instance? i with
  | none => simp [targets, deps, hx] at h
  | some x => exact g.instance_lt hx

theorem mem_dependents {i j : Nat} : i ∈ g.dependents j ↔ j ∈ g.targets i := by
  rw [dependents, List.mem_filter, List.mem_range, decide_eq_true_iff]
  exact ⟨fun h => h.2, fun h => ⟨g.lt_of_mem_targets h, h⟩⟩

theorem edgeCount_eq_sum : g.edgeCount = (g.instances.map fun x => x.deps.length).sum := by
  rw [edgeCount, List.sum_eq_foldl, List.foldl_map]

theorem budget_start :
    Walk.budget g.targets g.size ⟨List.range g.size, [], []⟩ = 2 * g.size + g.edgeCount := by
  have costs : (List.range g.size).map (Walk.cost g.targets []) =
      g.instances.map fun x => x.deps.length + 1 := by
    apply List.ext_getElem
    · simp [size]
    · intro i h _
      have hi : i < g.instances.length := by simpa [size] using h
      simp [Walk.cost, targets, deps, instance?, List.getElem?_eq_getElem hi]
  simp only [Walk.budget, costs, List.length_range, List.sum_map_add, List.map_const',
    List.sum_replicate_nat, g.edgeCount_eq_sum, Nat.mul_one]
  have : g.size = g.instances.length := rfl
  omega

theorem misplaced_none {before rest : List Nat} (h : g.misplaced before rest = none)
    {first last : List Nat} {i : Nat} (split : rest = first ++ i :: last) {j : Nat}
    (hj : i ∈ g.targets j) : j ∈ before ∨ j ∈ first := by
  induction rest generalizing before first with
  | nil => simp at split
  | cons a rest ih =>
    rw [misplaced] at h
    split at h
    · cases h
    · next placed =>
      cases first with
      | nil =>
        obtain ⟨rfl, rfl⟩ := List.cons.inj split
        have checked := List.find?_eq_none.mp placed j (g.mem_dependents.mpr hj)
        exact Or.inl (by simpa using checked)
      | cons b first =>
        obtain ⟨rfl, rfl⟩ := List.cons.inj split
        rcases ih h rfl with earlier | later
        · rcases List.mem_cons.mp earlier with rfl | earlier
          · exact Or.inr (by simp)
          · exact Or.inl earlier
        · exact Or.inr (by simp [later])

theorem tidy_start : Walk.Tidy g.size ⟨List.range g.size, [], []⟩ :=
  ⟨by simp, by simp, List.nodup_nil⟩

theorem finishOrder_ends (valid : g.TargetsValid) :
    ∃ w, Walk.Steps g.targets ⟨List.range g.size, [], []⟩ w ∧
      Walk.Ends g.targets w g.finishOrder := by
  apply Walk.run_ends g.targets valid g.tidy_start
  rw [g.budget_start]
  omega

theorem finishOrder_ok (valid : g.TargetsValid) {order : List Nat}
    (h : g.finishOrder = .ok order) : order.Nodup ∧ ∀ i, i ∈ order ↔ i < g.size := by
  obtain ⟨w, steps, ends⟩ := g.finishOrder_ends valid
  rw [h] at ends
  cases ends with
  | empty =>
    have tidy := Walk.steps_tidy g.targets valid steps g.tidy_start
    refine ⟨tidy.finished_nodup, fun i => ⟨tidy.finished_lt i, fun hi => ?_⟩⟩
    have kept := Walk.steps_keep g.targets steps (j := i) (Or.inl (List.mem_range.mpr hi))
    simpa using kept

/-- The order that a graph with valid targets returns is a top-down order. -/
theorem topDown_ok (valid : g.TargetsValid) {order : List Nat} (h : g.topDown = .ok order) :
    g.TopDownOrder order := by
  unfold topDown at h
  split at h
  · cases h
  · next found =>
    split at h
    · cases h
    · next checked =>
      cases h
      obtain ⟨nodup, complete⟩ := g.finishOrder_ok valid found
      refine ⟨complete, nodup, fun i j hj => ?_⟩
      obtain ⟨first, last, split⟩ := List.append_of_mem ((complete j).mpr (valid i j hj))
      have before : i ∈ first := (g.misplaced_none checked split hj).resolve_left (by simp)
      have outside : j ∉ first := fun hj => by
        rw [split] at nodup
        exact (List.nodup_append.mp nodup).2.2 j hj j (by simp) rfl
      rw [split, List.idxOf_append_of_mem before, List.idxOf_append_of_notMem outside]
      have := List.idxOf_lt_length_of_mem before
      omega

theorem bottomUp_ok_iff {order : List Nat} :
    g.bottomUp = .ok order ↔ g.topDown = .ok order.reverse := by
  rw [bottomUp]
  cases g.topDown with
  | error f => simp [Except.map]
  | ok found => simp [Except.map, List.reverse_eq_iff]

theorem bottomUp_perm (valid : g.TargetsValid) {order : List Nat} (h : g.bottomUp = .ok order) :
    order.Perm (List.range g.size) := by
  have topDown := g.topDown_ok valid (g.bottomUp_ok_iff.mp h)
  have nodup : order.Nodup := List.nodup_reverse.mp topDown.nodup
  rw [List.perm_ext_iff_of_nodup nodup List.nodup_range]
  intro i
  rw [← List.mem_reverse, topDown.complete, List.mem_range]

theorem topDown_error {f : Failure} (h : g.topDown = .error f) : ∃ id, f = g.cycleFailure id := by
  unfold topDown at h
  split at h
  · exact ⟨_, (Except.error.inj h).symm⟩
  · split at h
    · exact ⟨_, (Except.error.inj h).symm⟩
    · cases h

theorem bottomUp_error_iff {f : Failure} : g.bottomUp = .error f ↔ g.topDown = .error f := by
  rw [bottomUp]
  cases g.topDown <;> simp [Except.map]

theorem TopDownOrder.before {g : Graph M T} {order : List Nat} (h : g.TopDownOrder order)
    {first last : List Nat} {i j : Nat} (split : order = first ++ i :: last)
    (hj : i ∈ g.targets j) : j ∈ first := by
  have nodup := h.nodup
  have earlier := h.earlier j i hj
  rw [split] at nodup earlier
  have outside : i ∉ first := fun hi =>
    (List.nodup_append.mp nodup).2.2 i hi i (by simp) rfl
  rw [List.idxOf_append_of_notMem outside, List.idxOf_cons_self, Nat.add_zero] at earlier
  by_contra absent
  rw [List.idxOf_append_of_notMem absent] at earlier
  omega

/-- What holds of an instance as soon as it holds of its dependents holds everywhere. -/
theorem TopDownOrder.induct {g : Graph M T} {order : List Nat} (h : g.TopDownOrder order)
    {motive : Nat → Prop}
    (step : ∀ i, (∀ d, i ∈ g.targets d → motive d) → motive i) (i : Nat) : motive i := by
  induction place : order.idxOf i using Nat.strong_induction_on generalizing i with
  | _ n ih =>
    apply step
    intro d hd
    have earlier := h.earlier d i hd
    exact ih (order.idxOf d) (by omega) d rfl

end Graph

end BuildVariants
