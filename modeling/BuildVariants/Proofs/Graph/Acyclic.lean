import BuildVariants.Proofs.Graph.VisitOrder

/-!
# Acyclic graphs

A graph has a top-down order exactly when no instance depends on itself. In the order in which
the depth-first walk finishes the instances, an edge leads forward unless it is part of a cycle,
so on an acyclic graph the check that follows the walk has nothing to find.
-/

set_option autoImplicit false

namespace BuildVariants

namespace Walk

variable (next : Nat → List Nat)

abbrev Reaches : Nat → Nat → Prop := Relation.TransGen fun i j => j ∈ next i

def Open (w : Walk) (i : Nat) : Prop := i ∈ w.seen ∧ i ∉ w.finished

def above (w : Walk) (i : Nat) : List Nat := w.stack.takeWhile (· ≠ i)

theorem above_top (i : Nat) (rest seen finished : List Nat) :
    above ⟨i :: rest, seen, finished⟩ i = [] := by
  simp [above]

theorem above_cons {i k : Nat} (h : i ≠ k) (rest seen finished : List Nat) :
    above ⟨i :: rest, seen, finished⟩ k = i :: above ⟨rest, seen, finished⟩ k := by
  simp [above, h]

theorem above_append {pushed : List Nat} {k : Nat} (h : k ∉ pushed)
    (stack seen finished : List Nat) :
    above ⟨pushed ++ stack, seen, finished⟩ k = pushed ++ above ⟨stack, seen, finished⟩ k := by
  apply List.takeWhile_append_of_pos
  intro j hj
  exact decide_eq_true fun same => h (same ▸ hj)

/-- What the steps of a walk keep besides. The targets of an open instance have been seen or
are above it, and all that is above it can be reached from it. So when an instance is
finished, each of its targets was finished before or leads back to it. -/
structure Tracked (w : Walk) : Prop where
  finished_seen : ∀ i ∈ w.finished, i ∈ w.seen
  loopless : ∀ i ∈ w.seen, i ∉ next i
  stacked : ∀ i, w.Open i → i ∈ w.stack
  covered : ∀ i, w.Open i → ∀ j ∈ next i, j ∈ w.seen ∨ j ∈ w.above i
  reached : ∀ i, w.Open i → ∀ j ∈ w.above i, Reaches next i j
  ordered : ∀ first i last, w.finished = first ++ i :: last →
    ∀ j ∈ next i, j ∈ last ∨ Reaches next j i

theorem tracked_start (stack : List Nat) : Tracked next ⟨stack, [], []⟩ where
  finished_seen := by simp
  loopless := by simp
  stacked i hi := absurd hi.1 (by simp)
  covered i hi := absurd hi.1 (by simp)
  reached i hi := absurd hi.1 (by simp)
  ordered first i last h := by simp at h

theorem Tracked.top_targets {i : Nat} {rest seen finished : List Nat}
    (tracked : Tracked next ⟨i :: rest, seen, finished⟩) (again : i ∈ seen)
    (unfinished : i ∉ finished) : ∀ j ∈ next i, j ∈ finished ∨ Reaches next j i := by
  intro j hj
  have seenJ : j ∈ seen := by
    rcases tracked.covered i ⟨again, unfinished⟩ j hj with seenJ | aboveJ
    · exact seenJ
    · simp [above_top] at aboveJ
  by_cases done : j ∈ finished
  · exact Or.inl done
  · have different : i ≠ j := fun same => tracked.loopless i again (same ▸ hj)
    refine Or.inr (tracked.reached j ⟨seenJ, done⟩ i ?_)
    simp [above_cons different]

theorem finish_tracked {i : Nat} {rest seen finished : List Nat} (again : i ∈ seen)
    (tracked : Tracked next ⟨i :: rest, seen, finished⟩) :
    Tracked next ⟨rest, seen, if i ∈ finished then finished else i :: finished⟩ := by
  have grows : ∀ k, k ∉ (if i ∈ finished then finished else i :: finished) →
      k ∉ finished ∧ i ≠ k := by
    intro k hk
    by_cases done : i ∈ finished
    · rw [if_pos done] at hk
      exact ⟨hk, fun same => hk (same ▸ done)⟩
    · rw [if_neg done, List.mem_cons, not_or] at hk
      exact ⟨hk.2, Ne.symm hk.1⟩
  -- What stays open was open, and lay below the instance that is taken off.
  have openBefore : ∀ k, Open ⟨rest, seen, if i ∈ finished then finished else i :: finished⟩ k →
      Open ⟨i :: rest, seen, finished⟩ k ∧ i ≠ k := by
    rintro k ⟨seenK, unfinished⟩
    exact ⟨⟨seenK, (grows k unfinished).1⟩, (grows k unfinished).2⟩
  refine ⟨?_, tracked.loopless, ?_, ?_, ?_, ?_⟩
  · intro k hk
    by_cases done : i ∈ finished
    · exact tracked.finished_seen k (by simpa [done] using hk)
    · simp only [done, if_false, List.mem_cons] at hk
      rcases hk with rfl | hk
      · exact again
      · exact tracked.finished_seen k hk
  · intro k hk
    obtain ⟨old, different⟩ := openBefore k hk
    exact (List.mem_cons.mp (tracked.stacked k old)).resolve_left (Ne.symm different)
  · intro k hk j hj
    obtain ⟨old, different⟩ := openBefore k hk
    rcases tracked.covered k old j hj with seenJ | aboveJ
    · exact Or.inl seenJ
    · rw [above_cons different, List.mem_cons] at aboveJ
      rcases aboveJ with rfl | aboveJ
      · exact Or.inl again
      · exact Or.inr aboveJ
  · intro k hk j hj
    obtain ⟨old, different⟩ := openBefore k hk
    apply tracked.reached k old
    rw [above_cons different]
    exact List.mem_cons_of_mem _ hj
  · intro first k last split
    by_cases done : i ∈ finished
    · exact tracked.ordered first k last (by simpa [done] using split)
    · simp only [done, if_false] at split
      cases first with
      | nil =>
        obtain ⟨rfl, rfl⟩ := List.cons.inj split
        exact tracked.top_targets next again done
      | cons a first =>
        exact tracked.ordered first k last (List.cons.inj split).2

theorem see_tracked {i : Nat} {rest seen finished : List Nat} (fresh : i ∉ seen)
    (loopless : i ∉ next i) (tracked : Tracked next ⟨i :: rest, seen, finished⟩) :
    Tracked next
      ⟨(next i).filter (fun j => j ∉ i :: seen) ++ i :: rest, i :: seen, finished⟩ := by
  have pushed : ∀ k ∈ i :: seen, k ∉ (next i).filter fun j => j ∉ i :: seen := by
    intro k hk there
    exact absurd hk (by simpa using (List.mem_filter.mp there).2)
  -- An instance that was open before has the same above it, and what is pushed.
  have openBefore : ∀ k, k ≠ i →
      Open ⟨(next i).filter (fun j => j ∉ i :: seen) ++ i :: rest, i :: seen, finished⟩ k →
      Open ⟨i :: rest, seen, finished⟩ k := by
    rintro k different ⟨seenK, unfinished⟩
    exact ⟨(List.mem_cons.mp seenK).resolve_left different, unfinished⟩
  refine ⟨?_, ?_, ?_, ?_, ?_, tracked.ordered⟩
  · intro k hk
    exact List.mem_cons_of_mem _ (tracked.finished_seen k hk)
  · intro k hk
    rcases List.mem_cons.mp hk with rfl | hk
    · exact loopless
    · exact tracked.loopless k hk
  · intro k hk
    by_cases here : k = i
    · simp [here]
    · exact List.mem_append_right _ (tracked.stacked k (openBefore k here hk))
  · intro k hk j hj
    rw [above_append (pushed k hk.1)]
    by_cases here : k = i
    · subst here
      by_cases seenJ : j ∈ k :: seen
      · exact Or.inl seenJ
      · exact Or.inr (List.mem_append_left _ (List.mem_filter.mpr ⟨hj, by simpa using seenJ⟩))
    · rcases tracked.covered k (openBefore k here hk) j hj with seenJ | aboveJ
      · exact Or.inl (List.mem_cons_of_mem _ seenJ)
      · exact Or.inr (List.mem_append_right _ aboveJ)
  · intro k hk j hj
    rw [above_append (pushed k hk.1), List.mem_append] at hj
    by_cases here : k = i
    · subst here
      rcases hj with new | old
      · exact .single (List.mem_filter.mp new).1
      · simp [above_top] at old
    · have reached := tracked.reached k (openBefore k here hk)
      rcases hj with new | old
      · have top : i ∈ above ⟨i :: rest, seen, finished⟩ k := by simp [above_cons (Ne.symm here)]
        exact (reached i top).tail (List.mem_filter.mp new).1
      · exact reached j old

theorem step_tracked {w w' : Walk} (h : Step next w w') (tracked : Tracked next w) :
    Tracked next w' := by
  cases h with
  | finish again => exact finish_tracked next again tracked
  | see fresh loopless => exact see_tracked next fresh loopless tracked

theorem steps_tracked {w w' : Walk} (h : Steps next w w') (tracked : Tracked next w) :
    Tracked next w' := by
  induction h with
  | refl => exact tracked
  | tail _ last ih => exact step_tracked next last ih

end Walk

namespace Graph

variable {M T : Type} (g : Graph M T)

abbrev DependsOn : Nat → Nat → Prop := Walk.Reaches g.targets

def Acyclic : Prop := ∀ i, ¬ g.DependsOn i i

theorem TopDownOrder.acyclic {g : Graph M T} {order : List Nat} (h : g.TopDownOrder order) :
    g.Acyclic := by
  have forward : ∀ i j, g.DependsOn i j → order.idxOf i < order.idxOf j := by
    intro i j reaches
    induction reaches with
    | single hj => exact h.earlier _ _ hj
    | tail _ hj ih => exact Nat.lt_trans ih (h.earlier _ _ hj)
  exact fun i loop => Nat.lt_irrefl _ (forward i i loop)

/-- A graph whose edges lie over those of an acyclic graph is acyclic. -/
theorem Acyclic.of_projection {g next : Graph M T} (acyclic : g.Acyclic)
    (project : Nat → Nat) (edges : ∀ n, ∀ m ∈ next.targets n, project m ∈ g.targets (project n)) :
    next.Acyclic :=
  fun n loop => acyclic (project n) (Relation.TransGen.lift project edges n n loop)

theorem finishOrder_tracked (valid : g.TargetsValid) {order : List Nat}
    (h : g.finishOrder = .ok order) : ∃ seen, Walk.Tracked g.targets ⟨[], seen, order⟩ := by
  obtain ⟨w, steps, ends⟩ := g.finishOrder_ends valid
  rw [h] at ends
  cases ends with
  | @empty seen _ =>
    exact ⟨seen, Walk.steps_tracked g.targets steps (Walk.tracked_start g.targets _)⟩

theorem finishOrder_error (valid : g.TargetsValid) {i : Nat} (h : g.finishOrder = .error i) :
    i ∈ g.targets i := by
  obtain ⟨w, _, ends⟩ := g.finishOrder_ends valid
  rw [h] at ends
  cases ends with
  | loop _ loop => exact loop

/-- In the finish order an edge leads forward, unless it is part of a cycle. -/
theorem finishOrder_forward (valid : g.TargetsValid) {order : List Nat}
    (h : g.finishOrder = .ok order) {i j : Nat} (hj : j ∈ g.targets i) :
    order.idxOf i < order.idxOf j ∨ g.DependsOn j i := by
  obtain ⟨nodup, complete⟩ := g.finishOrder_ok valid h
  obtain ⟨seen, tracked⟩ := g.finishOrder_tracked valid h
  obtain ⟨first, last, split⟩ := List.append_of_mem ((complete i).mpr (g.lt_of_mem_targets hj))
  rcases tracked.ordered first i last split j hj with later | back
  · left
    rw [split] at nodup ⊢
    obtain ⟨_, nodupLast, apart⟩ := List.nodup_append.mp nodup
    have outsideI : i ∉ first := fun hi => apart i hi i (by simp) rfl
    have outsideJ : j ∉ first := fun hj => apart j hj j (by simp [later]) rfl
    have different : i ≠ j := fun same => (List.nodup_cons.mp nodupLast).1 (same ▸ later)
    rw [List.idxOf_append_of_notMem outsideI, List.idxOf_append_of_notMem outsideJ,
      List.idxOf_cons_self, List.idxOf_cons_ne _ different]
    omega
  · exact Or.inr back

theorem finishOrder_topDown (valid : g.TargetsValid) (acyclic : g.Acyclic) {order : List Nat}
    (h : g.finishOrder = .ok order) : g.TopDownOrder order := by
  obtain ⟨nodup, complete⟩ := g.finishOrder_ok valid h
  refine ⟨complete, nodup, fun i j hj => ?_⟩
  exact (g.finishOrder_forward valid h hj).resolve_right fun back => acyclic i (.head hj back)

theorem misplaced_eq_none {before rest : List Nat}
    (h : ∀ first i last, rest = first ++ i :: last → ∀ j, i ∈ g.targets j →
      j ∈ before ∨ j ∈ first) : g.misplaced before rest = none := by
  induction rest generalizing before with
  | nil => rfl
  | cons a rest ih =>
    have placed : (g.dependents a).find? (fun j => j ∉ before) = none := by
      rw [List.find?_eq_none]
      intro j hj
      simpa using h [] a rest rfl j (g.mem_dependents.mp hj)
    rw [misplaced, placed]
    apply ih
    intro first i last split j hj
    rcases h (a :: first) i last (by rw [split, List.cons_append]) j hj with earlier | later
    · exact Or.inl (List.mem_cons_of_mem _ earlier)
    · rcases List.mem_cons.mp later with rfl | later
      · exact Or.inl (by simp)
      · exact Or.inr later

/-- There is a top-down order for every acyclic graph. -/
theorem topDown_of_acyclic (valid : g.TargetsValid) (acyclic : g.Acyclic) :
    ∃ order, g.topDown = .ok order := by
  unfold topDown
  cases found : g.finishOrder with
  | error i => exact absurd (.single (g.finishOrder_error valid found)) (acyclic i)
  | ok order =>
    have topDown := g.finishOrder_topDown valid acyclic found
    have checked : g.misplaced [] order = none := by
      apply g.misplaced_eq_none
      intro first i last split j hj
      exact Or.inr (topDown.before split hj)
    exact ⟨order, by simp only [checked]⟩

theorem not_acyclic_of_error (valid : g.TargetsValid) {f : Failure} (h : g.topDown = .error f) :
    ¬ g.Acyclic := by
  intro acyclic
  obtain ⟨order, found⟩ := g.topDown_of_acyclic valid acyclic
  rw [h] at found
  cases found

def nextFound (next : Nat → List Nat) (found : List Nat) : List Nat → Option (Nat × List Nat)
  | [] => none
  | i :: stack =>
    if i ∈ found then nextFound next found stack
    else some (i, (next i).filter (fun j => j ∉ i :: found) ++ stack)

/-- Searches along the reversed edges from each instance of an order in turn and finds no
instance twice. The second instance that one search finds is returned. -/
def reverseSearch : List Nat → List Nat → Option Nat
  | _, [] => none
  | found, i :: rest =>
    match nextFound g.dependents found [i] with
    | none => reverseSearch found rest
    | some (j, stack) =>
      match nextFound g.dependents (j :: found) stack with
      | some (k, _) => some k
      | none => reverseSearch (j :: found) rest

theorem nextFound_fresh (next : Nat → List Nat) {found stack : List Nat}
    (fresh : ∀ j ∈ stack, j ∉ found) :
    (nextFound next found stack).map Prod.fst = stack.head? := by
  cases stack with
  | nil => rfl
  | cons i stack => simp [nextFound, fresh i (by simp)]

theorem reverseSearch_eq_misplaced {found rest : List Nat} (nodup : rest.Nodup)
    (fresh : ∀ i ∈ rest, i ∉ found) (loopless : ∀ i ∈ rest, i ∉ g.targets i) :
    g.reverseSearch found rest = g.misplaced found rest := by
  induction rest generalizing found with
  | nil => rfl
  | cons i rest ih =>
    have others : (g.dependents i).filter (fun j => j ∉ i :: found) =
        (g.dependents i).filter fun j => j ∉ found := by
      apply List.filter_congr
      intro j hj
      have different : j ≠ i := fun same =>
        loopless i (by simp) (g.mem_dependents.mp (same ▸ hj))
      simp [different]
    have own : nextFound g.dependents found [i] =
        some (i, (g.dependents i).filter fun j => j ∉ found) := by
      rw [nextFound, if_neg (fresh i (by simp)), others, List.append_nil]
    have second : (nextFound g.dependents (i :: found)
        ((g.dependents i).filter fun j => j ∉ found)).map Prod.fst =
        (g.dependents i).find? fun j => j ∉ found := by
      rw [← List.head?_filter, ← others]
      apply nextFound_fresh
      intro j hj
      simpa using (List.mem_filter.mp hj).2
    obtain ⟨once, nodup⟩ := List.nodup_cons.mp nodup
    have onward : g.reverseSearch (i :: found) rest = g.misplaced (i :: found) rest := by
      apply ih nodup
      · intro j hj
        rw [List.mem_cons, not_or]
        exact ⟨fun same => once (same ▸ hj), fresh j (by simp [hj])⟩
      · exact fun j hj => loopless j (by simp [hj])
    rw [misplaced, ← second, reverseSearch, own]
    cases found' : nextFound g.dependents (i :: found)
        ((g.dependents i).filter fun j => j ∉ found) with
    | none => simp only [found', Option.map_none, onward]
    | some next => simp only [found', Option.map_some]

/-- The searches along the finish order find what the comparison of places finds. -/
theorem reverseSearch_finishOrder (valid : g.TargetsValid) {order : List Nat}
    (h : g.finishOrder = .ok order) : g.reverseSearch [] order = g.misplaced [] order := by
  obtain ⟨seen, tracked⟩ := g.finishOrder_tracked valid h
  apply g.reverseSearch_eq_misplaced (g.finishOrder_ok valid h).1 (by simp)
  exact fun i hi => tracked.loopless i (tracked.finished_seen i hi)

theorem topDown_ok_iff (valid : g.TargetsValid) :
    (∃ order, g.topDown = .ok order) ↔ g.Acyclic :=
  ⟨fun ⟨_, h⟩ => (g.topDown_ok valid h).acyclic, g.topDown_of_acyclic valid⟩

theorem TopDownOrder.reversed {g : Graph M T} {order : List Nat} (h : g.TopDownOrder order)
    (valid : g.TargetsValid) {first last : List Nat} {i j : Nat}
    (split : order.reverse = first ++ i :: last) (hj : j ∈ g.targets i) : j ∈ first := by
  have order_eq : order = last.reverse ++ i :: first.reverse := by
    rw [← List.reverse_reverse order, split]
    simp
  have nodup := h.nodup
  have earlier := h.earlier i j hj
  have there := (h.complete j).mpr (valid i j hj)
  rw [order_eq] at nodup earlier there
  have outside : i ∉ last.reverse := fun hi =>
    (List.nodup_append.mp nodup).2.2 i hi i (by simp) rfl
  rw [List.idxOf_append_of_notMem outside, List.idxOf_cons_self, Nat.add_zero] at earlier
  rcases List.mem_append.mp there with before | after
  · have := List.idxOf_lt_length_of_mem before
    rw [List.idxOf_append_of_mem before] at earlier
    omega
  · rcases List.mem_cons.mp after with rfl | after
    · rw [List.idxOf_append_of_notMem outside, List.idxOf_cons_self] at earlier
      omega
    · exact List.mem_reverse.mp after

/-- The visit orders of a graph whose edges end in the arena. No walk over the arena goes on
forever, and the finish order is what the walk ends with. The searches along reversed edges find
what the comparison of places finds. There is a top-down order exactly when the graph is acyclic,
and the bottom-up order is its reverse. -/
theorem topDown_complete (valid : g.TargetsValid) :
    (∀ walk : Nat → Walk, walk 0 = ⟨List.range g.size, [], []⟩ →
      ¬ ∀ n, Walk.Step g.targets (walk n) (walk (n + 1))) ∧
    (∃ w, Walk.Steps g.targets ⟨List.range g.size, [], []⟩ w ∧
      Walk.Ends g.targets w g.finishOrder) ∧
    (∀ order, g.finishOrder = .ok order → g.reverseSearch [] order = g.misplaced [] order) ∧
    ((∃ order, g.topDown = .ok order) ↔ g.Acyclic) ∧
    (∀ order, g.topDown = .ok order → g.TopDownOrder order) ∧
    (∀ order, g.bottomUp = .ok order ↔ g.topDown = .ok order.reverse) ∧
    ∀ order, g.bottomUp = .ok order → ∀ first i last, order = first ++ i :: last →
      ∀ j ∈ g.targets i, j ∈ first := by
  refine ⟨?_, g.finishOrder_ends valid, fun order => g.reverseSearch_finishOrder valid,
    g.topDown_ok_iff valid, fun order => g.topDown_ok valid, fun order => g.bottomUp_ok_iff, ?_⟩
  · intro walk start
    exact Walk.not_endless g.targets valid (start ▸ g.tidy_start)
  · intro order found first i last split j hj
    have topDown := g.topDown_ok valid (g.bottomUp_ok_iff.mp found)
    exact topDown.reversed valid (by rw [List.reverse_reverse, split]) hj

def ofTargets (targets : List (List Nat)) : Graph Unit Unit where
  instances := targets.map fun ends => ⟨"", (), .empty, ends.map fun target => ⟨target, (), false⟩⟩
  groups := []
  byName := []
  named := rfl

def tangled : Graph Unit Unit := ofTargets [[2, 1, 2, 4], [4, 2], [4], [0, 2], []]

theorem topDown_complete_tangled :
    tangled.TargetsValid ∧ tangled.topDown = .ok [3, 0, 1, 2, 4] ∧
    (∀ walk : Nat → Walk, walk 0 = ⟨List.range tangled.size, [], []⟩ →
      ¬ ∀ n, Walk.Step tangled.targets (walk n) (walk (n + 1))) ∧
    (∃ w, Walk.Steps tangled.targets ⟨List.range tangled.size, [], []⟩ w ∧
      Walk.Ends tangled.targets w tangled.finishOrder) ∧
    (∀ order, tangled.finishOrder = .ok order →
      tangled.reverseSearch [] order = tangled.misplaced [] order) ∧
    ((∃ order, tangled.topDown = .ok order) ↔ tangled.Acyclic) ∧
    (∀ order, tangled.topDown = .ok order → tangled.TopDownOrder order) ∧
    (∀ order, tangled.bottomUp = .ok order ↔ tangled.topDown = .ok order.reverse) ∧
    ∀ order, tangled.bottomUp = .ok order → ∀ first i last, order = first ++ i :: last →
      ∀ j ∈ tangled.targets i, j ∈ first :=
  ⟨by decide, rfl, tangled.topDown_complete (by decide)⟩

end Graph

end BuildVariants
