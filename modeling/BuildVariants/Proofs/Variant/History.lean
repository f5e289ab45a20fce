import BuildVariants.Proofs.Variant

/-!
# Variants of histories

Transitions assign values one after the other, and a history is the list of these values. Where several
transitions have one name, the value of the last of them is there in the end and the values of the
others are lost.
-/

set_option autoImplicit false

namespace BuildVariants.Variant

theorem lastChosen?_of_notMem {choices : List Variation} {m : String}
    (others : m ∉ choices.map Variation.mutator) : lastChosen? choices m = none := by
  rw [← Option.isNone_iff_eq_none, ← Option.not_isSome, lastChosen?_isSome]
  simpa using others

theorem lastChosen?_append (first last : List Variation) (m : String) :
    lastChosen? (first ++ last) m = (lastChosen? last m).or (lastChosen? first m) := by
  induction first with
  | nil => simp [lastChosen?]
  | cons c first ih => rw [List.cons_append, lastChosen?_cons, ih, lastChosen?_cons, Option.or_assoc]

def ofHistory (names history : List String) : Variant :=
  ofList (names.zipWith Variation.mk history)

variable {names history history' : List String}

theorem ofHistory_distinct : (ofHistory names history).Distinct := ofList_distinct _

theorem ofHistory_concat (complete : history.length = names.length) (name value : String) :
    ofHistory (names ++ [name]) (history ++ [value]) = (ofHistory names history).set name value := by
  rw [ofHistory, List.zipWith_append complete.symm, ofList, setAll_append]
  rfl

theorem mutators_history (complete : history.length = names.length) :
    (names.zipWith Variation.mk history).map Variation.mutator = names := by
  apply List.ext_getElem
  · simp [complete]
  · simp

/-- What the last transition of a name gives is there in the end. -/
theorem get_ofHistory {before after : List String} {m : String} (last : m ∉ after)
    (complete : history.length = (before ++ m :: after).length) :
    (ofHistory (before ++ m :: after) history).get m = (history[before.length]?).getD "" := by
  have inside : before.length < history.length := by simp [complete]
  have split : history = history.take before.length ++
      history[before.length] :: history.drop (before.length + 1) := by simp
  have first : (history.take before.length).length = before.length := by
    rw [List.length_take]
    omega
  have later : (history.drop (before.length + 1)).length = after.length := by
    rw [List.length_drop, complete, List.length_append, List.length_cons]
    omega
  rw [ofHistory, get_ofList]
  conv_lhs => rw [split, List.zipWith_append first.symm, List.zipWith_cons_cons]
  rw [lastChosen?_append, lastChosen?_cons,
    lastChosen?_of_notMem (by rwa [mutators_history later])]
  simp [inside]

theorem get_ofHistory_of_notMem (complete : history.length = names.length) {m : String}
    (others : m ∉ names) : (ofHistory names history).get m = "" := by
  rw [ofHistory, get_ofList, lastChosen?_of_notMem (by rwa [mutators_history complete])]
  rfl

theorem exists_last {m : String} (there : m ∈ names) :
    ∃ before after, names = before ++ m :: after ∧ m ∉ after := by
  obtain ⟨after, before, split, last⟩ := List.eq_append_cons_of_mem (List.mem_reverse.mpr there)
  refine ⟨before.reverse, after.reverse, ?_, by simpa using last⟩
  rw [← List.reverse_reverse names, split]
  simp

/-- Two histories agree on what the last transition of each name gave. -/
def SameInTheEnd (names history history' : List String) : Prop :=
  ∀ before m after, names = before ++ m :: after → m ∉ after →
    history[before.length]? = history'[before.length]?

theorem ofHistory_beq_iff (complete : history.length = names.length)
    (complete' : history'.length = names.length) :
    (ofHistory names history == ofHistory names history') = true ↔
      SameInTheEnd names history history' := by
  rw [beq_iff_get ofHistory_distinct ofHistory_distinct]
  constructor
  · rintro same before m after rfl last
    have value := same m
    rw [get_ofHistory last complete, get_ofHistory last complete'] at value
    have inside : before.length < history.length := by simp [complete]
    have inside' : before.length < history'.length := by simp [complete']
    simpa [inside, inside'] using value
  · intro same m
    by_cases there : m ∈ names
    · obtain ⟨before, after, rfl, last⟩ := exists_last there
      rw [get_ofHistory last complete, get_ofHistory last complete', same _ _ _ rfl last]
    · rw [get_ofHistory_of_notMem complete there, get_ofHistory_of_notMem complete' there]

end BuildVariants.Variant
