import BuildVariants.Transition.Plan
import BuildVariants.Proofs.Graph.Contents

/-!
# Decisions of a transition

When a split is accepted, to which variation an edge leads, and what the plan of a single
instance holds. A plan without failures records only decisions that were made.
-/

set_option autoImplicit false

namespace BuildVariants

namespace Transition

variable {M T : Type}

/-- The variation that the edge `e` leads to from the variation `value` of `x`. -/
inductive Leads (t : Transition M T) (g : Graph M T) (x : Instance M T) (value : String)
    (e : Edge T) : String → Prop
  | negotiated {y : Instance M T} {asked given : String}
      (reached : e.far = false ∨ t.neverFar = true)
      (target : g.instance? e.target = some y)
      (outgoing : t.mutator.outgoing ⟨x.content, x.variant, y.group, e.tag⟩ value = .ok asked)
      (incoming : t.mutator.incoming ⟨y.content, y.variant, .structural⟩ asked = .ok given) :
      Leads t g x value e given
  | default (far : e.far = true) (exempt : t.neverFar = false) : Leads t g x value e ""

theorem appliesTo_iff {t : Transition M T} {far : Bool} :
    t.appliesTo far = true ↔ far = false ∨ t.neverFar = true := by
  cases far <;> simp [appliesTo]

variable [BuildModule M T]

theorem propagate_eq_ok_iff {t : Transition M T} {x y : Instance M T} {value given : String}
    {tag : T} : t.propagate x y value tag = .ok given ↔
      ∃ asked, t.mutator.outgoing ⟨x.content, x.variant, y.group, tag⟩ value = .ok asked ∧
        t.mutator.incoming ⟨y.content, y.variant, .structural⟩ asked = .ok given := by
  simp only [propagate, bind_eq_ok_iff, mapError_eq_ok_iff]

/-- An edge into the arena is decided exactly when it leads somewhere. -/
theorem edgeValue_eq_ok_iff {t : Transition M T} {g : Graph M T} {x : Instance M T}
    {value given : String} {e : Edge T} (inside : e.target < g.size) :
    t.edgeValue g x value e = .ok given ↔ t.Leads g x value e given := by
  obtain ⟨y, hy⟩ := g.exists_instance inside
  unfold edgeValue
  by_cases reached : t.appliesTo e.far = true
  · rw [if_pos reached, hy, propagate_eq_ok_iff]
    constructor
    · rintro ⟨asked, outgoing, incoming⟩
      exact .negotiated (appliesTo_iff.mp reached) hy outgoing incoming
    · intro h
      cases h with
      | @negotiated y' asked _ _ target outgoing incoming =>
        obtain rfl : y = y' := Option.some.inj (hy.symm.trans target)
        exact ⟨asked, outgoing, incoming⟩
      | default far exempt =>
        have := appliesTo_iff.mp reached
        simp [far, exempt] at this
  · rw [if_neg reached]
    constructor
    · intro h
      cases h
      have beyond := mt appliesTo_iff.mpr reached
      exact .default (by simpa using fun h => beyond (Or.inl h))
        (by simpa using fun h => beyond (Or.inr h))
    · intro h
      cases h with
      | negotiated reached' => exact absurd (appliesTo_iff.mpr reached') reached
      | default => rfl

theorem firstRepeat_eq_none_iff {earlier texts : List String} :
    firstRepeat earlier texts = none ↔ texts.Nodup ∧ ∀ v ∈ texts, v ∉ earlier := by
  induction texts generalizing earlier with
  | nil => simp [firstRepeat]
  | cons v rest ih =>
    rw [firstRepeat]
    by_cases there : v ∈ earlier
    · simp [there]
    · rw [if_neg there, ih, List.nodup_cons]
      constructor
      · rintro ⟨nodup, fresh⟩
        refine ⟨⟨fun again => fresh v again (by simp), nodup⟩, ?_⟩
        intro w hw
        rcases List.mem_cons.mp hw with rfl | hw
        · exact there
        · exact fun h => fresh w hw (by simp [h])
      · rintro ⟨⟨once, nodup⟩, fresh⟩
        refine ⟨nodup, fun w hw h => ?_⟩
        rcases List.mem_cons.mp h with rfl | h
        · exact once hw
        · exact fresh w (by simp [hw]) h

theorem splitOf_eq_ok_iff {t : Transition M T} {x : Instance M T} {split : List String} :
    t.splitOf x = .ok split ↔
      t.mutator.split ⟨x.content, x.variant⟩ = .ok split ∧ split ≠ [] ∧ split.Nodup := by
  simp only [splitOf, bind_eq_ok_iff, mapError_eq_ok_iff]
  have accepted : ∀ given, checkSplit x.group t.name given = .ok split ↔
      given = split ∧ given ≠ [] ∧ given.Nodup := by
    intro given
    unfold checkSplit
    by_cases empty : given = []
    · simp [empty]
    · rw [if_neg empty]
      cases repeated : firstRepeat [] given with
      | none => simp [(firstRepeat_eq_none_iff.mp repeated).1, empty]
      | some value =>
        have twice : ¬ given.Nodup := fun nodup => by
          have unrepeated : firstRepeat [] given = none :=
            firstRepeat_eq_none_iff.mpr ⟨nodup, fun v _ => List.not_mem_nil⟩
          rw [unrepeated] at repeated
          cases repeated
        simp [twice]
  constructor
  · rintro ⟨given, found, checked⟩
    obtain ⟨rfl, ne, nodup⟩ := (accepted given).mp checked
    exact ⟨found, ne, nodup⟩
  · rintro ⟨found, ne, nodup⟩
    exact ⟨split, found, (accepted split).mpr ⟨rfl, ne, nodup⟩⟩

/-- The value that is found to be repeated stands after another occurrence, and nothing before it is
repeated. -/
theorem firstRepeat_eq_some_iff {earlier texts : List String} {v : String} :
    firstRepeat earlier texts = some v ↔ ∃ before after, texts = before ++ v :: after ∧
      before.Nodup ∧ (∀ w ∈ before, w ∉ earlier) ∧ (v ∈ earlier ∨ v ∈ before) := by
  induction texts generalizing earlier with
  | nil => simp [firstRepeat]
  | cons u rest ih =>
    rw [firstRepeat]
    by_cases there : u ∈ earlier
    · rw [if_pos there]
      constructor
      · intro h
        obtain rfl := Option.some.inj h
        exact ⟨[], rest, rfl, List.nodup_nil, by simp, Or.inl there⟩
      · rintro ⟨before, after, split, _, fresh, _⟩
        cases before with
        | nil => rw [(List.cons.inj split).1]
        | cons w before => exact absurd there ((List.cons.inj split).1 ▸ fresh w (by simp))
    · rw [if_neg there, ih]
      constructor
      · rintro ⟨before, after, rfl, nodup, fresh, again⟩
        have once : u ∉ before := fun hu => fresh u hu (by simp)
        refine ⟨u :: before, after, rfl, List.nodup_cons.mpr ⟨once, nodup⟩, ?_, ?_⟩
        · intro w hw
          rcases List.mem_cons.mp hw with rfl | hw
          · exact there
          · exact fun h => fresh w hw (by simp [h])
        · rcases again with earlier | inside
          · rcases List.mem_cons.mp earlier with rfl | earlier
            · exact Or.inr (by simp)
            · exact Or.inl earlier
          · exact Or.inr (by simp [inside])
      · rintro ⟨before, after, split, nodup, fresh, again⟩
        cases before with
        | nil =>
          obtain ⟨rfl, _⟩ := List.cons.inj split
          exact absurd (again.resolve_right List.not_mem_nil) there
        | cons w before =>
          obtain ⟨rfl, rfl⟩ := List.cons.inj split
          obtain ⟨once, nodup⟩ := List.nodup_cons.mp nodup
          refine ⟨before, after, rfl, nodup, ?_, ?_⟩
          · intro w hw h
            rcases List.mem_cons.mp h with rfl | h
            · exact once hw
            · exact fresh w (by simp [hw]) h
          · rcases again with earlier | inside
            · exact Or.inl (by simp [earlier])
            · rcases List.mem_cons.mp inside with rfl | inside
              · exact Or.inl (by simp)
              · exact Or.inr inside

theorem splitOf_eq_error_iff {t : Transition M T} {x : Instance M T} {f : Failure} :
    t.splitOf x = .error f ↔
      (∃ e, t.mutator.split ⟨x.content, x.variant⟩ = .error e ∧ e.toFailure x.content x.variant = f) ∨
      (t.mutator.split ⟨x.content, x.variant⟩ = .ok [] ∧ f = .emptySplit x.group t.name) ∨
      ∃ before v after, t.mutator.split ⟨x.content, x.variant⟩ = .ok (before ++ v :: after) ∧
        before.Nodup ∧ v ∈ before ∧ f = .duplicateSplit x.group t.name v := by
  simp only [splitOf, bind_eq_error_iff, mapError_eq_error_iff, mapError_eq_ok_iff]
  refine or_congr Iff.rfl ?_
  have refused : ∀ given, checkSplit x.group t.name given = .error f ↔
      (given = [] ∧ f = .emptySplit x.group t.name) ∨ ∃ before v after,
        given = before ++ v :: after ∧ before.Nodup ∧ v ∈ before ∧
          f = .duplicateSplit x.group t.name v := by
    intro given
    unfold checkSplit
    by_cases empty : given = []
    · simp [empty, eq_comm]
    · rw [if_neg empty]
      cases repeated : firstRepeat [] given with
      | none =>
        have nodup := (firstRepeat_eq_none_iff.mp repeated).1
        constructor
        · intro h
          cases h
        · rintro (⟨nothing, _⟩ | ⟨before, v, after, rfl, _, again, _⟩)
          · exact absurd nothing empty
          · exact absurd rfl ((List.nodup_append.mp nodup).2.2 v again v (by simp))
      | some v =>
        obtain ⟨before, after, split, nodup, _, again⟩ := firstRepeat_eq_some_iff.mp repeated
        constructor
        · intro h
          exact Or.inr ⟨before, v, after, split, nodup, again.resolve_left List.not_mem_nil,
            (Except.error.inj h).symm⟩
        · rintro (⟨nothing, _⟩ | ⟨before, w, after, split', nodup', again', rfl⟩)
          · exact absurd nothing empty
          · have found := firstRepeat_eq_some_iff.mpr
              ⟨before, after, split', nodup', fun _ _ => List.not_mem_nil, Or.inr again'⟩
            rw [Option.some.inj (repeated.symm.trans found)]
  constructor
  · rintro ⟨given, found, failed⟩
    rcases (refused given).mp failed with ⟨rfl, only⟩ | ⟨before, v, after, rfl, repeated⟩
    · exact Or.inl ⟨found, only⟩
    · exact Or.inr ⟨before, v, after, found, repeated⟩
  · rintro (⟨found, only⟩ | ⟨before, v, after, found, repeated⟩)
    · exact ⟨_, found, (refused _).mpr (Or.inl ⟨rfl, only⟩)⟩
    · exact ⟨_, found, (refused _).mpr (Or.inr ⟨before, v, after, rfl, repeated⟩)⟩

theorem edgeValue_eq_error_iff {t : Transition M T} {g : Graph M T} {x : Instance M T}
    {value : String} {e : Edge T} {f : Failure} :
    t.edgeValue g x value e = .error f ↔
      (e.far = false ∨ t.neverFar = true) ∧ ∃ y, g.instance? e.target = some y ∧
        ((∃ err, t.mutator.outgoing ⟨x.content, x.variant, y.group, e.tag⟩ value = .error err ∧
            err.toFailure x.content (x.variant.set t.name value) = f) ∨
          ∃ asked err,
            t.mutator.outgoing ⟨x.content, x.variant, y.group, e.tag⟩ value = .ok asked ∧
            t.mutator.incoming ⟨y.content, y.variant, .structural⟩ asked = .error err ∧
            err.toFailure y.content y.variant = f) := by
  unfold edgeValue
  by_cases reached : t.appliesTo e.far = true
  · rw [if_pos reached]
    cases target : g.instance? e.target with
    | none => simp
    | some y =>
      simp only [propagate, bind_eq_error_iff, mapError_eq_error_iff, mapError_eq_ok_iff,
        appliesTo_iff.mp reached, true_and, Option.some.injEq, exists_eq_left', exists_and_left]
  · rw [if_neg reached]
    constructor
    · intro h
      cases h
    · rintro ⟨reached', _⟩
      exact absurd (appliesTo_iff.mpr reached') reached

theorem mem_failureOf {α : Type} {decision : Except Failure α} {f : Failure} :
    f ∈ failureOf decision ↔ decision = .error f := by
  cases decision <;> simp [failureOf, eq_comm]

theorem failureOf_eq_nil_iff {α : Type} {decision : Except Failure α} :
    failureOf decision = [] ↔ ∃ a, decision = .ok a := by
  cases decision <;> simp [failureOf]

/-- A change of modules that a transition does not notice: it decides as before, and telling the
changed module its variation comes to changing the module that was told. -/
structure Blind (t : Transition M T) (f : M → M) : Prop where
  split : ∀ m v, t.mutator.split ⟨f m, v⟩ = t.mutator.split ⟨m, v⟩
  outgoing : ∀ m v name tag value,
    t.mutator.outgoing ⟨f m, v, name, tag⟩ value = t.mutator.outgoing ⟨m, v, name, tag⟩ value
  incoming : ∀ m v phase asked,
    t.mutator.incoming ⟨f m, v, phase⟩ asked = t.mutator.incoming ⟨m, v, phase⟩ asked
  mutate : ∀ m value, t.mutator.mutate (f m) value =
    ((t.mutator.mutate m value).map f).mapError fun e => { e with content := f e.content }

omit [BuildModule M T] in
theorem blind_id (t : Transition M T) : t.Blind id where
  split _ _ := rfl
  outgoing _ _ _ _ _ := rfl
  incoming _ _ _ _ := rfl
  mutate m value := by
    rw [id]
    cases t.mutator.mutate m value <;> rfl

end Transition

theorem KeepsLabel.toFailure {M T : Type} [BuildModule M T] {f : M → M} (keeps : KeepsLabel f)
    (e : MutatorError) (m : M) (v : Variant) : e.toFailure (f m) v = e.toFailure m v := by
  rw [MutatorError.toFailure, MutatorError.toFailure, keeps.name, keeps.location]

end BuildVariants
