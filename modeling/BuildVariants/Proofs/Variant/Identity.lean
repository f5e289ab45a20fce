import BuildVariants.Proofs.Variant

/-!
# The identity of variants

Whatever the assignments are that made a variant, it has one entry for each mutator that they name, in
the order in which they first name it, with the last value that they give it. So variants count as what
they assign: equality is agreement on every mutator, and containment is agreement on every mutator
with a value.
-/

set_option autoImplicit false

namespace BuildVariants.Variant

inductive MadeBy : List Variation → Variant → Prop
  | new : MadeBy [] empty
  | set {choices : List Variation} {v : Variant} (m value : String) (h : MadeBy choices v) :
      MadeBy (choices ++ [⟨m, value⟩]) (v.set m value)
  | ofList (choices : List Variation) : MadeBy choices (ofList choices)

theorem MadeBy.eq_ofList {choices : List Variation} {v : Variant} (h : MadeBy choices v) :
    v = Variant.ofList choices := by
  induction h with
  | new => rfl
  | set m value _ ih => rw [ofList_concat, ih]
  | ofList choices => rfl

theorem MadeBy.distinct {choices : List Variation} {v : Variant} (h : MadeBy choices v) :
    v.Distinct :=
  h.eq_ofList ▸ ofList_distinct choices

theorem mutators_ofList (choices : List Variation) :
    (ofList choices).entries.map Variation.mutator =
      (choices.map Variation.mutator).eraseDups := by
  induction choices using List.reverseRecOn with
  | nil => rfl
  | append_singleton choices c ih =>
    have known : c.mutator ∈ (ofList choices).entries.map Variation.mutator ↔
        c.mutator ∈ choices.map Variation.mutator := by
      rw [ih, List.mem_eraseDups]
    rw [ofList_concat, List.map_append, List.map_singleton, eraseDups_concat]
    by_cases there : c.mutator ∈ choices.map Variation.mutator
    · rw [mutators_set_of_mem _ (known.mpr there), if_pos there, ih]
    · rw [entries_set_of_fresh _ (mt known.mp there), if_neg there, List.map_append, ih,
        List.map_singleton]

/-- One entry for each mutator that was chosen for, in the order of the first choices, and the last
value that was chosen for it. -/
structure Represents (v : Variant) (choices : List Variation) : Prop where
  distinct : v.Distinct
  order : v.entries.map Variation.mutator = (choices.map Variation.mutator).eraseDups
  last : ∀ m, v.get m = (lastChosen? choices m).getD ""

theorem MadeBy.represents {choices : List Variation} {v : Variant} (h : MadeBy choices v) :
    v.Represents choices where
  distinct := h.distinct
  order := h.eq_ofList ▸ mutators_ofList choices
  last m := by rw [h.eq_ofList, get_ofList]

theorem isSubsetOf_trans {u v w : Variant} (distinct : u.Distinct) (first : u.isSubsetOf v = true)
    (second : v.isSubsetOf w = true) : u.isSubsetOf w = true := by
  refine (isSubsetOf_iff distinct).mpr fun m => ?_
  rcases get_of_isSubsetOf first m with none | same
  · exact Or.inl none
  · rcases get_of_isSubsetOf second m with none | same'
    · exact Or.inl (same.trans none)
    · exact Or.inr (same.trans same')

/-- Agreement on the mutators that assign something in one of the variants is agreement. -/
theorem matchesOn_eq_beq {v w : Variant} (hv : v.Distinct) (hw : w.Distinct) {mutators : List String}
    (covered : ∀ e ∈ v.assigned ++ w.assigned, e.mutator ∈ mutators) :
    v.matchesOn w mutators = (v == w) := by
  rw [Bool.eq_iff_iff, beq_iff_get hv hw, matchesOn, List.all_eq_true]
  simp only [decide_eq_true_eq]
  refine ⟨fun agree m => ?_, fun same m _ => same m⟩
  have inside : ∀ u : Variant, (∀ e ∈ u.assigned, e.mutator ∈ mutators) → u.get m ≠ "" →
      m ∈ mutators :=
    fun u cover given => cover _ (mem_assigned.mpr ⟨mem_of_get_ne given, given⟩)
  by_cases hm : m ∈ mutators
  · exact agree m hm
  · have none_v : v.get m = "" := by
      by_contra given
      exact hm (inside v (fun e he => covered e (List.mem_append_left _ he)) given)
    have none_w : w.get m = "" := by
      by_contra given
      exact hm (inside w (fun e he => covered e (List.mem_append_right _ he)) given)
    rw [none_v, none_w]

/-- A variant is what its mutators were last given. Variants are equal when they agree on every
mutator, and contained in each other when they agree on every mutator with a value: an equivalence, and
an order up to it. -/
theorem identity_extensional {choices choices' : List Variation} {v w u : Variant}
    (hv : MadeBy choices v) (hw : MadeBy choices' w) :
    v.Represents choices ∧
    ((v == w) = true ↔ ∀ m, v.get m = w.get m) ∧
    (v.isSubsetOf w = true ↔ ∀ m, v.get m = "" ∨ v.get m = w.get m) ∧
    (∀ mutators : List String, (∀ e ∈ v.assigned ++ w.assigned, e.mutator ∈ mutators) →
      v.matchesOn w mutators = (v == w)) ∧
    ((v == v) = true ∧ ((v == w) = true → (w == v) = true) ∧
      ((v == w) = true → (w == u) = true → (v == u) = true)) ∧
    v.isSubsetOf v = true ∧
      (v.isSubsetOf w = true → w.isSubsetOf u = true → v.isSubsetOf u = true) ∧
      ((v == w) = true ↔ v.isSubsetOf w = true ∧ w.isSubsetOf v = true) := by
  refine ⟨hv.represents, beq_iff_get hv.distinct hw.distinct, isSubsetOf_iff hv.distinct, ?_, ?_, ?_⟩
  · exact fun mutators covered => matchesOn_eq_beq hv.distinct hw.distinct covered
  · exact ⟨hv.distinct.beq_self, fun same => beq_comm v w ▸ same, beq_trans⟩
  · refine ⟨(isSubsetOf_iff hv.distinct).mpr fun m => Or.inr rfl, isSubsetOf_trans hv.distinct, ?_⟩
    rw [beq_eq, Bool.and_eq_true]

theorem identity_extensional_overwritten :
    let v := ((empty.set "os" "linux").set "arch" "").set "os" "mac"
    let w := ofList [⟨"link", ""⟩, ⟨"os", "mac"⟩]
    let u := w.set "link" "static"
    MadeBy [⟨"os", "linux"⟩, ⟨"arch", ""⟩, ⟨"os", "mac"⟩] v ∧
      MadeBy [⟨"link", ""⟩, ⟨"os", "mac"⟩] w ∧
      v.Represents [⟨"os", "linux"⟩, ⟨"arch", ""⟩, ⟨"os", "mac"⟩] ∧
      v.entries = [⟨"os", "mac"⟩, ⟨"arch", ""⟩] ∧ (∀ m, v.get m = w.get m) ∧
      v.matchesOn w ["os"] = true ∧ v.isSubsetOf u = true ∧ (v == u) = false := by
  intro v w u
  have hv : MadeBy [⟨"os", "linux"⟩, ⟨"arch", ""⟩, ⟨"os", "mac"⟩] v :=
    ((MadeBy.new.set "os" "linux").set "arch" "").set "os" "mac"
  have hw : MadeBy [⟨"link", ""⟩, ⟨"os", "mac"⟩] w := MadeBy.ofList _
  have equal : (v == w) = true := by decide
  have larger : w.isSubsetOf u = true := by decide
  obtain ⟨represents, equal_iff, _, agree, _, _, through, both⟩ :=
    identity_extensional (u := u) hv hw
  exact ⟨hv, hw, represents, rfl, equal_iff.mp equal, (agree ["os"] (by decide)).trans equal,
    through (both.mp equal).1 larger, by decide⟩

end BuildVariants.Variant
