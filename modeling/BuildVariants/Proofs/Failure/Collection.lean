import BuildVariants.Proofs.Failure.Equality

/-!
# Collecting failures

A collection holds the first of equal failures and nothing else, in the order in which they were
offered, whatever the steps in which they were. What it already holds makes no difference to it.
-/

set_option autoImplicit false

namespace BuildVariants.Failures

inductive Collected : List Failure → Failures → Prop
  | new : Collected [] empty
  | single (f : Failure) : Collected [f] (single f)
  | push {offered : List Failure} {fs : Failures} (f : Failure) (h : Collected offered fs) :
      Collected (offered ++ [f]) (fs.push f)
  | extend {offered : List Failure} {fs : Failures} (more : List Failure) (h : Collected offered fs) :
      Collected (offered ++ more) (fs.extend more)

theorem Collected.eq_ofList {offered : List Failure} {fs : Failures} (h : Collected offered fs) :
    fs = ofList offered := by
  induction h with
  | new => rfl
  | single f => rfl
  | push f _ ih => rw [ih, ofList, ofList, extend_append, extend_singleton]
  | extend more _ ih => rw [ih, ofList, ofList, extend_append]

/-- The failures that equal none of those before them. -/
def firsts (offered : List Failure) : List Failure :=
  filterAfter (fun before f => !before.any (· == f)) offered

section Distinct

variable {offered : List Failure} (distinct : ∀ f ∈ offered, f.Distinct)
include distinct

theorem any_ofList {f : Failure} (hf : f.Distinct) :
    (ofList offered).items.any (· == f) = offered.any (· == f) := by
  have keyed : ∀ l : List Failure, (∀ f' ∈ l, f'.Distinct) →
      (l.any (· == f) = true ↔ f.key ∈ l.map Failure.key) := by
    intro l hl
    rw [List.any_eq_true, List.mem_map]
    exact exists_congr fun f' => and_congr_right fun hf' => Failure.beq_iff_key (hl f' hf') hf
  rw [Bool.eq_iff_iff, keyed _ fun f' hf' => distinct f' (mem_of_mem_ofList hf'),
    keyed _ distinct, mem_map_key_ofList distinct]

/-- A collection compares with what it holds, which is as good as all that was offered. -/
theorem items_ofList : (ofList offered).items = firsts offered := by
  induction offered using List.reverseRecOn with
  | nil => rfl
  | append_singleton offered f ih =>
    have before : ∀ f ∈ offered, f.Distinct := fun f hf => distinct f (List.mem_append_left _ hf)
    have known := any_ofList before (distinct f (by simp))
    have last : ofList (offered ++ [f]) = (ofList offered).push f := extend_append empty offered [f]
    rw [last, firsts, filterAfter_concat, push, known, ← firsts, ← ih before]
    by_cases there : offered.any (· == f) = true <;> simp [there]

end Distinct

theorem extend_of_held {fs : Failures} {more : List Failure}
    (held : ∀ f ∈ more, ∃ kept ∈ fs.items, (kept == f) = true) : fs.extend more = fs := by
  induction more with
  | nil => rfl
  | cons f more ih =>
    have known : fs.push f = fs := if_pos (List.any_eq_true.mpr (held f (by simp)))
    have next : fs.extend (f :: more) = (fs.push f).extend more := rfl
    rw [next, known, ih fun f' hf' => held f' (by simp [hf'])]

/-- A collection holds the first of each failure that was offered. Failures are equal when they agree
in all but the order and the empty entries of the variants that they list. -/
theorem collected_firsts {offered : List Failure} {fs : Failures} (h : Collected offered fs)
    (distinct : ∀ f ∈ offered, f.Distinct) :
    fs.items = firsts offered ∧ fs.items.Sublist offered ∧
    (∀ f ∈ offered, ∀ f' ∈ offered, (f == f') = true ↔ f.key = f'.key) ∧
    fs.items.Pairwise (fun f f' => (f == f') = false ∧ (f' == f) = false) ∧
    (∀ f ∈ offered, ∃ kept ∈ fs.items, (kept == f) = true) ∧
    (∀ more, (∀ f ∈ more, f ∈ fs.items ∨ ∃ kept ∈ fs.items, (kept == f) = true) →
      fs.extend more = fs) ∧
    fs.extend fs.items = fs ∧
    (∀ first second, fs.extend (first ++ second) = (fs.extend first).extend second) ∧
    (fs.guard () = .ok () ↔ offered = []) := by
  obtain rfl := h.eq_ofList
  have members : ∀ f ∈ (ofList offered).items, f.Distinct := fun f hf =>
    distinct f (mem_of_mem_ofList hf)
  have same_self : ∀ f : Failure, f.Distinct → (f == f) = true := fun f hf =>
    (Failure.beq_iff_key hf hf).mpr rfl
  have unchanged : ∀ more, (∀ f ∈ more, f ∈ (ofList offered).items ∨
      ∃ kept ∈ (ofList offered).items, (kept == f) = true) →
      (ofList offered).extend more = ofList offered := by
    refine fun more held => extend_of_held fun f hf => ?_
    rcases held f hf with there | equal
    · exact ⟨f, there, same_self f (members f there)⟩
    · exact equal
  have items := items_ofList distinct
  refine ⟨items, items ▸ filterAfter_sublist _ offered, ?_, ?_, ?_, unchanged, ?_, ?_, ?_⟩
  · exact fun f hf f' hf' => Failure.beq_iff_key (distinct f hf) (distinct f' hf')
  · refine (List.pairwise_map.mp (nodup_map_key_ofList distinct)).imp_of_mem ?_
    intro f f' hf hf' apart
    have different := (Failure.beq_iff_key (members f hf) (members f' hf')).not.mpr apart
    have different' := (Failure.beq_iff_key (members f' hf') (members f hf)).not.mpr apart.symm
    exact ⟨Bool.eq_false_iff.mpr different, Bool.eq_false_iff.mpr different'⟩
  · intro f hf
    obtain ⟨kept, hkept, rfl | same⟩ := exists_mem_ofList hf
    · exact ⟨kept, hkept, same_self kept (distinct kept hf)⟩
    · exact ⟨kept, hkept, same⟩
  · exact unchanged _ fun f hf => Or.inl hf
  · exact extend_append _
  · rw [guard_ofList_eq_ok_iff]
    exact and_iff_left rfl

def missing (requested available : Variant) : Failure :=
  .missingVariant .forward "lib" "app" none requested [available]

theorem collected_firsts_missing :
    let first := missing (.ofList [⟨"os", "mac"⟩, ⟨"arch", ""⟩]) (.ofList [⟨"os", "x"⟩, ⟨"arch", "y"⟩])
    let again := missing (.ofList [⟨"os", "mac"⟩]) (.ofList [⟨"arch", "y"⟩, ⟨"os", "x"⟩])
    let undefined := Failure.missingDependency "app" none "ghost"
    let fs := ((single first).extend [undefined, again]).push undefined
    let offered := [first, undefined, again, undefined]
    Collected offered fs ∧ (∀ f ∈ offered, f.Distinct) ∧ first.message ≠ again.message ∧
      fs.items = firsts offered ∧ fs.items = [first, undefined] ∧ first.key = again.key ∧
      fs.extend [again, first] = fs ∧ fs.guard () ≠ .ok () := by
  intro first again undefined fs offered
  have collected : Collected offered fs :=
    ((Collected.single first).extend [undefined, again]).push undefined
  have distinct : ∀ f ∈ offered, f.Distinct := by
    simp [offered, first, again, undefined, missing, Failure.Distinct, Variant.ofList_distinct]
  obtain ⟨items, _, equal_iff, _, _, unchanged, _, _, ok_iff⟩ := collected_firsts collected distinct
  have equal : (first == again) = true := by decide
  have kept : fs.items = [first, undefined] := rfl
  refine ⟨collected, distinct, by decide +kernel, items, kept,
    (equal_iff first (by simp [offered]) again (by simp [offered])).mp equal, unchanged _ ?_,
    mt ok_iff.mp nofun⟩
  intro f hf
  rcases List.mem_pair.mp hf with rfl | rfl
  · exact Or.inr ⟨first, by simp [kept], equal⟩
  · exact Or.inl (by simp [kept])

end BuildVariants.Failures
