import BuildVariants.Failure
import Mathlib.Data.List.Forall2
import Mathlib.Data.List.Nodup

/-!
# Success and failure

When a sequence of decisions succeeds, and what a collection of failures can hold: nothing
that was not offered to it, and something as soon as anything was.
-/

set_option autoImplicit false

namespace BuildVariants

section Except

variable {ε ε' α β : Type}

theorem bind_eq_ok_iff {x : Except ε α} {f : α → Except ε β} {b : β} :
    (x >>= f) = .ok b ↔ ∃ a, x = .ok a ∧ f a = .ok b := by
  cases x with
  | error e => simp [bind, Except.bind]
  | ok a => simp [bind, Except.bind]

theorem bind_eq_error_iff {x : Except ε α} {f : α → Except ε β} {e : ε} :
    (x >>= f) = .error e ↔ x = .error e ∨ ∃ a, x = .ok a ∧ f a = .error e := by
  cases x with
  | error e => simp [bind, Except.bind]
  | ok a => simp [bind, Except.bind]

/-- After a first step in common, two sequences of decisions go along with each other if their
further steps do. -/
theorem bind_map {β' : Type} {x : Except ε α} {G : β → β'} {k : α → Except ε β}
    {k' : α → Except ε β'} (h : ∀ a, x = .ok a → k' a = (k a).map G) :
    (x >>= k') = (x >>= k).map G := by
  cases x with
  | error e => rfl
  | ok a => exact h a rfl

theorem bind_mapError_map {β' : Type} {x : Except ε α} {H : ε → ε'} {G : β → β'}
    {k : α → Except ε β} {k' : α → Except ε' β'}
    (h : ∀ a, x = .ok a → k' a = ((k a).mapError H).map G) :
    (x.mapError H >>= k') = ((x >>= k).mapError H).map G := by
  cases x with
  | error e => rfl
  | ok a => exact h a rfl

theorem map_bind {α' : Type} (x : Except ε α) (F : α → α') (k : α' → Except ε β) :
    (x.map F >>= k) = (x >>= fun a => k (F a)) := by
  cases x <;> rfl

theorem toOption_eq_some_iff {x : Except ε α} {a : α} : x.toOption = some a ↔ x = .ok a := by
  cases x <;> simp [Except.toOption]

theorem map_eq_ok_iff {x : Except ε α} {f : α → β} {b : β} :
    x.map f = .ok b ↔ ∃ a, x = .ok a ∧ f a = b := by
  cases x <;> simp [Except.map]

theorem mapM_eq_ok_iff {f : α → Except ε β} {xs : List α} {ys : List β} :
    xs.mapM f = .ok ys ↔ List.Forall₂ (fun x y => f x = .ok y) xs ys := by
  induction xs generalizing ys with
  | nil => cases ys <;> simp [pure, Except.pure]
  | cons x xs ih =>
    rw [List.mapM_cons, bind_eq_ok_iff]
    constructor
    · rintro ⟨y, first, rest⟩
      obtain ⟨ys', others, same⟩ := bind_eq_ok_iff.mp rest
      cases same
      exact .cons first (ih.mp others)
    · rintro (_ | ⟨first, others⟩)
      exact ⟨_, first, bind_eq_ok_iff.mpr ⟨_, ih.mpr others, rfl⟩⟩

theorem mapError_eq_ok_iff {x : Except ε α} {f : ε → ε'} {a : α} :
    x.mapError f = .ok a ↔ x = .ok a := by
  cases x with
  | error e => exact ⟨nofun, nofun⟩
  | ok b =>
    exact ⟨fun h => congrArg Except.ok (Except.ok.inj h),
      fun h => congrArg Except.ok (Except.ok.inj h)⟩

theorem mapError_eq_error_iff {x : Except ε α} {f : ε → ε'} {e' : ε'} :
    x.mapError f = .error e' ↔ ∃ e, x = .error e ∧ f e = e' := by
  cases x with
  | error e =>
    constructor
    · intro h
      exact ⟨e, rfl, Except.error.inj h⟩
    · rintro ⟨e, same, rfl⟩
      cases same
      rfl
  | ok a => exact ⟨nofun, nofun⟩

def FailsWith (P : ε → Prop) (x : Except ε α) : Prop := ∀ e, x = .error e → P e

theorem failsWith_ok {P : ε → Prop} (a : α) : FailsWith P (.ok a : Except ε α) := nofun

theorem failsWith_error {P : ε → Prop} {e : ε} (h : P e) :
    FailsWith P (.error e : Except ε α) := by
  intro _ same
  cases same
  exact h

theorem FailsWith.bind {P : ε → Prop} {x : Except ε α} {f : α → Except ε β}
    (first : FailsWith P x) (rest : ∀ a, x = .ok a → FailsWith P (f a)) :
    FailsWith P (x >>= f) := by
  intro e h
  rcases bind_eq_error_iff.mp h with failed | ⟨a, found, failed⟩
  · exact first e failed
  · exact rest a found e failed

theorem FailsWith.mapError {P : ε → Prop} {Q : ε' → Prop} {x : Except ε α} {f : ε → ε'}
    (h : FailsWith P x) (each : ∀ e, P e → Q (f e)) : FailsWith Q (x.mapError f) := by
  intro e' failed
  obtain ⟨e, found, rfl⟩ := mapError_eq_error_iff.mp failed
  exact each e (h e found)

theorem failsWith_true (x : Except ε α) : FailsWith (fun _ => True) x := fun _ _ => trivial

end Except

section Earlier

variable {α : Type}

/-- The entries of a list that pass a test together with all that stand before them. -/
def filterAfter (test : List α → α → Bool) (as : List α) : List α :=
  (as.zipIdx.filter fun p => test (as.take p.2) p.1).map Prod.fst

theorem filterAfter_concat (test : List α → α → Bool) (as : List α) (a : α) :
    filterAfter test (as ++ [a]) = filterAfter test as ++ if test as a then [a] else [] := by
  have before : as.zipIdx.filter (fun p => test ((as ++ [a]).take p.2) p.1) =
      as.zipIdx.filter fun p => test (as.take p.2) p.1 := by
    apply List.filter_congr
    intro p hp
    have inside : p.2 ≤ as.length := Nat.le_of_lt (by simpa using List.snd_lt_of_mem_zipIdx hp)
    rw [List.take_append_of_le_length inside]
  rw [filterAfter, List.zipIdx_append, List.filter_append, List.map_append, before]
  by_cases here : test as a = true <;> simp [filterAfter, here]

theorem filterAfter_sublist (test : List α → α → Bool) (as : List α) :
    (filterAfter test as).Sublist as := by
  have all : as.zipIdx.map Prod.fst = as := List.zipIdx_map_fst 0 as
  conv_rhs => rw [← all]
  exact List.filter_sublist.map Prod.fst

end Earlier

/-- A failure that lists no variants. -/
def Failure.Plain (f : Failure) : Prop := ∀ direction dep source location requested available,
  f ≠ .missingVariant direction dep source location requested available

inductive Failure.OfDecision : Failure → Prop
  | mutatorError (source : String) (location : Option String) (variant message : String) :
      OfDecision (.mutatorError source location variant message)
  | emptySplit (source mutator : String) : OfDecision (.emptySplit source mutator)
  | duplicateSplit (source mutator value : String) :
      OfDecision (.duplicateSplit source mutator value)

theorem Failure.OfDecision.plain {f : Failure} (h : f.OfDecision) : f.Plain := by
  cases h <;> exact nofun

theorem Failure.eq_of_beq {kept f : Failure} (h : (kept == f) = true) (plain : f.Plain) :
    kept = f := by
  have same : instBEqFailure.beq kept f = true := h
  cases f with
  | missingVariant direction dep source location requested available =>
    exact absurd rfl (plain _ _ _ _ _ _)
  | _ => cases kept <;> simp_all [instBEqFailure.beq]

theorem Failure.Plain.beq_self {f : Failure} (plain : f.Plain) : (f == f) = true := by
  change instBEqFailure.beq f f = true
  cases f with
  | missingVariant direction dep source location requested available =>
    exact absurd rfl (plain direction dep source location requested available)
  | _ => simp [instBEqFailure.beq]

theorem Failure.Plain.beq_missingVariant {f : Failure} (plain : f.Plain) {direction : Direction}
    {dep source : String} {location : Option String} {requested : Variant}
    {available : List Variant} :
    (f == .missingVariant direction dep source location requested available) = false ∧
      (.missingVariant direction dep source location requested available == f) = false := by
  cases f with
  | missingVariant direction' dep' source' location' requested' available' =>
    exact absurd rfl (plain direction' dep' source' location' requested' available')
  | _ => exact ⟨rfl, rfl⟩

theorem Failure.plain_or (f : Failure) : f.Plain ∨ ∃ direction dep source location requested available,
    f = .missingVariant direction dep source location requested available := by
  by_cases plain : f.Plain
  · exact Or.inl plain
  · right
    simpa [Plain] using plain

namespace Failures

theorem extend_singleton (fs : Failures) (f : Failure) : fs.extend [f] = fs.push f := rfl

theorem push_of_mem {fs : Failures} {f : Failure} (plain : f.Plain) (there : f ∈ fs.items) :
    fs.push f = fs := by
  rw [push, if_pos]
  exact List.any_eq_true.mpr ⟨f, there, plain.beq_self⟩

theorem push_of_notMem {fs : Failures} {f : Failure} (plain : f.Plain) (absent : f ∉ fs.items) :
    (fs.push f).items = fs.items ++ [f] := by
  rw [push, if_neg]
  intro there
  obtain ⟨kept, hkept, same⟩ := List.any_eq_true.mp there
  exact absent (Failure.eq_of_beq same plain ▸ hkept)

theorem mem_of_mem_push {fs : Failures} {f found : Failure} (h : found ∈ (fs.push f).items) :
    found ∈ fs.items ∨ found = f := by
  unfold push at h
  split at h
  · exact Or.inl h
  · simpa using h

theorem push_items_ne_nil (fs : Failures) (f : Failure) : (fs.push f).items ≠ [] := by
  unfold push
  split
  · next there =>
    intro empty
    simp [empty] at there
  · simp

theorem mem_of_mem_extend {fs : Failures} {more : List Failure} {found : Failure}
    (h : found ∈ (fs.extend more).items) : found ∈ fs.items ∨ found ∈ more := by
  induction more generalizing fs with
  | nil => exact Or.inl h
  | cons f more ih =>
    rcases ih h with old | new
    · rcases mem_of_mem_push old with old | rfl
      · exact Or.inl old
      · exact Or.inr (by simp)
    · exact Or.inr (by simp [new])

theorem mem_of_mem_ofList {found : List Failure} {f : Failure} (h : f ∈ (ofList found).items) :
    f ∈ found :=
  (mem_of_mem_extend h).resolve_left List.not_mem_nil

theorem extend_items_ne_nil {fs : Failures} (more : List Failure) (h : fs.items ≠ []) :
    (fs.extend more).items ≠ [] := by
  induction more generalizing fs with
  | nil => exact h
  | cons f more ih => exact ih (push_items_ne_nil fs f)

theorem ofList_items_eq_nil_iff {found : List Failure} :
    (ofList found).items = [] ↔ found = [] := by
  cases found with
  | nil => simp [ofList, empty]
  | cons f more => simpa using! extend_items_ne_nil more (push_items_ne_nil empty f)

theorem guard_ofList_eq_ok_iff {α : Type} {found : List Failure} {value result : α} :
    (ofList found).guard value = .ok result ↔ found = [] ∧ result = value := by
  rw [guard_eq_ok_iff, ofList_items_eq_nil_iff]

theorem guard_eq_error_iff {α : Type} {fs failed : Failures} {value : α} :
    fs.guard value = .error failed ↔ failed = fs ∧ fs.items ≠ [] := by
  cases h : fs.items <;> simp [guard, isEmpty, h, eq_comm]

/-- A pass that fails reports only what it found. -/
theorem mem_of_guard_ofList_eq_error {α : Type} {found : List Failure} {value : α}
    {fs : Failures} (h : (ofList found).guard value = .error fs) {f : Failure}
    (hf : f ∈ fs.items) : f ∈ found := by
  unfold guard at h
  split at h
  · cases h
  · cases h
    exact mem_of_mem_ofList hf

theorem prefix_push (fs : Failures) (f : Failure) : fs.items <+: (fs.push f).items := by
  unfold push
  split
  · exact List.prefix_rfl
  · exact List.prefix_append _ _

theorem prefix_extend (fs : Failures) (more : List Failure) :
    fs.items <+: (fs.extend more).items := by
  induction more generalizing fs with
  | nil => exact List.prefix_rfl
  | cons f more ih => exact (prefix_push fs f).trans (ih (fs.push f))

theorem head?_ofList (f : Failure) (more : List Failure) :
    (ofList (f :: more)).items.head? = some f := by
  obtain ⟨added, items⟩ := prefix_extend (empty.push f) more
  have first : (empty.push f).items = [f] := rfl
  have all : (ofList (f :: more)).items = ((empty.push f).extend more).items := rfl
  rw [all, ← items, first]
  rfl

theorem exists_mem_push (fs : Failures) (f : Failure) :
    ∃ kept ∈ (fs.push f).items, kept = f ∨ (kept == f) = true := by
  unfold push
  split
  · next there =>
    obtain ⟨kept, hkept, same⟩ := List.any_eq_true.mp there
    exact ⟨kept, hkept, Or.inr same⟩
  · exact ⟨f, by simp, Or.inl rfl⟩

theorem exists_mem_ofList {found : List Failure} {f : Failure} (hf : f ∈ found) :
    ∃ kept ∈ (ofList found).items, kept = f ∨ (kept == f) = true := by
  obtain ⟨first, last, rfl⟩ := List.append_of_mem hf
  obtain ⟨kept, hkept, same⟩ := exists_mem_push (ofList first) f
  have split : ofList (first ++ f :: last) = ((ofList first).push f).extend last :=
    extend_append empty first (f :: last)
  rw [split]
  exact ⟨kept, (prefix_extend _ _).subset hkept, same⟩

theorem extend_eq_eraseDups (fs : Failures) (more : List Failure) : (fs.extend more).items =
    List.eraseDupsBy.loop (fun new kept => kept == new) more fs.items.reverse := by
  induction more generalizing fs with
  | nil => simp [List.eraseDupsBy.loop]
  | cons f more ih =>
    have next : fs.extend (f :: more) = (fs.push f).extend more := rfl
    rw [next, ih, List.eraseDupsBy.loop, List.any_reverse, push]
    by_cases known : fs.items.any (· == f) = true
    · simp [known]
    · simp [known]

/-- Of equal failures the first one is kept. -/
theorem ofList_eq_eraseDups (found : List Failure) :
    ofList found = ⟨found.eraseDupsBy fun new kept => kept == new⟩ :=
  congrArg mk (extend_eq_eraseDups empty found)

/-- Of the failures that list no variants none is left out. -/
theorem mem_ofList_of_plain {found : List Failure} {f : Failure} (hf : f ∈ found)
    (plain : f.Plain) : f ∈ (ofList found).items := by
  obtain ⟨kept, hkept, rfl | same⟩ := exists_mem_ofList hf
  · exact hkept
  · exact Failure.eq_of_beq same plain ▸ hkept

/-- No two failures of a collection are equal. -/
theorem pairwise_extend {fs : Failures}
    (apart : fs.items.Pairwise fun kept new => (kept == new) = false) (more : List Failure) :
    (fs.extend more).items.Pairwise fun kept new => (kept == new) = false := by
  induction more generalizing fs with
  | nil => exact apart
  | cons f more ih =>
    apply ih
    unfold push
    split
    · exact apart
    · next fresh =>
      rw [Bool.not_eq_true, List.any_eq_false] at fresh
      refine List.pairwise_append.mpr ⟨apart, List.pairwise_singleton _ f, ?_⟩
      intro kept hkept new hnew
      rw [List.mem_singleton.mp hnew]
      exact Bool.eq_false_iff.mpr (fresh kept hkept)

theorem pairwise_ofList (found : List Failure) :
    (ofList found).items.Pairwise fun kept new => (kept == new) = false :=
  pairwise_extend List.Pairwise.nil found

theorem nodup_ofList {found : List Failure} (plain : ∀ f ∈ found, f.Plain) :
    (ofList found).items.Nodup := by
  refine (pairwise_ofList found).imp_of_mem fun {kept new} hkept _ apart same => ?_
  rw [← same, (plain kept (mem_of_mem_ofList hkept)).beq_self] at apart
  cases apart

theorem mem_ofList_iff_of_plain {found : List Failure} (plain : ∀ f ∈ found, f.Plain)
    {f : Failure} : f ∈ (ofList found).items ↔ f ∈ found := by
  constructor
  · exact mem_of_mem_ofList
  · intro there
    exact mem_ofList_of_plain there (plain f there)

/-- A pass that found something fails, and reports it. -/
theorem guard_ofList_of_mem {α : Type} {found : List Failure} (value : α) {f : Failure}
    (hf : f ∈ found) : ∃ fs, (ofList found).guard value = .error fs ∧
      ∃ kept ∈ fs.items, kept = f ∨ (kept == f) = true := by
  obtain ⟨kept, hkept, same⟩ := exists_mem_ofList hf
  have some : (ofList found).isEmpty = false := by
    rw [isEmpty, List.isEmpty_eq_false_iff]
    exact List.ne_nil_of_mem hkept
  exact ⟨ofList found, by simp [guard, some], kept, hkept, same⟩

def All (P : Failure → Prop) (fs : Failures) : Prop := ∀ f ∈ fs.items, P f

theorem all_single {P : Failure → Prop} {f : Failure} (h : P f) : (single f).All P := by
  simpa [All, single] using h

theorem guard_ofList_failsWith {α : Type} {P : Failure → Prop} {found : List Failure} {value : α}
    (h : ∀ f ∈ found, P f) : FailsWith (All P) ((ofList found).guard value) :=
  fun _ failed f hf => h f (mem_of_guard_ofList_eq_error failed hf)

end Failures

end BuildVariants
