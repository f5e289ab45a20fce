import BuildVariants.Reference
import Mathlib.Data.List.TakeWhile
import Mathlib.Tactic.Tauto

/-!
# Reading and printing references

The forms of a reference decide which texts spell it, and reading accepts exactly these texts. What
was read is printed as the text that it was read from, up to the one thing that is lost: a colon with
nothing after it.
-/

set_option autoImplicit false

namespace BuildVariants

/-- References are read from the texts that spell them. Printed and read again they are the same, and
texts that give the same reference agree once they are made `plain`. -/
structure ReadExactly {α ε : Type} (parse : String → Except ε α) (render : α → String)
    (Spells : String → α → Prop) (plain : String → String) : Prop where
  accepts : ∀ s r, parse s = .ok r ↔ Spells s r
  reads_back : ∀ s r, parse s = .ok r → parse (render r) = .ok r
  prints : ∀ s r, parse s = .ok r → render r = plain s
  same_iff : ∀ s t r q, parse s = .ok r → parse t = .ok q → (r = q ↔ plain s = plain t)

theorem readExactly_of_spells {α ε : Type} {parse : String → Except ε α} {render : α → String}
    {Spells : String → α → Prop} {plain : String → String}
    (accepts : ∀ s r, parse s = .ok r ↔ Spells s r)
    (reads_back : ∀ s r, Spells s r → Spells (render r) r)
    (prints : ∀ s r, Spells s r → render r = plain s) : ReadExactly parse render Spells plain where
  accepts := accepts
  reads_back s r h := (accepts _ r).mpr (reads_back s r ((accepts s r).mp h))
  prints s r h := prints s r ((accepts s r).mp h)
  same_iff s t r q hs ht := by
    have spells_r := (accepts s r).mp hs
    have spells_q := (accepts t q).mp ht
    constructor
    · rintro rfl
      rw [← prints s r spells_r, prints t r spells_q]
    · intro same
      have printed : render r = render q := by rw [prints s r spells_r, prints t q spells_q, same]
      have again_r := (accepts _ r).mpr (reads_back s r spells_r)
      have again_q := (accepts _ q).mpr (reads_back t q spells_q)
      rw [← printed, again_r] at again_q
      exact Except.ok.inj again_q

namespace VariationRef

def IsName (n : String) : Prop := n ≠ "" ∧ ':' ∉ n.toList

/-- The forms of a reference. All up to the first colon is the name, and all after it the variant. -/
inductive Spells : String → VariationRef → Prop
  | name {n : String} (h : IsName n) : Spells n ⟨n, none⟩
  | colon {n : String} (h : IsName n) : Spells (n ++ ":") ⟨n, none⟩
  | variant {n v : String} (h : IsName n) (given : v ≠ "") : Spells (n ++ ":" ++ v) ⟨n, some v⟩

/-- A text whose only colon ends it, without that colon. Other texts stay as they are. -/
def withoutFinalColon (s : String) : String :=
  if s.toList.getLast? = some ':' ∧ s.toList.count ':' = 1 then String.ofList s.toList.dropLast else s

theorem all_ne_colon {cs : List Char} (h : ':' ∉ cs) : ∀ c ∈ cs, decide (c ≠ ':') = true :=
  fun _ hc => decide_eq_true fun same => h (same ▸ hc)

theorem splitColon_of_notMem {cs : List Char} (h : ':' ∉ cs) : splitColon cs = (cs, none) := by
  rw [splitColon, List.dropWhile_eq_nil_iff.mpr (all_ne_colon h)]

theorem splitColon_append {n : List Char} (h : ':' ∉ n) (rest : List Char) :
    splitColon (n ++ ':' :: rest) = (n, some rest) := by
  rw [splitColon, List.dropWhile_append_of_pos (all_ne_colon h),
    List.takeWhile_append_of_pos (all_ne_colon h)]
  simp

theorem parse_of_colon {n : String} (h : IsName n) (rest : String) :
    parse (n ++ ":" ++ rest) = .ok ⟨n, if rest = "" then none else some rest⟩ := by
  have text : (n ++ ":" ++ rest).toList = n.toList ++ ':' :: rest.toList := by simp
  have given : n ++ ":" ++ rest ≠ "" := by simp
  rw [parse, if_neg given, text, splitColon_append h.2]
  by_cases none : rest = "" <;> simp [none, h.1, Option.filter]

theorem parse_of_spells {s : String} {r : VariationRef} (h : Spells s r) : parse s = .ok r := by
  cases h with
  | name h => simp [parse, splitColon_of_notMem h.2, h.1]
  | colon h => simpa using parse_of_colon h ""
  | @variant n v h given => simpa [given] using parse_of_colon h v

theorem parse_of_missing_name {s : String} (start : s.toList.head? = some ':') :
    parse s = .error (.missingName s) := by
  obtain ⟨rest, text⟩ := List.head?_eq_some_iff.mp start
  have given : s ≠ "" := by
    rintro rfl
    cases text
  have split := splitColon_append List.not_mem_nil rest
  rw [parse, if_neg given, text, ← List.nil_append (':' :: rest), split]
  rfl

theorem IsName.start {n : String} (h : IsName n) (rest : String) :
    n ++ rest ≠ "" ∧ (n ++ rest).toList.head? ≠ some ':' := by
  obtain ⟨c, cs, text⟩ := List.exists_cons_of_ne_nil (mt String.toList_eq_nil_iff.mp h.1)
  have other : c ≠ ':' := fun same => h.2 (by simp [text, same])
  simp [h.1, text, other]

theorem exists_spells {s : String} (given : s ≠ "") (start : s.toList.head? ≠ some ':') :
    ∃ r, Spells s r := by
  by_cases there : ':' ∈ s.toList
  · obtain ⟨n, rest, text, first⟩ := List.eq_append_cons_of_mem there
    have split : s = String.ofList n ++ ":" ++ String.ofList rest := by
      rw [← String.toList_inj, text]
      simp
    have name : IsName (String.ofList n) := by
      refine ⟨fun empty => start ?_, by simpa using first⟩
      rw [split, empty]
      simp
    rw [split]
    by_cases last : String.ofList rest = ""
    · rw [last, String.append_empty]
      exact ⟨_, Spells.colon name⟩
    · exact ⟨_, Spells.variant name last⟩
  · exact ⟨_, Spells.name ⟨given, there⟩⟩

/-- The texts that spell no reference are the empty one and those that start with a colon. -/
theorem exists_spells_iff {s : String} : (∃ r, Spells s r) ↔ s ≠ "" ∧ s.toList.head? ≠ some ':' := by
  constructor
  · rintro ⟨r, h⟩
    cases h with
    | name h => simpa using h.start ""
    | colon h => exact h.start ":"
    | @variant n v h => simpa [String.append_assoc] using h.start (":" ++ v)
  · exact fun h => exists_spells h.1 h.2

theorem parse_eq_ok_iff {s : String} {r : VariationRef} : parse s = .ok r ↔ Spells s r := by
  constructor
  · intro h
    have given : s ≠ "" := by
      rintro rfl
      cases h
    have start : s.toList.head? ≠ some ':' := by
      intro start
      rw [parse_of_missing_name start] at h
      cases h
    obtain ⟨q, spelled⟩ := exists_spells given start
    rw [parse_of_spells spelled] at h
    cases h
    exact spelled
  · exact parse_of_spells

theorem spells_render {s : String} {r : VariationRef} (h : Spells s r) : Spells r.render r := by
  cases h with
  | name h => exact Spells.name h
  | colon h => exact Spells.name h
  | variant h given => exact Spells.variant h given

theorem render_of_spells {s : String} {r : VariationRef} (h : Spells s r) :
    r.render = withoutFinalColon s := by
  cases h with
  | name h =>
    have none := List.count_eq_zero.mpr h.2
    simp [render, withoutFinalColon, none]
  | colon h =>
    have none := List.count_eq_zero.mpr h.2
    simp [render, withoutFinalColon, none]
  | @variant n v h given =>
    -- If a colon ends the text, it is in the variant and so the second one.
    have two : ¬ ((n ++ ":" ++ v).toList.getLast? = some ':' ∧
        (n ++ ":" ++ v).toList.count ':' = 1) := by
      rintro ⟨last, one⟩
      have ended := List.getLast?_eq_some_getLast (mt String.toList_eq_nil_iff.mp given)
      have inside : ':' ∈ v.toList := by
        rw [String.toList_append, List.getLast?_append, ended] at last
        exact List.mem_of_getLast? (ended.trans last)
      have more := List.count_pos_iff.mpr inside
      simp only [String.toList_append, List.count_append] at one
      have colon : (":".toList).count ':' = 1 := rfl
      omega
    rw [withoutFinalColon, if_neg two, render]

end VariationRef

namespace ReverseRef

def IsWordChar (c : Char) : Prop :=
  ('a' ≤ c ∧ c ≤ 'z') ∨ ('A' ≤ c ∧ c ≤ 'Z') ∨ ('0' ≤ c ∧ c ≤ '9') ∨ c = '_'

def IsWord (w : String) : Prop := w ≠ "" ∧ ∀ c ∈ w.toList, IsWordChar c

inductive Spells : String → ReverseRef → Prop
  | called {n v : String} (hn : IsWord n) (hv : IsWord v) : Spells (n ++ "(" ++ v ++ ")") ⟨n, v⟩

theorem toList_called (n v : String) :
    (n ++ "(" ++ v ++ ")").toList = n.toList ++ '(' :: (v.toList ++ [')']) := by
  simp

theorem isWordChar_iff {c : Char} : isWordChar c = true ↔ IsWordChar c := by
  unfold isWordChar IsWordChar
  delta Char.isAlphanum Char.isAlpha Char.isUpper Char.isLower Char.isDigit
  simp only [Bool.or_eq_true, Bool.and_eq_true, decide_eq_true_eq, Char.le_def, ge_iff_le]
  tauto

theorem IsWord.all {w : String} (h : IsWord w) : ∀ c ∈ w.toList, isWordChar c = true :=
  fun c hc => isWordChar_iff.mpr (h.2 c hc)

theorem isWord_takeWhile {cs : List Char} (some : cs.takeWhile isWordChar ≠ []) :
    IsWord (String.ofList (cs.takeWhile isWordChar)) := by
  refine ⟨by simpa using some, fun c hc => ?_⟩
  rw [String.toList_ofList] at hc
  exact isWordChar_iff.mp (List.mem_takeWhile_imp hc)

theorem parse_of_spells {s : String} {r : ReverseRef} (h : Spells s r) : parse s = .ok r := by
  cases h with
  | @called n v hn hv =>
    have opening : isWordChar '(' = false := by decide
    have closing : isWordChar ')' = false := by decide
    simp [parse, List.takeWhile_append_of_pos hn.all, List.dropWhile_append_of_pos hn.all,
      List.takeWhile_append_of_pos hv.all, List.dropWhile_append_of_pos hv.all, opening, closing,
      hn.1, hv.1]

theorem parse_eq_ok_iff {s : String} {r : ReverseRef} : parse s = .ok r ↔ Spells s r := by
  constructor
  · intro h
    unfold parse at h
    simp only at h
    split at h
    · next inner after =>
      split_ifs at h with words
      · cases h
        obtain ⟨name, variant, closed⟩ := words
        have text : s = String.ofList (s.toList.takeWhile isWordChar) ++ "(" ++
            String.ofList (inner.takeWhile isWordChar) ++ ")" := by
          have whole := List.takeWhile_append_dropWhile (p := isWordChar) (l := s.toList)
          have rest := List.takeWhile_append_dropWhile (p := isWordChar) (l := inner)
          rw [after] at whole
          rw [closed] at rest
          rw [← String.toList_inj]
          simp [rest, whole]
        have spelled := Spells.called (isWord_takeWhile name) (isWord_takeWhile variant)
        rwa [← text] at spelled
    · cases h
  · exact parse_of_spells

theorem spells_render {s : String} {r : ReverseRef} (h : Spells s r) : Spells r.render r := by
  cases h with
  | called hn hv => exact Spells.called hn hv

theorem render_of_spells {s : String} {r : ReverseRef} (h : Spells s r) : r.render = id s := by
  cases h with
  | called hn hv => rfl

/-- A reference has one pair of parentheses, closes with the text and holds only words besides. -/
structure Enclosed (s : String) : Prop where
  opens : s.toList.count '(' = 1
  closes : s.toList.count ')' = 1
  ends : s.toList.getLast? = some ')'
  words : ∀ c ∈ s.toList, IsWordChar c ∨ c = '(' ∨ c = ')'

theorem IsWord.count {w : String} (h : IsWord w) {c : Char} (other : isWordChar c = false) :
    w.toList.count c = 0 := by
  refine List.count_eq_zero.mpr fun there => ?_
  rw [h.all c there] at other
  cases other

theorem enclosed_of_spells {s : String} {r : ReverseRef} (h : Spells s r) : Enclosed s := by
  cases h with
  | @called n v hn hv =>
    constructor
    · simp [hn.count, hv.count, isWordChar]
    · simp [hn.count, hv.count, isWordChar]
    · rw [toList_called, ← List.cons_append, ← List.append_assoc, List.getLast?_concat]
    · intro c hc
      simp only [toList_called, List.mem_append, List.mem_cons, List.not_mem_nil, or_false] at hc
      rcases hc with word | rfl | word | rfl
      · exact Or.inl (hn.2 c word)
      · simp
      · exact Or.inl (hv.2 c word)
      · simp

end ReverseRef

/-- Both kinds of references are read from exactly the texts of their forms and print these texts
again, where a name loses a colon that ends it. -/
theorem references_exact :
    ReadExactly VariationRef.parse VariationRef.render VariationRef.Spells
      VariationRef.withoutFinalColon ∧
    (∀ s, (∃ r, VariationRef.parse s = .ok r) ↔ s ≠ "" ∧ s.toList.head? ≠ some ':') ∧
    ReadExactly ReverseRef.parse ReverseRef.render ReverseRef.Spells id ∧
    ∀ s, (∃ r, ReverseRef.parse s = .ok r) → ReverseRef.Enclosed s := by
  refine ⟨?_, fun s => ?_, ?_, ?_⟩
  · exact readExactly_of_spells (fun _ _ => VariationRef.parse_eq_ok_iff)
      (fun _ _ => VariationRef.spells_render) fun _ _ => VariationRef.render_of_spells
  · simp only [VariationRef.parse_eq_ok_iff, VariationRef.exists_spells_iff]
  · exact readExactly_of_spells (fun _ _ => ReverseRef.parse_eq_ok_iff)
      (fun _ _ => ReverseRef.spells_render) fun _ _ => ReverseRef.render_of_spells
  · rintro s ⟨r, h⟩
    exact ReverseRef.enclosed_of_spells (ReverseRef.parse_eq_ok_iff.mp h)

example : VariationRef.parse "lib:a:b" = .ok ⟨"lib", some "a:b"⟩ := by decide +kernel

example : (ReverseRef.parse "lib(a)\n").toOption = none := by decide +kernel

end BuildVariants
