import BuildVariants.Proofs.Text.Order
import BuildVariants.Text.Utf8
import Mathlib.Data.List.TakeWhile

/-!
# Texts read from any bytes

Bytes can be shown even if they are no text. What is shown as ASCII characters alone was just
these characters: every other byte is part of a character beyond ASCII or shows as a replacement
character.
-/

set_option autoImplicit false

namespace BuildVariants.Text

def IsAscii (c : Char) : Prop := c.toNat < 0x80

theorem replacement_not_ascii : ¬ IsAscii replacement := by
  simp [IsAscii, replacement]

theorem toNat_ofNat {n : Nat} (valid : n.isValidChar) : (Char.ofNat n).toNat = n := by
  rw [Char.ofNat, dif_pos valid]
  rfl

theorem not_ascii_ofNat {n : Nat} (high : 0x80 ≤ n)
    (valid : n < 0xd800 ∨ 0xe000 ≤ n ∧ n < 0x110000) : ¬ IsAscii (Char.ofNat n) := by
  have valid : n.isValidChar := by unfold Nat.isValidChar; omega
  rw [IsAscii, toNat_ofNat valid]
  omega

theorem width_cases (lead : Nat) :
    width lead = 0 ∨ width lead = 1 ∧ lead < 0x80 ∨ width lead = 2 ∧ 0xc2 ≤ lead ∧ lead < 0xe0 ∨
      width lead = 3 ∧ 0xe0 ≤ lead ∧ lead < 0xf0 ∨ width lead = 4 ∧ 0xf0 ≤ lead ∧ lead < 0xf5 := by
  unfold width
  grind

/-- The bytes that continue a character are as many as its width asks for at most, and the first one
is checked more strictly than the others. -/
theorem continuations_cases {lead : Nat} {rest : List Nat} (h : continuations lead rest ≠ []) :
    ∃ b more, maySecond lead b = true ∧ (∀ c ∈ more, isContinuation c = true) ∧
      continuations lead rest = b :: more := by
  cases rest with
  | nil => exact absurd rfl h
  | cons b more =>
    by_cases first : maySecond lead b = true
    · refine ⟨b, (more.take (width lead - 2)).takeWhile isContinuation, first, fun c hc => ?_, ?_⟩
      · exact List.mem_takeWhile_imp hc
      · simp [continuations, first]
    · simp [continuations, first] at h

theorem isContinuation_iff {b : Nat} : isContinuation b = true ↔ 0x80 ≤ b ∧ b < 0xc0 := by
  simp [isContinuation]

theorem beyond_ascii {lead b : Nat} {more : List Nat} (second : maySecond lead b = true)
    (others : ∀ c ∈ more, isContinuation c = true) (whole : more.length + 2 = width lead) :
    ¬ IsAscii (Char.ofNat ((b :: more).foldl (fun acc b => acc * 64 + b % 64)
      (lead % Nat.pow 2 (7 - width lead)))) := by
  simp only [isContinuation_iff] at others
  -- The stricter check of the second byte leaves out what would fit in fewer bytes, the surrogates
  -- and what lies beyond the last character.
  have start : 0x80 ≤ b ∧ b < 0xc0 ∧ (lead = 0xe0 → 0xa0 ≤ b) ∧ (lead = 0xed → b < 0xa0) ∧
      (lead = 0xf0 → 0x90 ≤ b) ∧ (lead = 0xf4 → b < 0x90) := by
    unfold maySecond isContinuation at second
    grind
  rcases width_cases lead with
    none_ | ⟨one, _⟩ | ⟨two, low, high⟩ | ⟨three, low, high⟩ | ⟨four, low, high⟩
  · omega
  · omega
  · obtain rfl : more = [] := List.eq_nil_of_length_eq_zero (by omega)
    rw [two]
    apply not_ascii_ofNat <;> simp <;> omega
  · obtain ⟨c, rfl⟩ := List.length_eq_one_iff.mp (by omega : more.length = 1)
    have last := others c (by simp)
    rw [three]
    apply not_ascii_ofNat <;> simp <;> omega
  · obtain ⟨c, d, rfl⟩ := List.length_eq_two.mp (by omega : more.length = 2)
    have third := others c (by simp)
    have last := others d (by simp)
    rw [four]
    apply not_ascii_ofNat <;> simp <;> omega

theorem firstChar_ascii {lead : Nat} {rest : List Nat} (h : IsAscii (firstChar lead rest).1) :
    lead < 0x80 ∧ firstChar lead rest = (Char.ofNat lead, 1) := by
  unfold firstChar at h ⊢
  simp only at h ⊢
  split at h
  case isTrue => exact absurd h replacement_not_ascii
  case isFalse some_ =>
    split at h
    case isTrue one =>
      rcases width_cases lead with wide | ⟨_, small⟩ | wide | wide | wide
      all_goals first | omega | exact ⟨small, by simp [one]⟩
    case isFalse several =>
      split at h
      case isFalse => exact absurd h replacement_not_ascii
      case isTrue whole =>
        have more : continuations lead rest ≠ [] := fun empty => by
          rw [empty] at whole
          simp at whole
          omega
        obtain ⟨b, more, second, others, tail⟩ := continuations_cases more
        rw [tail] at h whole
        exact absurd h (beyond_ascii second others (by simp at whole; omega))

theorem lossyFrom_ascii {n : Nat} {bytes : List Nat} (enough : bytes.length ≤ n)
    (ascii : ∀ c ∈ lossyFrom n bytes, IsAscii c) : (lossyFrom n bytes).map Char.toNat = bytes := by
  induction n generalizing bytes with
  | zero =>
    have empty : bytes = [] := List.eq_nil_of_length_eq_zero (Nat.le_zero.mp enough)
    simp [empty, lossyFrom]
  | succ n ih =>
    cases bytes with
    | nil => rfl
    | cons b rest =>
      rw [lossyFrom] at ascii ⊢
      have shown : IsAscii (firstChar b rest).1 := ascii _ (by simp)
      obtain ⟨small, first⟩ := firstChar_ascii shown
      simp only [first, Nat.sub_self, List.drop_zero, List.mem_cons] at ascii ⊢
      have valid : b.isValidChar := Or.inl (by omega)
      rw [List.map_cons, toNat_ofNat valid,
        ih (Nat.le_of_succ_le_succ enough) fun c hc => ascii c (Or.inr hc)]

theorem byteArray_toList_loop (bytes : ByteArray) (i : Nat) (acc : List UInt8) :
    ByteArray.toList.loop bytes i acc = acc.reverse ++ bytes.data.toList.drop i := by
  induction i, acc using ByteArray.toList.loop.induct bytes with
  | case1 i acc inside ih =>
    have bound : i < bytes.data.toList.length := inside
    have item : bytes.get! i = bytes.data.toList[i] := getElem!_pos bytes.data i inside
    rw [ByteArray.toList.loop, if_pos inside, ih, item, List.drop_eq_getElem_cons bound]
    simp
  | case2 i acc behind =>
    have ended : bytes.data.toList.length ≤ i := Nat.le_of_not_lt behind
    rw [ByteArray.toList.loop, if_neg behind, List.drop_eq_nil_of_le ended, List.append_nil]

theorem byteArray_toList (bytes : ByteArray) : bytes.toList = bytes.data.toList := by
  rw [ByteArray.toList, byteArray_toList_loop]
  simp

theorem utf8EncodeChar_of_ascii {c : Char} (ascii : IsAscii c) :
    String.utf8EncodeChar c = [UInt8.ofNat c.toNat] := by
  have small : c.toNat ≤ 0x7f := Nat.le_of_lt_succ ascii
  simp [String.utf8EncodeChar, small]

theorem utf8_of_ascii {s : String} (ascii : ∀ c ∈ s.toList, IsAscii c) :
    (utf8 s).map UInt8.toNat = s.toList.map Char.toNat := by
  rw [utf8_eq]
  generalize s.toList = cs at ascii ⊢
  induction cs with
  | nil => rfl
  | cons c rest ih =>
    have small : c.toNat < 0x80 := ascii c (by simp)
    rw [List.flatMap_cons, utf8EncodeChar_of_ascii small, List.map_append,
      ih fun d hd => ascii d (by simp [hd])]
    simp
    omega

/-- Bytes that show as an ASCII text are that text. -/
theorem eq_toUTF8_of_decodeLossy {bytes : ByteArray} {s : String}
    (ascii : ∀ c ∈ s.toList, IsAscii c) (h : decodeLossy bytes = s) : bytes = s.toUTF8 := by
  have shown : lossyFrom bytes.size (bytes.toList.map UInt8.toNat) = s.toList := by
    rw [← h, decodeLossy, String.toList_ofList]
  have bound : (bytes.toList.map UInt8.toNat).length ≤ bytes.size := by
    simp [byteArray_toList]
  have numbers : bytes.toList.map UInt8.toNat = (utf8 s).map UInt8.toNat := by
    rw [utf8_of_ascii ascii, ← shown, lossyFrom_ascii bound (shown ▸ ascii)]
  have same : bytes.toList = utf8 s :=
    List.map_injective_iff.mpr (fun a b => UInt8.toNat_inj.mp) numbers
  rw [byteArray_toList, utf8] at same
  exact ByteArray.ext (Array.toList_inj.mp same)

theorem lossyFrom_of_ascii {cs : List Char} (ascii : ∀ c ∈ cs, IsAscii c) :
    lossyFrom cs.length (cs.map Char.toNat) = cs := by
  induction cs with
  | nil => rfl
  | cons c rest ih =>
    have small : c.toNat < 0x80 := ascii c (by simp)
    have first (more : List Nat) : firstChar c.toNat more = (c, 1) := by
      simp [firstChar, width, small, Char.ofNat_toNat]
    rw [List.map_cons, List.length_cons, lossyFrom, first]
    simp only [Nat.sub_self, List.drop_zero, ih fun d hd => ascii d (by simp [hd])]

theorem decodeLossy_toUTF8 {s : String} (ascii : ∀ c ∈ s.toList, IsAscii c) :
    decodeLossy s.toUTF8 = s := by
  have bytes : s.toUTF8.toList.map UInt8.toNat = s.toList.map Char.toNat := by
    rw [byteArray_toList]
    exact utf8_of_ascii ascii
  have size : s.toUTF8.size = s.toList.length := by
    rw [← List.length_map Char.toNat, ← bytes, List.length_map, byteArray_toList]
    rfl
  rw [decodeLossy, bytes, size, lossyFrom_of_ascii ascii, String.ofList_toList]

theorem decode?_eq_some_iff {bytes : ByteArray} {s : String} :
    decode? bytes = some s ↔ bytes = s.toUTF8 := by
  unfold decode? String.fromUTF8?
  constructor
  · intro h
    split at h
    · cases h
      rfl
    · cases h
  · rintro rfl
    exact dif_pos s.isValidUTF8

end BuildVariants.Text
