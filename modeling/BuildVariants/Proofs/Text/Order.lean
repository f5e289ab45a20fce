import BuildVariants.Text.Sorted
import Mathlib.Data.List.Sort

/-!
# The order of texts

Sorted sets are ordered by code points. UTF-8 keeps that order: texts compare like the bytes
that encode them. A sorted set is determined by its members.
-/

set_option autoImplicit false

namespace BuildVariants.Text

def utf8 (s : String) : List UInt8 := s.toUTF8.data.toList

theorem utf8_eq (s : String) : utf8 s = s.toList.flatMap String.utf8EncodeChar := by
  have encoded : s.toUTF8 = s.toList.utf8Encode := String.utf8Encode_toList.symm
  rw [utf8, encoded, List.utf8Encode, List.data_toByteArray]

/-- The bytes of a smaller character are smaller, whatever follows them: a longer encoding
begins with a larger byte, and encodings of one length compare digit by digit. -/
theorem utf8EncodeChar_lt {c d : Char} (h : c < d) (as bs : List UInt8) :
    String.utf8EncodeChar c ++ as < String.utf8EncodeChar d ++ bs := by
  have less : c.val.toNat < d.val.toNat := h
  have top : d.val.toNat < 0x110000 := by
    rcases d.valid with low | high <;> omega
  simp only [String.utf8EncodeChar]
  split_ifs <;>
    simp only [List.cons_append, List.nil_append, List.cons_lt_cons_iff, UInt8.lt_iff_toNat_lt,
      ← UInt8.toNat_inj, UInt8.toNat_ofNat'] <;>
    simp (disch := omega) only [Nat.mod_eq_of_lt (b := 2 ^ 8), Nat.mod_eq_of_lt (b := 8)] <;>
    omega

theorem flatMap_utf8EncodeChar_lt {cs ds : List Char} (h : cs < ds) :
    cs.flatMap String.utf8EncodeChar < ds.flatMap String.utf8EncodeChar := by
  induction cs generalizing ds with
  | nil =>
    cases ds with
    | nil => exact absurd h (List.lt_irrefl _)
    | cons d ds =>
      rw [List.flatMap_nil, List.flatMap_cons]
      cases hd : String.utf8EncodeChar d with
      | nil => exact absurd hd String.utf8EncodeChar_ne_nil
      | cons b bs => exact List.nil_lt_cons _ _
  | cons c cs ih =>
    cases ds with
    | nil => exact absurd h (List.not_lt_nil _)
    | cons d ds =>
      rw [List.flatMap_cons, List.flatMap_cons]
      rcases List.cons_lt_cons_iff.mp h with smaller | ⟨rfl, rest⟩
      · exact utf8EncodeChar_lt smaller _ _
      · exact List.append_left_lt (ih rest)

/-- Texts compare like the bytes that encode them. -/
theorem lt_iff_utf8_lt {s t : String} : s < t ↔ utf8 s < utf8 t := by
  have keeps : ∀ {a b : String}, a < b → utf8 a < utf8 b := by
    intro a b h
    rw [utf8_eq, utf8_eq]
    exact flatMap_utf8EncodeChar_lt h
  constructor
  · exact keeps
  · intro h
    by_contra notLess
    rcases Std.le_iff_lt_or_eq.mp (String.not_lt.mp notLess) with greater | rfl
    · exact List.lt_asymm h (keeps greater)
    · exact List.lt_irrefl _ h

theorem sortedSet_congr {a b : List String} (h : ∀ x, x ∈ a ↔ x ∈ b) :
    sortedSet a = sortedSet b := by
  apply List.Pairwise.eq_of_mem_iff (increasing_sortedSet a) (increasing_sortedSet b)
  intro x
  rw [mem_sortedSet, mem_sortedSet, h]

theorem sortedSet_sublist {a b : List String} (h : ∀ x ∈ a, x ∈ b) :
    (sortedSet a).Sublist (sortedSet b) := by
  have nodup : (sortedSet a).Nodup := (increasing_sortedSet a).imp String.ne_of_lt
  have inside : sortedSet a ⊆ sortedSet b := by
    intro x hx
    rw [mem_sortedSet] at hx ⊢
    exact h x hx
  exact List.sublist_of_subperm_of_pairwise (List.subperm_of_subset nodup inside)
    (increasing_sortedSet a) (increasing_sortedSet b)

end BuildVariants.Text
