/-!
# Sorted sets of texts

A set of texts is the list of its members in strictly increasing order of code points,
which is also the order of their UTF-8 bytes.
-/

set_option autoImplicit false

namespace BuildVariants.Text

def insertSorted (s : String) : List String → List String
  | [] => [s]
  | t :: rest =>
    if s < t then s :: t :: rest else if s = t then t :: rest else t :: insertSorted s rest

def sortedSet (texts : List String) : List String := texts.foldr insertSorted []

theorem mem_insertSorted {s x : String} {set : List String} :
    x ∈ insertSorted s set ↔ x = s ∨ x ∈ set := by
  induction set with
  | nil => simp [insertSorted]
  | cons t rest ih =>
    simp only [insertSorted]
    split
    · simp
    · split
      · simp_all
      · simp [ih, or_left_comm]

@[simp] theorem mem_sortedSet {x : String} {texts : List String} :
    x ∈ sortedSet texts ↔ x ∈ texts := by
  induction texts with
  | nil => simp [sortedSet]
  | cons s rest ih => simp only [sortedSet, List.foldr_cons] at ih ⊢; simp [mem_insertSorted, ih]

theorem increasing_insertSorted {s : String} {set : List String} (h : set.Pairwise (· < ·)) :
    (insertSorted s set).Pairwise (· < ·) := by
  induction set with
  | nil => simp [insertSorted]
  | cons t rest ih =>
    have ⟨below, increasing⟩ := List.pairwise_cons.mp h
    simp only [insertSorted]
    split
    · next first =>
      exact List.pairwise_cons.mpr
        ⟨fun x hx => by
          rcases List.mem_cons.mp hx with rfl | hx
          · exact first
          · exact String.lt_trans first (below x hx), h⟩
    · next notFirst =>
      split
      · exact h
      · next distinct =>
        have above : t < s :=
          Std.lt_of_le_of_ne (String.not_lt.mp notFirst) (Ne.symm distinct)
        exact List.pairwise_cons.mpr
          ⟨fun x hx => by
            rcases mem_insertSorted.mp hx with rfl | hx
            · exact above
            · exact below x hx, ih increasing⟩

theorem increasing_sortedSet (texts : List String) : (sortedSet texts).Pairwise (· < ·) := by
  induction texts with
  | nil => exact List.Pairwise.nil
  | cons s rest ih => exact increasing_insertSorted ih

end BuildVariants.Text
