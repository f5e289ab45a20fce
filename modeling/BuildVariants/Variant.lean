/-!
# Variants

A variant assigns values to mutators, in the order in which the mutators first
assigned one. An empty value means the default and counts as no value at all:
two variants are equal when they assign the same non-empty values, whatever
the order of their entries and whichever empty entries they hold.
-/

set_option autoImplicit false

namespace BuildVariants

structure Variation where
  mutator : String
  value : String
deriving DecidableEq, Repr, Inhabited

namespace Variation

def render (v : Variation) : String := v.mutator ++ ":" ++ v.value

def le (a b : Variation) : Bool :=
  if a.mutator = b.mutator then decide (a.value ≤ b.value) else decide (a.mutator ≤ b.mutator)

def isAssigned (v : Variation) : Bool := v.value ≠ ""

end Variation

structure Variant where
  entries : List Variation
deriving Repr, Inhabited

namespace Variant

def empty : Variant := ⟨[]⟩

/-- The value of the first entry of `mutator`, empty when it has none. -/
def get (v : Variant) (mutator : String) : String :=
  ((v.entries.find? fun e => e.mutator = mutator).map Variation.value).getD ""

def assign (mutator value : String) : List Variation → List Variation
  | [] => [⟨mutator, value⟩]
  | e :: rest =>
    if e.mutator = mutator then ⟨mutator, value⟩ :: rest else e :: assign mutator value rest

def set (v : Variant) (mutator value : String) : Variant := ⟨assign mutator value v.entries⟩

def setAll (v : Variant) (choices : List Variation) : Variant :=
  choices.foldl (fun acc c => acc.set c.mutator c.value) v

def ofList (choices : List Variation) : Variant := empty.setAll choices

@[simp] theorem get_empty (mutator : String) : empty.get mutator = "" := rfl

/-- What was set is what a mutator assigns; the others keep their values. -/
theorem get_set (v : Variant) (mutator value m : String) :
    (v.set mutator value).get m = if m = mutator then value else v.get m := by
  obtain ⟨entries⟩ := v
  simp only [get, set]
  induction entries with
  | nil =>
    by_cases h : mutator = m
    · simp [assign, h]
    · simp [assign, h, Ne.symm h]
  | cons e rest ih =>
    by_cases here : e.mutator = mutator
    · subst here
      by_cases h : e.mutator = m
      · simp [assign, h]
      · simp [assign, h, Ne.symm h]
    · by_cases h : e.mutator = m
      · subst h
        simp [assign, here]
      · simpa [assign, here, h] using ih

def assigned (v : Variant) : List Variation := v.entries.filter Variation.isAssigned

def isDefault (v : Variant) : Bool := v.assigned.isEmpty

/-- The assigned values joined by underscores. Values that hold an underscore make
the name ambiguous, so it is a label and not an identity. -/
def name (v : Variant) : String := "_".intercalate (v.assigned.map Variation.value)

def isSubsetOf (v w : Variant) : Bool := v.assigned.all fun e => w.get e.mutator = e.value

def matchesOn (v w : Variant) (mutators : List String) : Bool :=
  mutators.all fun m => v.get m = w.get m

instance : BEq Variant := ⟨fun v w => v.isSubsetOf w && w.isSubsetOf v⟩

def render (v : Variant) : String :=
  if v.isDefault then "<empty variant>" else ",".intercalate (v.assigned.map Variation.render)

end Variant

end BuildVariants
