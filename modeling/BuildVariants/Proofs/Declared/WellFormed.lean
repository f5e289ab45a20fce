import BuildVariants.Declared.Module
import BuildVariants.Script.Store
import BuildVariants.Text.Utf8
import Mathlib.Data.List.Pairwise

/-!
# Well-formed declarations

What a script hands over to declare a module is well formed when it is a table whose keys name
properties and whose values are of the shapes of these properties. What such a table says of a
module are the values of its entries, and nothing about a property that has no entry.
-/

set_option autoImplicit false

namespace BuildVariants

namespace Script

def Value.string? : Value → Option String
  | .text bytes => Text.decode? bytes
  | _ => none

def Value.table? : Value → Option Nat
  | .table id => some id
  | _ => none

def Table.item? (t : Table) (n : Nat) : Option Value :=
  (t.entries.find? fun e => match e.1 with
    | .integer k => k = .ofNat n
    | _ => false).map Prod.snd

end Script

namespace DeclaredModule

open Script

inductive Shape
  | text
  | names
  | variationRefs
  | reverseRefs
deriving DecidableEq

def shapes : List (String × Shape) :=
  [("name", .text), ("deps", .names), ("split", .names), ("outgoing", .text), ("incoming", .text),
    ("post_transition_incoming", .text), ("outgoing_transition_error", .text),
    ("incoming_transition_error", .text), ("post_transition_deps", .variationRefs),
    ("post_transition_far_deps", .names), ("post_transition_reverse_deps", .names),
    ("post_transition_reverse_variation_deps", .reverseRefs)]

inductive Setting
  | text (t : Option String)
  | names (ts : List String)
  | variationRefs (refs : List VariationRef)
  | reverseRefs (refs : List ReverseRef)
deriving DecidableEq

def Setting.shape : Setting → Shape
  | .text _ => .text
  | .names _ => .names
  | .variationRefs _ => .variationRefs
  | .reverseRefs _ => .reverseRefs

def Setting.unset : Shape → Setting
  | .text => .text none
  | .names => .names []
  | .variationRefs => .variationRefs []
  | .reverseRefs => .reverseRefs []

def settings (m : DeclaredModule) : List (String × Setting) :=
  [("name", .text (some m.name)), ("deps", .names m.deps), ("split", .names m.split),
    ("outgoing", .text m.outgoing), ("incoming", .text m.incoming),
    ("post_transition_incoming", .text m.postTransitionIncoming),
    ("outgoing_transition_error", .text m.outgoingError),
    ("incoming_transition_error", .text m.incomingError),
    ("post_transition_deps", .variationRefs m.postTransitionDeps),
    ("post_transition_far_deps", .names m.farDeps),
    ("post_transition_reverse_deps", .names m.reverseDeps),
    ("post_transition_reverse_variation_deps", .reverseRefs m.reverseVariationDeps)]

def Shape.accepts : Shape → String → Bool
  | .variationRefs, t => (VariationRef.parse t).toOption.isSome
  | .reverseRefs, t => (ReverseRef.parse t).toOption.isSome
  | _, _ => true

def Fits (s : Store) (v : Value) : Shape → Prop
  | .text => v.string?.isSome
  | shape => ∃ l ∈ v.table?, ∀ i < (s.table l).length,
      ∃ t ∈ ((s.table l).item? (i + 1)).bind Value.string?, shape.accepts t = true

/-- A table of properties, each with a value of its shape, and with a name that is not empty. -/
def WellFormed (s : Store) (v : Value) : Prop :=
  ∃ id ∈ v.table?,
    (∀ e ∈ (s.table id).entries, ∃ p ∈ e.1.string?, ∃ q ∈ shapes, q.1 = p ∧ Fits s e.2 q.2) ∧
    ∃ e ∈ (s.table id).entries, e.1.string? = some "name" ∧ e.2.string? ≠ some ""

def KeysDistinct (s : Store) (v : Value) : Prop :=
  ∀ id ∈ v.table?, ((s.table id).entries.filterMap fun e => e.1.string?).Nodup

/-- Whether a table is a value of itself. -/
def HoldsItself (s : Store) (v : Value) : Prop :=
  ∃ id ∈ v.table?, ∃ e ∈ (s.table id).entries, e.2.table? = some id

instance (s : Store) (v : Value) (shape : Shape) : Decidable (Fits s v shape) := by
  cases shape <;> (delta Fits; infer_instance)

instance (s : Store) (v : Value) : Decidable (WellFormed s v) := by
  delta WellFormed
  infer_instance

instance (s : Store) (v : Value) : Decidable (KeysDistinct s v) := by
  delta KeysDistinct
  infer_instance

instance (s : Store) (v : Value) : Decidable (HoldsItself s v) := by
  delta HoldsItself
  infer_instance

def ReadsItems {α : Type} (s : Store) (v : Value) (parse : String → Option α) (xs : List α) :
    Prop :=
  ∃ l ∈ v.table?, xs.length = (s.table l).length ∧ ∀ i (h : i < xs.length),
    (((s.table l).item? (i + 1)).bind Value.string?).bind parse = some xs[i]

def Reads (s : Store) (v : Value) : Setting → Prop
  | .text t => t.isSome ∧ v.string? = t
  | .names ts => ReadsItems s v some ts
  | .variationRefs refs => ReadsItems s v (fun t => (VariationRef.parse t).toOption) refs
  | .reverseRefs refs => ReadsItems s v (fun t => (ReverseRef.parse t).toOption) refs

/-- A module has exactly the given values: a property that is not given has no text or no items. -/
def Describes (s : Store) (v : Value) (m : DeclaredModule) : Prop :=
  m.mutated = "" ∧ ∃ id ∈ v.table?, ∀ p x, (p, x) ∈ m.settings →
    (∃ e ∈ (s.table id).entries, e.1.string? = some p ∧ Reads s e.2 x) ∨
    (∀ e ∈ (s.table id).entries, e.1.string? ≠ some p) ∧ x = .unset x.shape

end DeclaredModule

end BuildVariants
