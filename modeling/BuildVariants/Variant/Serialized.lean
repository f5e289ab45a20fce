import BuildVariants.Json
import BuildVariants.Text.Quoted
import BuildVariants.Variant

/-!
# Variants as JSON

A variant is written as the list of its entries, each a record of mutator and value. It is
read from such a list entry by entry, so one mutator may have several entries afterwards. An
entry may also be written as a list of two texts.
-/

set_option autoImplicit false

namespace BuildVariants

def Json.describe : Json → String
  | .null => "null"
  | .bool b => if b then "boolean `true`" else "boolean `false`"
  | .integer n => "integer `" ++ toString n ++ "`"
  | .real x => "floating point `" ++ Json.writeReal x ++ "`"
  | .text s => "string " ++ Text.quote s
  | .list _ => "sequence"
  | .record _ => "map"

namespace Variant

inductive ReadError
  | notList (found : Json)
  | notVariation (found : Json)
  | notText (found : Json)
  | missingField (name : String)
  | duplicateField (name : String)
  | tooShort (length : Nat)
  | tooLong (length : Nat)

def ReadError.message : ReadError → String
  | .notList found => "invalid type: " ++ found.describe ++ ", expected a sequence"
  | .notVariation found => "invalid type: " ++ found.describe ++ ", expected struct Variation"
  | .notText found => "invalid type: " ++ found.describe ++ ", expected a string"
  | .missingField name => "missing field `" ++ name ++ "`"
  | .duplicateField name => "duplicate field `" ++ name ++ "`"
  | .tooShort length =>
    "invalid length " ++ toString length ++ ", expected struct Variation with 2 elements"
  | .tooLong length =>
    "invalid length " ++ toString length ++ ", expected fewer elements in array"

def readText : Json → Except ReadError String
  | .text s => .ok s
  | found => .error (.notText found)

def readOnce (name : String) (earlier : Option String) (found : Json) :
    Except ReadError (Option String) :=
  if earlier.isSome then .error (.duplicateField name) else (readText found).map some

def readMembers (mutator value : Option String) :
    List (String × Json) → Except ReadError (Option String × Option String)
  | [] => .ok (mutator, value)
  | (name, found) :: rest => do
    if name = "mutator" then readMembers (← readOnce name mutator found) value rest
    else if name = "value" then readMembers mutator (← readOnce name value found) rest
    else readMembers mutator value rest

def require (name : String) : Option String → Except ReadError String
  | some s => .ok s
  | none => .error (.missingField name)

/-- Other members of a record are ignored. -/
def readVariation : Json → Except ReadError Variation
  | .record members => do
    let (mutator, value) ← readMembers none none members
    return ⟨← require "mutator" mutator, ← require "value" value⟩
  | .list [] => .error (.tooShort 0)
  | .list [first] => do
    let _ ← readText first
    .error (.tooShort 1)
  | .list (first :: second :: rest) => do
    let mutator ← readText first
    let value ← readText second
    if rest.isEmpty then return ⟨mutator, value⟩ else .error (.tooLong (rest.length + 2))
  | found => .error (.notVariation found)

def ofJson : Json → Except ReadError Variant
  | .list items => (items.mapM readVariation).map fun entries => ⟨entries⟩
  | found => .error (.notList found)

def toJson (v : Variant) : Json :=
  .list (v.entries.map fun e => .record [("mutator", .text e.mutator), ("value", .text e.value)])

end Variant

end BuildVariants
