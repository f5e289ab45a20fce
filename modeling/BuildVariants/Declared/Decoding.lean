import BuildVariants.Declared.Module
import BuildVariants.Script.Datum
import BuildVariants.Script.Registry

/-!
# Decoding declarations

The argument of a declaration is a table of properties. Every key has to name a property
and every value has to be of the property's shape: a text, or a table whose items are texts
or references. Nothing is dropped or defaulted silently.
-/

set_option autoImplicit false

namespace BuildVariants.DeclaredModule

open Script

inductive DecodeError
  | notTable (found : Datum)
  | notText (found : Datum)
  | notProperty (key : Datum)
  | unknownProperty (name : String)
  | badReference (e : ReferenceError)
  | recursive

def properties : List String :=
  ["name", "deps", "split", "outgoing", "incoming", "post_transition_incoming",
   "outgoing_transition_error", "incoming_transition_error", "post_transition_deps",
   "post_transition_far_deps", "post_transition_reverse_deps",
   "post_transition_reverse_variation_deps"]

def DecodeError.message : DecodeError → String
  | .notTable found => found.notTable
  | .notText found => found.mismatch "a string"
  | .notProperty key => key.mismatch "field identifier"
  | .unknownProperty name =>
    "unknown field `" ++ name ++ "`, expected one of "
      ++ ", ".intercalate (properties.map fun p => "`" ++ p ++ "`")
  | .badReference e => e.message
  | .recursive => Datum.recursive.mismatch ""

def decodeText : Datum → Except DecodeError String
  | .text bytes =>
    match Text.decode? bytes with
    | some s => .ok s
    | none => .error (.notText (.text bytes))
  | found => .error (.notText found)

def decodeOption : Datum → Except DecodeError (Option String)
  | .nil => .ok none
  | found => (decodeText found).map some

def decodeEnding {α : Type} (item : Datum → Except DecodeError α) (d : Datum) :
    Except DecodeError α :=
  if d.isRecursive then .error .recursive else item d

def decodeList {α : Type} (item : Datum → Except DecodeError α) :
    Datum → Except DecodeError (List α)
  | .table entries length => (Datum.items entries length).mapM (decodeEnding item)
  | found => .error (.notTable found)

def decodeVariationRef (d : Datum) : Except DecodeError VariationRef := do
  let s ← decodeText d
  (VariationRef.parse s).mapError .badReference

def decodeReverseRef (d : Datum) : Except DecodeError ReverseRef := do
  let s ← decodeText d
  (ReverseRef.parse s).mapError .badReference

def withProperty (m : DeclaredModule) (property : String) (d : Datum) :
    Except DecodeError DeclaredModule :=
  match property with
  | "name" => (decodeText d).map fun v => { m with name := v }
  | "deps" => (decodeList decodeText d).map fun v => { m with deps := v }
  | "split" => (decodeList decodeText d).map fun v => { m with split := v }
  | "outgoing" => (decodeOption d).map fun v => { m with outgoing := v }
  | "incoming" => (decodeOption d).map fun v => { m with incoming := v }
  | "post_transition_incoming" =>
    (decodeOption d).map fun v => { m with postTransitionIncoming := v }
  | "outgoing_transition_error" => (decodeOption d).map fun v => { m with outgoingError := v }
  | "incoming_transition_error" => (decodeOption d).map fun v => { m with incomingError := v }
  | "post_transition_deps" =>
    (decodeList decodeVariationRef d).map fun v => { m with postTransitionDeps := v }
  | "post_transition_far_deps" => (decodeList decodeText d).map fun v => { m with farDeps := v }
  | "post_transition_reverse_deps" =>
    (decodeList decodeText d).map fun v => { m with reverseDeps := v }
  | "post_transition_reverse_variation_deps" =>
    (decodeList decodeReverseRef d).map fun v => { m with reverseVariationDeps := v }
  | unknown => .error (.unknownProperty unknown)

def propertyOf : Datum → Except DecodeError String
  | .text bytes => .ok (Text.decodeLossy bytes)
  | key => .error (.notProperty key)

def withEntries : DeclaredModule → List (Datum × Datum) → Except DecodeError DeclaredModule
  | m, [] => .ok m
  | m, (key, d) :: rest => do
    if key.isRecursive || d.isRecursive then throw .recursive
    let property ← propertyOf key
    let m ← m.withProperty property d
    withEntries m rest

def decode : Datum → Except DecodeError DeclaredModule
  | .table entries _ => withEntries {} entries
  | found => .error (.notTable found)

/-- How deep a declaration is looked into: its lists and their items. -/
def depth : Nat := 2

def factory : Factory DeclaredModule := fun s v =>
  (decode (s.datum depth [] v)).mapError fun e => "deserialize error: " ++ e.message

def moduleType : String := "transition_module"

def moduleTypes : Registry DeclaredModule := Registry.empty.register moduleType factory

end BuildVariants.DeclaredModule
