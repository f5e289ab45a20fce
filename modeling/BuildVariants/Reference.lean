import BuildVariants.Text.Quoted

/-!
# References to modules

A declaration names the modules it depends on as texts. `name:variant` and `name` ask for
a module, with or without a fixed variation; `name(variant)` names an instance that is to
depend on the declaring module. Reading a reference checks it once, when it is declared.
-/

set_option autoImplicit false

namespace BuildVariants

inductive ReferenceError
  | empty
  | missingName (text : String)
  | notNameAndVariant (text : String)
deriving DecidableEq, Repr

def ReferenceError.message : ReferenceError → String
  | .empty => "empty module reference"
  | .missingName t => "invalid reference " ++ Text.quote t ++ ": missing module name before ':'"
  | .notNameAndVariant t =>
    "invalid reference " ++ Text.quote t ++ ": expected module_name(variant)"

structure VariationRef where
  name : String
  variant : Option String
deriving DecidableEq, Repr

namespace VariationRef

def splitColon (cs : List Char) : List Char × Option (List Char) :=
  match cs.dropWhile (· ≠ ':') with
  | [] => (cs, none)
  | _ :: rest => (cs.takeWhile (· ≠ ':'), some rest)

/-- The name is what stands before the first colon and the variant what follows it.
An empty variant is no variant. -/
def parse (s : String) : Except ReferenceError VariationRef :=
  if s = "" then .error .empty
  else
    let (name, variant) := splitColon s.toList
    if name = [] then .error (.missingName s)
    else .ok ⟨String.ofList name, (variant.filter (· ≠ [])).map String.ofList⟩

def render (r : VariationRef) : String :=
  match r.variant with
  | some v => r.name ++ ":" ++ v
  | none => r.name

end VariationRef

structure ReverseRef where
  name : String
  variant : String
deriving DecidableEq, Repr

namespace ReverseRef

def isWordChar (c : Char) : Bool := c.isAlphanum || c = '_'

/-- The two words of a text that matches `^([a-zA-Z0-9_]+)\(([a-zA-Z0-9_]+)\)$`. -/
def parse (s : String) : Except ReferenceError ReverseRef :=
  let name := s.toList.takeWhile isWordChar
  match s.toList.dropWhile isWordChar with
  | '(' :: inner =>
    let variant := inner.takeWhile isWordChar
    if name ≠ [] ∧ variant ≠ [] ∧ inner.dropWhile isWordChar = [')'] then
      .ok ⟨String.ofList name, String.ofList variant⟩
    else .error (.notNameAndVariant s)
  | _ => .error (.notNameAndVariant s)

def render (r : ReverseRef) : String := r.name ++ "(" ++ r.variant ++ ")"

end ReverseRef

end BuildVariants
