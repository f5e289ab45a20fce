import BuildVariants.Module
import BuildVariants.Script.Store

/-!
# Module types

A script declares a module by calling the module's type with the properties of the module.
The registry holds the types that a script may call. Each has a factory that makes a module
of the argument or says why it cannot.
-/

set_option autoImplicit false

namespace BuildVariants.Script

abbrev Factory (M : Type) := Store → Value → Except String M

structure Registry (M : Type) where
  factories : List (String × Factory M)

namespace Registry

variable {M T : Type}

def empty : Registry M := ⟨[]⟩

def register (r : Registry M) (typeName : String) (factory : Factory M) : Registry M :=
  ⟨(r.factories.filter fun f => f.1 ≠ typeName) ++ [(typeName, factory)]⟩

def names (r : Registry M) : List String := r.factories.map Prod.fst

def factory? (r : Registry M) (typeName : String) : Option (Factory M) := r.factories.lookup typeName

/-- The module that a factory makes, with the place of its declaration if that is known. A
module needs a name. -/
def build [BuildModule M T] (typeName : String) (factory : Factory M) (location : Option String)
    (s : Store) (argument : Value) : Except String M :=
  match factory s argument with
  | .error reason => .error ("invalid " ++ typeName ++ ": " ++ reason)
  | .ok m =>
    if BuildModule.name m = "" then .error (typeName ++ " requires a non-empty name")
    else
      match location with
      | some place => .ok (BuildModule.withLocation place m)
      | none => .ok m

def declare [BuildModule M T] (r : Registry M) (typeName : String) (location : Option String)
    (s : Store) (argument : Value) (declared : List M) : Except String (List M) :=
  match r.factory? typeName with
  | some factory => (build typeName factory location s argument).map fun m => declared ++ [m]
  | none => .error (typeName ++ " is no module type")

end Registry

end BuildVariants.Script
