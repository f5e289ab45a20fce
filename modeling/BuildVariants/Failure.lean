import BuildVariants.Variant

/-!
# Failures

What can go wrong while the modules of a graph are resolved, the text that reports it, and
the collection in which a pass gathers everything it finds. Equal failures are kept once,
in the order in which they were first found.
-/

set_option autoImplicit false

namespace BuildVariants

inductive Direction
  | forward
  | reverse
deriving DecidableEq, Repr

def Direction.render : Direction → String
  | .forward => "dependency"
  | .reverse => "reverse dependency"

inductive Failure
  | duplicateModule (name : String)
  | missingDependency (source : String) (location : Option String) (dep : String)
  | missingReverseDependency (source : String) (location : Option String) (dep : String)
  | missingVariant (direction : Direction) (dep source : String) (location : Option String)
      (requested : Variant) (available : List Variant)
  | mutatorError (source : String) (location : Option String) (variant message : String)
  | emptySplit (source mutator : String)
  | duplicateSplit (source mutator value : String)
  | missingTransitionVariant (source mutator value : String)
  | cycle (labels : List String)
deriving BEq, Repr

namespace Failure

def at? : Option String → String
  | some location => location ++ ": "
  | none => ""

def listVariants (variants : List Variant) : String :=
  String.join (variants.map fun v => "\n  " ++ v.render)

def variantSuffix (name : String) : String :=
  if name = "" then "" else " variant \"" ++ name ++ "\""

def message : Failure → String
  | .duplicateModule name => "module \"" ++ name ++ "\" is defined more than once"
  | .missingDependency source location dep =>
    at? location ++ "\"" ++ source ++ "\" depends on undefined module \"" ++ dep ++ "\""
  | .missingReverseDependency source location dep =>
    at? location ++ "\"" ++ source ++ "\" has a reverse dependency on undefined module \""
      ++ dep ++ "\""
  | .missingVariant direction dep source location requested available =>
    at? location ++ direction.render ++ " \"" ++ dep ++ "\" of \"" ++ source
      ++ "\" missing variant:\n  " ++ requested.render ++ "\navailable variants:"
      ++ listVariants available
  | .mutatorError source location variant text =>
    at? location ++ "module \"" ++ source ++ "\"" ++ variantSuffix variant ++ ": " ++ text
  | .emptySplit source mutator =>
    "module \"" ++ source ++ "\": mutator \"" ++ mutator ++ "\" split returned no variations"
  | .duplicateSplit source mutator value =>
    "module \"" ++ source ++ "\": mutator \"" ++ mutator
      ++ "\" split returned duplicate variation \"" ++ value ++ "\""
  | .missingTransitionVariant source mutator value =>
    "internal error: mutator \"" ++ mutator ++ "\" left no variation \"" ++ value
      ++ "\" of module \"" ++ source ++ "\" to rewire to"
  | .cycle labels => "dependency cycle among modules: " ++ ", ".intercalate labels

/-- The failures that a relaxed resolution does not report. -/
def isMissingModule : Failure → Bool
  | .missingDependency .. | .missingReverseDependency .. => true
  | _ => false

end Failure

structure Failures where
  items : List Failure
deriving BEq, Repr

namespace Failures

def empty : Failures := ⟨[]⟩

def single (f : Failure) : Failures := ⟨[f]⟩

def push (fs : Failures) (f : Failure) : Failures :=
  if fs.items.any (· == f) then fs else ⟨fs.items ++ [f]⟩

def extend (fs : Failures) (more : List Failure) : Failures := more.foldl push fs

def ofList (found : List Failure) : Failures := empty.extend found

def isEmpty (fs : Failures) : Bool := fs.items.isEmpty

def size (fs : Failures) : Nat := fs.items.length

def guard {α : Type} (fs : Failures) (value : α) : Except Failures α :=
  if fs.isEmpty then .ok value else .error fs

@[simp] theorem extend_nil (fs : Failures) : fs.extend [] = fs := rfl

theorem extend_append (fs : Failures) (first second : List Failure) :
    fs.extend (first ++ second) = (fs.extend first).extend second := List.foldl_append

theorem guard_eq_ok_iff {α : Type} {fs : Failures} {value result : α} :
    fs.guard value = .ok result ↔ fs.items = [] ∧ result = value := by
  cases h : fs.items <;> simp [guard, isEmpty, h, eq_comm]

def messages (fs : Failures) : List String := fs.items.map Failure.message

def message (fs : Failures) : String := "\n".intercalate fs.messages

end Failures

end BuildVariants
