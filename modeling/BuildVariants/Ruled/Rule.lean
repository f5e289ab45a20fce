/-!
# Rules

A rule holds for a situation when its conditions agree with the situation's variables. It
either gives a text or fails with one; in both, a variable between braces stands for its
value.
-/

set_option autoImplicit false

namespace BuildVariants.Ruled

abbrev Variables := List (String × String)

/-- Puts values for variables. What is between braces and no variable stays as it is. -/
def expandChars (vars : Variables) : Nat → List Char → List Char
  | n + 1, c :: rest =>
    if c = '\x7b' then
      let name := rest.takeWhile (· ≠ '\x7d')
      match rest.dropWhile (· ≠ '\x7d') with
      | _ :: after =>
        match vars.lookup (String.ofList name) with
        | some value => value.toList ++ expandChars vars n after
        | none => c :: expandChars vars n rest
      | [] => c :: expandChars vars n rest
    else c :: expandChars vars n rest
  | _, _ => []

def expand (vars : Variables) (text : String) : String :=
  String.ofList (expandChars vars text.toList.length text.toList)

structure Rule where
  conditions : List (String × String)
  fail : Option String
  give : String
deriving DecidableEq, Repr

namespace Rule

def holds (r : Rule) (vars : Variables) : Bool :=
  vars.all fun (name, value) => match r.conditions.lookup name with
    | some wanted => wanted = value
    | none => true

def outcome (r : Rule) (vars : Variables) : Except String String :=
  match r.fail with
  | some text => .error (expand vars text)
  | none => .ok (expand vars r.give)

def decide? (rules : List Rule) (vars : Variables) : Option (Except String String) :=
  (rules.find? fun r => r.holds vars).map fun r => r.outcome vars

end Rule

end BuildVariants.Ruled
