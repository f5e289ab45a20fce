import BuildVariants.Number.Decimal

/-!
# JSON values

The values that variants are read from and reports are written as. Members of a record keep
their order. The printed form indents by two spaces.
-/

set_option autoImplicit false

namespace BuildVariants

inductive Json
  | null
  | bool (b : Bool)
  | integer (n : Int)
  | real (x : Float)
  | text (s : String)
  | list (items : List Json)
  | record (members : List (String × Json))
deriving Inhabited

namespace Json

/-- How a number that is no integer is written: positional between the millionth and the
tenth power of ten with sixteen digits, else with an exponent. -/
def realLayout : Number.Layout where
  positional point := -5 < point && point ≤ 16
  markWhole := true
  exponentText e := (if e < 0 then "e" else "e+") ++ toString e
  infinity := "inf"
  nan := "NaN"

def writeReal (x : Float) : String := realLayout.write Number.Binary.shortest x

def hexPair (n : Nat) : String :=
  String.ofList ((if n < 16 then ['0'] else []) ++ Nat.toDigits 16 n)

def escapeChar (c : Char) : String :=
  if c = '"' then "\\\""
  else if c = '\\' then "\\\\"
  else if c = '\n' then "\\n"
  else if c = '\t' then "\\t"
  else if c = '\r' then "\\r"
  else if c.toNat = 8 then "\\b"
  else if c.toNat = 12 then "\\f"
  else if c.toNat < 32 then "\\u00" ++ hexPair c.toNat
  else c.toString

def writeText (s : String) : String := "\"" ++ String.join (s.toList.map escapeChar) ++ "\""

def indent (depth : Nat) : String := "\n" ++ String.ofList (List.replicate (2 * depth) ' ')

def enclose (opening closing : String) (depth : Nat) (parts : List String) : String :=
  if parts.isEmpty then opening ++ closing
  else
    opening ++ ",".intercalate (parts.map fun p => indent (depth + 1) ++ p)
      ++ indent depth ++ closing

def prettyAt (depth : Nat) : Json → String
  | .null => "null"
  | .bool b => if b then "true" else "false"
  | .integer n => toString n
  | .real x => writeReal x
  | .text s => writeText s
  | .list items => enclose "[" "]" depth (items.map fun item => prettyAt (depth + 1) item)
  | .record members =>
    enclose "\x7b" "\x7d" depth
      (members.map fun m => writeText m.1 ++ ": " ++ prettyAt (depth + 1) m.2)
termination_by j => sizeOf j
decreasing_by
  all_goals simp_wf
  · have := List.sizeOf_lt_of_mem ‹_›
    omega
  · have h := List.sizeOf_lt_of_mem ‹_›
    cases m
    simp at h ⊢
    omega

def pretty (j : Json) : String := prettyAt 0 j

end Json

end BuildVariants
