import BuildVariants.Number.Decimal
import BuildVariants.Script.Store

/-!
# Data handed over by scripts

What a declaration receives from a script: a value with everything that it refers to. A
table is given by its entries and its length, which the script language leaves open to some
degree when there are gaps among the items.
-/

set_option autoImplicit false

namespace BuildVariants.Script

inductive Datum
  | nil
  | boolean (b : Bool)
  | integer (n : Int64)
  | number (x : Float)
  | text (bytes : ByteArray)
  | table (entries : List (Datum × Datum)) (length : Nat)
  | function
  | thread
  | userdata
  | failure
  | recursive
deriving Inhabited

namespace Datum

def at? (entries : List (Datum × Datum)) (key : Int64) : Option Datum :=
  (entries.find? fun e => match e.1 with
    | .integer n => n = key
    | _ => false).map Prod.snd

def items (entries : List (Datum × Datum)) (length : Nat) : List Datum :=
  (List.range length).map fun i => (at? entries (.ofNat (i + 1))).getD .nil

def isRecursive : Datum → Bool
  | .recursive => true
  | _ => false

def realLayout : Number.Layout where
  positional _ := true
  markWhole := true
  exponentText _ := ""
  infinity := "inf"
  nan := "NaN"

def writeReal (x : Float) : String := realLayout.write Number.Binary.shortest x

def typeName : Datum → String
  | .nil => "nil"
  | .boolean _ => "boolean"
  | .integer _ => "integer"
  | .number _ => "number"
  | .text _ => "string"
  | .table .. => "table"
  | .function => "function"
  | .thread => "thread"
  | .userdata => "userdata"
  | .failure => "error"
  | .recursive => "table"

def mismatch (d : Datum) (expected : String) : String :=
  let found := fun text => "invalid type: " ++ text ++ ", expected " ++ expected
  match d with
  | .nil => found "unit value"
  | .boolean b => found (if b then "boolean `true`" else "boolean `false`")
  | .integer n => found ("integer `" ++ toString n.toInt ++ "`")
  | .number x => found ("floating point `" ++ writeReal x ++ "`")
  | .text _ => "invalid value: byte array, expected " ++ expected
  | .table _ length => found (if 0 < length then "sequence" else "map")
  | .recursive => "recursive table detected"
  | _ => "unsupported value type `" ++ d.typeName ++ "`"

def notTable (d : Datum) : String := "invalid type: " ++ d.typeName ++ ", expected table"

end Datum

namespace Store

/-- A value with what it refers to. Tables below the given depth are known by their length
only; a table that is on the way to itself is not looked into again. -/
def datum (s : Store) : Nat → List Nat → Value → Datum
  | _, _, .nil => .nil
  | _, _, .boolean b => .boolean b
  | _, _, .integer n => .integer n
  | _, _, .number x => .number x
  | _, _, .positiveNaN => .number (0.0 / 0.0)
  | _, _, .text bytes => .text bytes
  | _, _, .closure _ => .function
  | _, _, .builtin _ => .function
  | _, _, .thread _ => .thread
  | _, _, .handle id =>
    match s.handles[id]? with
    | some (.failure ..) => .failure
    | _ => .userdata
  | depth, path, .table id =>
    if path.contains id then .recursive
    else
      let t := s.table id
      match depth with
      | 0 => .table [] t.length
      | depth + 1 =>
        .table (t.entries.map fun (key, v) =>
          (datum s depth (id :: path) key, datum s depth (id :: path) v)) t.length

end Store

end BuildVariants.Script
