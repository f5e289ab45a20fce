import BuildVariants.Number.Decimal
import BuildVariants.Script.Instruction
import BuildVariants.Script.Numeral

/-!
# Arithmetic of scripts

Integers have 64 bits and wrap around; an operation on an integer and a float is one on
floats. Quotients are rounded down, and a remainder has the sign of the divisor. Comparisons of
integers with floats are exact.
-/

set_option autoImplicit false

namespace BuildVariants.Script

namespace Real

/-- The bounds of the integers as floats; the upper one is just out of range. -/
def lowest : Float := -9223372036854775808.0

def highest : Float := 9223372036854775808.0

def isNaN (x : Float) : Bool := x != x

def whole? (x : Float) : Option Int64 :=
  if lowest ≤ x && x < highest then some x.toInt64 else none

def asInteger? (x : Float) : Option Int64 := if x.floor == x then whole? x else none

def floor? (x : Float) : Option Int64 := whole? x.floor

def ceil? (x : Float) : Option Int64 := whole? x.ceil

def isNegative (x : Float) : Bool := 0x8000000000000000 ≤ x.toBits.toNat

def truncatedMod (x y : Float) : Float :=
  if isNaN x || isNaN y || x.abs == 1.0 / 0.0 || y == 0 then 0.0 / 0.0
  else if y.abs == 1.0 / 0.0 || x == 0 then x
  else
    let a := Number.Binary.ofFloat x.abs
    let b := Number.Binary.ofFloat y.abs
    let e := min a.exponent b.exponent
    let r := (a.coefficient * Nat.pow 2 (a.exponent - e).toNat)
      % (b.coefficient * Nat.pow 2 (b.exponent - e).toNat)
    let size := Number.ofBinary r e
    if isNegative x then -size else size

def mod (x y : Float) : Float :=
  let m := truncatedMod x y
  if (if 0 < m then y < 0 else m < 0 && 0 < y) then m + y else m

def floorDiv (x y : Float) : Float := (x / y).floor

def pow (x y : Float) : Float := if y == 2 then x * x else x.pow y

end Real

inductive ArithmeticError
  | divisionByZero
  | remainderByZero
  | notInteger
deriving DecidableEq, Repr

def ArithmeticError.message : ArithmeticError → String
  | .divisionByZero => "attempt to divide by zero"
  | .remainderByZero => "attempt to perform 'n%0'"
  | .notInteger => "number has no integer representation"

namespace BinaryOp

def isBitwise : BinaryOp → Bool
  | .bitAnd | .bitOr | .bitXor | .shiftLeft | .shiftRight => true
  | _ => false

end BinaryOp

def shiftedLeft (x : Int64) (distance : Int) : Int64 :=
  if distance ≤ -64 ∨ 64 ≤ distance then 0
  else
    let bits := x.toUInt64
    if 0 ≤ distance then (bits <<< UInt64.ofNat distance.toNat).toInt64
    else (bits >>> UInt64.ofNat (-distance).toNat).toInt64

namespace Numeral

def integer? : Numeral → Option Int64
  | .integer n => some n
  | .float x => Real.asInteger? x
  | .positiveNaN => none

def toFloat : Numeral → Float
  | .integer n => n.toFloat
  | .float x => x
  | .positiveNaN => 0.0 / 0.0

def isZero : Numeral → Bool
  | .integer n => n == 0
  | .float x => x == 0
  | .positiveNaN => false

def onIntegers (op : BinaryOp) (x y : Int64) : Except ArithmeticError Int64 :=
  match op with
  | .add => .ok (x + y)
  | .sub => .ok (x - y)
  | .mul => .ok (x * y)
  | .floorDiv =>
    if y = 0 then .error .divisionByZero else .ok (.ofInt (Int.fdiv x.toInt y.toInt))
  | .mod => if y = 0 then .error .remainderByZero else .ok (.ofInt (Int.fmod x.toInt y.toInt))
  | .bitAnd => .ok (x &&& y)
  | .bitOr => .ok (x ||| y)
  | .bitXor => .ok (x ^^^ y)
  | .shiftLeft => .ok (shiftedLeft x y.toInt)
  | .shiftRight => .ok (shiftedLeft x (-y.toInt))
  | .div | .pow => .ok 0

def onFloats (op : BinaryOp) (x y : Float) : Float :=
  match op with
  | .add => x + y
  | .sub => x - y
  | .mul => x * y
  | .div => x / y
  | .pow => Real.pow x y
  | .floorDiv => Real.floorDiv x y
  | _ => Real.mod x y

def ofFloats (op : BinaryOp) (a b : Numeral) : Numeral :=
  let z := onFloats op a.toFloat b.toFloat
  match a, b with
  | .positiveNaN, _ => if Real.isNaN z then .positiveNaN else .float z
  | .float x, .positiveNaN => if Real.isNaN z && !Real.isNaN x then .positiveNaN else .float z
  | .integer _, .positiveNaN => if Real.isNaN z then .positiveNaN else .float z
  | _, _ => .float z

def binary (op : BinaryOp) (a b : Numeral) : Except ArithmeticError Numeral :=
  if op.isBitwise then
    match a.integer?, b.integer? with
    | some x, some y => (onIntegers op x y).map .integer
    | _, _ => .error .notInteger
  else
    match op, a, b with
    | .div, a, b => .ok (ofFloats .div a b)
    | .pow, a, b => .ok (ofFloats .pow a b)
    | op, .integer x, .integer y => (onIntegers op x y).map .integer
    | op, a, b => .ok (ofFloats op a b)

def negate : Numeral → Numeral
  | .integer n => .integer (-n)
  | .float x => if Real.isNaN x then .positiveNaN else .float (-x)
  | .positiveNaN => .float (0.0 / 0.0)

def bitNot (a : Numeral) : Except ArithmeticError Numeral :=
  match a.integer? with
  | some n => .ok (.integer (~~~n))
  | none => .error .notInteger

def same : Numeral → Numeral → Bool
  | .integer a, .integer b => a == b
  | .float a, .float b => a == b
  | .integer a, .float b => Real.asInteger? b == some a
  | .float a, .integer b => Real.asInteger? a == some b
  | _, _ => false

def less : Numeral → Numeral → Bool
  | .integer a, .integer b => a < b
  | .float a, .float b => a < b
  | .integer a, .float b => match Real.ceil? b with
    | some n => a < n
    | none => 0 < b
  | .float a, .integer b => match Real.floor? a with
    | some n => n < b
    | none => a < 0
  | _, _ => false

def lessEqual : Numeral → Numeral → Bool
  | .integer a, .integer b => a ≤ b
  | .float a, .float b => a ≤ b
  | .integer a, .float b => match Real.floor? b with
    | some n => a ≤ n
    | none => 0 < b
  | .float a, .integer b => match Real.ceil? a with
    | some n => n ≤ b
    | none => a < 0
  | _, _ => false

def realLayout : Number.Layout where
  positional point := -4 < point && point ≤ 14
  markWhole := true
  exponentText e :=
    let size := toString e.natAbs
    (if e < 0 then "e-" else "e+") ++ (if size.length < 2 then "0" else "") ++ size
  infinity := "inf"
  nan := "-nan"

def writeReal (x : Float) : String := realLayout.write (·.rounded 14) x

def toText : Numeral → String
  | .integer n => toString n.toInt
  | .float x => writeReal x
  | .positiveNaN => "nan"

end Numeral

end BuildVariants.Script
