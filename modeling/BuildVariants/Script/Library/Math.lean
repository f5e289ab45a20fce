import BuildVariants.Script.Library.Random
import BuildVariants.Script.Process

/-!
# Functions on numbers

A result that is no number has the sign that the arguments give it.
-/

set_option autoImplicit false

namespace BuildVariants.Script

namespace Mathematics

open Native

def names : List (String × MathFunction) :=
  [("abs", .abs), ("acos", .acos), ("asin", .asin), ("atan", .atan), ("ceil", .ceil),
   ("cos", .cos), ("cosh", .cosh), ("deg", .degrees), ("exp", .exp), ("floor", .floor),
   ("fmod", .fmod), ("frexp", .frexp), ("ldexp", .ldexp), ("log", .log), ("log10", .log10),
   ("max", .max), ("min", .min), ("modf", .modf), ("pow", .pow), ("rad", .radians),
   ("random", .random), ("randomseed", .randomSeed), ("sin", .sin), ("sinh", .sinh),
   ("sqrt", .sqrt), ("tan", .tan), ("tanh", .tanh), ("tointeger", .toInteger),
   ("type", .type), ("ult", .unsignedLess)]

def pi : Float := 3.141592653589793

def constants : List (String × Value) :=
  [("pi", .number pi), ("huge", .number (1.0 / 0.0)), ("maxinteger", .integer Int64.maxValue),
   ("mininteger", .integer Int64.minValue)]

def applied (f : Float → Float) : Numeral → Numeral
  | .positiveNaN => if Real.isNaN (f (0.0 / 0.0)) then .positiveNaN else .float (f (0.0 / 0.0))
  | n => .float (f n.toFloat)

def appliedTwo (f : Float → Float → Float) (a b : Numeral) : Numeral :=
  let z := f a.toFloat b.toFloat
  match a, b with
  | .positiveNaN, _ => if Real.isNaN z then .positiveNaN else .float z
  | a, .positiveNaN => if Real.isNaN z && !Real.isNaN a.toFloat then .positiveNaN else .float z
  | _, _ => .float z

def onFloat (f : Float → Float) (args : List Value) : Native (List Value) := do
  return [.ofNumeral (applied f (← checkNumeral args 1))]

def onFloats (f : Float → Float → Float) (args : List Value) : Native (List Value) := do
  let a ← checkNumeral args 1
  let b ← checkNumeral args 2
  return [.ofNumeral (appliedTwo f a b)]

def abs (args : List Value) : Native (List Value) := do
  match arg args 1 with
  | .integer n => return [.integer (if n < 0 then -n else n)]
  | _ =>
    match ← checkNumeral args 1 with
    | .positiveNaN => return [.positiveNaN]
    | n => return [if Real.isNaN n.toFloat then .positiveNaN else .number n.toFloat.abs]

def atan (args : List Value) : Native (List Value) := do
  let y ← checkNumeral args 1
  let x ← if isAbsent args 2 then Native.pure (Numeral.integer 1) else checkNumeral args 2
  return [.ofNumeral (appliedTwo Float.atan2 y x)]

def rounded (f : Float → Float) (args : List Value) : Native (List Value) := do
  match arg args 1 with
  | .integer n => return [.integer n]
  | _ =>
    let n ← checkNumeral args 1
    match Real.whole? (f n.toFloat) with
    | some i => return [.integer i]
    | none => return [.ofNumeral (applied f n)]

def fmod (args : List Value) : Native (List Value) := do
  match arg args 1, arg args 2 with
  | .integer a, .integer b =>
    if b = 0 then badArgument 2 "zero".toUTF8
    else return [.integer (.ofInt (Int.tmod a.toInt b.toInt))]
  | _, _ =>
    let b ← checkNumeral args 2
    let a ← checkNumeral args 1
    return [.ofNumeral (appliedTwo Real.truncatedMod a b)]

def frexp (args : List Value) : Native (List Value) := do
  let n ← checkNumeral args 1
  let x := n.toFloat
  if x - x != 0 then return [.ofNumeral (applied id n), .integer 0]
  else
    let (mantissa, exponent) := x.frExp
    return [.number mantissa, .integer (.ofInt exponent)]

def ldexp (args : List Value) : Native (List Value) := do
  let n ← checkNumeral args 1
  let e ← checkInteger args 2
  return [.ofNumeral (applied (fun x => x.scaleB e.toInt32.toInt) n)]

def log (args : List Value) : Native (List Value) := do
  let n ← checkNumeral args 1
  if isAbsent args 2 then return [.ofNumeral (applied Float.log n)]
  else
    let base ← checkNumeral args 2
    let b := base.toFloat
    if b == 2 then return [.ofNumeral (applied Float.log2 n)]
    else if b == 10 then return [.ofNumeral (applied Float.log10 n)]
    else return [.ofNumeral (appliedTwo (fun x b => x.log / b.log) n base)]

def chooseFrom (isBetter : Value → Value → Native Bool) : List Value → Value → Native Value
  | [], best => return best
  | v :: rest, best => do
    chooseFrom isBetter rest (if ← isBetter v best then v else best)

def choose (isBetter : Value → Value → Native Bool) (args : List Value) : Native (List Value) := do
  let first ← checkAny args 1
  return [← chooseFrom isBetter args.tail first]

def modf (args : List Value) : Native (List Value) := do
  match arg args 1 with
  | .integer n => return [.integer n, .number 0]
  | _ =>
    let n ← checkNumeral args 1
    let x := n.toFloat
    let whole := if x < 0 then x.ceil else x.floor
    let fraction : Numeral := if x == whole then .float 0 else applied (fun x => x - whole) n
    return [.ofNumeral (applied (fun _ => whole) n), .ofNumeral fraction]

def random (args : List Value) : Native (List Value) := do
  let bits ← change fun s =>
    let (bits, random) := s.random.next
    (bits, { s with random })
  let between (low high : Int64) : Native (List Value) :=
    if high < low then badArgument 2 "interval is empty".toUTF8
    else do
      let x ← change fun s =>
        let (x, random) := RandomState.project (high.toUInt64 - low.toUInt64) RandomState.tries
          bits s.random
        (x, { s with random })
      return [.integer (x + low.toUInt64).toInt64]
  if args.length = 0 then return [.number (RandomState.unit bits)]
  else if args.length = 1 then
    let high ← checkInteger args 1
    if high = 0 then return [.integer bits.toInt64] else between 1 high
  else if args.length = 2 then
    let low ← checkInteger args 1
    let high ← checkInteger args 2
    between low high
  else complain "wrong number of arguments".toUTF8

def randomSeed (args : List Value) : Native (List Value) := do
  let seeds : UInt64 × UInt64 ← match args with
    | [] => do
      let m ← consult .seed
      let n ← look fun s => s.random.next.1
      Native.pure (m, n)
    | _ => do
      let x ← checkNumeral args 1
      let n ← optionalInteger args 2 0
      let m := match x.integer? with
        | some i => i.toUInt64
        | none => x.toFloat.toBits
      Native.pure (m, n.toUInt64)
  let (m, n) := seeds
  update fun s => { s with random := RandomState.seeded m n }
  return [.integer m.toInt64, .integer n.toInt64]

def toInteger (args : List Value) : Native (List Value) := do
  match (arg args 1).toInteger? with
  | some n => return [.integer n]
  | none =>
    let _ ← checkAny args 1
    return [.nil]

def type (args : List Value) : Native (List Value) := do
  match ← checkAny args 1 with
  | .integer _ => return [.ofString "integer"]
  | .number _ => return [.ofString "float"]
  | .positiveNaN => return [.ofString "float"]
  | _ => return [.nil]

def unsignedLess (args : List Value) : Native (List Value) := do
  let a ← checkInteger args 1
  let b ← checkInteger args 2
  return [.boolean (a.toUInt64 < b.toUInt64)]

def work (f : MathFunction) (args : List Value) : Native (List Value) :=
  match f with
  | .abs => abs args
  | .acos => onFloat Float.acos args
  | .asin => onFloat Float.asin args
  | .atan => atan args
  | .ceil => rounded Float.ceil args
  | .cos => onFloat Float.cos args
  | .cosh => onFloat Float.cosh args
  | .degrees => onFloat (fun x => x * (180.0 / pi)) args
  | .exp => onFloat Float.exp args
  | .floor => rounded Float.floor args
  | .fmod => fmod args
  | .frexp => frexp args
  | .ldexp => ldexp args
  | .log => log args
  | .log10 => onFloat Float.log10 args
  | .max => choose (fun v best => compare false best v) args
  | .min => choose (fun v best => compare false v best) args
  | .modf => modf args
  | .pow => onFloats Float.pow args
  | .radians => onFloat (fun x => x * (pi / 180.0)) args
  | .random => random args
  | .randomSeed => randomSeed args
  | .sin => onFloat Float.sin args
  | .sinh => onFloat Float.sinh args
  | .sqrt => onFloat Float.sqrt args
  | .tan => onFloat Float.tan args
  | .tanh => onFloat Float.tanh args
  | .toInteger => toInteger args
  | .type => type args
  | .unsignedLess => unsignedLess args

end Mathematics

end BuildVariants.Script
