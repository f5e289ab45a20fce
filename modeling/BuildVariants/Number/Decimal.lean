/-!
# Decimal forms of floating-point numbers

A finite number is a coefficient times a power of two. Its shortest decimal form has the
fewest digits among the decimals that round back to it, and is the nearest of those. Both
this form and the form with a fixed number of digits are found in exact arithmetic.
-/

set_option autoImplicit false

namespace BuildVariants.Number

structure Decimal where
  coefficient : Nat
  exponent : Int
deriving DecidableEq, Repr

namespace Decimal

def digits (d : Decimal) : List Char := Nat.toDigits 10 d.coefficient

def strip : Nat → Decimal → Decimal
  | 0, d => d
  | n + 1, d =>
    if d.coefficient ≠ 0 ∧ d.coefficient % 10 = 0 then
      strip n ⟨d.coefficient / 10, d.exponent + 1⟩
    else d

def pointAt (d : Decimal) : Int := d.digits.length + d.exponent

end Decimal

/-- A positive finite number: `coefficient * 2 ^ exponent`. At a power of two the numbers
below are twice as close as those above. -/
structure Binary where
  coefficient : Nat
  exponent : Int
  closerBelow : Bool
deriving DecidableEq, Repr

namespace Binary

def implicitBit : Nat := 0x10000000000000

def ofFloat (x : Float) : Binary :=
  let bits : Nat := x.toBits.toNat
  let fraction : Nat := bits % implicitBit
  let biased : Nat := bits / implicitBit % 0x800
  if biased = 0 then ⟨fraction, -1074, false⟩
  else ⟨implicitBit + fraction, (biased : Int) - 1075, fraction = 0 && 1 < biased⟩

/-- Numerator over a common denominator, with a factor of four to spare for halves of the
distance to a neighbour. -/
def numerator (b : Binary) : Nat := 4 * b.coefficient * Nat.pow 2 b.exponent.toNat

def denominator (b : Binary) : Nat := 4 * Nat.pow 2 (-b.exponent).toNat

def leadingZeros (num den : Nat) : Nat → Nat → Nat
  | 0, j => j
  | n + 1, j => if den ≤ num * Nat.pow 10 j then j else leadingZeros num den n (j + 1)

def magnitude (b : Binary) : Int :=
  let num := b.numerator
  let den := b.denominator
  if den ≤ num then ((Nat.toDigits 10 (num / den)).length : Int) - 1
  else -(leadingZeros num den 400 1 : Int)

def inUnits (b : Binary) (num : Nat) (place : Int) : Nat × Nat :=
  (num * Nat.pow 10 (-place).toNat, b.denominator * Nat.pow 10 place.toNat)

/-- Whether `c * 10 ^ place` rounds to the number. The ends of the interval count when the
coefficient is even. -/
def roundsBack (b : Binary) (place : Int) (c : Nat) : Bool :=
  let half := 2 * Nat.pow 2 b.exponent.toNat
  let below := if b.closerBelow then half / 2 else half
  let (low, den) := b.inUnits (b.numerator - below) place
  let (high, _) := b.inUnits (b.numerator + half) place
  if b.coefficient % 2 = 0 then low ≤ c * den && c * den ≤ high
  else low < c * den && c * den < high

def onGrid (b : Binary) (place : Int) : Option Nat :=
  let (num, den) := b.inUnits b.numerator place
  let c := num / den
  let twice := 2 * (num % den)
  let upFirst := den < twice || (den = twice && c % 2 = 1)
  let candidates := if upFirst then [c + 1, c] else [c, c + 1]
  candidates.find? fun k => b.roundsBack place k

def shortestFrom (b : Binary) : Nat → Int → Decimal
  | 0, place => ⟨(b.inUnits b.numerator place).1 / (b.inUnits b.numerator place).2, place⟩
  | n + 1, place =>
    match b.onGrid place with
    | some c => ⟨c, place⟩
    | none => shortestFrom b n (place - 1)

def shortest (b : Binary) : Decimal :=
  Decimal.strip 20 (b.shortestFrom 17 b.magnitude)

/-- The decimal with the given number of digits nearest to the number; a tie goes to the
even digit. -/
def rounded (b : Binary) (count : Nat) : Decimal :=
  let place := b.magnitude - (count : Int) + 1
  let (num, den) := b.inUnits b.numerator place
  let c := num / den
  let twice := 2 * (num % den)
  Decimal.strip 20 ⟨if den < twice || (den = twice && c % 2 = 1) then c + 1 else c, place⟩

end Binary

structure Layout where
  positional : Int → Bool
  markWhole : Bool
  exponentText : Int → String
  infinity : String
  nan : String

namespace Layout

def zeros (n : Nat) : List Char := List.replicate n '0'

def writePositional (l : Layout) (d : Decimal) : String :=
  let digits := d.digits
  let point := d.pointAt
  if point ≤ 0 then String.ofList (['0', '.'] ++ zeros (-point).toNat ++ digits)
  else if d.exponent < 0 then
    String.ofList (digits.take point.toNat ++ '.' :: digits.drop point.toNat)
  else
    String.ofList (digits ++ zeros d.exponent.toNat) ++ if l.markWhole then ".0" else ""

def writeScientific (l : Layout) (d : Decimal) : String :=
  let mantissa := match d.digits with
    | [] => "0"
    | [c] => c.toString
    | c :: rest => String.ofList (c :: '.' :: rest)
  mantissa ++ l.exponentText (d.pointAt - 1)

def writeDecimal (l : Layout) (d : Decimal) : String :=
  if l.positional d.pointAt then l.writePositional d else l.writeScientific d

def write (l : Layout) (choose : Binary → Decimal) (x : Float) : String :=
  let negative := 0x8000000000000000 ≤ x.toBits.toNat
  let sign := if negative then "-" else ""
  let size := x.toBits.toNat % 0x8000000000000000
  if 0x7ff0000000000000 < size then l.nan
  else if size = 0x7ff0000000000000 then sign ++ l.infinity
  else if size = 0 then sign ++ l.writePositional ⟨0, 0⟩
  else sign ++ l.writeDecimal (choose (.ofFloat x.abs))

end Layout

end BuildVariants.Number
