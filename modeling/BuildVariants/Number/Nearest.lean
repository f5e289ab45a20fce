/-!
# The float nearest to a number

A number is given as a coefficient times a power of two or of ten. It is rounded once, to
the nearest float; a tie goes to the float with the even coefficient.
-/

set_option autoImplicit false

namespace BuildVariants.Number

def bitLength (n : Nat) : Nat := if n = 0 then 0 else Nat.log2 n + 1

def roundedShift (coefficient shift : Nat) : Nat :=
  let unit := Nat.pow 2 shift
  let whole := coefficient / unit
  let twice := 2 * (coefficient % unit)
  if unit < twice || (twice = unit && whole % 2 = 1) then whole + 1 else whole

/-- The bit pattern of the float nearest to `coefficient * 2 ^ exponent`. The unit of the last
place is at least that of the smallest floats; a carry out of the coefficient steps to the
next power of two by itself. -/
def nearestBits (coefficient : Nat) (exponent : Int) : Nat :=
  let top : Int := bitLength coefficient + exponent
  let infinity := 0x7ff0000000000000
  if coefficient = 0 ∨ top < -1080 then 0
  else if 1025 < top then infinity
  else
    let place : Int := max (top - 53) (-1074)
    let shift := place - exponent
    let scaled :=
      if shift ≤ 0 then coefficient * Nat.pow 2 (-shift).toNat
      else roundedShift coefficient shift.toNat
    min infinity ((place + 1074).toNat * 0x10000000000000 + scaled)

def ofBinary (coefficient : Nat) (exponent : Int) : Float :=
  Float.ofBits (UInt64.ofNat (nearestBits coefficient exponent))

def ofDecimal (coefficient : Nat) (exponent : Int) : Float :=
  let point : Int := (Nat.toDigits 10 coefficient).length + exponent
  if coefficient = 0 then 0
  else if 400 < point then 1 / 0
  else if point < -400 then 0
  else if 0 ≤ exponent then .ofScientific (coefficient * Nat.pow 10 exponent.toNat) false 0
  else .ofScientific coefficient true (-exponent).toNat

end BuildVariants.Number
