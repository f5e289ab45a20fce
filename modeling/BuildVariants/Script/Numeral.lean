import BuildVariants.Number.Nearest
import BuildVariants.Text.Bytes

/-!
# Numerals of scripts

A whole numeral is a 64-bit integer when it fits; hexadecimal ones wrap around. All other
numerals are floats. The same rules read the numerals of a script and the texts that stand
for numbers while it runs.
-/

set_option autoImplicit false

namespace BuildVariants.Script

inductive Numeral
  | integer (n : Int64)
  | float (x : Float)
  | positiveNaN

namespace Numeral

open Text

def splitMantissa (isDigit : Char → Bool) (cs : List Char) :
    List Char × List Char × List Char :=
  let whole := cs.takeWhile isDigit
  match cs.dropWhile isDigit with
  | '.' :: rest => (whole, rest.takeWhile isDigit, rest.dropWhile isDigit)
  | rest => (whole, [], rest)

def exponent? (marks : List Char) : List Char → Option Int
  | [] => some 0
  | mark :: rest =>
    if mark ∈ marks then
      let (negative, digits) := match rest with
        | '-' :: ds => (true, ds)
        | '+' :: ds => (false, ds)
        | ds => (false, ds)
      if digits ≠ [] ∧ digits.all Char.isDigit then
        let e : Int := valueIn 10 digits
        some (if negative then -e else e)
      else none
    else none

def parseHex (negative : Bool) (cs : List Char) : Option Numeral :=
  let (whole, fraction, rest) := splitMantissa isHexDigit cs
  if whole = [] ∧ fraction = [] then none
  else if cs.all isHexDigit then
    let n : Int64 := .ofNat (valueIn 16 cs)
    some (.integer (if negative then -n else n))
  else
    (exponent? ['p', 'P'] rest).map fun e =>
      let x := Number.ofBinary (valueIn 16 (whole ++ fraction)) (e - 4 * fraction.length)
      .float (if negative then -x else x)

def parseDecimal (negative : Bool) (cs : List Char) : Option Numeral :=
  let (whole, fraction, rest) := splitMantissa Char.isDigit cs
  let limit := if negative then 0x8000000000000000 else 0x7fffffffffffffff
  if whole = [] ∧ fraction = [] then none
  else if cs.all Char.isDigit ∧ valueIn 10 cs ≤ limit then
    let n : Int64 := .ofNat (valueIn 10 cs)
    some (.integer (if negative then -n else n))
  else
    (exponent? ['e', 'E'] rest).map fun e =>
      let x := Number.ofDecimal (valueIn 10 (whole ++ fraction)) (e - fraction.length)
      .float (if negative then -x else x)

def parseUnsigned (negative : Bool) : List Char → Option Numeral
  | '0' :: 'x' :: rest => parseHex negative rest
  | '0' :: 'X' :: rest => parseHex negative rest
  | cs => parseDecimal negative cs

def parseSigned : List Char → Option Numeral
  | '-' :: rest => parseUnsigned true rest
  | '+' :: rest => parseUnsigned false rest
  | cs => parseUnsigned false cs

def trimmed (cs : List Char) : List Char :=
  ((cs.dropWhile isSpace).reverse.dropWhile isSpace).reverse

def ofChars? (cs : List Char) : Option Numeral := parseSigned (trimmed cs)

def ofBytes? (bytes : ByteArray) : Option Numeral := ofChars? (byteChars bytes)

def inBase? (base : Nat) (bytes : ByteArray) : Option Int64 :=
  let (negative, digits) := match trimmed (byteChars bytes) with
    | '-' :: ds => (true, ds)
    | '+' :: ds => (false, ds)
    | ds => (false, ds)
  if digits ≠ [] ∧ digits.all fun c => c.isAlphanum && digitValue c < base then
    let n : Int64 := .ofNat (valueIn base digits)
    some (if negative then -n else n)
  else none

/-- The characters that the scanner takes for one numeral. A sign belongs to it only behind
an exponent mark. -/
def span (marks : List Char) : List Char → List Char × List Char
  | c :: s :: rest =>
    if c ∈ marks then
      if s = '+' ∨ s = '-' then
        let (taken, after) := span marks rest
        (c :: s :: taken, after)
      else
        let (taken, after) := span marks (s :: rest)
        (c :: taken, after)
    else if isHexDigit c ∨ c = '.' then
      let (taken, after) := span marks (s :: rest)
      (c :: taken, after)
    else ([], c :: s :: rest)
  | [c] => if c ∈ marks ∨ isHexDigit c ∨ c = '.' then ([c], []) else ([], [c])
  | [] => ([], [])

def take (cs : List Char) : List Char × List Char :=
  match cs with
  | '0' :: x :: rest =>
    if x = 'x' ∨ x = 'X' then
      let (taken, after) := span ['p', 'P'] rest
      ('0' :: x :: taken, after)
    else span ['e', 'E'] cs
  | _ => span ['e', 'E'] cs

end Numeral

end BuildVariants.Script
