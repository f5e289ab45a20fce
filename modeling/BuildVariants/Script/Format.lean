import BuildVariants.Number.Decimal
import BuildVariants.Script.Arithmetic

/-!
# Formatted values

A conversion writes an integer, a float or a text in a field of some width. Floats are rounded
to the wanted number of places in exact arithmetic; a tie goes to the even digit.
-/

set_option autoImplicit false

namespace BuildVariants.Script

structure Conversion where
  leftAligned : Bool
  plus : Bool
  space : Bool
  alternate : Bool
  zeros : Bool
  width : Nat
  precision : Option Nat
  form : Char

namespace Conversion

def number (cs : List Char) : Nat × List Char :=
  (Text.valueIn 10 (cs.takeWhile Char.isDigit), cs.dropWhile Char.isDigit)

def ofChars (cs : List Char) : Conversion :=
  let isFlag (c : Char) : Bool := c ∈ ['-', '+', ' ', '#', '0']
  let flags := cs.takeWhile isFlag
  let (width, rest) := number (cs.dropWhile isFlag)
  let (precision, rest) : Option Nat × List Char := match rest with
    | '.' :: rest =>
      let (n, rest) := number rest
      (some n, rest)
    | rest => (none, rest)
  { leftAligned := flags.contains '-', plus := flags.contains '+', space := flags.contains ' '
    alternate := flags.contains '#', zeros := flags.contains '0', width, precision
    form := rest.head?.getD '\x00' }

def cased (c : Conversion) (cs : List Char) : List Char :=
  if c.form.isUpper then cs.map Char.toUpper else cs

def fill (c : Conversion) (zeros : Bool) (mark digits : List Char) : List Char :=
  let missing := c.width - (mark.length + digits.length)
  if c.leftAligned then mark ++ digits ++ List.replicate missing ' '
  else if zeros then mark ++ List.replicate missing '0' ++ digits
  else List.replicate missing ' ' ++ mark ++ digits

def sign (c : Conversion) (negative : Bool) : List Char :=
  if negative then ['-'] else if c.plus then ['+'] else if c.space then [' '] else []

/-! ### Integers -/

def digits (c : Conversion) (base n : Nat) : List Char :=
  let ds := if n = 0 then if c.precision = some 0 then [] else ['0'] else Nat.toDigits base n
  List.replicate (c.precision.getD 0 - ds.length) '0' ++ ds

def integer (c : Conversion) (n : Int64) : List Char :=
  let zeros := c.zeros && c.precision.isNone
  let bits := n.toUInt64.toNat
  match c.form with
  | 'u' => c.fill zeros [] (c.digits 10 bits)
  | 'o' =>
    let ds := c.digits 8 bits
    c.fill zeros [] (if c.alternate && ds.head? != some '0' then '0' :: ds else ds)
  | 'x' => c.fill zeros (if c.alternate && bits ≠ 0 then ['0', 'x'] else []) (c.digits 16 bits)
  | 'X' =>
    c.fill zeros (if c.alternate && bits ≠ 0 then ['0', 'X'] else []) (c.cased (c.digits 16 bits))
  | _ => c.fill zeros (c.sign (n < 0)) (c.digits 10 n.toInt.natAbs)

/-! ### Floats -/

def atPlace (b : Number.Binary) (place : Int) : Nat :=
  let (num, den) := b.inUnits b.numerator place
  let n := num / den
  let twice := 2 * (num % den)
  if den < twice || (den = twice && n % 2 = 1) then n + 1 else n

def withPoint (ds : List Char) (places : Nat) (always : Bool) : List Char :=
  let ds := List.replicate (places + 1 - ds.length) '0' ++ ds
  let (whole, fraction) := ds.splitAt (ds.length - places)
  if fraction = [] && !always then whole else whole ++ '.' :: fraction

def leading (x : Float) (count : Nat) : List Char × Int :=
  if x == 0 then (List.replicate count '0', 0)
  else
    let b := Number.Binary.ofFloat x
    let place := b.magnitude - (count : Int) + 1
    let ds := Nat.toDigits 10 (atPlace b place)
    if count < ds.length then (ds.take count, b.magnitude + 1) else (ds, b.magnitude)

def fixed (x : Float) (places : Nat) (always : Bool) : List Char :=
  let n := if x == 0 then 0 else atPlace (.ofFloat x) (-(places : Int))
  withPoint (Nat.toDigits 10 n) places always

def exponentMark (letter : Char) (e : Int) : List Char :=
  let ds := Nat.toDigits 10 e.natAbs
  [letter, if e < 0 then '-' else '+'] ++ (if ds.length < 2 then '0' :: ds else ds)

def scientific (ds : List Char) (e : Int) (always : Bool) : List Char :=
  withPoint ds (ds.length - 1) always ++ exponentMark 'e' e

def trimmed (cs : List Char) : List Char :=
  if cs.contains '.' then
    let rest := cs.reverse.dropWhile (· = '0')
    (match rest with
      | '.' :: rest => rest
      | rest => rest).reverse
  else cs

def general (x : Float) (precision : Nat) (alternate : Bool) : List Char :=
  let count := max 1 precision
  let (ds, e) := leading x count
  if -4 ≤ e && e < count then
    let places := (count - 1 - e).toNat
    let cs := fixed x places alternate
    if alternate then cs else trimmed cs
  else
    let cs := withPoint ds (count - 1) alternate
    (if alternate then cs else trimmed cs) ++ exponentMark 'e' e

def hexadecimal (x : Float) (precision : Option Nat) (alternate : Bool) : List Char :=
  let bits := x.toBits.toNat
  let fraction := bits % 0x10000000000000
  let biased := bits / 0x10000000000000 % 0x800
  let lead := if biased = 0 then 0 else 1
  let e : Int := if x == 0 then 0 else if biased = 0 then -1022 else (biased : Int) - 1023
  let all := lead * 0x10000000000000 + fraction
  let hex (n places : Nat) : List Char :=
    let ds := Nat.toDigits 16 n
    List.replicate (places + 1 - ds.length) '0' ++ ds
  let mantissa := match precision with
    | none => trimmed (withPoint (hex all 13) 13 true) ++ if alternate && fraction = 0 then ['.'] else []
    | some places =>
      if 13 ≤ places then withPoint (hex all 13 ++ List.replicate (places - 13) '0') places alternate
      else
        let unit := Nat.pow 16 (13 - places)
        let n := all / unit
        let twice := 2 * (all % unit)
        let n := if unit < twice || (unit = twice && n % 2 = 1) then n + 1 else n
        withPoint (hex n places) places alternate
  let ds := Nat.toDigits 10 e.natAbs
  mantissa ++ ['p', if e < 0 then '-' else '+'] ++ ds

def float (c : Conversion) (n : Numeral) : List Char :=
  let x := n.toFloat
  let isPositiveNaN := match n with
    | .positiveNaN => true
    | _ => false
  let size := x.abs
  let places := c.precision.getD 6
  let mark := c.sign (if Real.isNaN x then !isPositiveNaN else Real.isNegative x)
  if Real.isNaN x then c.fill false mark (c.cased ['n', 'a', 'n'])
  else if size == 1.0 / 0.0 then c.fill false mark (c.cased ['i', 'n', 'f'])
  else
    match c.form.toLower with
    | 'f' => c.fill c.zeros mark (fixed size places c.alternate)
    | 'e' =>
      let (ds, e) := leading size (places + 1)
      c.fill c.zeros mark (c.cased (scientific ds e c.alternate))
    | 'a' =>
      c.fill c.zeros (mark ++ c.cased ['0', 'x']) (c.cased (hexadecimal size c.precision c.alternate))
    | _ => c.fill c.zeros mark (c.cased (general size places c.alternate))

/-! ### Texts -/

def text (c : Conversion) (cs : List Char) : List Char :=
  c.fill false [] (match c.precision with
    | some n => cs.take n
    | none => cs)

end Conversion

end BuildVariants.Script
