import BuildVariants.Script.Library.Packing
import BuildVariants.Script.Token

/-!
# Functions on texts in UTF-8

Code points have up to 31 bits here. Where no lax reading is asked for, surrogates and values
beyond the last code point are refused.
-/

set_option autoImplicit false

namespace BuildVariants.Script

namespace Codes

open Native

def names : List (String × Utf8Function) :=
  [("char", .char), ("codepoint", .codepoint), ("codes", .codes), ("len", .length),
   ("offset", .offset)]

def pattern : ByteArray :=
  "[".toUTF8 ++ ⟨#[0, 0x2d, 0x7f, 0xc2, 0x2d, 0xfd]⟩ ++ "][".toUTF8
    ++ ⟨#[0x80, 0x2d, 0xbf]⟩ ++ "]*".toUTF8

def invalid : String := "invalid UTF-8 code"

/-! ### Reading -/

def byteAt (bytes : ByteArray) (i : Nat) : Nat :=
  if h : i < bytes.size then bytes[i].toNat else 0

def continuesAt (bytes : ByteArray) (i : Nat) : Bool := Text.isContinuation (byteAt bytes i)

def follows (lead : Nat) : Nat :=
  if lead < 0xc0 then 0
  else if lead < 0xe0 then 1
  else if lead < 0xf0 then 2
  else if lead < 0xf8 then 3
  else if lead < 0xfc then 4
  else if lead < 0xfe then 5
  else if lead < 0xff then 6
  else 7

def leastValue : Nat → Nat
  | 0 => 0x100000000
  | 1 => 0x80
  | 2 => 0x800
  | 3 => 0x10000
  | 4 => 0x200000
  | _ => 0x4000000

def lastCode : Nat := 0x10ffff

def isSurrogate (code : Nat) : Bool := 0xd800 ≤ code && code ≤ 0xdfff

def codeAt? (strict : Bool) (bytes : ByteArray) (i : Nat) : Option (Nat × Nat) :=
  let lead := byteAt bytes i
  let found : Option (Nat × Nat) :=
    if lead < 0x80 then some (lead, i + 1)
    else
      let n := follows lead
      let rest := (List.range n).map fun k => byteAt bytes (i + 1 + k)
      let high := lead % Nat.pow 2 (6 - min n 6)
      let code := rest.foldl (fun acc b => acc * 64 + b % 64) high
      if rest.all Text.isContinuation && n ≤ 5 && leastValue n ≤ code then some (code, i + 1 + n)
      else none
  found.filter fun (code, _) => !(strict && (lastCode < code || isSurrogate code))

/-! ### Positions -/

def relative (i : Int64) (size : Nat) : Int :=
  let i := i.toInt
  if 0 ≤ i then i
  else if (size : Int) < -i then 0
  else size + i + 1

def beginFrom (bytes : ByteArray) : Nat → Nat → Nat
  | 0, i => i
  | fuel + 1, i => if continuesAt bytes i then beginFrom bytes fuel (i + 1) else i

def beginBefore (bytes : ByteArray) : Nat → Nat
  | 0 => 0
  | i + 1 => if continuesAt bytes (i + 1) then beginBefore bytes i else i + 1

/-- So many codes back, as far as there are any, and how many are missing. -/
def back (bytes : ByteArray) : Nat → Nat → Nat × Nat
  | 0, i => (i, 0)
  | n + 1, i => if i = 0 then (0, n + 1) else back bytes n (beginBefore bytes (i - 1))

def on (bytes : ByteArray) : Nat → Nat → Nat × Nat
  | 0, i => (i, 0)
  | n + 1, i =>
    if bytes.size ≤ i then (i, n + 1) else on bytes n (beginFrom bytes bytes.size (i + 1))

/-! ### Functions -/

def charBytes (args : List Value) : Nat → Nat → ByteArray → Native ByteArray
  | 0, _, acc => return acc
  | n + 1, i, acc => do
    let code := (← checkInteger args i).toUInt64.toNat
    if 0x7fffffff < code then badArgument i "value out of range".toUTF8
    else charBytes args n (i + 1) (acc ++ ⟨(Text.encodeWide code).toArray⟩)

def char (args : List Value) : Native (List Value) := do
  return [.text (← charBytes args args.length 1 .empty)]

def codesFrom (strict : Bool) (bytes : ByteArray) (stop : Nat) :
    Nat → Nat → Array Value → Native (List Value)
  | 0, _, acc => return acc.toList
  | n + 1, i, acc =>
    if stop ≤ i then do return acc.toList
    else
      match codeAt? strict bytes i with
      | some (code, next) => codesFrom strict bytes stop n next (acc.push (.ofNat code))
      | none => complain invalid.toUTF8

def codepoint (args : List Value) : Native (List Value) := do
  let bytes ← checkText args 1
  let i ← optionalInteger args 2 1
  let first := relative i bytes.size
  let last := relative (← optionalInteger args 3 (.ofInt first)) bytes.size
  if first < 1 then badArgument 2 "out of bounds".toUTF8
  else if (bytes.size : Int) < last then badArgument 3 "out of bounds".toUTF8
  else
    codesFrom (!(arg args 4).truth) bytes last.toNat (bytes.size + 1) (first - 1).toNat #[]

def lengthFrom (strict : Bool) (bytes : ByteArray) (last : Int) : Nat → Nat → Nat → List Value
  | 0, _, n => [.ofNat n]
  | fuel + 1, i, n =>
    if last < i then [.ofNat n]
    else
      match codeAt? strict bytes i with
      | some (_, next) => lengthFrom strict bytes last fuel next (n + 1)
      | none => [.nil, .ofNat (i + 1)]

def length (args : List Value) : Native (List Value) := do
  let bytes ← checkText args 1
  let first := relative (← optionalInteger args 2 1) bytes.size
  let last := relative (← optionalInteger args 3 (-1)) bytes.size
  if first < 1 || (bytes.size : Int) < first - 1 then
    badArgument 2 "initial position out of bounds".toUTF8
  else if (bytes.size : Int) ≤ last - 1 then
    badArgument 3 "final position out of bounds".toUTF8
  else
    return lengthFrom (!(arg args 4).truth) bytes (last - 1) (bytes.size + 1) (first - 1).toNat 0

def offset (args : List Value) : Native (List Value) := do
  let bytes ← checkText args 1
  let n ← checkInteger args 2
  let start : Int64 := if 0 < n then 1 else .ofNat (bytes.size + 1)
  let position := relative (← optionalInteger args 3 start) bytes.size
  if position < 1 || (bytes.size : Int) < position - 1 then
    badArgument 3 "position out of bounds".toUTF8
  else
    let i := (position - 1).toNat
    if n = 0 then return [.ofNat (beginBefore bytes i + 1)]
    else if continuesAt bytes i then complain "initial position is a continuation byte".toUTF8
    else
      let (i, missing) :=
        if n < 0 then back bytes (-n.toInt).toNat i else on bytes (n.toInt - 1).toNat i
      return [if missing = 0 then .ofNat (i + 1) else .nil]

def codes (args : List Value) : Native (List Value) := do
  let bytes ← checkText args 1
  if continuesAt bytes 0 then badArgument 1 invalid.toUTF8
  else return [.builtin (.utf8 (.nextCode !(arg args 2).truth)), arg args 1, .integer 0]

def nextCode (strict : Bool) (args : List Value) : Native (List Value) := do
  let bytes ← checkText args 1
  let n := ((arg args 2).toInteger?.getD 0).toUInt64.toNat
  let i := if n < bytes.size then beginFrom bytes bytes.size n else n
  if bytes.size ≤ i then return []
  else
    match (codeAt? strict bytes i).filter fun (_, next) => !continuesAt bytes next with
    | some (code, _) => return [.ofNat (i + 1), .ofNat code]
    | none => complain invalid.toUTF8

def work (f : Utf8Function) (args : List Value) : Native (List Value) :=
  match f with
  | .char => char args
  | .codepoint => codepoint args
  | .codes => codes args
  | .length => length args
  | .offset => offset args
  | .nextCode strict => nextCode strict args

end Codes

end BuildVariants.Script
