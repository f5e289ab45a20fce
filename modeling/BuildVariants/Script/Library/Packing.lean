import BuildVariants.Script.Process

/-!
# Packing values into texts

A format says item by item how values are laid out in bytes: integers and floats of some size,
texts of a fixed size, behind their size or before a null byte, and gaps that let items begin at
multiples of their size.
-/

set_option autoImplicit false

namespace BuildVariants.Script

namespace Native

def startPosition (i : Int64) (size : Nat) : Nat :=
  let i := i.toInt
  if 0 < i then i.toNat
  else if i = 0 then 1
  else max 1 ((size : Int) + i + 1).toNat

end Native

namespace Packing

open Native

inductive Kind
  | signed | unsigned | single | double | fixed | counted | ended | gap | alignment | nothing
deriving DecidableEq

structure Layout where
  little : Bool
  maxAlign : Nat

structure Item where
  kind : Kind
  size : Nat
  gap : Nat

def number? (cs : List Char) : Option Nat × List Char :=
  let ds := (cs.takeWhile Char.isDigit).take 10
  if ds = [] then (none, cs) else (some (Text.valueIn 10 ds), cs.drop ds.length)

def sized (cs : List Char) (default : Nat) : Native (Nat × List Char) :=
  let (n, rest) := number? cs
  let n := n.getD default
  if n = 0 || 16 < n then
    complain ("integral size (" ++ toString n ++ ") out of limits [1,16]").toUTF8
  else Native.pure (n, rest)

def option (l : Layout) (c : Char) (cs : List Char) : Native (Kind × Nat × Layout × List Char) := do
  let plain (k : Kind) (size : Nat) : Native (Kind × Nat × Layout × List Char) :=
    Native.pure (k, size, l, cs)
  let withSize (k : Kind) (default : Nat) : Native (Kind × Nat × Layout × List Char) := do
    let (n, rest) ← sized cs default
    return (k, n, l, rest)
  match c with
  | 'b' => plain .signed 1
  | 'B' => plain .unsigned 1
  | 'h' => plain .signed 2
  | 'H' => plain .unsigned 2
  | 'l' => plain .signed 8
  | 'L' => plain .unsigned 8
  | 'j' => plain .signed 8
  | 'J' => plain .unsigned 8
  | 'T' => plain .unsigned 8
  | 'f' => plain .single 4
  | 'n' => plain .double 8
  | 'd' => plain .double 8
  | 'i' => withSize .signed 4
  | 'I' => withSize .unsigned 4
  | 's' => withSize .counted 8
  | 'c' =>
    match number? cs with
    | (some n, rest) => return (.fixed, n, l, rest)
    | (none, _) => complain "missing size for format option 'c'".toUTF8
  | 'z' => plain .ended 0
  | 'x' => plain .gap 1
  | 'X' => plain .alignment 0
  | ' ' => plain .nothing 0
  | '<' => return (.nothing, 0, { l with little := true }, cs)
  | '>' => return (.nothing, 0, { l with little := false }, cs)
  | '=' => return (.nothing, 0, { l with little := true }, cs)
  | '!' => do
    let (n, rest) ← sized cs 8
    return (.nothing, 0, { l with maxAlign := n }, rest)
  | c => complain ("invalid format option '".toUTF8 ++ Text.ofByteChars [c] ++ "'".toUTF8)

def next (l : Layout) (before : Nat) (c : Char) (cs : List Char) :
    Native (Item × Layout × List Char) := do
  let (kind, size, l, cs) ← option l c cs
  let (align, cs) ← match kind, cs with
    | .alignment, d :: rest => do
      let (k, size, _, rest) ← option l d rest
      if k = .fixed || size = 0 then
        badArgument 1 "invalid next option for option 'X'".toUTF8
      else Native.pure (size, rest)
    | .alignment, [] => badArgument 1 "invalid next option for option 'X'".toUTF8
    | _, cs => Native.pure (size, cs)
  if align ≤ 1 || kind = .fixed then return (⟨kind, size, 0⟩, l, cs)
  else
    let align := min align l.maxAlign
    if align &&& (align - 1) ≠ 0 then
      badArgument 1 "format asks for alignment not power of 2".toUTF8
    else return (⟨kind, size, (align - before % align) % align⟩, l, cs)

def integerBytes (little : Bool) (size : Nat) (n : Int) : ByteArray :=
  let bytes := (List.range size).map fun i => ((n / (Nat.pow 256 i : Nat)) % 256).toNat.toUInt8
  ⟨(if little then bytes else bytes.reverse).toArray⟩

def zeros (n : Nat) : ByteArray := ⟨Array.replicate n 0⟩

def packed (args : List Value) (n : Nat) (l : Layout) (item : Item) : Native (Option ByteArray) := do
  let size := item.size
  match item.kind with
  | .signed =>
    let i := (← checkInteger args n).toInt
    let limit : Int := Nat.pow 2 (8 * size - 1)
    if size < 8 && (i < -limit || limit ≤ i) then badArgument n "integer overflow".toUTF8
    else return some (integerBytes l.little size i)
  | .unsigned =>
    let i := (← checkInteger args n).toUInt64.toNat
    if size < 8 && Nat.pow 256 size ≤ i then badArgument n "unsigned overflow".toUTF8
    else return some (integerBytes l.little size i)
  | .single =>
    return some (integerBytes l.little 4 (← checkFloat args n).toFloat32.toBits.toNat)
  | .double => return some (integerBytes l.little 8 (← checkFloat args n).toBits.toNat)
  | .fixed =>
    let bytes ← checkText args n
    if size < bytes.size then badArgument n "string longer than given size".toUTF8
    else return some (bytes ++ zeros (size - bytes.size))
  | .counted =>
    let bytes ← checkText args n
    if size < 8 && Nat.pow 256 size ≤ bytes.size then
      badArgument n "string length does not fit in given size".toUTF8
    else return some (integerBytes l.little size bytes.size ++ bytes)
  | .ended =>
    let bytes ← checkText args n
    if bytes.data.contains 0 then badArgument n "string contains zeros".toUTF8
    else return some (bytes ++ zeros 1)
  | _ => return none

def packFrom (args : List Value) : Nat → Layout → Nat → List Char → ByteArray → Native ByteArray
  | 0, _, _, _, acc => return acc
  | fuel + 1, l, n, cs, acc => do
    match cs with
    | [] => return acc
    | c :: rest =>
      let (item, l, rest) ← next l acc.size c rest
      match ← packed args (n + 1) l item with
      | some bytes => packFrom args fuel l (n + 1) rest (acc ++ zeros item.gap ++ bytes)
      | none => packFrom args fuel l n rest (acc ++ zeros (item.gap + item.size))

def start : Layout := ⟨true, 1⟩

def checkFormat (args : List Value) : Native (List Char) := do
  return Text.byteChars (Text.beforeNull (← checkText args 1))

def pack (args : List Value) : Native (List Value) := do
  let cs ← checkFormat args
  return [.text (← packFrom args (cs.length + 1) start 1 cs .empty)]

def sizeFrom : Nat → Layout → List Char → Nat → Native Nat
  | 0, _, _, acc => return acc
  | fuel + 1, l, cs, acc => do
    match cs with
    | [] => return acc
    | c :: rest =>
      let (item, l, rest) ← next l acc c rest
      if item.kind = .counted || item.kind = .ended then
        badArgument 1 "variable-length format".toUTF8
      else if 0x7fffffff < acc + item.gap + item.size then
        badArgument 1 "format result too large".toUTF8
      else sizeFrom fuel l rest (acc + item.gap + item.size)

def packSize (args : List Value) : Native (List Value) := do
  let cs ← checkFormat args
  return [.ofNat (← sizeFrom (cs.length + 1) start cs 0)]

def bytesValue (bytes : List UInt8) : Nat := bytes.foldr (fun b acc => acc * 256 + b.toNat) 0

def integerOf (l : Layout) (isSigned : Bool) (bytes : ByteArray) : Native Int64 :=
  let size := bytes.size
  let bytes := if l.little then bytes.toList else bytes.toList.reverse
  let value := bytesValue (bytes.take 8)
  if size < 8 then
    let limit := Nat.pow 2 (8 * size - 1)
    Native.pure (.ofInt (if isSigned && limit ≤ value then (value : Int) - 2 * limit else value))
  else
    let fill : UInt8 := if isSigned && Nat.pow 2 63 ≤ value then 255 else 0
    if (bytes.drop 8).all (· = fill) then Native.pure (.ofNat value)
    else complain (toString size ++ "-byte integer does not fit into Lua Integer").toUTF8

def tooShort {α : Type} : Native α := badArgument 2 "data string too short".toUTF8

def unpacked (l : Layout) (item : Item) (data : ByteArray) (at_ : Nat) :
    Native (Option Value × Nat) := do
  let size := item.size
  let bytes := data.extract at_ (at_ + size)
  let value := bytesValue (if l.little then bytes.toList else bytes.toList.reverse)
  match item.kind with
  | .signed => return (some (.integer (← integerOf l true bytes)), at_ + size)
  | .unsigned => return (some (.integer (← integerOf l false bytes)), at_ + size)
  | .single => return (some (.number (Float32.ofBits value.toUInt32).toFloat), at_ + size)
  | .double => return (some (.number (Float.ofBits value.toUInt64)), at_ + size)
  | .fixed => return (some (.text bytes), at_ + size)
  | .counted =>
    let count := (← integerOf l false bytes).toUInt64.toNat
    if data.size < at_ + size + count then tooShort
    else return (some (.text (data.extract (at_ + size) (at_ + size + count))), at_ + size + count)
  | .ended =>
    match (data.extract at_ data.size).toList.findIdx? (· = 0) with
    | some n => return (some (.text (data.extract at_ (at_ + n))), at_ + n + 1)
    | none => badArgument 2 "unfinished string for format 'z'".toUTF8
  | _ => return (none, at_ + size)

def unpackFrom (data : ByteArray) : Nat → Layout → List Char → Nat → List Value → Native (List Value)
  | 0, _, _, _, acc => return acc.reverse
  | fuel + 1, l, cs, at_, acc => do
    match cs with
    | [] => return (.ofNat (at_ + 1) :: acc).reverse
    | c :: rest =>
      let (item, l, rest) ← next l at_ c rest
      if data.size < at_ + item.gap + item.size then tooShort
      else
        let (v, at_) ← unpacked l item data (at_ + item.gap)
        match v with
        | some v => unpackFrom data fuel l rest at_ (v :: acc)
        | none => unpackFrom data fuel l rest at_ acc

def unpack (args : List Value) : Native (List Value) := do
  let cs ← checkFormat args
  let data ← checkText args 2
  let first := startPosition (← optionalInteger args 3 1) data.size - 1
  if data.size < first then badArgument 3 "initial position out of string".toUTF8
  else unpackFrom data (cs.length + 1) start cs first []

end Packing

end BuildVariants.Script
