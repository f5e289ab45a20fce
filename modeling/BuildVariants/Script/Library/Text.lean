import BuildVariants.Script.Format
import BuildVariants.Script.Library.Packing
import BuildVariants.Script.Pattern
import BuildVariants.Script.Process

/-!
# Functions on texts

Positions are counted from one, and from the end when they are negative.
-/

set_option autoImplicit false

namespace BuildVariants.Script

namespace Texts

open Native

def names : List (String × TextFunction) :=
  [("byte", .byte), ("char", .char), ("dump", .dump), ("find", .find), ("format", .format),
   ("gmatch", .gmatch), ("gsub", .gsub), ("len", .length), ("lower", .lower),
   ("match", .«match»), ("pack", .pack), ("packsize", .packSize), ("rep", .repeated),
   ("reverse", .reverse), ("sub", .sub), ("unpack", .unpack), ("upper", .upper)]

def handlers : List (String × TextFunction) :=
  [("__add", .arithmetic .add), ("__sub", .arithmetic .sub), ("__mul", .arithmetic .mul),
   ("__mod", .arithmetic .mod), ("__pow", .arithmetic .pow), ("__div", .arithmetic .div),
   ("__idiv", .arithmetic .floorDiv), ("__unm", .negate)]

/-! ### Parts -/

def endPosition (i : Int64) (size : Nat) : Nat :=
  let i := i.toInt
  if (size : Int) < i then size
  else if 0 ≤ i then i.toNat
  else (size + i + 1).toNat

def part (bytes : ByteArray) (first last : Nat) : ByteArray := bytes.extract (first - 1) last

def sub (args : List Value) : Native (List Value) := do
  let bytes ← checkText args 1
  let first := startPosition (← checkInteger args 2) bytes.size
  let last := endPosition (← optionalInteger args 3 (-1)) bytes.size
  return [.text (part bytes first last)]

def resultLimit : Nat := 999900

def byte (args : List Value) : Native (List Value) := do
  let bytes ← checkText args 1
  let from_ ← optionalInteger args 2 1
  let first := startPosition from_ bytes.size
  let last := endPosition (← optionalInteger args 3 from_) bytes.size
  let found := part bytes first last
  if resultLimit < found.size then
    complain "stack overflow (string slice too long)".toUTF8
  else return found.toList.map fun b => .ofNat b.toNat

def char (args : List Value) : Native (List Value) := do
  let codes ← (List.range args.length).mapM fun i => do
    let n ← checkInteger args (i + 1)
    if 0 ≤ n && n ≤ 255 then Native.pure n.toInt.toNat.toUInt8
    else badArgument (i + 1) "value out of range".toUTF8
  return [.text ⟨codes.toArray⟩]

def sizeLimit : Nat := 0x7fffffff

def repetition (bytes separator : ByteArray) (n : Nat) : ByteArray :=
  if bytes.size + separator.size = 0 then .empty
  else
    n.fold (fun i _ acc => (if i = 0 then acc else acc ++ separator) ++ bytes) .empty

def repeated (args : List Value) : Native (List Value) := do
  let bytes ← checkText args 1
  let n ← checkInteger args 2
  let separator ← optionalText args 3 .empty
  if n ≤ 0 then return [.text .empty]
  else if sizeLimit / n.toInt.toNat < bytes.size + separator.size then
    complain "resulting string too large".toUTF8
  else return [.text (repetition bytes separator n.toInt.toNat)]

def mapped (f : Char → Char) (bytes : ByteArray) : ByteArray :=
  Text.ofByteChars ((Text.byteChars bytes).map f)

def changed (f : ByteArray → ByteArray) (args : List Value) : Native (List Value) := do
  return [.text (f (← checkText args 1))]

def dump (args : List Value) : Native (List Value) := do
  let _ ← checkFunction args 1
  complain "unable to dump given function".toUTF8

/-! ### Patterns -/

def trial {α : Type} (r : Except Pattern.Fault α) : Native α :=
  match r with
  | .ok a => Native.pure a
  | .error e => complain e.message.toUTF8

def ofHeld : Pattern.Held → Value
  | .position n => .ofNat n
  | .text bytes => .text bytes

def heldBytes : Pattern.Held → ByteArray
  | .position n => (toString n).toUTF8
  | .text bytes => bytes

def search (wantsPosition : Bool) (args : List Value) : Native (List Value) := do
  let subject ← checkText args 1
  let pattern ← checkText args 2
  let start := startPosition (← optionalInteger args 3 1) subject.size - 1
  if subject.size < start then return [.nil]
  else if wantsPosition && ((arg args 4).truth || Pattern.isPlain pattern) then
    match Pattern.findPlain subject pattern (subject.size + 1) start with
    | some i => return [.ofNat (i + 1), .ofNat (i + pattern.size)]
    | none => return [.nil]
  else
    match ← trial (Pattern.find subject pattern start) with
    | none => return [.nil]
    | some found =>
      if wantsPosition then
        let held ← trial (found.captured subject)
        return .ofNat (found.start + 1) :: .ofNat found.stop :: held.map ofHeld
      else return (← trial (found.all subject)).map ofHeld

def gmatch (args : List Value) : Native (List Value) := do
  let subject ← checkText args 1
  let pattern ← checkText args 2
  let start := startPosition (← optionalInteger args 3 1) subject.size - 1
  return [← change fun s => s.newSearch ⟨subject, pattern, start, none⟩]

def nextMatch (id : Nat) : Native (List Value) := do
  match ← look fun s => s.searches[id]? with
  | none => return []
  | some x =>
    match ← trial (Pattern.findFrom x.subject x.pattern 0 false x.last (x.subject.size + 2)
        x.position) with
    | none => return []
    | some found =>
      let behind : Search := { x with position := found.stop, last := some found.stop }
      update fun s => { s with searches := s.searches.setIfInBounds id behind }
      return (← trial (found.all x.subject)).map ofHeld

def insertion (subject : ByteArray) (found : Pattern.Found) (acc : ByteArray) :
    List Char → Except Pattern.Fault ByteArray
  | [] => .ok acc
  | '%' :: rest =>
    match rest with
    | '%' :: rest => insertion subject found (acc ++ "%".toUTF8) rest
    | '0' :: rest =>
      insertion subject found (acc ++ subject.extract found.start found.stop) rest
    | c :: rest =>
      if c.isDigit then do
        let held ← found.capture subject (c.toNat - '1'.toNat)
        insertion subject found (acc ++ heldBytes held) rest
      else .error .badInsertion
    | [] => .error .badInsertion
  | c :: rest => insertion subject found (acc.push c.toNat.toUInt8) rest

def replacement (subject : ByteArray) (by_ : Value) (found : Pattern.Found) :
    Native (Option ByteArray) := do
  let v ← match by_ with
    | .table _ => do index by_ (ofHeld (← trial (found.capture subject 0)))
    | .closure _ | .builtin _ => do
      let held ← trial (found.all subject)
      Native.pure ((← ask (.call by_ (held.map ofHeld))).head?.getD .nil)
    | v => do
      Native.pure (.text (← trial (insertion subject found .empty
        (Text.byteChars (v.toText?.getD .empty)))))
  if !v.truth then return none
  else
    match v.toText? with
    | some bytes => return some bytes
    | none => complain ("invalid replacement value (a " ++ v.typeName ++ ")").toUTF8

def replaceFrom (subject pattern : ByteArray) (p : Nat) (anchored : Bool) (by_ : Value) :
    Nat → Nat → Nat → Option Nat → ByteArray → Native (ByteArray × Nat)
  | 0, _, _, _, acc => return (acc, 0)
  | fuel + 1, left, s, last, acc => do
    if left = 0 then return (acc ++ subject.extract s subject.size, 0)
    let matched ← trial (Pattern.matchAt subject pattern s p)
    let found? : Option Pattern.Found := match matched with
      | some (stop, captures) => if last = some stop then none else some ⟨s, stop, captures⟩
      | none => none
    match found? with
    | some found =>
      let new ← replacement subject by_ found
      let acc := acc ++ new.getD (subject.extract found.start found.stop)
      if anchored then return (acc ++ subject.extract found.stop subject.size, 1)
      let (acc, n) ← replaceFrom subject pattern p anchored by_ fuel (left - 1) found.stop
        (some found.stop) acc
      return (acc, n + 1)
    | none =>
      if s < subject.size then
        let acc := acc ++ subject.extract s (s + 1)
        if anchored then return (acc ++ subject.extract (s + 1) subject.size, 0)
        replaceFrom subject pattern p anchored by_ fuel left (s + 1) last acc
      else return (acc, 0)

def gsub (args : List Value) : Native (List Value) := do
  let subject ← checkText args 1
  let pattern ← checkText args 2
  let by_ := arg args 3
  let most ← optionalInteger args 4 (.ofNat (subject.size + 1))
  let isUsable := match by_ with
    | .integer _ | .number _ | .positiveNaN | .text _ | .table _ | .closure _ | .builtin _ => true
    | _ => false
  if !isUsable then wrongType args 3 "string/function/table"
  else
    let anchored := Pattern.isAnchored pattern
    let (result, n) ← replaceFrom subject pattern (if anchored then 1 else 0) anchored by_
      (2 * subject.size + 3) most.toInt.toNat 0 none .empty
    return [.text result, .ofNat n]

/-! ### Formats -/

def quoted : List Char → List Char
  | [] => []
  | c :: rest =>
    if c = '"' || c = '\\' || c = '\n' then '\\' :: c :: quoted rest
    else if Text.isControl c then
      let ds := Nat.toDigits 10 c.toNat
      let ds := if (rest.head?.map Char.isDigit).getD false then
          List.replicate (3 - ds.length) '0' ++ ds
        else ds
      '\\' :: ds ++ quoted rest
    else c :: quoted rest

def literal (n : Nat) (v : Value) : Native (List Char) := do
  match v with
  | .text bytes => return '"' :: quoted (Text.byteChars bytes) ++ ['"']
  | .integer i =>
    return (if i = Int64.minValue then "0x8000000000000000" else toString i.toInt).toList
  | .positiveNaN => return "(0/0)".toList
  | .number x =>
    if Real.isNaN x then return "(0/0)".toList
    else if x.abs == 1.0 / 0.0 then return (if x < 0 then "-1e9999" else "1e9999").toList
    else return (Conversion.ofChars ['a']).float (.float x)
  | .nil => return "nil".toList
  | .boolean b => return (if b then "true" else "false").toList
  | _ => badArgument n "value has no literal form".toUTF8

def dropTwoDigits : List Char → List Char
  | a :: b :: rest =>
    if a.isDigit then if b.isDigit then rest else b :: rest else a :: b :: rest
  | [a] => if a.isDigit then [] else [a]
  | [] => []

def isRegular (spec : List Char) (flags : List Char) (precision : Bool) : Bool :=
  let rest := spec.dropWhile (· ∈ flags)
  let rest := if rest.head? = some '0' then rest
    else
      match dropTwoDigits rest with
      | '.' :: behind => if precision then dropTwoDigits behind else '.' :: behind
      | rest => rest
  (rest.head?.map Char.isAlpha).getD false

def invalidConversion {α : Type} (spec : List Char) : Native α :=
  complain ("invalid conversion '%".toUTF8 ++ Text.beforeNull (Text.ofByteChars spec)
    ++ "' to 'format'".toUTF8)

def checkRegular (spec flags : List Char) (precision : Bool) : Native Unit :=
  if isRegular spec flags precision then Native.pure () else invalidConversion spec

def converted (args : List Value) (n : Nat) (spec : List Char) : Native (List Char) := do
  let c := Conversion.ofChars spec
  let onInteger (flags : List Char) : Native (List Char) := do
    let i ← checkInteger args n
    checkRegular spec flags true
    return c.integer i
  match c.form with
  | 'c' =>
    checkRegular spec ['-'] false
    let i ← checkInteger args n
    return c.fill false [] [Char.ofNat (i.toInt % 256).toNat]
  | 'd' => onInteger ['-', '+', ' ', '0']
  | 'i' => onInteger ['-', '+', ' ', '0']
  | 'u' => onInteger ['-', '0']
  | 'p' =>
    checkRegular spec ['-'] false
    let v := arg args n
    let text ← match v with
      | .nil | .boolean _ | .integer _ | .number _ | .positiveNaN => Native.pure "(null)".toUTF8
      | v => address v
    return c.fill false [] (Text.byteChars text)
  | 'q' =>
    if 1 < spec.length then complain "specifier '%q' cannot have modifiers".toUTF8
    else literal n (arg args n)
  | 's' =>
    let bytes ← shown (arg args n)
    let cs := Text.byteChars bytes
    if spec.length = 1 then return cs
    else if cs.contains '\x00' then badArgument n "string contains zeros".toUTF8
    else
      checkRegular spec ['-'] true
      if !spec.contains '.' && 100 ≤ cs.length then return cs else return c.text cs
  | form =>
    if form ∈ ['o', 'x', 'X'] then onInteger ['-', '#', '0']
    else if form ∈ ['a', 'A'] then
      checkRegular spec ['-', '+', ' ', '#', '0'] true
      return c.float (← checkNumeral args n)
    else if form ∈ ['f', 'e', 'E', 'g', 'G'] then
      let x ← checkNumeral args n
      checkRegular spec ['-', '+', ' ', '#', '0'] true
      return c.float x
    else invalidConversion spec

def conversionSpan (cs : List Char) : List Char × List Char :=
  let isPart (c : Char) : Bool := c.isDigit || c ∈ ['-', '+', ' ', '#', '.']
  let rest := cs.dropWhile isPart
  (cs.takeWhile isPart ++ [rest.head?.getD '\x00'], rest.drop 1)

def conversionLimit : Nat := 22

def formatFrom (args : List Value) : Nat → Nat → List Char → List Char → Native (List Char)
  | 0, _, _, acc => return acc
  | fuel + 1, n, cs, acc => do
    match cs with
    | [] => return acc
    | '%' :: '%' :: rest => formatFrom args fuel n rest ('%' :: acc)
    | '%' :: rest =>
      if args.length < n + 1 then badArgument (n + 1) "no value".toUTF8
      else
        let (spec, rest) := conversionSpan rest
        if conversionLimit ≤ spec.length then complain "invalid format string to 'format'".toUTF8
        else
          let out ← converted args (n + 1) spec
          formatFrom args fuel (n + 1) rest (out.reverse ++ acc)
    | c :: rest => formatFrom args fuel n rest (c :: acc)

def format (args : List Value) : Native (List Value) := do
  let cs := Text.byteChars (← checkText args 1)
  let out ← formatFrom args (cs.length + 1) 1 cs []
  return [.text (Text.ofByteChars out.reverse)]

/-! ### Arithmetic -/

def handled (name : String) (args : List Value) : Native (List Value) := do
  let (a, b) := (arg args 1, arg args 2)
  let h ← match b with
    | .text _ => Native.pure Value.nil
    | b => look fun s => s.metaEntry b ("__" ++ name)
  match h with
  | .nil =>
    complain ("attempt to " ++ name ++ " a '" ++ a.typeName ++ "' with a '" ++ b.typeName ++ "'").toUTF8
  | h => return [(← ask (.call h [a, b])).head?.getD .nil]

def arithmetic (op : BinaryOp) (args : List Value) : Native (List Value) := do
  match (arg args 1).toNumeral?, (arg args 2).toNumeral? with
  | some x, some y =>
    match Numeral.binary op x y with
    | .ok n => return [.ofNumeral n]
    | .error e => fail (.fault (.other e.message))
  | _, _ => handled (Event.name (.binary op)) args

def negate (args : List Value) : Native (List Value) := do
  match (arg args 1).toNumeral? with
  | some x => return [.ofNumeral x.negate]
  | none => handled (Event.name .negate) args

def work (f : TextFunction) (args : List Value) : Native (List Value) :=
  match f with
  | .byte => byte args
  | .char => char args
  | .dump => dump args
  | .find => search true args
  | .format => format args
  | .gmatch => gmatch args
  | .gsub => gsub args
  | .length => do return [.ofNat (← checkText args 1).size]
  | .lower => changed (mapped Char.toLower) args
  | .«match» => search false args
  | .pack => Packing.pack args
  | .packSize => Packing.packSize args
  | .repeated => repeated args
  | .reverse => changed (fun bytes => ⟨bytes.data.reverse⟩) args
  | .sub => sub args
  | .unpack => Packing.unpack args
  | .upper => changed (mapped Char.toUpper) args
  | .arithmetic op => arithmetic op args
  | .negate => negate args

end Texts

end BuildVariants.Script
