import BuildVariants.Calendar
import BuildVariants.Script.Library.Text

/-!
# Functions on the system

What time it is, the variables of the environment and the fate of files are asked of the world.
-/

set_option autoImplicit false

namespace BuildVariants.Script

namespace System

open Native

def names : List (String × SystemFunction) :=
  [("clock", .clock), ("date", .date), ("difftime", .difference), ("execute", .execute),
   ("exit", .exit), ("getenv", .environment), ("remove", .remove), ("rename", .rename),
   ("setlocale", .locale), ("time", .time), ("tmpname", .temporaryName)]

def refused (name : Option ByteArray) (r : Refusal) : List Value :=
  let start : ByteArray := match name with
    | some name => Text.beforeNull name ++ ": ".toUTF8
    | none => .empty
  [.nil, .text (start ++ r.message), .integer r.number]

def succeeded (name : Option ByteArray) : Except Refusal Unit → List Value
  | .ok () => [.boolean true]
  | .error r => refused name r

def exitValues : Exit → List Value
  | .exited code => [if code = 0 then .boolean true else .nil, .ofString "exit", .integer code]
  | .signalled number => [.nil, .ofString "signal", .integer number]

/-! ### Time -/

def field (t : Value) (name : String) (default : Option Int) (delta : Int) : Native Int := do
  let v ← index t (.ofString name)
  match v.toInteger? with
  | some n =>
    let n := n.toInt
    let bound : Int := 2147483647
    if (if 0 ≤ n then n - delta ≤ bound else -bound - 1 + delta ≤ n) then return n - delta
    else complain ("field '" ++ name ++ "' is out-of-bound").toUTF8
  | none =>
    if !v.isNil then complain ("field '" ++ name ++ "' is not an integer").toUTF8
    else
      match default with
      | some n => return n
      | none => complain ("field '" ++ name ++ "' missing in date table").toUTF8

def fields (d : Calendar.Date) (isSummer : Bool) : List (String × Value) :=
  [("year", .integer (.ofInt d.year)), ("month", .ofNat d.month), ("day", .ofNat d.day),
   ("hour", .ofNat d.hour), ("min", .ofNat d.minute), ("sec", .ofNat d.second),
   ("yday", .ofNat (d.yearday + 1)), ("wday", .ofNat (d.weekday + 1)), ("isdst", .boolean isSummer)]

def setFields (t : Value) : List (String × Value) → Native Unit
  | [] => return ()
  | (name, v) :: rest => do
    setIndex t (.ofString name) v
    setFields t rest

def yearLimit : Int := 2147483647 + 1900

def inReach (d : Calendar.Date) : Bool := d.year ≤ yearLimit && -yearLimit ≤ d.year

def time (args : List Value) : Native (List Value) := do
  if isAbsent args 1 then return [.integer (← consult .time)]
  else
    let t : Value := .table (← checkTable args 1)
    let year ← field t "year" none 1900
    let month ← field t "month" none 1
    let day ← field t "day" none 0
    let hour ← field t "hour" (some 12) 0
    let minute ← field t "min" (some 0) 0
    let second ← field t "sec" (some 0) 0
    let isSummer := match ← index t (.ofString "isdst") with
      | .nil => none
      | v => some v.truth
    let zone ← look fun s => s.world.zone
    let moment := zone.moment isSummer
      (Calendar.seconds (year + 1900) (month + 1) day hour minute second)
    let d := Calendar.date (moment + zone.offset moment)
    if inReach d then
      setFields t (fields d (zone.isSummer moment))
    if !inReach d || moment = -1 then
      complain "time result cannot be represented in this installation".toUTF8
    else return [.integer (.ofInt moment)]

def written (d : Calendar.Date) (zone : Calendar.Zone) :
    List Char → List Char → Except (List Char) (List Char)
  | [], acc => .ok acc.reverse
  | '%' :: rest, acc =>
    match rest with
    | c :: rest =>
      if Calendar.letters.contains c then
        written d zone rest ((d.part zone c).toList.reverse ++ acc)
      else
        match rest with
        | b :: rest =>
          if (Calendar.lettersBehind c).contains b then
            written d zone rest ((d.part zone b).toList.reverse ++ acc)
          else .error (c :: b :: rest)
        | [] => .error [c]
    | [] => .error []
  | c :: rest, acc => written d zone rest (c :: acc)

def date (args : List Value) : Native (List Value) := do
  let format := Text.byteChars (← optionalText args 1 "%c".toUTF8)
  let moment ← if isAbsent args 2 then consult .time else checkInteger args 2
  let local_ ← look fun s => s.world.zone
  let t := moment.toInt
  let (zone, isSummer, format) : Calendar.Zone × Bool × List Char := match format with
    | '!' :: rest => (⟨"GMT", 0⟩, false, rest)
    | format => (⟨local_.name t, local_.offset t⟩, local_.isSummer t, format)
  let d := Calendar.date (t + zone.offset)
  if !inReach d then
    complain "date result cannot be represented in this installation".toUTF8
  else if format.takeWhile (· ≠ '\x00') = ['*', 't'] then
    let t ← change fun s => s.newTable ((Table.empty s.world.spread).resize 0 9)
    setFields t (fields d isSummer)
    return [t]
  else
    match written d zone format [] with
    | .ok cs => return [.text (Text.ofByteChars cs)]
    | .error rest =>
      badArgument 1 ("invalid conversion specifier '%".toUTF8
        ++ Text.beforeNull (Text.ofByteChars rest) ++ "'".toUTF8)

/-! ### The program and its files -/

def exit (args : List Value) : Native (List Value) := do
  let code ← match arg args 1 with
    | .boolean b => Native.pure (if b then 0 else 1 : Int64)
    | _ => optionalInteger args 1 0
  ask (.exit (code.toInt % 256).toNat)

def locale (args : List Value) : Native (List Value) := do
  let name ← if isAbsent args 1 then Native.pure none else some <$> checkText args 1
  let category ← checkOption args 2
    ["all", "collate", "ctype", "monetary", "numeric", "time"] (some "all")
  match ← consult (.locale (name.map Text.beforeNull) category) with
  | some chosen => return [.text chosen]
  | none => return [.nil]

def execute (args : List Value) : Native (List Value) := do
  if isAbsent args 1 then return [.boolean (← consult .shell)]
  else
    match ← consult (.execute (Text.beforeNull (← checkText args 1))) with
    | .ok exit => return exitValues exit
    | .error r => return refused none r

def work (f : SystemFunction) (args : List Value) : Native (List Value) := do
  match f with
  | .clock => return [.number (← consult .clock)]
  | .date => date args
  | .difference =>
    let a ← checkInteger args 1
    let b ← checkInteger args 2
    return [.number (a.toFloat - b.toFloat)]
  | .execute => execute args
  | .exit => exit args
  | .environment =>
    match ← consult (.environment (Text.beforeNull (← checkText args 1))) with
    | some value => return [.text value]
    | none => return [.nil]
  | .remove =>
    let name ← checkText args 1
    return succeeded (some name) (← consult (.remove (Text.beforeNull name)))
  | .rename =>
    let name ← checkText args 1
    let newName ← checkText args 2
    return succeeded none (← consult (.rename (Text.beforeNull name) (Text.beforeNull newName)))
  | .locale => locale args
  | .time => time args
  | .temporaryName =>
    match ← consult .temporaryName with
    | some name => return [.text name]
    | none => complain "unable to generate a unique filename".toUTF8

end System

end BuildVariants.Script
