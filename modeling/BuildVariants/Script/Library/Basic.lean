import BuildVariants.Script.Process

/-!
# Basic functions

Types and texts of values, tables without their handlers, errors and protected calls, and
reading further scripts.
-/

set_option autoImplicit false

namespace BuildVariants.Script

namespace Basic

open Native

def names : List (String × BasicFunction) :=
  [("assert", .assert), ("collectgarbage", .collectGarbage), ("dofile", .doFile),
   ("error", .error), ("getmetatable", .getMetatable), ("ipairs", .ipairs), ("load", .load),
   ("loadfile", .loadFile), ("next", .next), ("pairs", .pairs), ("pcall", .pcall),
   ("print", .print), ("rawequal", .rawEqual), ("rawget", .rawGet), ("rawlen", .rawLength),
   ("rawset", .rawSet), ("select", .select), ("setmetatable", .setMetatable),
   ("tonumber", .toNumber), ("tostring", .toString), ("type", .type), ("warn", .warn),
   ("xpcall", .xpcall)]

def assert (args : List Value) : Native (List Value) := do
  if (arg args 1).truth then return args
  let _ ← checkAny args 1
  match args[1]? with
  | some message =>
    match message with
    | .text bytes => complain bytes
    | v => fail (.value v)
  | none => complain "assertion failed!".toUTF8

def collectArguments : String → Nat
  | "step" => 1
  | "setpause" => 1
  | "setstepmul" => 1
  | "generational" => 2
  | "incremental" => 3
  | _ => 0

/-- No value is ever given up, so the collector has nothing to do but to answer. -/
def collectGarbage (args : List Value) : Native (List Value) := do
  let chosen ← checkOption args 1
    ["stop", "restart", "collect", "count", "step", "setpause", "setstepmul", "isrunning",
     "generational", "incremental"] (some "collect")
  let numbers ← (List.range (collectArguments chosen)).mapM fun i => optionalInteger args (i + 2) 0
  return [(← consult (.collect chosen numbers)).value]

def error (args : List Value) : Native (List Value) := do
  let level ← optionalInteger args 2 1
  match arg args 1 with
  | .text bytes =>
    if 0 < level then fail (.placed level.toInt.toNat bytes) else fail (.value (.text bytes))
  | v => fail (.value v)

def getMetatable (args : List Value) : Native (List Value) := do
  let v ← checkAny args 1
  match ← look fun s => s.metatable? v with
  | none => return [.nil]
  | some id =>
    match ← look fun s => (s.table id).getString "__metatable" with
    | .nil => return [.table id]
    | instead => return [instead]

def setMetatable (args : List Value) : Native (List Value) := do
  let kind := arg args 2
  let id ← checkTable args 1
  let meta? ← match kind with
    | .table m => Native.pure (some m)
    | .nil => if 1 < args.length then Native.pure none else wrongType args 2 "nil or table"
    | _ => wrongType args 2 "nil or table"
  match ← look fun s => s.metaEntry (.table id) "__metatable" with
  | .nil => Native.pure ()
  | _ => complain "cannot change a protected metatable".toUTF8
  update fun s => s.modifyTable id fun t => { t with metatable := meta? }
  match meta? with
  | some m =>
    match ← look fun s => (s.table m).getString "__gc" with
    | .nil => Native.pure ()
    | _ =>
      update fun s =>
        if s.finalized.contains id then s else { s with finalized := id :: s.finalized }
  | none => Native.pure ()
  return [.table id]

def ipairs (args : List Value) : Native (List Value) := do
  let v ← checkAny args 1
  return [.builtin (.basic .nextItem), v, .integer 0]

def nextItem (args : List Value) : Native (List Value) := do
  let i := (← checkInteger args 2) + 1
  match ← index (arg args 1) (.integer i) with
  | .nil => return [.nil]
  | v => return [.integer i, v]

def next (args : List Value) : Native (List Value) := do
  let id ← checkTable args 1
  match ← look fun s => (s.table id).next? (arg args 2) with
  | none => fail (.fault (.other "invalid key to 'next'"))
  | some none => return [.nil]
  | some (some (key, v)) => return [key, v]

def pairs (args : List Value) : Native (List Value) := do
  let v ← checkAny args 1
  match ← look fun s => s.metaEntry v "__pairs" with
  | .nil => return [.builtin (.basic .next), v, .nil]
  | h =>
    let results ← ask (.call h [v])
    return [arg results 1, arg results 2, arg results 3]

def pcall (args : List Value) : Native (List Value) := do
  let f ← checkAny args 1
  ask (.protect f args.tail none)

def xpcall (args : List Value) : Native (List Value) := do
  let handler ← checkFunction args 2
  ask (.protect (arg args 1) (args.drop 2) (some handler))

def writeAll : List Value → Bool → Native Unit
  | [], _ => Native.pure ()
  | v :: rest, isFirst => do
    let bytes ← shown v
    update fun s => s.write ((if isFirst then .empty else "\t".toUTF8) ++ bytes)
    writeAll rest false

def print (args : List Value) : Native (List Value) := do
  writeAll args true
  update fun s => (s.write "\n".toUTF8).flush
  return []

def rawEqual (args : List Value) : Native (List Value) := do
  let a ← checkAny args 1
  let b ← checkAny args 2
  return [.boolean (a.same b)]

def rawLength (args : List Value) : Native (List Value) := do
  match arg args 1 with
  | .table id => return [.ofNat (← change fun s => s.rawLength id)]
  | .text bytes => return [.ofNat bytes.size]
  | _ => wrongType args 1 "table or string"

def rawGet (args : List Value) : Native (List Value) := do
  let id ← checkTable args 1
  let key ← checkAny args 2
  update fun s => s.sight id key
  return [← look fun s => s.rawGet id key]

def rawSet (args : List Value) : Native (List Value) := do
  let id ← checkTable args 1
  let key ← checkAny args 2
  let v ← checkAny args 3
  match Table.keyError? key with
  | some e => fail (.fault (.other e.message))
  | none => update fun s => s.rawSet id key v
  return [.table id]

def select (args : List Value) : Native (List Value) := do
  let count : Int := args.length
  let isCount : Bool := match args with
    | .text bytes :: _ => bytes.toList.head? == some '#'.toUInt8
    | _ => false
  if isCount then return [.integer (.ofInt (count - 1))]
  let n := (← checkInteger args 1).toInt
  let n := if n < 0 then count + n else if count < n then count else n
  if n < 1 then badArgument 1 "index out of range".toUTF8
  else return args.drop n.toNat

def toNumber (args : List Value) : Native (List Value) := do
  if isAbsent args 2 then
    match arg args 1 with
    | .text bytes =>
      match Numeral.ofBytes? bytes with
      | some n => return [.ofNumeral n]
      | none => return [.nil]
    | v =>
      match v.numeral? with
      | some _ => return [v]
      | none =>
        let _ ← checkAny args 1
        return [.nil]
  else
    let base ← checkInteger args 2
    match arg args 1 with
    | .text bytes =>
      if base < 2 || 36 < base then badArgument 2 "base out of range".toUTF8
      else
        match Numeral.inBase? base.toInt.toNat bytes with
        | some n => return [.integer n]
        | none => return [.nil]
    | _ => wrongType args 1 "string"

def toString (args : List Value) : Native (List Value) := do
  return [.text (← shown (← checkAny args 1))]

def type (args : List Value) : Native (List Value) := do
  return [.ofString (← checkAny args 1).typeName]

def warn (args : List Value) : Native (List Value) := do
  let _ ← checkText args 1
  let _ ← ((List.range args.length).drop 1).mapM fun i => checkText args (i + 1)
  return []

def binaryFault (text : ByteArray) : String :=
  let header : List UInt8 := [27, 76, 117, 97, 0x54, 0, 0x19, 0x93, 13, 10, 0x1a, 10]
  let differs := (text.toList.zip header).findIdx? fun (a, b) => a ≠ b
  match differs with
  | some i =>
    if i < 4 then if text.size < 4 then "truncated chunk" else "not a binary chunk"
    else if i = 4 then "version mismatch"
    else if i = 5 then "format mismatch"
    else if text.size < 12 then "truncated chunk"
    else "corrupted chunk"
  | none => "truncated chunk"

def binaryName (name : ByteArray) : ByteArray :=
  match name.toList.head? with
  | some 27 => "binary string".toUTF8
  | some 61 => name.extract 1 name.size
  | some 64 => name.extract 1 name.size
  | _ => name

def readScript (text : ByteArray) (name : ByteArray) (mode : ByteArray)
    (environment : Option Value) : Native (List Value) := do
  let name := Text.beforeNull name
  let isBinary := text.toList.head? = some 27
  let (form, mark) := if isBinary then ("binary", 'b') else ("text", 't')
  if !(Text.beforeNull mode).data.contains mark.toUInt8 then
    return [.nil, .text (("attempt to load a " ++ form ++ " chunk (mode is '").toUTF8
      ++ Text.beforeNull mode ++ "')".toUTF8)]
  else if isBinary then
    return [.nil, .text (binaryName name ++ (": bad binary format (" ++ binaryFault text ++ ")").toUTF8)]
  else ask (.read (Source.ofMarked name) text environment)

def pieces (f : Value) : Nat → ByteArray → Native (List Value)
  | 0, acc => return [.text acc]
  | n + 1, acc => do
    match (← ask (.call f [])).head?.getD .nil with
    | .nil => return [.text acc]
    | v =>
      match v.toText? with
      | some bytes => if bytes.size = 0 then return [.text acc] else pieces f n (acc ++ bytes)
      | none => fail (.placed 2 "reader function must return a string".toUTF8)

def pieceLimit : Nat := 1000000000

def load (args : List Value) : Native (List Value) := do
  let environment := args[3]?
  let mode ← optionalText args 3 "bt".toUTF8
  match (arg args 1).toText? with
  | some text =>
    let name ← optionalText args 2 text
    readScript text name mode environment
  | none =>
    let name ← optionalText args 2 "=(load)".toUTF8
    let f ← checkFunction args 1
    let result ← ask (.protect (.builtin (.basic .pieces)) [f] none)
    match result with
    | [.boolean true, .text text] => readScript text name mode environment
    | _ => return [.nil, arg result 2]

def withoutHeader (text : ByteArray) : ByteArray :=
  let marked := (text.extract 0 3).toList = [0xef, 0xbb, 0xbf]
  let text := if marked then text.extract 3 text.size else text
  if text.toList.head? = some '#'.toUInt8 then
    ⟨(text.toList.dropWhile fun b => b ≠ '\n'.toUInt8).toArray⟩
  else text

def readFile (name : Option ByteArray) (mode : ByteArray) (environment : Option Value) :
    Native (List Value) := do
  match ← consult (.contents name) with
  | .ok text =>
    let chunk : ByteArray := match name with
      | some name => "@".toUTF8 ++ name
      | none => "=stdin".toUTF8
    readScript (withoutHeader text) chunk mode environment
  | .error (deed, r) =>
    return [.nil, .text (("cannot " ++ deed ++ " ").toUTF8 ++ name.getD .empty ++ ": ".toUTF8
      ++ r.message)]

def fileName (args : List Value) : Native (Option ByteArray) := do
  if isAbsent args 1 then return none else return some (Text.beforeNull (← checkText args 1))

def loadFile (args : List Value) : Native (List Value) := do
  let name ← fileName args
  let mode ← optionalText args 2 "bt".toUTF8
  readFile name mode args[2]?

def doFile (args : List Value) : Native (List Value) := do
  match ← readFile (← fileName args) "bt".toUTF8 none with
  | [f] => ask (.call f [])
  | result => fail (.value (arg result 2))

def work (f : BasicFunction) (args : List Value) : Native (List Value) :=
  match f with
  | .assert => assert args
  | .collectGarbage => collectGarbage args
  | .doFile => doFile args
  | .error => error args
  | .getMetatable => getMetatable args
  | .ipairs => ipairs args
  | .load => load args
  | .loadFile => loadFile args
  | .next => next args
  | .pairs => pairs args
  | .pcall => pcall args
  | .print => print args
  | .rawEqual => rawEqual args
  | .rawGet => rawGet args
  | .rawLength => rawLength args
  | .rawSet => rawSet args
  | .select => select args
  | .setMetatable => setMetatable args
  | .toNumber => toNumber args
  | .toString => toString args
  | .type => type args
  | .warn => warn args
  | .xpcall => xpcall args
  | .nextItem => nextItem args
  | .pieces => pieces (arg args 1) pieceLimit .empty

end Basic

end BuildVariants.Script
