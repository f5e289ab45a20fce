import BuildVariants.Script.Arithmetic

/-!
# Values of scripts

Tables, functions, coroutines and handles have an identity: two of them are the same only when
they were made together. What they hold is kept apart, so a value is a number or a text, or
it says where to look.
-/

set_option autoImplicit false

namespace BuildVariants.Script

inductive BasicFunction
  | assert | collectGarbage | doFile | error | getMetatable | ipairs | load | loadFile | next
  | pairs | pcall | print | rawEqual | rawGet | rawLength | rawSet | select | setMetatable
  | toNumber | toString | type | warn | xpcall
  | nextItem
  | pieces
deriving DecidableEq, Repr, Inhabited

inductive TextFunction
  | byte | char | dump | find | format | gmatch | gsub | length | lower | «match» | pack
  | packSize | repeated | reverse | sub | unpack | upper
  | arithmetic (op : BinaryOp) | negate
deriving DecidableEq, Repr, Inhabited

inductive TableFunction
  | concat | insert | move | pack | remove | sort | unpack
deriving DecidableEq, Repr, Inhabited

inductive MathFunction
  | abs | acos | asin | atan | ceil | cos | cosh | degrees | exp | floor | fmod | frexp
  | ldexp | log | log10 | max | min | modf | pow | radians | random | randomSeed | sin | sinh
  | sqrt | tan | tanh | toInteger | type | unsignedLess
deriving DecidableEq, Repr, Inhabited

inductive Utf8Function
  | char | codepoint | codes | length | offset
  | nextCode (strict : Bool)
deriving DecidableEq, Repr, Inhabited

inductive CoroutineFunction
  | close | create | isYieldable | resume | running | status | wrap | yield
deriving DecidableEq, Repr, Inhabited

inductive SystemFunction
  | clock | date | difference | execute | exit | environment | remove | rename | locale | time
  | temporaryName
deriving DecidableEq, Repr, Inhabited

inductive StreamFunction
  | close | flush | input | lines | openFile | output | pipe | read | temporaryFile | type | write
  | nextLine (reader : Nat)
  | fileClose | fileFlush | fileLines | fileRead | fileSeek | fileBuffer | fileWrite | fileText
  | fileEnd
deriving DecidableEq, Repr, Inhabited

inductive PackageFunction
  | require | searchPath | loadLibrary | preloadSearcher | sourceSearcher | librarySearcher
deriving DecidableEq, Repr, Inhabited

inductive Builtin
  | basic (f : BasicFunction)
  | text (f : TextFunction)
  | table (f : TableFunction)
  | math (f : MathFunction)
  | utf8 (f : Utf8Function)
  | coroutine (f : CoroutineFunction)
  | system (f : SystemFunction)
  | stream (f : StreamFunction)
  | package (f : PackageFunction)
  | nextMatch (search : Nat)
  | wrapped (thread : Nat)
  | declare (typeName : String)
  | failureText
  | failureEnd
  | report
deriving DecidableEq, Repr, Inhabited

inductive Value
  | nil
  | boolean (b : Bool)
  | integer (n : Int64)
  | number (x : Float)
  | positiveNaN
  | text (bytes : ByteArray)
  | table (id : Nat)
  | closure (id : Nat)
  | builtin (f : Builtin)
  | thread (id : Nat)
  | handle (id : Nat)
deriving Inhabited

namespace Value

def ofString (s : String) : Value := .text s.toUTF8

def isNil : Value → Bool
  | .nil => true
  | _ => false

def truth : Value → Bool
  | .nil => false
  | .boolean b => b
  | _ => true

def isFunction : Value → Bool
  | .closure _ | .builtin _ => true
  | _ => false

def typeName : Value → String
  | .nil => "nil"
  | .boolean _ => "boolean"
  | .integer _ | .number _ | .positiveNaN => "number"
  | .text _ => "string"
  | .table _ => "table"
  | .closure _ | .builtin _ => "function"
  | .thread _ => "thread"
  | .handle _ => "userdata"

def ofNumeral : Numeral → Value
  | .integer n => .integer n
  | .float x => .number x
  | .positiveNaN => .positiveNaN

def ofNat (n : Nat) : Value := .integer (.ofNat n)

def ofConstant : Constant → Value
  | .nil => .nil
  | .boolean b => .boolean b
  | .integer n => .integer n
  | .float x => .number x
  | .text bytes => .text bytes

def numeral? : Value → Option Numeral
  | .integer n => some (.integer n)
  | .number x => some (.float x)
  | .positiveNaN => some .positiveNaN
  | _ => none

def toNumeral? : Value → Option Numeral
  | .text bytes => Numeral.ofBytes? bytes
  | v => v.numeral?

def toInteger? (v : Value) : Option Int64 := v.toNumeral?.bind Numeral.integer?

def toText? : Value → Option ByteArray
  | .text bytes => some bytes
  | v => v.numeral?.map fun n => n.toText.toUTF8

def same : Value → Value → Bool
  | .nil, .nil => true
  | .boolean a, .boolean b => a == b
  | .integer a, .integer b => a == b
  | .number a, .number b => a == b
  | .integer a, .number b => Numeral.same (.integer a) (.float b)
  | .number a, .integer b => Numeral.same (.float a) (.integer b)
  | .text a, .text b => a == b
  | .table a, .table b => a == b
  | .closure a, .closure b => a == b
  | .builtin a, .builtin b => a == b
  | .thread a, .thread b => a == b
  | .handle a, .handle b => a == b
  | _, _ => false

end Value

end BuildVariants.Script
