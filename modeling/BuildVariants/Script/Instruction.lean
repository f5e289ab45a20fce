import BuildVariants.Script.Source

/-!
# Instructions

A function of a script is compiled to instructions over numbered slots. The first slots hold
the parameters, the next ones the local variables in scope, the rest are temporary. Variables
of the functions around it are reached through a list of captured variables.
-/

set_option autoImplicit false

namespace BuildVariants.Script

inductive Constant
  | nil
  | boolean (b : Bool)
  | integer (n : Int64)
  | float (x : Float)
  | text (bytes : ByteArray)

inductive BinaryOp
  | add | sub | mul | mod | pow | div | floorDiv
  | bitAnd | bitOr | bitXor | shiftLeft | shiftRight
deriving DecidableEq, Repr, Inhabited

inductive UnaryOp
  | negate | bitNot | not | length
deriving DecidableEq, Repr, Inhabited

inductive Comparison
  | equal | less | lessEqual
deriving DecidableEq, Repr, Inhabited

inductive Operand
  | slot (r : Nat)
  | constant (k : Nat)
  | immediate (n : Int64)
  | immediateFloat (x : Float)
deriving Inhabited

/-- An instruction. Targets of jumps are positions in the code. A count of values that is
none stands for as many as there are. -/
inductive Instruction
  | move (a b : Nat)
  | loadInteger (a : Nat) (n : Int64)
  | loadFloat (a : Nat) (x : Float)
  | loadConstant (a k : Nat)
  | loadTrue (a : Nat)
  | loadFalse (a : Nat)
  | loadFalseSkip (a : Nat)
  | loadNil (a n : Nat)
  | getCaptured (a c : Nat)
  | setCaptured (a c : Nat)
  | getCapturedField (a c k : Nat)
  | setCapturedField (c k : Nat) (v : Operand)
  | getIndex (a t key : Nat)
  | setIndex (t key : Nat) (v : Operand)
  | getItem (a t : Nat) (n : Nat)
  | setItem (t : Nat) (n : Nat) (v : Operand)
  | getField (a t k : Nat)
  | setField (t k : Nat) (v : Operand)
  | getMethod (a t : Nat) (key : Operand)
  | newTable (a items entries : Nat)
  | setItems (a : Nat) (count : Option Nat) (done : Nat)
  | binary (op : BinaryOp) (a : Nat) (x y : Operand)
  | unary (op : UnaryOp) (a b : Nat)
  | concat (a n : Nat)
  | compare (op : Comparison) (x y : Operand) (expected : Bool)
  | test (a : Nat) (expected : Bool)
  | testSet (a b : Nat) (expected : Bool)
  | jump (target : Nat)
  | closure (a index : Nat)
  | call (a : Nat) (args results : Option Nat)
  | tailCall (a : Nat) (args : Option Nat) (closes : Bool)
  | giveBack (a : Nat) (count : Option Nat) (closes : Bool)
  | extra (a : Nat) (count : Option Nat)
  | prepareExtra (params : Nat)
  | close (a : Nat)
  | markClosing (a : Nat)
  | prepareCount (a target : Nat)
  | stepCount (a target : Nat)
  | prepareEach (a target : Nat)
  | callEach (a count : Nat)
  | stepEach (a target : Nat)
deriving Inhabited

/-- How a closure finds a captured variable when it is made: in a slot of the function around
it, or among what that function has captured. -/
structure Capture where
  name : String
  inSlot : Bool
  index : Nat
deriving Inhabited

structure LocalName where
  name : String
  start : Nat
  stop : Nat
deriving Inhabited

structure Routine where
  source : Source
  lineDefined : Nat
  params : Nat
  variadic : Bool
  slots : Nat
  code : Array Instruction
  lines : Array Nat
  constants : Array Constant
  captures : Array Capture
  locals : Array LocalName
  inner : Array Routine

namespace Constant

def kind : Constant → Nat
  | .nil => 0
  | .boolean _ => 1
  | .integer _ => 2
  | .float _ => 3
  | .text _ => 4

def order : Constant → Constant → Ordering
  | .boolean a, .boolean b => compare a b
  | .integer a, .integer b => compare a b
  | .float a, .float b => compare a.toBits b.toBits
  | .text a, .text b => (compare a.size b.size).then (compare a.data.toList b.data.toList)
  | a, b => compare a.kind b.kind

end Constant

namespace Instruction

def withResult (r : Nat) : Instruction → Instruction
  | .getCaptured _ c => .getCaptured r c
  | .getCapturedField _ c k => .getCapturedField r c k
  | .getIndex _ t key => .getIndex r t key
  | .getItem _ t n => .getItem r t n
  | .getField _ t k => .getField r t k
  | .newTable _ items entries => .newTable r items entries
  | .binary op _ x y => .binary op r x y
  | .unary op _ b => .unary op r b
  | .closure _ index => .closure r index
  | .extra _ count => .extra r count
  | .testSet _ b expected => .testSet r b expected
  | i => i

def decides : Instruction → Bool
  | .compare .. | .test .. | .testSet .. => true
  | _ => false

def changes (i : Instruction) (r : Nat) : Bool :=
  match i with
  | .move a _ | .loadInteger a _ | .loadFloat a _ | .loadConstant a _ | .loadTrue a
  | .loadFalse a | .loadFalseSkip a | .getCaptured a _ | .getCapturedField a _ _
  | .getIndex a _ _ | .getItem a _ _ | .getField a _ _ | .getMethod a _ _ | .newTable a _ _
  | .binary _ a _ _ | .unary _ a _ | .concat a _ | .testSet a _ _ | .closure a _ | .extra a _
  | .prepareExtra a | .prepareCount a _ | .stepCount a _ | .stepEach a _ => r = a
  | .loadNil a n => a ≤ r && r ≤ a + n
  | .callEach a _ => a + 2 ≤ r
  | .call a _ _ | .tailCall a _ _ => a ≤ r
  | _ => false

end Instruction

namespace Routine

def localName? (p : Routine) (slot pc : Nat) : Option String :=
  (((p.locals.toList.takeWhile fun v => v.start ≤ pc).filter fun v => pc < v.stop)[slot]?).map
    LocalName.name

def lineAt (p : Routine) (pc : Nat) : Nat := p.lines[pc]?.getD p.lineDefined

end Routine

end BuildVariants.Script
