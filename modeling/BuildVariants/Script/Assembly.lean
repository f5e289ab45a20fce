import BuildVariants.Script.Arithmetic
import BuildVariants.Script.Token
import Std.Data.TreeMap

/-!
# Assembling functions

A script is compiled while it is read. The functions that are being read are kept as a stack
of assemblies: the instructions so far, the constants, the local variables in scope and the
slots in use. Expressions stay descriptions for as long as possible; they are settled into
slots only when their place is known, which is also when their instructions get their line.
-/

set_option autoImplicit false

namespace BuildVariants.Script

inductive VariableKind
  | plain
  | constant
  | closing
  | folded (value : Constant)

structure Variable where
  name : String
  kind : VariableKind
  slot : Nat
  entry : Nat

structure Block where
  isLoop : Bool
  varCount : Nat
  labelCount : Nat
  gotoCount : Nat
  captured : Bool
  insideClosing : Bool

structure Label where
  name : String
  pc : Nat
  line : Nat
  varCount : Nat

structure Goto where
  name : String
  jumps : List Nat
  line : Nat
  varCount : Nat
  level : Nat
  closes : Bool

structure CaptureDraft where
  capture : Capture
  assignable : Bool

structure Assembly where
  lineDefined : Nat
  params : Nat
  variadic : Bool
  code : Array Instruction
  lines : Array Nat
  constants : Array Constant
  known : Std.TreeMap Constant Nat Constant.order
  captures : Array CaptureDraft
  locals : Array LocalName
  inner : Array Routine
  declared : Array Variable
  active : Nat
  free : Nat
  slots : Nat
  /-- Jumps may lead here, so nothing before is merged with what follows. -/
  lastTarget : Nat
  blocks : List Block
  labels : Array Label
  gotos : Array Goto
  needsClose : Bool

inductive ReadError
  | refused (message : ByteArray)
  | nestedTooDeep

structure ReadState where
  source : Source
  size : Nat
  input : Token.Input
  token : Token
  ahead : Option Token
  lastLine : Nat
  current : Assembly
  outer : List Assembly
  depth : Nat

abbrev Read (α : Type) := StateT ReadState (Except ReadError) α

inductive Shape
  | void
  | nil
  | true
  | false
  | integer (n : Int64)
  | float (x : Float)
  | text (bytes : ByteArray)
  | constant (k : Nat)
  | slot (r : Nat)
  | variable (r index : Nat)
  | captured (c : Nat)
  | folded (name : String) (value : Constant)
  | index (t key : Nat)
  | item (t n : Nat)
  | field (t k : Nat)
  | capturedField (c k : Nat)
  | jump (pc : Nat)
  | result (pc : Nat)
  | call (pc : Nat)
  | extra (pc : Nat)

/-- An expression with the jumps that leave it when it is true and when it is false. -/
structure Expr where
  shape : Shape
  whenTrue : List Nat
  whenFalse : List Nat

namespace Expr

def of (shape : Shape) : Expr := ⟨shape, [], []⟩

def hasJumps (e : Expr) : Bool := !(e.whenTrue.isEmpty && e.whenFalse.isEmpty)

def numeral? (e : Expr) : Option Numeral :=
  if e.hasJumps then none
  else
    match e.shape with
    | .integer n => some (.integer n)
    | .float x => some (.float x)
    | _ => none

def isOpen (e : Expr) : Bool :=
  match e.shape with
  | .call _ | .extra _ => true
  | _ => false

def isVariable (e : Expr) : Bool :=
  match e.shape with
  | .variable .. | .captured _ | .folded .. | .index .. | .item .. | .field ..
  | .capturedField .. => true
  | _ => false

def isIndexed (e : Expr) : Bool :=
  match e.shape with
  | .index .. | .item .. | .field .. | .capturedField .. => true
  | _ => false

def immediate? (e : Expr) : Option Operand :=
  if e.hasJumps then none
  else
    match e.shape with
    | .integer n => if -127 ≤ n && n ≤ 128 then some (.immediate n) else none
    | .float x =>
      match Real.asInteger? x with
      | some n => if -127 ≤ n && n ≤ 128 then some (.immediateFloat x) else none
      | none => none
    | _ => none

def immediateInteger? (e : Expr) : Option Operand :=
  match e.shape with
  | .integer _ => e.immediate?
  | _ => none

end Expr

namespace Constant

def shape : Constant → Shape
  | .nil => .nil
  | .boolean true => .true
  | .boolean false => .false
  | .integer n => .integer n
  | .float x => .float x
  | .text bytes => .text bytes

end Constant

namespace Assembly

def start (lineDefined : Nat) : Assembly where
  lineDefined
  params := 0
  variadic := false
  code := #[]
  lines := #[]
  constants := #[]
  known := ∅
  captures := #[]
  locals := #[]
  inner := #[]
  declared := #[]
  active := 0
  free := 0
  slots := 2
  lastTarget := 0
  blocks := []
  labels := #[]
  gotos := #[]
  needsClose := false

def slotLevel (a : Assembly) : Nat → Nat
  | 0 => 0
  | n + 1 =>
    match a.declared[n]? with
    | some v =>
      match v.kind with
      | .folded _ => slotLevel a n
      | _ => v.slot + 1
    | none => 0

def variableSlots (a : Assembly) : Nat := a.slotLevel a.active

def controlOf (a : Assembly) (pc : Nat) : Nat :=
  match pc with
  | 0 => 0
  | n + 1 =>
    match a.code[n]? with
    | some i => if i.decides then n else pc
    | none => pc

def previous? (a : Assembly) : Option Instruction :=
  if a.lastTarget < a.code.size then a.code.back? else none

def isFieldName (a : Assembly) (k : Nat) : Bool :=
  match a.constants[k]? with
  | some (.text bytes) => k ≤ 255 && bytes.size ≤ 40
  | _ => false

def finalTarget (a : Assembly) : Nat → Nat → Nat
  | 0, pc => pc
  | n + 1, pc =>
    match a.code[pc]? with
    | some (.jump target) => finalTarget a n target
    | _ => pc

def routine (a : Assembly) (source : Source) : Routine where
  source
  lineDefined := a.lineDefined
  params := a.params
  variadic := a.variadic
  slots := a.slots
  code := a.code.map fun i =>
    match i with
    | .giveBack r count _ => .giveBack r count a.needsClose
    | .tailCall r args _ => .tailCall r args a.needsClose
    | .jump target => .jump (a.finalTarget 100 target)
    | i => i
  lines := a.lines
  constants := a.constants
  captures := a.captures.map CaptureDraft.capture
  locals := a.locals
  inner := a.inner

end Assembly

namespace Read

def refuseNear {α : Type} (message : List Char) (near : Option (List Char)) : Read α := do
  let s ← get
  let near := match near with
    | some text => " near ".toList ++ text
    | none => []
  throw (.refused (s.source.messagePrefix s.input.line ++ Text.ofByteChars (message ++ near)))

def refuse {α : Type} (message : String) : Read α := do
  refuseNear message.toList (some (← get).token.shown)

def refuseFor {α : Type} (message : String) : Read α := refuseNear message.toList none

def checkLimit (value limit : Nat) (what : String) : Read Unit := do
  if limit < value then
    let line := (← get).current.lineDefined
    let place := if line = 0 then "main function" else "function at line " ++ toString line
    refuse ("too many " ++ what ++ " (limit is " ++ toString limit ++ ") in " ++ place)

def assembly : Read Assembly := return (← get).current

def modifyAssembly (f : Assembly → Assembly) : Read Unit :=
  modify fun s => { s with current := f s.current }

def emit (i : Instruction) : Read Nat :=
  modifyGet fun s =>
    (s.current.code.size,
      { s with current :=
        { s.current with code := s.current.code.push i, lines := s.current.lines.push s.lastLine } })

def emit_ (i : Instruction) : Read Unit := do
  let _ ← emit i

def setInstruction (pc : Nat) (i : Instruction) : Read Unit :=
  modifyAssembly fun a => { a with code := a.code.setIfInBounds pc i }

def instructionAt (pc : Nat) : Read Instruction :=
  return (← assembly).code[pc]?.getD (.jump pc)

def fixLine (line : Nat) : Read Unit :=
  modifyAssembly fun a => { a with lines := a.lines.setIfInBounds (a.lines.size - 1) line }

def here : Read Nat :=
  modifyGet fun s =>
    (s.current.code.size, { s with current := { s.current with lastTarget := s.current.code.size } })

def slotLimit : Nat := 255

def checkSlots (n : Nat) : Read Unit := do
  let a ← assembly
  let needed := a.free + n
  if a.slots < needed then
    if slotLimit ≤ needed then refuse "function or expression needs too many registers"
    else modifyAssembly fun a => { a with slots := needed }

def reserve (n : Nat) : Read Unit := do
  checkSlots n
  modifyAssembly fun a => { a with free := a.free + n }

def freeSlot (r : Nat) : Read Unit :=
  modifyAssembly fun a => if a.variableSlots ≤ r then { a with free := a.free - 1 } else a

def freeSlots (r s : Nat) : Read Unit := do
  freeSlot (max r s)
  freeSlot (min r s)

def freeExpr (e : Expr) : Read Unit :=
  match e.shape with
  | .slot r => freeSlot r
  | _ => pure ()

def freeExprs (d e : Expr) : Read Unit :=
  match d.shape, e.shape with
  | .slot r, .slot s => freeSlots r s
  | _, _ => do
    freeExpr d
    freeExpr e

def constant (c : Constant) : Read Nat := do
  match (← assembly).known[c]? with
  | some k => return k
  | none =>
    modifyGet fun s =>
      let k := s.current.constants.size
      (k, { s with current := { s.current with
              constants := s.current.constants.push c
              known := s.current.known.insert c k } })

def loadNil (start count : Nat) : Read Unit := do
  let last := start + count - 1
  let a ← assembly
  match a.previous? with
  | some (.loadNil start' n') =>
    let last' := start' + n'
    if (start' ≤ start && start ≤ last' + 1) || (start ≤ start' && start' ≤ last + 1) then
      let low := min start start'
      setInstruction (a.code.size - 1) (.loadNil low (max last last' - low))
    else emit_ (.loadNil start (count - 1))
  | _ => emit_ (.loadNil start (count - 1))

def jump : Read Nat := emit (.jump 0)

def decide (i : Instruction) : Read Nat := do
  emit_ i
  jump

def patchValue (pc : Nat) (slot : Option Nat) : Read Bool := do
  let a ← assembly
  let control := a.controlOf pc
  match a.code[control]? with
  | some (.testSet _ b expected) =>
    match slot with
    | some r =>
      setInstruction control (if r = b then .test b expected else .testSet r b expected)
    | none => setInstruction control (.test b expected)
    return true
  | _ => return false

def dropValues : List Nat → Read Unit
  | [] => pure ()
  | pc :: rest => do
    let _ ← patchValue pc none
    dropValues rest

def patchJumps (valueTarget : Nat) (slot : Option Nat) (target : Nat) : List Nat → Read Unit
  | [] => pure ()
  | pc :: rest => do
    let kept ← patchValue pc slot
    setInstruction pc (.jump (if kept then valueTarget else target))
    patchJumps valueTarget slot target rest

def patchTo (jumps : List Nat) (target : Nat) : Read Unit := patchJumps target none target jumps

def patchHere (jumps : List Nat) : Read Unit := do
  patchTo jumps (← here)

def needsValue (jumps : List Nat) : Read Bool := do
  let a ← assembly
  return jumps.any fun pc =>
    match a.code[a.controlOf pc]? with
    | some (.testSet ..) => false
    | _ => true

def setCount (e : Expr) (count : Option Nat) : Read Unit :=
  match e.shape with
  | .call pc => do
    match ← instructionAt pc with
    | .call a args _ => setInstruction pc (.call a args count)
    | _ => pure ()
  | .extra pc => do
    let free := (← assembly).free
    setInstruction pc (.extra free count)
    reserve 1
  | _ => pure ()

def setOne (e : Expr) : Read Expr :=
  match e.shape with
  | .call pc => do
    match ← instructionAt pc with
    | .call a _ _ => return { e with shape := .slot a }
    | _ => return e
  | .extra pc => do
    match ← instructionAt pc with
    | .extra a _ => setInstruction pc (.extra a (some 1))
    | _ => pure ()
    return { e with shape := .result pc }
  | _ => return e

def settleVariable (e : Expr) : Read Expr :=
  match e.shape with
  | .folded _ value => return { e with shape := value.shape }
  | .variable r _ => return { e with shape := .slot r }
  | .captured c => return { e with shape := .result (← emit (.getCaptured 0 c)) }
  | .capturedField c k => return { e with shape := .result (← emit (.getCapturedField 0 c k)) }
  | .item t n => do
    freeSlot t
    return { e with shape := .result (← emit (.getItem 0 t n)) }
  | .field t k => do
    freeSlot t
    return { e with shape := .result (← emit (.getField 0 t k)) }
  | .index t key => do
    freeSlots t key
    return { e with shape := .result (← emit (.getIndex 0 t key)) }
  | .call _ | .extra _ => setOne e
  | _ => return e

def isShort (n : Int64) : Bool := -65535 ≤ n && n ≤ 65536

def settleInto (e : Expr) (r : Nat) : Read Expr := do
  let e ← settleVariable e
  let done : Expr := { e with shape := .slot r }
  match e.shape with
  | .nil => loadNil r 1; return done
  | .true => emit_ (.loadTrue r); return done
  | .false => emit_ (.loadFalse r); return done
  | .text bytes => emit_ (.loadConstant r (← constant (.text bytes))); return done
  | .constant k => emit_ (.loadConstant r k); return done
  | .integer n =>
    if isShort n then emit_ (.loadInteger r n)
    else emit_ (.loadConstant r (← constant (.integer n)))
    return done
  | .float x =>
    if ((Real.asInteger? x).map isShort).getD false then emit_ (.loadFloat r x)
    else emit_ (.loadConstant r (← constant (.float x)))
    return done
  | .result pc =>
    setInstruction pc ((← instructionAt pc).withResult r)
    return done
  | .slot s =>
    if s ≠ r then emit_ (.move r s)
    return done
  | _ => return e

def settleSomewhere (e : Expr) : Read Expr :=
  match e.shape with
  | .slot _ => return e
  | _ => do
    reserve 1
    settleInto e ((← assembly).free - 1)

def place (e : Expr) (r : Nat) : Read Expr := do
  let e ← settleInto e r
  let isJump := match e.shape with
    | .jump _ => true
    | _ => false
  let e := match e.shape with
    | .jump pc => { e with whenTrue := e.whenTrue ++ [pc] }
    | _ => e
  if e.hasJumps then
    let needed ← do
      if ← needsValue e.whenTrue then pure true else needsValue e.whenFalse
    let (loadsFalse, loadsTrue) ← do
      if needed then
        let around ← if isJump then pure [] else do pure [← jump]
        let _ ← here
        let loadsFalse ← emit (.loadFalseSkip r)
        let _ ← here
        let loadsTrue ← emit (.loadTrue r)
        if !around.isEmpty then patchHere around
        pure (loadsFalse, loadsTrue)
      else pure (0, 0)
    let final ← here
    patchJumps final (some r) loadsFalse e.whenFalse
    patchJumps final (some r) loadsTrue e.whenTrue
  return .of (.slot r)

def placeNext (e : Expr) : Read Expr := do
  let e ← settleVariable e
  freeExpr e
  reserve 1
  place e ((← assembly).free - 1)

def placeSomewhere (e : Expr) : Read (Nat × Expr) := do
  let e ← settleVariable e
  let inSlot (e : Expr) : Nat × Expr :=
    match e.shape with
    | .slot r => (r, e)
    | _ => (0, e)
  match e.shape with
  | .slot r =>
    if !e.hasJumps then return (r, e)
    else if (← assembly).variableSlots ≤ r then return inSlot (← place e r)
    else return inSlot (← placeNext e)
  | _ => return inSlot (← placeNext e)

def placeUncaptured (e : Expr) : Read Expr :=
  match e.shape with
  | .captured _ => if e.hasJumps then return (← placeSomewhere e).2 else return e
  | _ => return (← placeSomewhere e).2

def settleValue (e : Expr) : Read Expr :=
  if e.hasJumps then return (← placeSomewhere e).2
  else
    match e.shape with
    | .jump _ => return (← placeSomewhere e).2
    | _ => settleVariable e

def operandLimit : Nat := 255

def asConstant? (e : Expr) : Read (Option Nat) := do
  if e.hasJumps then return none
  let k? ← match e.shape with
    | .true => some <$> constant (.boolean true)
    | .false => some <$> constant (.boolean false)
    | .nil => some <$> constant .nil
    | .integer n => some <$> constant (.integer n)
    | .float x => some <$> constant (.float x)
    | .text bytes => some <$> constant (.text bytes)
    | .constant k => pure (some k)
    | _ => pure none
  return k?.filter (· ≤ operandLimit)

def asOperand (e : Expr) : Read (Operand × Expr) := do
  match ← asConstant? e with
  | some k => return (.constant k, { e with shape := .constant k })
  | none =>
    let (r, e) ← placeSomewhere e
    return (.slot r, e)

def store (target : Expr) (e : Expr) : Read Unit := do
  match target.shape with
  | .variable r _ =>
    freeExpr e
    let _ ← place e r
  | .captured c =>
    let (r, e) ← placeSomewhere e
    emit_ (.setCaptured r c)
    freeExpr e
  | .capturedField c k =>
    let (v, e) ← asOperand e
    emit_ (.setCapturedField c k v)
    freeExpr e
  | .item t n =>
    let (v, e) ← asOperand e
    emit_ (.setItem t n v)
    freeExpr e
  | .field t k =>
    let (v, e) ← asOperand e
    emit_ (.setField t k v)
    freeExpr e
  | .index t key =>
    let (v, e) ← asOperand e
    emit_ (.setIndex t key v)
    freeExpr e
  | _ => pure ()

def method (receiver : Expr) (name : String) : Read Expr := do
  let (r, receiver) ← placeSomewhere receiver
  freeExpr receiver
  let base := (← assembly).free
  reserve 2
  let (key, e) ← asOperand (.of (.text name.toUTF8))
  emit_ (.getMethod base r key)
  freeExpr e
  return .of (.slot base)

def negateJump (pc : Nat) : Read Unit := do
  let control := (← assembly).controlOf pc
  match ← instructionAt control with
  | .compare op x y expected => setInstruction control (.compare op x y !expected)
  | _ => pure ()

def jumpWhen (e : Expr) (truth : Bool) : Read Nat := do
  let test (e : Expr) : Read Nat := do
    let e ← settleSomewhere e
    freeExpr e
    match e.shape with
    | .slot r => decide (.testSet slotLimit r truth)
    | _ => jump
  match e.shape with
  | .result pc =>
    match ← instructionAt pc with
    | .unary .not _ b =>
      modifyAssembly fun a => { a with code := a.code.pop, lines := a.lines.pop }
      decide (.test b !truth)
    | _ => test e
  | _ => test e

def goWhenTrue (e : Expr) : Read Expr := do
  let e ← settleVariable e
  let jumps ← match e.shape with
    | .jump pc => do
      negateJump pc
      pure [pc]
    | .constant _ | .integer _ | .float _ | .text _ | .true => pure []
    | _ => do pure [← jumpWhen e false]
  let e := { e with whenFalse := e.whenFalse ++ jumps }
  patchHere e.whenTrue
  return { e with whenTrue := [] }

def goWhenFalse (e : Expr) : Read Expr := do
  let e ← settleVariable e
  let jumps ← match e.shape with
    | .jump pc => pure [pc]
    | .nil | .false => pure []
    | _ => do pure [← jumpWhen e true]
  let e := { e with whenTrue := e.whenTrue ++ jumps }
  patchHere e.whenFalse
  return { e with whenFalse := [] }

def negated (e : Expr) : Read Expr := do
  let e ← match e.shape with
    | .nil | .false => pure { e with shape := .true }
    | .constant _ | .integer _ | .float _ | .text _ | .true => pure { e with shape := .false }
    | .jump pc => do
      negateJump pc
      pure e
    | _ => do
      let e ← settleSomewhere e
      freeExpr e
      match e.shape with
      | .slot r => do
        let pc ← emit (.unary .not 0 r)
        pure { e with shape := .result pc }
      | _ => pure e
  let e := { e with whenTrue := e.whenFalse, whenFalse := e.whenTrue }
  dropValues e.whenFalse
  dropValues e.whenTrue
  return e

def indexed (table key : Expr) : Read Expr := do
  let key ← match key.shape with
    | .text bytes => do
      let k ← constant (.text bytes)
      pure { key with shape := .constant k }
    | _ => pure key
  let a ← assembly
  let fieldName? := match key.shape with
    | .constant k => if !key.hasJumps && a.isFieldName k then some k else none
    | _ => none
  let table ← match table.shape, fieldName? with
    | .captured _, none => do pure (← placeSomewhere table).2
    | _, _ => pure table
  let at_ (t : Nat) : Read Shape :=
    match fieldName? with
    | some k => return .field t k
    | none => do
      match key.shape with
      | .integer n =>
        if !key.hasJumps && 0 ≤ n && n ≤ 255 then return .item t n.toInt.toNat
        else return .index t (← placeSomewhere key).1
      | _ => return .index t (← placeSomewhere key).1
  match table.shape with
  | .captured c => return { table with shape := .capturedField c (fieldName?.getD 0) }
  | .variable r _ => return { table with shape := ← at_ r }
  | .slot r => return { table with shape := ← at_ r }
  | _ => return table

/-- The result of an operation on numbers that are known, if it is safe to know it. What is
zero or no number as a float is left to the running script. -/
def folded? (op : BinaryOp) (x y : Expr) : Option Shape :=
  match x.numeral?, y.numeral? with
  | some a, some b =>
    let byZero := match op with
      | .div | .floorDiv | .mod => b.isZero
      | _ => false
    if byZero then none
    else
      match Numeral.binary op a b with
      | .ok (.integer n) => some (.integer n)
      | .ok (.float z) => if z != z || z == 0 then none else some (.float z)
      | _ => none
  | _, _ => none

def foldedUnary? (op : UnaryOp) (x : Expr) : Option Shape :=
  match op, x.numeral? with
  | .negate, some a =>
    match a.negate with
    | .integer n => some (.integer n)
    | .float z => if z != z || z == 0 then none else some (.float z)
    | .positiveNaN => none
  | .bitNot, some a =>
    match a.bitNot with
    | .ok (.integer n) => some (.integer n)
    | _ => none
  | _, _ => none

def applyUnary (op : UnaryOp) (e : Expr) (line : Nat) : Read Expr := do
  let e ← settleVariable e
  match op with
  | .not => negated e
  | op =>
    match foldedUnary? op e with
    | some shape => return { e with shape }
    | none =>
      let (r, e) ← placeSomewhere e
      freeExpr e
      let pc ← emit (.unary op 0 r)
      fixLine line
      return { e with shape := .result pc }

inductive Infix
  | arithmetic (op : BinaryOp)
  | concat
  | equal (expected : Bool)
  | less
  | lessEqual
  | greater
  | greaterEqual
  | both
  | either

def prepareLeft (op : Infix) (e : Expr) : Read Expr := do
  let e ← settleVariable e
  match op with
  | .both => goWhenTrue e
  | .either => goWhenFalse e
  | .concat => placeNext e
  | .arithmetic _ =>
    if e.numeral?.isSome then return e else return (← placeSomewhere e).2
  | .equal _ =>
    if e.numeral?.isSome then return e else return (← asOperand e).2
  | _ =>
    if e.immediate?.isSome then return e else return (← placeSomewhere e).2

def emitBinary (op : BinaryOp) (x y : Expr) (second : Operand) (flipped : Bool) (line : Nat) :
    Read Expr := do
  let (r, x) ← placeSomewhere x
  let pc ← emit (if flipped then .binary op 0 second (.slot r) else .binary op 0 (.slot r) second)
  freeExprs x y
  fixLine line
  return { x with shape := .result pc }

def emitOnSlots (op : BinaryOp) (x y : Expr) (line : Nat) : Read Expr := do
  let (r, y) ← placeSomewhere y
  emitBinary op x y (.slot r) false line

def emitWithConstant (isConstant : Bool) (op : BinaryOp) (x y : Expr) (flipped : Bool)
    (line : Nat) : Read Expr := do
  let k? ← if isConstant then asConstant? y else pure none
  match k? with
  | some k => emitBinary op x { y with shape := .constant k } (.constant k) flipped line
  | none => if flipped then emitOnSlots op y x line else emitOnSlots op x y line

def isInteger (e : Expr) : Bool :=
  match e.shape with
  | .integer _ => true
  | _ => false

def emitArithmetic (op : BinaryOp) (x y : Expr) (line : Nat) : Read Expr := do
  match op with
  | .add | .mul =>
    let flipped := x.numeral?.isSome
    let (x, y) := if flipped then (y, x) else (x, y)
    match op, y.immediateInteger? with
    | .add, some n => emitBinary op x y n flipped line
    | _, _ => emitWithConstant y.numeral?.isSome op x y flipped line
  | .sub =>
    match y.immediateInteger?, y.shape with
    | some (.immediate n), _ =>
      if -127 ≤ -n && -n ≤ 128 then emitBinary op x y (.immediate n) false line
      else emitWithConstant y.numeral?.isSome op x y false line
    | _, _ => emitWithConstant y.numeral?.isSome op x y false line
  | .bitAnd | .bitOr | .bitXor =>
    let flipped := isInteger x
    let (x, y) := if flipped then (y, x) else (x, y)
    emitWithConstant (isInteger y) op x y flipped line
  | .shiftLeft =>
    match x.immediateInteger? with
    | some n => emitBinary op y x n true line
    | none =>
      match y.immediateInteger? with
      | some (.immediate n) =>
        if -127 ≤ -n && -n ≤ 128 then emitBinary op x y (.immediate n) false line
        else emitOnSlots op x y line
      | _ => emitOnSlots op x y line
  | .shiftRight =>
    match y.immediateInteger? with
    | some n => emitBinary op x y n false line
    | none => emitOnSlots op x y line
  | op => emitWithConstant y.numeral?.isSome op x y false line

def emitConcat (x y : Expr) (line : Nat) : Read Expr := do
  let y ← placeNext y
  let a ← assembly
  let base := match x.shape with
    | .slot r => r
    | _ => 0
  match a.previous? with
  | some (.concat _ n) =>
    freeExpr y
    setInstruction (a.code.size - 1) (.concat base (n + 1))
  | _ =>
    emit_ (.concat base 2)
    freeExpr y
    fixLine line
  return x

def emitOrder (op : Comparison) (x y : Expr) : Read Expr := do
  match y.immediate? with
  | some n =>
    let (r, x) ← placeSomewhere x
    freeExprs x y
    return { x with shape := .jump (← decide (.compare op (.slot r) n true)) }
  | none =>
    match x.immediate? with
    | some n =>
      let (r, y) ← placeSomewhere y
      freeExprs x y
      return { x with shape := .jump (← decide (.compare op n (.slot r) true)) }
    | none =>
      let (r, x) ← placeSomewhere x
      let (s, y) ← placeSomewhere y
      freeExprs x y
      return { x with shape := .jump (← decide (.compare op (.slot r) (.slot s) true)) }

def emitEqual (x y : Expr) (expected : Bool) : Read Expr := do
  let (x, y) := match x.shape with
    | .slot _ => (x, y)
    | _ => (y, x)
  let (r, x) ← placeSomewhere x
  let (second, y) ← match y.immediate? with
    | some n => pure (n, y)
    | none => asOperand y
  freeExprs x y
  return { x with shape := .jump (← decide (.compare .equal (.slot r) second expected)) }

def applyInfix (op : Infix) (x y : Expr) (line : Nat) : Read Expr := do
  let y ← settleVariable y
  match op with
  | .both => return { y with whenFalse := y.whenFalse ++ x.whenFalse }
  | .either => return { y with whenTrue := y.whenTrue ++ x.whenTrue }
  | .concat => emitConcat x y line
  | .arithmetic op =>
    match folded? op x y with
    | some shape => return { x with shape }
    | none => emitArithmetic op x y line
  | .equal expected => emitEqual x y expected
  | .less => emitOrder .less x y
  | .lessEqual => emitOrder .lessEqual x y
  | .greater => emitOrder .less y x
  | .greaterEqual => emitOrder .lessEqual y x

end Read

end BuildVariants.Script
