import BuildVariants.Script.Answering

/-!
# Running instructions

The machine takes one step after the other: it performs an instruction, goes on with a builtin,
delivers results or unwinds after an error. A step never waits for another one, so the calls of
a script may be nested as deep as its stack allows.
-/

set_option autoImplicit false

namespace BuildVariants.Script

namespace Machine

variable {M T : Type}

/-! ### Operands and results -/

@[inline] def operand (m : Machine M) (r : Routine) (base : Nat) : Operand → Value
  | .slot i => m.get (base + i)
  | .constant k => .ofConstant (r.constants.getD k .nil)
  | .immediate n => .integer n
  | .immediateFloat x => .number x

@[inline] def settle (m : Machine M) (slot : Nat) (o : Outcome) : Machine M :=
  match o with
  | .value v => m.put slot v
  | .call h args => m.invoke h args (.slots slot (some 1)) false
  | .fault f => m.stopFor f

@[inline] def settleTest (m : Machine M) (expected : Bool) (o : Outcome) : Machine M :=
  match o with
  | .value v => if v.truth = expected then m else { m with pc := m.pc + 1 }
  | .call h args => m.invoke h args (.test expected) false
  | .fault f => m.stopFor f

/-! ### Tables -/

def getAt (m : Machine M) (slot : Nat) (v key : Value) : Machine M :=
  let m := match v, key with
    | .table id, .integer _ => { m with store := m.store.sight id key }
    | _, _ => m
  m.settle slot (m.store.index v key)

def setAt (m : Machine M) (v key value : Value) : Machine M :=
  let (o, m) := m.onStore fun s => s.setIndex v key value
  match o with
  | .value _ => m
  | .call h args => m.invoke h args (.slots 0 (some 0)) false
  | .fault f => m.stopFor f

def newTable (m : Machine M) (slot items entries : Nat) : Machine M :=
  let room := Table.empty m.store.world.spread
  let t := if items = 0 && entries = 0 then room else room.resize items entries
  let (v, m) := m.onStore (Store.newTable t)
  m.put slot v

def setItems (m : Machine M) (slot : Nat) (count : Option Nat) (done : Nat) : Machine M :=
  match m.get slot with
  | .table id =>
    let values := m.getAll (slot + 1) (count.getD (m.top - (slot + 1)))
    { m with store := m.store.modifyTable id fun t => t.setItems done values }
  | _ => m

/-! ### Joining texts -/

def joinable : List Value → ByteArray → Nat → ByteArray × Nat
  | [], acc, n => (acc, n)
  | v :: rest, acc, n =>
    match v.toText? with
    | some bytes => joinable rest (bytes ++ acc) (n + 1)
    | none => (acc, n)

def concat (m : Machine M) (r : Routine) (base first : Nat) : Nat → Nat → Machine M
  | 0, _ => m
  | fuel + 1, n =>
    if n < 2 then m
    else
      let top := first + n
      let (text, taken) := joinable (m.getAll first n).reverse .empty 0
      if 2 ≤ taken then concat (m.put (top - taken) (.text text)) r base first fuel (n - taken + 1)
      else
        match m.store.concatHandled (m.get (top - 2)) (m.get (top - 1)) with
        | .value v => m.put first v
        | .call h args =>
          let m := { m with frames := match m.frames with
            | f :: rest => { f with pending := some (n - 1) } :: rest
            | [] => [] }
          m.invoke h args (.again (some (top - 2))) false
        | .fault (.mistyped deed v side) =>
          let slot := match side with
            | .second => top - 1
            | _ => top - 2
          let name := Naming.behind (r.slotName? (m.pcOf 0) (slot - base))
          m.raise (.text (m.placeOf 0
            ++ (Fault.mistyped deed v side).message m.store fun _ => name))
        | .fault f => m.stopFor f

/-! ### Loops -/

def stopCounting (m : Machine M) (what : String) (v : Value) : Machine M :=
  m.raise (.text (m.placeOf 0 ++ ("bad 'for' " ++ what ++ " (number expected, got ").toUTF8
    ++ m.store.typeName v ++ ")".toUTF8))

/-- The limit of a loop over integers. A limit that is out of range is moved into it. -/
def countLimit (step : Int64) (limit : Numeral) : Option Int64 :=
  match limit with
  | .integer n => some n
  | limit =>
    let x := limit.toFloat
    match if step < 0 then Real.ceil? x else Real.floor? x with
    | some n => some n
    | none =>
      if 0 < x then if step < 0 then none else some Int64.maxValue
      else if 0 < step then none
      else some Int64.minValue

def repetitions (start limit step : Int64) : UInt64 :=
  if 0 < step then (limit.toUInt64 - start.toUInt64) / step.toUInt64
  else (start.toUInt64 - limit.toUInt64) / ((-(step + 1)).toUInt64 + 1)

def prepareCount (m : Machine M) (slot target : Nat) : Machine M :=
  let start := m.get slot
  let limit := m.get (slot + 1)
  let step := m.get (slot + 2)
  match start, step with
  | .integer i, .integer s =>
    if s = 0 then m.stop "'for' step is zero"
    else
      match limit.toNumeral? with
      | none => m.stopCounting "limit" limit
      | some n =>
        match countLimit s n with
        | none => { m with pc := target }
        | some l =>
          if (if 0 < s then l < i else i < l) then { m with pc := target }
          else
            (m.put (slot + 1) (.integer (repetitions i l s).toInt64)).put (slot + 3) (.integer i)
  | _, _ =>
    match limit.toNumeral?, step.toNumeral?, start.toNumeral? with
    | none, _, _ => m.stopCounting "limit" limit
    | _, none, _ => m.stopCounting "step" step
    | _, _, none => m.stopCounting "initial value" start
    | some l, some s, some i =>
      let (l, s, i) := (l.toFloat, s.toFloat, i.toFloat)
      if s == 0 then m.stop "'for' step is zero"
      else if (if 0 < s then l < i else i < l) then { m with pc := target }
      else
        (((m.put slot (.number i)).put (slot + 1) (.number l)).put (slot + 2) (.number s)).put
          (slot + 3) (.number i)

def stepCount (m : Machine M) (slot target : Nat) : Machine M :=
  match m.get slot, m.get (slot + 1), m.get (slot + 2) with
  | .integer i, .integer left, .integer s =>
    if left = 0 then m
    else
      let m := ((m.put slot (.integer (i + s))).put (slot + 1) (.integer (left - 1))).put (slot + 3)
        (.integer (i + s))
      { m with pc := target }
  | .number i, .number l, .number s =>
    let i := i + s
    if (if 0 < s then i ≤ l else l ≤ i) then
      { (m.put slot (.number i)).put (slot + 3) (.number i) with pc := target }
    else m
  | _, _, _ => m

/-! ### Variables -/

def markClosing (m : Machine M) (r : Routine) (base slot : Nat) : Machine M :=
  let v := m.get (base + slot)
  if !v.truth then m
  else
    match m.store.handler v .close with
    | .nil =>
      let name := (r.localName? slot (m.pcOf 0)).getD "?"
      m.stop ("variable '" ++ name ++ "' got a non-closable value")
    | _ => { m with closing := (base + slot) :: m.closing }

def closeBefore (m : Machine M) (level above : Nat) (pending : Option Nat) : Option (Machine M) :=
  match m.closing.head?.filter fun slot => level ≤ slot with
  | some slot =>
    let v := m.get slot
    let m := { m with
      closing := m.closing.tail
      frames := match m.frames with
        | f :: rest => { f with pending } :: rest
        | [] => [] }
    some (m.invokeAt above (m.store.handler v .close) [v, .nil] (.again none) false)
  | none => none

def makeClosure (m : Machine M) (cells : Array Nat) (base slot : Nat) (inner : Routine) : Machine M :=
  let (found, m) := inner.captures.foldl (fun (acc : Array Nat × Machine M) c =>
    if c.inSlot then
      let (cell, m) := acc.2.cellOf (base + c.index)
      (acc.1.push cell, m)
    else (acc.1.push (cells.getD c.index 0), acc.2)) (#[], m)
  let (v, m) := m.onStore (Store.newClosure ⟨inner, found⟩)
  m.put (base + slot) v

def prepareExtra (m : Machine M) (r : Routine) : Machine M :=
  match m.frames with
  | f :: rest =>
    let actual := f.extra
    let slot := f.slot + actual + 1
    if m.fits slot (r.slots + 1) then
      let moved := m.getAll f.slot (r.params + 1)
      let m := (m.reach (slot + 1 + r.slots)).putAll slot moved
      let m := m.clear (f.slot + 1) r.params
      { m with frames :=
        { f with slot, top := slot + 1 + r.slots, extra := actual - r.params } :: rest }
    else m.overflow
  | [] => m

def loadExtra (m : Machine M) (slot : Nat) (count : Option Nat) : Machine M :=
  match m.frames with
  | f :: _ =>
    let values := m.getAll (f.slot - f.extra) (min f.extra (count.getD f.extra))
    match count with
    | some _ => m.deliverTo slot count values
    | none =>
      if m.fits slot values.length then m.deliverTo slot none values else m.overflow
  | [] => m

def giveBack (m : Machine M) (base first : Nat) (count : Option Nat) (closes : Bool) : Machine M :=
  match m.frames with
  | f :: _ =>
    let n := f.pending.getD (count.getD (m.top - first))
    let closing? := if closes then m.closeBefore base (max f.top (first + n)) (some n) else none
    match closing? with
    | some m => m
    | none =>
      let m := if closes then m.closeCells base else m
      let values := m.getAll first n
      m.pop.deliver values f.destination
  | [] => m

/-! ### Instructions -/

def perform (m : Machine M) (r : Routine) (cells : Array Nat) (base : Nat) (i : Instruction) :
    Machine M :=
  let cell (c : Nat) : Nat := cells.getD c 0
  let constant (k : Nat) : Value := .ofConstant (r.constants.getD k .nil)
  match i with
  | .move a b => m.put (base + a) (m.get (base + b))
  | .loadInteger a n => m.put (base + a) (.integer n)
  | .loadFloat a x => m.put (base + a) (.number x)
  | .loadConstant a k => m.put (base + a) (constant k)
  | .loadTrue a => m.put (base + a) (.boolean true)
  | .loadFalse a => m.put (base + a) (.boolean false)
  | .loadFalseSkip a => { m.put (base + a) (.boolean false) with pc := m.pc + 1 }
  | .loadNil a n => m.clear (base + a) (n + 1)
  | .getCaptured a c => m.put (base + a) (m.captured (cell c))
  | .setCaptured a c => m.setCaptured (cell c) (m.get (base + a))
  | .getCapturedField a c k => m.getAt (base + a) (m.captured (cell c)) (constant k)
  | .setCapturedField c k v => m.setAt (m.captured (cell c)) (constant k) (m.operand r base v)
  | .getIndex a t key => m.getAt (base + a) (m.get (base + t)) (m.get (base + key))
  | .setIndex t key v => m.setAt (m.get (base + t)) (m.get (base + key)) (m.operand r base v)
  | .getItem a t n => m.getAt (base + a) (m.get (base + t)) (.ofNat n)
  | .setItem t n v => m.setAt (m.get (base + t)) (.ofNat n) (m.operand r base v)
  | .getField a t k => m.getAt (base + a) (m.get (base + t)) (constant k)
  | .setField t k v => m.setAt (m.get (base + t)) (constant k) (m.operand r base v)
  | .getMethod a t key =>
    let receiver := m.get (base + t)
    (m.put (base + a + 1) receiver).getAt (base + a) receiver (m.operand r base key)
  | .newTable a items entries => m.newTable (base + a) items entries
  | .setItems a count done => m.setItems (base + a) count done
  | .binary op a x y =>
    m.settle (base + a) (m.store.binary op (m.operand r base x) (m.operand r base y))
  | .unary op a b =>
    let v := m.get (base + b)
    match op with
    | .not => m.put (base + a) (.boolean !v.truth)
    | .negate => m.settle (base + a) (m.store.negate v)
    | .bitNot => m.settle (base + a) (m.store.bitNot v)
    | .length =>
      let (o, m) := m.onStore fun s => s.length v
      m.settle (base + a) o
  | .concat a n =>
    match m.frames with
    | f :: rest =>
      match f.pending with
      | some left =>
        ({ m with frames := { f with pending := none } :: rest } : Machine M).concat r base
          (base + a) (left + 1) left
      | none => m.concat r base (base + a) (n + 1) n
    | [] => m
  | .compare op x y expected =>
    let (v, w) := (m.operand r base x, m.operand r base y)
    match op with
    | .equal => m.settleTest expected (m.store.equal v w)
    | .less =>
      let (o, opposite) := m.store.compare false v w
      m.settleTest (expected != opposite) o
    | .lessEqual =>
      let (o, opposite) := m.store.compare true v w
      m.settleTest (expected != opposite) o
  | .test a expected =>
    if (m.get (base + a)).truth = expected then m else { m with pc := m.pc + 1 }
  | .testSet a b expected =>
    let v := m.get (base + b)
    if v.truth = expected then m.put (base + a) v else { m with pc := m.pc + 1 }
  | .jump target => { m with pc := target }
  | .closure a index =>
    match r.inner[index]? with
    | some inner => m.makeClosure cells base a inner
    | none => m
  | .call a args results =>
    let slot := base + a
    m.enter slot (args.getD (m.top - (slot + 1))) (.slots slot results) false
  | .tailCall a args closes =>
    let m := if closes then m.closeCells base else m
    let slot := base + a
    m.replace slot (args.getD (m.top - (slot + 1)))
  | .giveBack a count closes => m.giveBack base (base + a) count closes
  | .extra a count => m.loadExtra (base + a) count
  | .prepareExtra _ => m.prepareExtra r
  | .close a =>
    let m := m.closeCells (base + a)
    (m.closeBefore (base + a) m.freeSlot none).getD m
  | .markClosing a => m.markClosing r base a
  | .prepareCount a target => m.prepareCount (base + a) target
  | .stepCount a target => m.stepCount (base + a) target
  | .prepareEach a target => { m.markClosing r base (a + 3) with pc := target }
  | .callEach a count =>
    let m := ((m.put (base + a + 4) (m.get (base + a))).put (base + a + 5)
      (m.get (base + a + 1))).put (base + a + 6) (m.get (base + a + 2))
    let m := { m with depth := m.depth + 1 }
    if m.depth = depthLimit then m.stop "C stack overflow"
    else if depthLimit + depthReserve ≤ m.depth then m.giveUp
    else m.enter (base + a + 4) 2 (.slots (base + a + 4) (some count)) false
  | .stepEach a target =>
    let v := m.get (base + a + 4)
    if v.isNil then m else { m.put (base + a + 2) v with pc := target }

def execute (m : Machine M) : Machine M :=
  match m.frames with
  | { work := .routine r cells, slot, .. } :: _ =>
    match r.code[m.pc]? with
    | some i => { m with pc := m.pc + 1 }.perform r cells (slot + 1) i
    | none => { m with control := .halt .finished }
  | _ => { m with control := .halt .finished }

/-! ### Running -/

def step [BuildModule M T] (m : Machine M) : Machine M :=
  match m.control with
  | .run => m.execute
  | .enter slot args destination fixed => m.enter slot args destination fixed
  | .replace slot args => m.replace slot args
  | .reply s => m.reply s
  | .deliver values destination => m.deliver values destination
  | .raise error => m.beginRaise error
  | .unwind error => m.unwind error
  | .closeNext => m.closeNext
  | .finalize pending e => m.finalizeNext pending e
  | .halt _ => m

def run [BuildModule M T] : Nat → Machine M → Machine M
  | 0, m => m
  | n + 1, m =>
    match m.control with
    | .halt _ => m
    | _ => run n m.step

end Machine

end BuildVariants.Script
