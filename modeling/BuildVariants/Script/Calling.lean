import BuildVariants.Script.Library.Builtins
import BuildVariants.Script.Machine

/-!
# Calls, results and errors

A call takes the slots behind its function; its results go where the caller wants them. An error
is first shown to the handler of the nearest protected call, where there is one, and then
ends all calls up to there. Captured variables in slots that are given up live on by
themselves, and variables that have to be closed are closed on the way.
-/

set_option autoImplicit false

namespace BuildVariants.Script

namespace Machine

variable {M : Type}

/-- How many slots a stack can have, and how many more while an overflow is handled. -/
def slotLimit : Nat := 1000000

def slotReserve : Nat := 200

def builtinSlots : Nat := 20

/-- How deep calls may be nested that cannot be suspended by the machine, and how much deeper
while that is handled. -/
def depthLimit : Nat := 200

def depthReserve : Nat := 20

def raise (m : Machine M) (error : Value) : Machine M := { m with control := .raise error }

def stop (m : Machine M) (message : String) : Machine M :=
  m.raise (.text (m.placeOf 0 ++ message.toUTF8))

def stopFor (m : Machine M) (f : Fault) : Machine M := m.raise (.text (m.faultMessage f))

def giveUp (m : Machine M) : Machine M :=
  { m with control := .unwind (.ofString "error in error handling") }

def overflow (m : Machine M) : Machine M :=
  if m.overflown then m.giveUp else ({ m with overflown := true } : Machine M).stop "stack overflow"

def fits (m : Machine M) (top n : Nat) : Bool :=
  top + n ≤ slotLimit + (if m.overflown then slotReserve else 0)

/-! ### Frames -/

def noted (m : Machine M) : List Frame :=
  match m.frames with
  | f :: rest => { f with pc := m.pc } :: rest
  | [] => []

def pop (m : Machine M) : Machine M :=
  match m.frames with
  | _ :: f :: rest => { m with frames := f :: rest, pc := f.pc, depth := f.depth }
  | _ => { m with frames := [] }

def freeSlot (m : Machine M) : Nat := (m.frames.head?.map Frame.top).getD 1

def isFixed (m : Machine M) : Bool := (m.frames.head?.map Frame.fixed).getD false

def enterRoutine (m : Machine M) (slot args : Nat) (c : Closure) (destination : Destination)
    (fixed : Bool) : Machine M :=
  let r := c.routine
  let base := slot + 1
  if m.fits (base + args) r.slots then
    let frame : Frame :=
      { work := .routine r c.cells, slot, top := base + r.slots, pc := 0, extra := max args r.params
        destination, depth := m.depth, fixed := fixed || m.isFixed, replaced := false
        pending := none }
    let m := { m with frames := frame :: m.noted, pc := 0, control := .run }
    (m.reach (base + max args r.slots)).clear (base + args) (r.params - args)
  else m.overflow

def enterBuiltin (m : Machine M) (slot args : Nat) (f : Builtin) (destination : Destination)
    (fixed : Bool) : Machine M :=
  let top := slot + 1 + args
  if m.fits top builtinSlots then
    let frame : Frame :=
      { work := .builtin (fun values s => (.done values, s)) none, slot, top, pc := 0, extra := args
        destination, depth := m.depth, fixed := fixed || m.isFixed, replaced := false
        pending := none }
    let values := m.getAll (slot + 1) args
    let m := { m with frames := frame :: m.noted, pc := 0 }
    let (step, m) := m.onStore (f.work values).toReply
    { m with control := .reply step }
  else m.overflow

def shiftIn (m : Machine M) (slot args : Nat) (h : Value) : Machine M :=
  let values := m.getAll slot (args + 1)
  (m.reach (slot + args + 2)).putAll slot (h :: values)

def enter (m : Machine M) (slot args : Nat) (destination : Destination) (fixed : Bool) :
    Machine M :=
  match m.get slot with
  | .closure id =>
    match m.store.closures[id]? with
    | some c => m.enterRoutine slot args c destination fixed
    | none => m
  | .builtin f => m.enterBuiltin slot args f destination fixed
  | v =>
    match m.store.handler v .call with
    | .nil =>
      let name := match m.routineAt? 0 with
        | some r => Naming.behind (r.calleeName? (m.pcOf 0))
        | none => .empty
      m.raise (.text (m.placeOf 0
        ++ (Fault.mistyped "call" v .first).message m.store fun _ => name))
    | h =>
      if m.fits (slot + args + 1) 1 then
        { m.shiftIn slot args h with control := .enter slot (args + 1) destination fixed }
      else m.overflow

def invokeAt (m : Machine M) (slot : Nat) (f : Value) (args : List Value)
    (destination : Destination) (fixed : Bool) : Machine M :=
  let m := { m with depth := m.depth + 1 }
  if m.depth = depthLimit then m.stop "C stack overflow"
  else if depthLimit + depthReserve ≤ m.depth then m.giveUp
  else
    let m := (m.reach (slot + 1 + args.length)).putAll slot (f :: args)
    { m with control := .enter slot args.length destination fixed }

def invoke (m : Machine M) (f : Value) (args : List Value) (destination : Destination)
    (fixed : Bool) : Machine M :=
  m.invokeAt m.freeSlot f args destination fixed

def replaceBy (m : Machine M) (f : Frame) (old : Routine) (slot args : Nat) (c : Closure) :
    Machine M :=
  if m.fits (slot + 1 + args) c.routine.slots then
    let first := if old.variadic then f.slot - (f.extra + old.params + 1) else f.slot
    let below := m.frames.tail
    let m := m.putAll first (m.getAll slot (args + 1))
    let m := m.enterRoutine first args c f.destination f.fixed
    { m with frames := match m.frames with
        | g :: _ => { g with replaced := true } :: below
        | [] => below }
  else m.overflow

def replace (m : Machine M) (slot args : Nat) : Machine M :=
  match m.get slot, m.frames with
  | .closure id, f :: _ =>
    match m.store.closures[id]?, f.work with
    | some c, .routine old _ => m.replaceBy f old slot args c
    | _, _ => m
  | .builtin b, _ => m.enterBuiltin slot args b .passOn false
  | v, _ =>
    match m.store.handler v .call with
    | .nil => m.enter slot args .passOn false
    | h =>
      if m.fits (slot + args + 1) 1 then
        { m.shiftIn slot args h with control := .replace slot (args + 1) }
      else m.overflow

/-! ### Captured variables -/

def cellOf (m : Machine M) (slot : Nat) : Nat × Machine M :=
  match m.opened.find? fun o => o.1 = slot with
  | some (_, cell) => (cell, m)
  | none =>
    let cell : Cell := .inSlot m.thread slot
    let (cell, m) := m.onStore (Store.newCell cell)
    let (above, below) := (m.opened.takeWhile fun o => slot < o.1, m.opened.dropWhile fun o => slot < o.1)
    (cell, { m with opened := above ++ (slot, cell) :: below })

def closeCells (m : Machine M) (level : Nat) : Machine M :=
  match m.opened with
  | (slot, _) :: _ =>
    if slot < level then m
    else
      let (ended, rest) := (m.opened.takeWhile fun o => level ≤ o.1, m.opened.dropWhile fun o => level ≤ o.1)
      let stack := m.stack
      { m with
        opened := rest
        store := { m.store with
          cells := ended.foldl (fun cells (slot, cell) =>
            cells.setIfInBounds cell (.alone (stack.getD slot .nil))) m.store.cells } }
  | [] => m

def captured (m : Machine M) (cell : Nat) : Value :=
  match m.store.cells[cell]? with
  | some (.alone v) => v
  | some (.inSlot thread slot) =>
    if thread = m.thread then m.get slot
    else ((m.threads[thread]?).map fun t => t.stack.getD slot .nil).getD .nil
  | none => .nil

def setCaptured (m : Machine M) (cell : Nat) (v : Value) : Machine M :=
  match m.store.cells[cell]? with
  | some (.inSlot thread slot) =>
    if thread = m.thread then m.put slot v
    else
      { m with threads := m.threads.modify thread fun t =>
          { t with stack := t.stack.setIfInBounds slot v } }
  | _ => { m with store := { m.store with cells := m.store.cells.setIfInBounds cell (.alone v) } }

/-! ### Coroutines -/

def putAside (m : Machine M) (status : Status) : Machine M :=
  let thread : Thread :=
    { status, stack := m.stack, frames := m.noted, opened := m.opened, closing := m.closing
      resumer := (m.threads[m.thread]?.map Thread.resumer).getD 0 }
  { m with threads := m.threads.setIfInBounds m.thread thread, stack := #[], frames := [] }

def takeUp (m : Machine M) (id : Nat) : Machine M :=
  match m.threads[id]? with
  | some t =>
    let m := { m with threads := m.threads.modify id fun t =>
      { t with status := .running, stack := #[], frames := [] } }
    { m with
      thread := id, stack := t.stack, frames := t.frames, opened := t.opened, closing := t.closing
      overflown := false
      pc := (t.frames.head?.map Frame.pc).getD 0
      depth := (t.frames.head?.map Frame.depth).getD 0 }
  | none => m

def leaveThread (m : Machine M) (status : Status) (values : List Value) : Machine M :=
  let resumer := (m.threads[m.thread]?.map Thread.resumer).getD 0
  { (m.putAside status).takeUp resumer with control := .deliver values .answer }

/-! ### The end -/

def finish (m : Machine M) (e : Ending) : Machine M :=
  { m.closeCells 0 with
    frames := [], closing := [], overflown := false, depth := 0
    control := .finalize m.store.finalized e }

def finalizeNext (m : Machine M) (pending : List Nat) (e : Ending) : Machine M :=
  match pending with
  | [] => { m with control := .halt e }
  | id :: rest =>
    match m.store.metaEntry (.table id) "__gc" with
    | .nil => { m with control := .finalize rest e }
    | h =>
      let frame : Frame :=
        { work := .builtin (fun values s => (.done values, s)) (some ⟨none, 1, none⟩), slot := 0
          top := 2, pc := 0, extra := 0, destination := .finalized rest e, depth := m.depth
          fixed := true, replaced := false, pending := none }
      ({ m with frames := [frame] } : Machine M).invoke h [.table id] .guarded true

/-! ### Results -/

def answer (m : Machine M) (values : List Value) : Machine M :=
  match m.frames with
  | { work := .builtin resume _, .. } :: _ =>
    let (step, m) := m.onStore (resume values)
    { m with control := .reply step }
  | _ => { m with control := .run }

def withGuard (m : Machine M) (guard : Option Guard) : Machine M :=
  { m with frames := match m.frames with
      | f :: rest =>
        match f.work with
        | .builtin resume _ => { f with work := .builtin resume guard } :: rest
        | _ => f :: rest
      | [] => [] }

def deliver (m : Machine M) (values : List Value) (destination : Destination) : Machine M :=
  let first := values.head?.getD .nil
  match destination with
  | .slots start wanted => m.deliverTo start wanted values
  | .test expected =>
    { m with pc := if first.truth = expected then m.pc else m.pc + 1, control := .run }
  | .again slot =>
    let m := match slot with
      | some i => m.put i first
      | none => m
    { m with pc := m.pc - 1, control := .run }
  | .passOn =>
    match m.frames with
    | f :: _ => { m.pop with control := .deliver values f.destination }
    | [] => m
  | .answer => m.answer values
  | .guarded => (m.withGuard none).answer (.boolean true :: values)
  | .handled => { m with control := .unwind first }
  | .closed => { m with control := .closeNext }
  | .finished =>
    if m.thread = 0 then m.finish .finished
    else m.leaveThread .finished (.boolean true :: values)
  | .ended => m.leaveThread .finished values
  | .finalized rest e => { m with control := .finalize rest e }

/-! ### Errors -/

def handler? (m : Machine M) : Option Value :=
  let guards := m.frames.filterMap fun f =>
    match f.work with
    | .builtin _ guard => guard
    | _ => none
  match guards with
  | g :: _ => g.handler
  | [] => if m.thread = 0 then some (.builtin .report) else none

def beginRaise (m : Machine M) (error : Value) : Machine M :=
  match m.handler? with
  | some h => m.invoke h [error] .handled true
  | none => { m with control := .unwind error }

def guardedFrames : List Frame → Option (Frame × Guard × List Frame)
  | [] => none
  | f :: rest =>
    match f.work with
    | .builtin _ (some guard) => some (f, guard, rest)
    | _ => guardedFrames rest

def unwind (m : Machine M) (error : Value) : Machine M :=
  match guardedFrames m.frames with
  | some (f, guard, rest) =>
    let m := m.closeCells guard.level
    { ({ m with frames := f :: rest } : Machine M).withGuard
        (some { guard with unwinding := some (some error) }) with
      pc := f.pc, depth := f.depth, overflown := false, control := .closeNext }
  | none =>
    if m.thread = 0 then m.finish (.failed error)
    else
      let m := { m with frames := [] }
      m.leaveThread (.failed error) [.boolean false, error]

def closeNext (m : Machine M) : Machine M :=
  match m.frames with
  | { work := .builtin _ (some { level, unwinding := some error, .. }), fixed, .. } :: _ =>
    match m.closing.head?.filter fun slot => level ≤ slot with
    | some slot =>
      let m := { m with closing := m.closing.tail }
      let v := m.get slot
      m.invokeAt (slot + 2) (m.store.handler v .close) [v, error.getD .nil] .closed fixed
    | none =>
      (m.withGuard none).answer <|
        match error with
        | some e => [.boolean false, e]
        | none => [.boolean true]
  | _ => m

end Machine

end BuildVariants.Script
