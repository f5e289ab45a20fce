import BuildVariants.Script.Describing
import BuildVariants.Script.Process
import BuildVariants.Script.Registry

/-!
# The machine that runs scripts

A coroutine has a stack of values and a list of frames, one for each call that has not come
back. A frame of a routine uses the slots behind the function; a frame of a builtin says how the
builtin goes on with the answer to what it asked. Every frame knows what happens with its
results. One coroutine runs; the others are kept until they are resumed. The slots of captured
variables, with their cells, and those of variables that have to be closed are listed from the
highest slot down.
-/

set_option autoImplicit false

namespace BuildVariants.Script

inductive Ending
  | finished
  | failed (error : Value)
  | exited (code : Nat)

inductive Destination
  | slots (start : Nat) (wanted : Option Nat)
  | test (expected : Bool)
  -- The instruction that made the call is done once more.
  | again (slot : Option Nat)
  | passOn
  | answer
  | guarded
  -- Unwinding goes on, with another error or with the next variable to close.
  | handled
  | closed
  | finished
  | ended
  | finalized (pending : List Nat) (e : Ending)

/-- A protected call and where its variables begin. While it is unwound, the error is known,
if there is one. -/
structure Guard where
  handler : Option Value
  level : Nat
  unwinding : Option (Option Value)

inductive Work
  | routine (r : Routine) (cells : Array Nat)
  | builtin (resume : List Value → Reply) (guard : Option Guard)

structure Frame where
  work : Work
  slot : Nat
  top : Nat
  pc : Nat
  /-- How many arguments there are; once they are sorted, how many are extra. -/
  extra : Nat
  destination : Destination
  depth : Nat
  fixed : Bool
  replaced : Bool
  pending : Option Nat

inductive Status
  | fresh (f : Value)
  | suspended
  | running
  | waiting
  | finished
  | failed (error : Value)

structure Thread where
  status : Status
  stack : Array Value
  frames : List Frame
  opened : List (Nat × Nat)
  closing : List Nat
  resumer : Nat

inductive Control
  | run
  | enter (slot args : Nat) (destination : Destination) (fixed : Bool)
  | replace (slot args : Nat)
  | reply (s : Step)
  | deliver (values : List Value) (destination : Destination)
  | raise (error : Value)
  | unwind (error : Value)
  | closeNext
  | finalize (pending : List Nat) (e : Ending)
  | halt (e : Ending)

structure Machine (M : Type) where
  registry : Registry M
  declared : List M
  store : Store
  threads : Array Thread
  thread : Nat
  stack : Array Value
  frames : List Frame
  top : Nat
  opened : List (Nat × Nat)
  closing : List Nat
  overflown : Bool
  pc : Nat
  depth : Nat
  control : Control

namespace Machine

variable {M : Type}

/-- Takes the store out of the machine, so that nothing else holds it. -/
@[noinline] def takeStore (m : Machine M) : Store × Machine M :=
  (m.store, { m with store := .empty .sealed })

@[inline] def onStore {α : Type} (m : Machine M) (f : Store → α × Store) : α × Machine M :=
  let (store, m) := m.takeStore
  let (a, store) := f store
  (a, { m with store })

/-! ### Slots -/

@[inline] def get (m : Machine M) (i : Nat) : Value := m.stack.getD i .nil

@[inline] def put (m : Machine M) (i : Nat) (v : Value) : Machine M :=
  { m with stack := m.stack.setIfInBounds i v }

def putAll (m : Machine M) : Nat → List Value → Machine M
  | _, [] => m
  | i, v :: rest => putAll (m.put i v) (i + 1) rest

def getAll (m : Machine M) (start count : Nat) : List Value :=
  (List.range count).map fun i => m.get (start + i)

def clear (m : Machine M) (start count : Nat) : Machine M :=
  count.fold (fun i _ m => m.put (start + i) .nil) m

def reach (m : Machine M) (size : Nat) : Machine M :=
  if size ≤ m.stack.size then m
  else { m with stack := m.stack ++ Array.replicate (size - m.stack.size) .nil }

def deliverTo (m : Machine M) (start : Nat) (wanted : Option Nat) (values : List Value) :
    Machine M :=
  match wanted with
  | some n =>
    let taken := values.take n
    { ((m.putAll start taken).clear (start + taken.length) (n - taken.length)) with control := .run }
  | none =>
    let size := values.length
    { ((m.reach (start + size)).putAll start values) with top := start + size, control := .run }

/-! ### Places in the script -/

def pcOf (m : Machine M) (level : Nat) : Nat :=
  if level = 0 then m.pc - 1 else ((m.frames[level]?.map Frame.pc).getD 0) - 1

def routineAt? (m : Machine M) (level : Nat) : Option Routine :=
  match m.frames[level]?.map Frame.work with
  | some (.routine r _) => some r
  | _ => none

def placeOf (m : Machine M) (level : Nat) : ByteArray :=
  match m.routineAt? level with
  | some r => r.source.messagePrefix (r.lineAt (m.pcOf level))
  | none => .empty

def locationOf? (m : Machine M) (level : Nat) : Option String :=
  (m.routineAt? level).map fun r => r.source.location (r.lineAt (m.pcOf level))

def namingOf? (m : Machine M) (level : Nat) : Option Naming :=
  match m.frames[level]? with
  | some f =>
    if f.replaced then none
    else (m.routineAt? (level + 1)).bind fun r => r.calleeName? (m.pcOf (level + 1))
  | none => none

def functionAt (m : Machine M) (level : Nat) : Value :=
  match m.frames[level]? with
  | some f => m.get f.slot
  | none => .nil

def namesIn (s : Store) (f : Value) : Nat → Nat → List ByteArray
  | 0, _ => []
  | depth + 1, id =>
    (s.table id).entries.flatMap fun (key, v) =>
      match key with
      | .text name =>
        if v.same f then [name]
        else
          match v with
          | .table inner => (namesIn s f depth inner).map fun rest => name ++ ".".toUTF8 ++ rest
          | _ => []
      | _ => []

def libraryName? (s : Store) (f : Value) : Option ByteArray :=
  (namesIn s f 2 s.loaded).head?.map fun name =>
    if name.extract 0 3 == "_G.".toUTF8 then name.extract 3 name.size else name

/-! ### Messages -/

def faultMessage (m : Machine M) (f : Fault) : ByteArray :=
  let describe (side : Side) : ByteArray :=
    match m.routineAt? 0 with
    | some r => Naming.behind (r.operandName? (m.pcOf 0) side)
    | none => .empty
  m.placeOf 0 ++ f.message m.store describe

def argumentMessage (m : Machine M) (n : Nat) (message : ByteArray) : ByteArray :=
  let naming := m.namingOf? 0
  let isMethod := (naming.map Naming.kind) = some "method"
  let n := if isMethod then n - 1 else n
  let name : ByteArray := match naming with
    | some x => Text.beforeNull x.name
    | none => (libraryName? m.store (m.functionAt 0)).getD "?".toUTF8
  m.placeOf 1 ++
    if isMethod && n = 0 then
      "calling '".toUTF8 ++ name ++ "' on bad self (".toUTF8 ++ message ++ ")".toUTF8
    else
      ("bad argument #" ++ toString n ++ " to '").toUTF8 ++ name ++ "' (".toUTF8 ++ message
        ++ ")".toUTF8

def errorOf (m : Machine M) : Complaint → Value
  | .value v => v
  | .placed level message =>
    .text ((if level = 0 then .empty else m.placeOf level) ++ message)
  | .argument n message => .text (m.argumentMessage n message)
  | .fault f => .text (m.faultMessage f)

def traceStart : Nat := 10

def traceEnd : Nat := 11

def traceLine (m : Machine M) (level : Nat) : ByteArray :=
  let place : ByteArray := match m.routineAt? level with
    | some r => r.source.shortName ++ (":" ++ toString (r.lineAt (m.pcOf level)) ++ ": in ").toUTF8
    | none => "[C]: in ".toUTF8
  let name : ByteArray := match libraryName? m.store (m.functionAt level) with
    | some name => "function '".toUTF8 ++ name ++ "'".toUTF8
    | none =>
      match m.namingOf? level with
      | some x => (x.kind ++ " '").toUTF8 ++ Text.beforeNull x.name ++ "'".toUTF8
      | none =>
        match m.routineAt? level with
        | some r =>
          if r.lineDefined = 0 then "main chunk".toUTF8
          else
            "function <".toUTF8 ++ r.source.shortName
              ++ (":" ++ toString r.lineDefined ++ ">").toUTF8
        | none => "?".toUTF8
  let replaced : ByteArray :=
    if (m.frames[level]?.map Frame.replaced).getD false then "\n\t(...tail calls...)".toUTF8
    else .empty
  "\n\t".toUTF8 ++ place ++ name ++ replaced

def trace (m : Machine M) (level : Nat) : ByteArray :=
  let last := m.frames.length - 1
  let levels := (List.range (last + 1)).drop level
  let shown (levels : List Nat) : ByteArray :=
    levels.foldl (fun acc l => acc ++ m.traceLine l) .empty
  "stack traceback:".toUTF8 ++
    if traceStart + traceEnd < last - level then
      let skipped := levels.length - traceStart - traceEnd
      shown (levels.take traceStart)
        ++ ("\n\t...\t(skipping " ++ toString (skipped - 1) ++ " levels)").toUTF8
        ++ shown (levels.drop (traceStart + skipped))
    else shown levels

end Machine

end BuildVariants.Script
