import BuildVariants.Script.Table

/-!
# What values refer to

The store holds the contents of tables, closures, captured variables and handles, and what
else outlives a call: the state of the random numbers and what was written so far. Nothing is
ever taken out, so an identity stays good.
-/

set_option autoImplicit false

namespace BuildVariants.Script

structure Closure where
  routine : Routine
  cells : Array Nat

/-- A captured variable: still in a slot of a coroutine, or on its own. -/
inductive Cell
  | inSlot (thread slot : Nat)
  | alone (v : Value)
deriving Inhabited

inductive Handle
  | failure (message trace : ByteArray)
  | stream (s : Stream)
  | closedFile

structure Search where
  subject : ByteArray
  pattern : ByteArray
  position : Nat
  last : Option Nat

/-- What was written. A part waits until the stream is flushed. -/
structure Output where
  written : ByteArray
  waiting : ByteArray

structure Reader where
  file : Nat
  formats : List Value
  closesFile : Bool

structure Store where
  world : World
  asked : Nat
  tables : Array Table
  closures : Array Closure
  cells : Array Cell
  handles : Array Handle
  searches : Array Search
  readers : Array Reader
  textMeta : Option Nat
  failureMeta : Option Nat
  fileMeta : Option Nat
  globals : Nat
  loaded : Nat
  random : RandomState
  currentInput : Nat
  currentOutput : Nat
  output : Output
  errors : ByteArray
  finalized : List Nat

namespace Store

def empty (world : World) : Store where
  world
  asked := 0
  tables := #[]
  closures := #[]
  cells := #[]
  handles := #[]
  searches := #[]
  readers := #[]
  textMeta := none
  failureMeta := none
  fileMeta := none
  globals := 0
  loaded := 0
  random := world.random
  currentInput := 0
  currentOutput := 0
  output := ⟨.empty, .empty⟩
  errors := .empty
  finalized := []

/-! ### Making things -/

def newTable (t : Table) (s : Store) : Value × Store :=
  (.table s.tables.size, { s with tables := s.tables.push t })

def newClosure (c : Closure) (s : Store) : Value × Store :=
  (.closure s.closures.size, { s with closures := s.closures.push c })

def newCell (c : Cell) (s : Store) : Nat × Store :=
  (s.cells.size, { s with cells := s.cells.push c })

def newHandle (h : Handle) (s : Store) : Value × Store :=
  (.handle s.handles.size, { s with handles := s.handles.push h })

def newSearch (x : Search) (s : Store) : Value × Store :=
  (.builtin (.nextMatch s.searches.size), { s with searches := s.searches.push x })

def newReader (x : Reader) (s : Store) : Value × Store :=
  (.builtin (.stream (.nextLine s.readers.size)), { s with readers := s.readers.push x })

/-! ### Tables -/

def table (s : Store) (id : Nat) : Table := s.tables[id]?.getD default

def modifyTable (s : Store) (id : Nat) (f : Table → Table) : Store :=
  { s with tables := s.tables.modify id f }

def rawGet (s : Store) (id : Nat) (key : Value) : Value := (s.table id).get key

def sight (s : Store) (id : Nat) (key : Value) : Store :=
  let t := s.table id
  if t.limit = t.items.size then s else s.modifyTable id fun t => t.sighted (Table.normalKey key)

def rawSet (s : Store) (id : Nat) (key value : Value) : Store :=
  let key := Table.normalKey key
  s.modifyTable id fun t => (t.sighted key).setNormal key value

def rawLength (s : Store) (id : Nat) : Nat × Store :=
  let t := s.table id
  let (n, limit) := t.measure
  (n, if limit = t.limit then s else s.modifyTable id fun t => { t with limit })

/-! ### Metatables -/

def metatable? (s : Store) : Value → Option Nat
  | .table id => (s.table id).metatable
  | .text _ => s.textMeta
  | .handle id =>
    match s.handles[id]? with
    | some (.failure ..) => s.failureMeta
    | some (.stream _) => s.fileMeta
    | some .closedFile => s.fileMeta
    | none => none
  | _ => none

def metaEntry (s : Store) (v : Value) (name : String) : Value :=
  match s.metatable? v with
  | some id => (s.table id).getString name
  | none => .nil

def typeName (s : Store) (v : Value) : ByteArray :=
  match v with
  | .table _ | .handle _ =>
    match s.metaEntry v "__name" with
    | .text name => Text.beforeNull name
    | _ => v.typeName.toUTF8
  | _ => v.typeName.toUTF8

/-! ### Output -/

def write (s : Store) (bytes : ByteArray) : Store :=
  { s with output := { s.output with waiting := s.output.waiting ++ bytes } }

def flush (s : Store) : Store :=
  { s with output := ⟨s.output.written ++ s.output.waiting, .empty⟩ }

def writeError (s : Store) (bytes : ByteArray) : Store := { s with errors := s.errors ++ bytes }

end Store

end BuildVariants.Script
