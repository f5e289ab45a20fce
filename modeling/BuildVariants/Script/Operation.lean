import BuildVariants.Script.Store

/-!
# Operations on values

What an operation comes to: a value, a call of a handler from a metatable, or a fault. Nothing
is called here; whoever asked for the operation makes the call and uses its first result.
-/

set_option autoImplicit false

namespace BuildVariants.Script

inductive Event
  | index | newIndex | call | close | length | equal | less | lessEqual | concat
  | binary (op : BinaryOp)
  | negate | bitNot
deriving DecidableEq, Repr

namespace Event

def name : Event → String
  | .index => "index"
  | .newIndex => "newindex"
  | .call => "call"
  | .close => "close"
  | .length => "len"
  | .equal => "eq"
  | .less => "lt"
  | .lessEqual => "le"
  | .concat => "concat"
  | .binary op => match op with
    | .add => "add"
    | .sub => "sub"
    | .mul => "mul"
    | .mod => "mod"
    | .pow => "pow"
    | .div => "div"
    | .floorDiv => "idiv"
    | .bitAnd => "band"
    | .bitOr => "bor"
    | .bitXor => "bxor"
    | .shiftLeft => "shl"
    | .shiftRight => "shr"
  | .negate => "unm"
  | .bitNot => "bnot"

def key (e : Event) : String := "__" ++ e.name

end Event

inductive Side
  | first
  | second
  | neither
deriving DecidableEq, Repr

inductive Fault
  | mistyped (deed : String) (v : Value) (side : Side)
  | notInteger (side : Side)
  | incomparable (a b : Value)
  | other (message : String)

inductive Outcome
  | value (v : Value)
  | call (handler : Value) (args : List Value)
  | fault (f : Fault)

def Fault.message (s : Store) (describe : Side → ByteArray) : Fault → ByteArray
  | .mistyped deed v side =>
    ("attempt to " ++ deed ++ " a ").toUTF8 ++ s.typeName v ++ " value".toUTF8 ++ describe side
  | .notInteger side =>
    "number".toUTF8 ++ describe side ++ " has no integer representation".toUTF8
  | .incomparable a b =>
    let (x, y) := (s.typeName a, s.typeName b)
    if x == y then "attempt to compare two ".toUTF8 ++ x ++ " values".toUTF8
    else "attempt to compare ".toUTF8 ++ x ++ " with ".toUTF8 ++ y
  | .other message => message.toUTF8

namespace Store

def handler (s : Store) (v : Value) (e : Event) : Value := s.metaEntry v e.key

def handlerOfEither (s : Store) (a b : Value) (e : Event) : Value :=
  match s.handler a e with
  | .nil => s.handler b e
  | h => h

def chainLimit : Nat := 2000

def indexFrom (s : Store) (key : Value) : Nat → Value → Side → Outcome
  | 0, _, _ => .fault (.other "'__index' chain too long; possibly a loop")
  | n + 1, v, side =>
    let behind (h : Value) : Outcome :=
      if h.isFunction then .call h [v, key] else indexFrom s key n h .neither
    match v with
    | .table id =>
      let t := s.table id
      match t.get key with
      | .nil =>
        match t.metatable with
        | none => .value .nil
        | some m =>
          match (s.table m).getString Event.index.key with
          | .nil => .value .nil
          | h => behind h
      | found => .value found
    | _ =>
      match s.handler v .index with
      | .nil => .fault (.mistyped "index" v side)
      | h => behind h

def index (s : Store) (v key : Value) : Outcome := indexFrom s key chainLimit v .first

def setFrom (key value : Value) : Nat → Value → Side → Store → Outcome × Store
  | 0, _, _, s => (.fault (.other "'__newindex' chain too long; possibly a loop"), s)
  | n + 1, v, side, s =>
    let behind (h : Value) (s : Store) : Outcome × Store :=
      if h.isFunction then (.call h [v, key, value], s) else setFrom key value n h .neither s
    match v with
    | .table id =>
      let h : Value := match (s.table id).metatable with
        | none => .nil
        | some m =>
          match s.rawGet id key with
          | .nil => (s.table m).getString Event.newIndex.key
          | _ => .nil
      match h with
      | .nil =>
        match Table.keyError? key with
        | some e => (.fault (.other e.message), s)
        | none => (.value .nil, s.rawSet id key value)
      | h => behind h s
    | _ =>
      match s.handler v .newIndex with
      | .nil => (.fault (.mistyped "index" v side), s)
      | h => behind h s

def setIndex (s : Store) (v key value : Value) : Outcome × Store :=
  setFrom key value chainLimit v .first s

def notNumber (a b : Value) : Value × Side :=
  if a.numeral?.isSome then (b, .second) else (a, .first)

def arithmeticFault (op : BinaryOp) (a b : Value) : Fault :=
  let (v, side) := notNumber a b
  if op.isBitwise then
    match a.numeral?, b.numeral? with
    | some x, some _ => .notInteger (if x.integer?.isSome then .second else .first)
    | _, _ => .mistyped "perform bitwise operation on" v side
  else .mistyped "perform arithmetic on" v side

def binary (s : Store) (op : BinaryOp) (a b : Value) : Outcome :=
  let handled : Unit → Outcome := fun _ =>
    match s.handlerOfEither a b (.binary op) with
    | .nil => .fault (arithmeticFault op a b)
    | h => .call h [a, b]
  match a.numeral?, b.numeral? with
  | some x, some y =>
    match Numeral.binary op x y with
    | .ok n => .value (.ofNumeral n)
    | .error .notInteger => handled ()
    | .error e => .fault (.other e.message)
  | _, _ => handled ()

def negate (s : Store) (a : Value) : Outcome :=
  match a.numeral? with
  | some n => .value (.ofNumeral n.negate)
  | none =>
    match s.handler a .negate with
    | .nil => .fault (.mistyped "perform arithmetic on" a .first)
    | h => .call h [a, a]

def bitNot (s : Store) (a : Value) : Outcome :=
  let handled (f : Fault) : Outcome :=
    match s.handler a .bitNot with
    | .nil => .fault f
    | h => .call h [a, a]
  match a.numeral? with
  | some n =>
    match n.bitNot with
    | .ok n => .value (.ofNumeral n)
    | .error _ => handled (.notInteger .first)
  | none => handled (.mistyped "perform bitwise operation on" a .first)

def length (s : Store) (a : Value) : Outcome × Store :=
  match a with
  | .text bytes => (.value (.ofNat bytes.size), s)
  | .table id =>
    match s.handler a .length with
    | .nil =>
      let (n, s) := s.rawLength id
      (.value (.ofNat n), s)
    | h => (.call h [a, a], s)
  | _ =>
    match s.handler a .length with
    | .nil => (.fault (.mistyped "get length of" a .first), s)
    | h => (.call h [a, a], s)

def equal (s : Store) (a b : Value) : Outcome :=
  let handled : Unit → Outcome := fun _ =>
    match s.handlerOfEither a b .equal with
    | .nil => .value (.boolean false)
    | h => .call h [a, b]
  match a, b with
  | .table x, .table y => if x = y then .value (.boolean true) else handled ()
  | .handle x, .handle y => if x = y then .value (.boolean true) else handled ()
  | _, _ => .value (.boolean (a.same b))

/-- The order of numbers and of texts; all else needs a handler. The outcome of a handler for
the opposite order counts as its opposite, which the flag says. -/
def compare (s : Store) (orEqual : Bool) (a b : Value) : Outcome × Bool :=
  let handled : Unit → Outcome × Bool := fun _ =>
    match s.handlerOfEither a b (if orEqual then .lessEqual else .less) with
    | .nil =>
      let opposite : Value := if orEqual then s.handlerOfEither b a .less else .nil
      match opposite with
      | .nil => (.fault (.incomparable a b), false)
      | h => (.call h [b, a], true)
    | h => (.call h [a, b], false)
  match a, b with
  | .text x, .text y =>
    (.value (.boolean (if orEqual then !Text.bytesLess y.toList x.toList
      else Text.bytesLess x.toList y.toList)), false)
  | _, _ =>
    match a.numeral?, b.numeral? with
    | some x, some y => (.value (.boolean (if orEqual then x.lessEqual y else x.less y)), false)
    | _, _ => handled ()

def concatHandled (s : Store) (a b : Value) : Outcome :=
  match s.handlerOfEither a b .concat with
  | .nil =>
    let joinable := match a with
      | .text _ => true
      | _ => a.numeral?.isSome
    .fault (if joinable then .mistyped "concatenate" b .second else .mistyped "concatenate" a .first)
  | h => .call h [a, b]

end Store

end BuildVariants.Script
