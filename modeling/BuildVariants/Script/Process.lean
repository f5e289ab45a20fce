import BuildVariants.Script.Operation

/-!
# Builtins as processes

A builtin works on the store and comes to an end with values or with a complaint. Whatever
concerns the running script, such as calling a function of it, a builtin asks of the machine,
and goes on with the answer. A builtin can therefore wait in the middle of its work.
-/

set_option autoImplicit false

namespace BuildVariants.Script

inductive Complaint
  | value (v : Value)
  | placed (level : Nat) (message : ByteArray)
  | argument (n : Nat) (message : ByteArray)
  | fault (f : Fault)

inductive Query
  | call (f : Value) (args : List Value)
  | protect (f : Value) (args : List Value) (handler : Option Value)
  | yield (values : List Value)
  | resume (thread : Nat) (args : List Value)
  | endThread (thread : Nat)
  | newThread (f : Value)
  | running
  | status (thread : Nat)
  | isYieldable (thread : Option Nat)
  | read (source : Source) (text : ByteArray) (environment : Option Value)
  | declare (typeName : String) (argument : Value)
  | refuse (message : String)
  | exit (code : Nat)

inductive Step
  | done (values : List Value)
  | fail (c : Complaint)
  | ask (q : Query) (resume : List Value → Store → Step × Store)

abbrev Reply := Store → Step × Store

instance : Inhabited Step := ⟨.done []⟩

/-- A part of a builtin's work with a result, given what is done with the result. -/
def Native (α : Type) : Type := (α → Reply) → Reply

namespace Native

variable {α β : Type}

@[inline] def pure (a : α) : Native α := fun k => k a

@[inline] def bind (x : Native α) (f : α → Native β) : Native β := fun k => x fun a => f a k

instance : Monad Native where
  pure := pure
  bind := bind

instance : Inhabited (Native α) := ⟨fun _ s => (default, s)⟩

def fail (c : Complaint) : Native α := fun _ s => (.fail c, s)

def ask (q : Query) : Native (List Value) := fun k s => (.ask q k, s)

@[inline] def look (f : Store → α) : Native α := fun k s => k (f s) s

@[inline] def change (f : Store → α × Store) : Native α := fun k s =>
  let (a, s) := f s
  k a s

@[inline] def update (f : Store → Store) : Native Unit := fun k s => k () (f s)

def toReply (x : Native (List Value)) : Reply := x fun values s => (.done values, s)

def consult (q : Question) : Native q.Answer :=
  change fun s => (s.world.answer s.asked q, { s with asked := s.asked + 1 })

/-! ### Complaints -/

def complain (message : ByteArray) : Native α := fail (.placed 1 message)

def badArgument (n : Nat) (message : ByteArray) : Native α := fail (.argument n message)

def argumentType (s : Store) : Option Value → ByteArray
  | some v =>
    match s.metaEntry v "__name" with
    | .text name => Text.beforeNull name
    | _ => v.typeName.toUTF8
  | none => "no value".toUTF8

def wrongType (args : List Value) (n : Nat) (expected : String) : Native α := do
  let found ← look fun s => argumentType s args[n - 1]?
  badArgument n ((expected ++ " expected, got ").toUTF8 ++ found)

/-! ### Arguments, counted from one -/

def arg (args : List Value) (n : Nat) : Value := args[n - 1]?.getD .nil

def isAbsent (args : List Value) (n : Nat) : Bool := (arg args n).isNil

def checkAny (args : List Value) (n : Nat) : Native Value :=
  match args[n - 1]? with
  | some v => pure v
  | none => badArgument n "value expected".toUTF8

def checkTable (args : List Value) (n : Nat) : Native Nat :=
  match args[n - 1]? with
  | some (.table id) => pure id
  | _ => wrongType args n "table"

def checkFunction (args : List Value) (n : Nat) : Native Value :=
  let v := arg args n
  if v.isFunction then pure v else wrongType args n "function"

def checkNumeral (args : List Value) (n : Nat) : Native Numeral :=
  match (arg args n).toNumeral? with
  | some x => pure x
  | none => wrongType args n "number"

def checkFloat (args : List Value) (n : Nat) : Native Float := do
  return (← checkNumeral args n).toFloat

def checkInteger (args : List Value) (n : Nat) : Native Int64 :=
  match (arg args n).toNumeral? with
  | some x =>
    match x.integer? with
    | some i => pure i
    | none => badArgument n "number has no integer representation".toUTF8
  | none => wrongType args n "number"

def checkText (args : List Value) (n : Nat) : Native ByteArray :=
  match (arg args n).toText? with
  | some bytes => pure bytes
  | none => wrongType args n "string"

def optionalInteger (args : List Value) (n : Nat) (default : Int64) : Native Int64 :=
  if isAbsent args n then pure default else checkInteger args n

def optionalText (args : List Value) (n : Nat) (default : ByteArray) : Native ByteArray :=
  if isAbsent args n then pure default else checkText args n

def checkOption (args : List Value) (n : Nat) (options : List String) (default : Option String) :
    Native String := do
  let chosen ← match default with
    | some s => optionalText args n s.toUTF8
    | none => checkText args n
  match options.find? fun o => o.toUTF8 == Text.beforeNull chosen with
  | some o => return o
  | none =>
    badArgument n ("invalid option '".toUTF8 ++ Text.beforeNull chosen ++ "'".toUTF8)

/-! ### Operations on values -/

def settle (o : Outcome) : Native Value :=
  match o with
  | .value v => pure v
  | .call h args => do return (← ask (.call h args)).head?.getD .nil
  | .fault f => fail (.fault f)

def index (v key : Value) : Native Value := do
  match v with
  | .table id => update fun s => s.sight id key
  | _ => pure ()
  settle (← look fun s => s.index v key)

def setIndex (v key value : Value) : Native Unit := do
  let _ ← settle (← change fun s => s.setIndex v key value)

def equal (a b : Value) : Native Bool := do
  return (← settle (← look fun s => s.equal a b)).truth

def compare (orEqual : Bool) (a b : Value) : Native Bool := do
  let (o, opposite) ← look fun s => s.compare orEqual a b
  return (← settle o).truth != opposite

def length (v : Value) : Native Value := do
  settle (← change fun s => s.length v)

def integerLength (v : Value) : Native Int64 := do
  match (← length v).toInteger? with
  | some n => return n
  | none => complain "object length is not an integer".toUTF8

def address (v : Value) : Native ByteArray := do
  let place ← look fun s => s.world.spread.address v
  return ("0x" ++ String.ofList (Nat.toDigits 16 place)).toUTF8

def shown (v : Value) : Native ByteArray := do
  match ← look fun s => s.metaEntry v "__tostring" with
  | .nil =>
    match v with
    | .nil => return "nil".toUTF8
    | .boolean b => return (if b then "true" else "false").toUTF8
    | v =>
      match v.toText? with
      | some bytes => return bytes
      | none => do
        let name ← look fun s => s.metaEntry v "__name"
        let kind := match name with
          | .text bytes => Text.beforeNull bytes
          | _ => v.typeName.toUTF8
        return kind ++ ": ".toUTF8 ++ (← address v)
  | h =>
    match ((← ask (.call h [v])).head?.getD .nil).toText? with
    | some bytes => return bytes
    | none => complain "'__tostring' must return a string".toUTF8

end Native

end BuildVariants.Script
