import BuildVariants.Script.Process

/-!
# Functions on coroutines

What is known about coroutines is asked of the machine.
-/

set_option autoImplicit false

namespace BuildVariants.Script

namespace Coroutines

open Native

def names : List (String × CoroutineFunction) :=
  [("close", .close), ("create", .create), ("isyieldable", .isYieldable), ("resume", .resume),
   ("running", .running), ("status", .status), ("wrap", .wrap), ("yield", .yield)]

def checkThread (args : List Value) : Native Nat :=
  match arg args 1 with
  | .thread id => Native.pure id
  | _ => wrongType args 1 "coroutine"

def statusOf (id : Nat) : Native String := do
  match arg (← ask (.status id)) 1 with
  | .text bytes => return Text.decodeLossy bytes
  | _ => return "dead"

def close (args : List Value) : Native (List Value) := do
  let id ← checkThread args
  let status ← statusOf id
  if status = "suspended" || status = "dead" then ask (.endThread id)
  else complain ("cannot close a " ++ status ++ " coroutine").toUTF8

def create (args : List Value) : Native (List Value) := do
  ask (.newThread (← checkFunction args 1))

def isYieldable (args : List Value) : Native (List Value) := do
  match args with
  | [] => ask (.isYieldable none)
  | _ => ask (.isYieldable (some (← checkThread args)))

def resume (args : List Value) : Native (List Value) := do
  let id ← checkThread args
  ask (.resume id args.tail)

def status (args : List Value) : Native (List Value) := do
  ask (.status (← checkThread args))

def wrap (args : List Value) : Native (List Value) := do
  match arg (← ask (.newThread (← checkFunction args 1))) 1 with
  | .thread id => return [.builtin (.wrapped id)]
  | v => return [v]

/-- Goes on with a wrapped coroutine. An error in it ends it and is raised again, with the
place of the call in front where it is a text. -/
def goOn (id : Nat) (args : List Value) : Native (List Value) := do
  match ← ask (.resume id args) with
  | .boolean true :: results => return results
  | results =>
    let error ← if (← statusOf id) = "dead" then do
        match ← ask (.endThread id) with
        | [_, error] => Native.pure error
        | _ => Native.pure (arg results 2)
      else Native.pure (arg results 2)
    match error with
    | .text bytes => complain bytes
    | v => fail (.value v)

def work (f : CoroutineFunction) (args : List Value) : Native (List Value) :=
  match f with
  | .close => close args
  | .create => create args
  | .isYieldable => isYieldable args
  | .resume => resume args
  | .running => ask .running
  | .status => status args
  | .wrap => wrap args
  | .yield => ask (.yield args)

end Coroutines

end BuildVariants.Script
