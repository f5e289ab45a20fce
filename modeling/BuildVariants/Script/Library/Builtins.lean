import BuildVariants.Script.Library.Basic
import BuildVariants.Script.Library.Coroutine
import BuildVariants.Script.Library.Math
import BuildVariants.Script.Library.Packages
import BuildVariants.Script.Library.Streams
import BuildVariants.Script.Library.Tables
import BuildVariants.Script.Library.Utf8

/-!
# All builtins

A builtin belongs to one of the libraries, or it goes on with something that a library function
has begun, or it stands for a module type.
-/

set_option autoImplicit false

namespace BuildVariants.Script

namespace Builtin

open Native

def uncaught (args : List Value) : Native (List Value) :=
  match arg args 1 with
  | .handle id => do
    match ← look fun s => s.handles[id]? with
    | some (.failure ..) => return [.handle id]
    | _ => return [.text (Text.beforeNull (← shown (.handle id)))]
  | v => do return [.text (Text.beforeNull (← shown v))]

def showFailure (args : List Value) : Native (List Value) := do
  let handle? ← look fun s =>
    match arg args 1 with
    | .handle id => s.handles[id]?
    | _ => none
  match handle? with
  | some (.failure message trace) =>
    return [.text (message ++ "\n".toUTF8 ++ trace ++ "\n".toUTF8)]
  | _ => complain "not a failure".toUTF8

def work (f : Builtin) (args : List Value) : Native (List Value) :=
  match f with
  | .basic f => Basic.work f args
  | .text f => Texts.work f args
  | .table f => Tables.work f args
  | .math f => Mathematics.work f args
  | .utf8 f => Codes.work f args
  | .coroutine f => Coroutines.work f args
  | .system f => System.work f args
  | .stream f => Streams.work f args
  | .package f => Packages.work f args
  | .nextMatch search => Texts.nextMatch search
  | .wrapped thread => Coroutines.goOn thread args
  | .declare typeName => ask (.declare typeName (arg args 1))
  | .failureText => showFailure args
  | .failureEnd => Native.pure []
  | .report => uncaught args

end Builtin

end BuildVariants.Script
