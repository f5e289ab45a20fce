import BuildVariants.Script.Execution
import BuildVariants.Script.Library.Standard

/-!
# Loading declaration scripts

A script is loaded by reading it as a whole and then running it in a world. If it ends, the result
is the list of all modules that it declared, or the reason why there is none, and what the script has
written. The trace of calls that goes with an error is left out of its message.
-/

set_option autoImplicit false

namespace BuildVariants.Script

inductive FileError
  | notFound
  | isDirectory
  | notText
  | nullInName
  | nameTooLong
deriving DecidableEq, Repr

def FileError.message : FileError → String
  | .notFound => "No such file or directory (os error 2)"
  | .isDirectory => "Is a directory (os error 21)"
  | .notText => "stream did not contain valid UTF-8"
  | .nullInName => "file name contained an unexpected NUL byte"
  | .nameTooLong => "File name too long (os error 36)"

inductive LoadError
  | unreadable (path : String) (reason : FileError)
  | badName (position : Nat)
  | notScript (message : ByteArray)
  | nestedTooDeep
  | refused (message : ByteArray)
  | raised (message : ByteArray)

def LoadError.message : LoadError → String
  | .unreadable path reason => "cannot read " ++ path ++ ": " ++ reason.message
  | .badName position =>
    "lua error: runtime error: invalid name: nul byte found in provided data at position: "
      ++ toString position
  | .notScript message => "lua error: syntax error: " ++ Text.decodeLossy message
  | .nestedTooDeep => "lua error: runtime error: C stack overflow"
  | .refused message => "lua error: " ++ Text.decodeLossy message
  | .raised message => "lua error: runtime error: " ++ Text.decodeLossy message

structure Loaded (M : Type) where
  modules : Except LoadError (List M)
  /-- What was written before the script ended, and what is written when the program ends. -/
  output : Output
  errors : ByteArray
  exitCode : Option Nat

namespace Loaded

variable {M : Type}

def failed (e : LoadError) : Loaded M := ⟨.error e, ⟨.empty, .empty⟩, .empty, none⟩

end Loaded

namespace Machine

variable {M T : Type}

def mainSlot : Nat := 2

def start (world : World) (registry : Registry M) (routine : Routine) : Machine M :=
  let store := registry.names.foldl (fun (s : Store) name =>
    s.setEntry (.table s.globals) name (.builtin (.declare name))) (.standard world)
  let (cell, store) := store.newCell (.alone (.table store.globals))
  let (f, store) := store.newClosure ⟨routine, #[cell]⟩
  { registry, declared := [], store, thread := 0
    threads := #[⟨.running, #[], [], [], [], 0⟩]
    stack := #[.nil, .builtin .report, f], frames := [], top := mainSlot + 1, opened := []
    closing := [], overflown := false, pc := 0, depth := 1
    control := .enter mainSlot 0 .finished true }

def uncaught (m : Machine M) (error : Value) : LoadError :=
  match error with
  | .handle id =>
    match m.store.handles[id]? with
    | some (.failure message _) => .refused message
    | _ => .raised .empty
  | v => .raised (v.toText?.getD .empty)

def loaded? (m : Machine M) : Option (Loaded M) :=
  match m.control with
  | .halt .finished => some ⟨.ok m.declared, m.store.output, m.store.errors, none⟩
  | .halt (.failed error) => some ⟨.error (m.uncaught error), m.store.output, m.store.errors, none⟩
  | .halt (.exited code) => some ⟨.ok m.declared, m.store.output, m.store.errors, some code⟩
  | _ => none

end Machine

variable {M T : Type} [BuildModule M T]

def nullPosition? (name : ByteArray) : Option Nat := name.toList.findIdx? (· = 0)

def load (world : World) (registry : Registry M) (steps : Nat) (source : Source)
    (text : ByteArray) : Option (Loaded M) :=
  match nullPosition? source.name with
  | some position => some (.failed (.badName (position + 1)))
  | none =>
    match Routine.read source text 0 with
    | .ok routine => ((Machine.start world registry routine).run steps).loaded?
    | .error (.refused message) => some (.failed (.notScript message))
    | .error .nestedTooDeep => some (.failed .nestedTooDeep)

def loadText (world : World) (registry : Registry M) (steps : Nat) (name text : String) :
    Option (Loaded M) :=
  load world registry steps ⟨.named, name.toUTF8⟩ text.toUTF8

def nameLimit : Nat := 255

def pathLimit : Nat := 4095

def pathError? (path : String) : Option FileError :=
  let names := (path.toList.splitOn '/').dropWhile fun name =>
    name = [] || name = ['.'] || name = ['.', '.']
  if '\x00' ∈ path.toList then some .nullInName
  else if pathLimit < path.utf8ByteSize then some .nameTooLong
  else if names.head?.any fun name => nameLimit < (String.ofList name).utf8ByteSize then
    some .nameTooLong
  else none

def loadFile (world : World) (registry : Registry M) (steps : Nat) (path : String)
    (contents : Except FileError ByteArray) : Option (Loaded M) :=
  match pathError? path, contents with
  | some reason, _ => some (.failed (.unreadable path reason))
  | none, .error reason => some (.failed (.unreadable path reason))
  | none, .ok bytes =>
    match Text.decode? bytes with
    | none => some (.failed (.unreadable path .notText))
    | some _ => load world registry steps ⟨.file, path.toUTF8⟩ bytes

end BuildVariants.Script
