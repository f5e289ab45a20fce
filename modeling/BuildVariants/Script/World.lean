import BuildVariants.Script.Value

/-!
# The world of a script

Not everything that a script can see follows from the script: the time, the variables of the
environment, files, random numbers and the addresses that decide about the order of a traversal are
those of the process that runs it. They are left to the world, which may answer the same question
differently every time.
-/

set_option autoImplicit false

namespace BuildVariants.Script

structure RandomState where
  a : UInt64
  b : UInt64
  c : UInt64
  d : UInt64

/-- How the keys of tables are spread: texts by a seed, and all that has an identity by its
address. -/
structure Spread where
  seed : UInt32
  address : Value → Nat
deriving Inhabited

structure Zone where
  name : Int → String
  offset : Int → Int
  moment : Option Bool → Int → Int
  isSummer : Int → Bool

inductive Stream
  | input
  | output
  | errors
  | file (number : Nat)
deriving DecidableEq, Repr

inductive ReadFormat
  | number
  | everything
  | line (keepsEnd : Bool)
  | bytes (count : Nat)

inductive Scalar
  | boolean (b : Bool)
  | number (n : Numeral)
  | text (bytes : ByteArray)

def Scalar.value : Scalar → Value
  | .boolean b => .boolean b
  | .number n => .ofNumeral n
  | .text bytes => .text bytes

structure Refusal where
  message : ByteArray
  number : Int64

inductive Exit
  | exited (code : Int64)
  | signalled (number : Int64)

inductive Question
  | seed
  | clock
  | time
  | environment (name : ByteArray)
  | shell
  | execute (command : ByteArray)
  | remove (name : ByteArray)
  | rename (name newName : ByteArray)
  | temporaryName
  | locale (name : Option ByteArray) (category : String)
  | collect (option : String) (arguments : List Int64)
  | contents (name : Option ByteArray)
  | isReadable (name : ByteArray)
  | openFile (name mode : ByteArray)
  | openPipe (command mode : ByteArray)
  | openTemporary
  | read (s : Stream) (format : ReadFormat)
  | write (file : Nat) (bytes : ByteArray)
  | flush (file : Nat)
  | seek (s : Stream) (whence : String) (offset : Int64)
  | buffer (s : Stream) (mode : String) (size : Int64)
  | close (file : Nat)

@[reducible] def Question.Answer : Question → Type
  | .seed => UInt64
  | .clock => Float
  | .time => Int64
  | .environment _ => Option ByteArray
  | .shell => Bool
  | .execute _ => Except Refusal Exit
  | .remove _ => Except Refusal Unit
  | .rename .. => Except Refusal Unit
  | .temporaryName => Option ByteArray
  | .locale .. => Option ByteArray
  | .collect .. => Scalar
  -- What failed comes before the reason.
  | .contents _ => Except (String × Refusal) ByteArray
  | .isReadable _ => Bool
  | .openFile .. => Except Refusal Nat
  | .openPipe .. => Except Refusal Nat
  | .openTemporary => Except Refusal Nat
  | .read .. => Except Refusal (Option Scalar)
  | .write .. => Except Refusal Unit
  | .flush _ => Except Refusal Unit
  | .seek .. => Except Refusal Int64
  | .buffer .. => Except Refusal Unit
  | .close _ => Except Refusal (Option Exit)

structure World where
  spread : Spread
  random : RandomState
  zone : Zone
  path : ByteArray
  libraryPath : ByteArray
  /-- The answer to a question that is the `n`th one. -/
  answer : Nat → (q : Question) → q.Answer

namespace World

def defaultPath : String :=
  "/usr/local/share/lua/5.4/?.lua;/usr/local/share/lua/5.4/?/init.lua;"
    ++ "/usr/local/lib/lua/5.4/?.lua;/usr/local/lib/lua/5.4/?/init.lua;./?.lua;./?/init.lua"

def defaultLibraryPath : String :=
  "/usr/local/lib/lua/5.4/?.so;/usr/local/lib/lua/5.4/loadall.so;./?.so"

def noSuchFile : Refusal := ⟨"No such file or directory".toUTF8, 2⟩

def badDescriptor : Refusal := ⟨"Bad file descriptor".toUTF8, 9⟩

def sealed : World where
  spread :=
    { seed := 0
      address := fun v =>
        let id := match v with
          | .table id => 5 * id
          | .closure id => 5 * id + 1
          | .thread id => 5 * id + 2
          | .handle id => 5 * id + 3
          | .builtin (.nextMatch id) => 15 * id + 4
          | .builtin (.wrapped id) => 15 * id + 9
          | .builtin _ => 14
          | _ => 0
        0x55d0c0000000 + 16 * id }
  random := ⟨0x9e3779b97f4a7c15, 0xff, 0, 0⟩
  zone := ⟨fun _ => "UTC", fun _ => 0, fun _ seconds => seconds, fun _ => false⟩
  path := defaultPath.toUTF8
  libraryPath := defaultLibraryPath.toUTF8
  answer
    | _, .seed => 0x9e3779b97f4a7c15
    | _, .clock => 0.01
    | _, .time => 1735689600
    | _, .environment _ => none
    | _, .shell => true
    | _, .execute _ => .ok (.exited 127)
    | _, .remove _ => .error noSuchFile
    | _, .rename .. => .error noSuchFile
    | _, .temporaryName => some "/tmp/lua_0ByKqJ".toUTF8
    | _, .locale name _ =>
      if name.all fun n => ["", "C", "POSIX"].any fun known => known.toUTF8 == n then
        some "C".toUTF8
      else none
    | _, .collect "count" _ => .number (.float 22.5)
    | _, .collect "step" _ => .boolean true
    | _, .collect "isrunning" _ => .boolean true
    | _, .collect "setpause" _ => .number (.integer 200)
    | _, .collect "setstepmul" _ => .number (.integer 100)
    | _, .collect "generational" _ => .text "incremental".toUTF8
    | _, .collect "incremental" _ => .text "incremental".toUTF8
    | _, .collect _ _ => .number (.integer 0)
    | _, .contents none => .ok .empty
    | _, .contents (some _) => .error ("open", noSuchFile)
    | _, .isReadable _ => false
    | _, .openFile .. => .error noSuchFile
    | _, .openPipe .. => .error ⟨"Cannot allocate memory".toUTF8, 12⟩
    | _, .openTemporary => .error ⟨"Permission denied".toUTF8, 13⟩
    | _, .read .input .everything => .ok (some (.text .empty))
    | _, .read .input _ => .ok none
    | _, .read .. => .error badDescriptor
    | _, .write .. => .error badDescriptor
    | _, .flush _ => .ok ()
    | _, .seek .. => .error ⟨"Illegal seek".toUTF8, 29⟩
    | _, .buffer .. => .ok ()
    | _, .close _ => .ok none

end World

end BuildVariants.Script
