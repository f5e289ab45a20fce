import BuildVariants.Script.Library.System

/-!
# Functions on files

The standard output and the standard errors take whatever is written to them. All other files are
those of the world.
-/

set_option autoImplicit false

namespace BuildVariants.Script

namespace Streams

open Native

def names : List (String × StreamFunction) :=
  [("close", .close), ("flush", .flush), ("input", .input), ("lines", .lines),
   ("open", .openFile), ("output", .output), ("popen", .pipe), ("read", .read),
   ("tmpfile", .temporaryFile), ("type", .type), ("write", .write)]

def methods : List (String × StreamFunction) :=
  [("close", .fileClose), ("flush", .fileFlush), ("lines", .fileLines), ("read", .fileRead),
   ("seek", .fileSeek), ("setvbuf", .fileBuffer), ("write", .fileWrite)]

def handlers : List (String × StreamFunction) :=
  [("__gc", .fileEnd), ("__close", .fileEnd), ("__tostring", .fileText)]

def fileType : String := "FILE*"

def stream? (s : Store) (v : Value) : Option (Option Stream) :=
  match v with
  | .handle id =>
    match s.handles[id]? with
    | some (.stream x) => some (some x)
    | some .closedFile => some none
    | _ => none
  | _ => none

def checkAnyFile (args : List Value) : Native (Option Stream) := do
  match ← look fun s => stream? s (arg args 1) with
  | some x => return x
  | none => wrongType args 1 fileType

def checkFile (args : List Value) : Native Stream := do
  match ← checkAnyFile args with
  | some x => return x
  | none => complain "attempt to use a closed file".toUTF8

def current (choose : Store → Nat) (purpose : String) : Native (Value × Stream) := do
  let id ← look choose
  match ← look fun s => stream? s (.handle id) with
  | some (some x) => return (.handle id, x)
  | _ => complain ("default " ++ purpose ++ " file is closed").toUTF8

def currentInput : Native (Value × Stream) := current Store.currentInput "input"

def currentOutput : Native (Value × Stream) := current Store.currentOutput "output"

def newFile (number : Nat) : Native Value := change fun s => s.newHandle (.stream (.file number))

/-! ### Writing -/

def writable (args : List Value) (n : Nat) : Native ByteArray :=
  match arg args n with
  | .number x => do
    return Text.ofByteChars ((Conversion.ofChars ['.', '1', '4', 'g']).float (.float x))
  | _ => checkText args n

def writeBytes (x : Stream) (bytes : ByteArray) : Native (Except Refusal Unit) :=
  match x with
  | .input => Native.pure (.error World.badDescriptor)
  | .output => do
    update fun s => s.write bytes
    return .ok ()
  | .errors => do
    update fun s => s.writeError bytes
    return .ok ()
  | .file number => consult (.write number bytes)

/-- Writes the arguments from the given one on, and returns the file. Behind a refusal nothing is
written any more. -/
def writeFrom (file : Value) (x : Stream) (args : List Value) :
    Nat → Nat → Option Refusal → Native (List Value)
  | 0, _, none => return [file]
  | 0, _, some r => return System.refused none r
  | n + 1, i, earlier => do
    let bytes ← writable args i
    match earlier with
    | some r => writeFrom file x args n (i + 1) (some r)
    | none =>
      match ← writeBytes x bytes with
      | .ok () => writeFrom file x args n (i + 1) none
      | .error r => writeFrom file x args n (i + 1) (some r)

def write (file : Value) (x : Stream) (args : List Value) (skipped : Nat) : Native (List Value) :=
  writeFrom file x args (args.length - skipped) (skipped + 1) none

def flush (file : Value) (x : Stream) : Native (List Value) := do
  match x with
  | .output =>
    update Store.flush
    return [file]
  | .file number =>
    match ← consult (.flush number) with
    | .ok () => return [file]
    | .error r => return System.refused none r
  | _ => return [file]

/-! ### Reading -/

def formatOf (args : List Value) (n : Nat) : Native ReadFormat := do
  match arg args n with
  | .integer count => return .bytes count.toUInt64.toNat
  | .number _ => return .bytes (← checkInteger args n).toUInt64.toNat
  | _ =>
    let bytes ← checkText args n
    let letters := match Text.byteChars bytes with
      | '*' :: rest => rest
      | letters => letters
    match letters.head? with
    | some 'n' => return .number
    | some 'l' => return .line false
    | some 'L' => return .line true
    | some 'a' => return .everything
    | _ => badArgument n "invalid format".toUTF8

def readFrom (x : Stream) (args : List Value) : Nat → Nat → List Value → Native (List Value)
  | 0, _, acc => return acc.reverse
  | n + 1, i, acc => do
    let format ← formatOf args i
    match ← consult (.read x format) with
    | .ok (some found) => readFrom x args n (i + 1) (found.value :: acc)
    | .ok none => return (.nil :: acc).reverse
    | .error r => return System.refused none r

def read (x : Stream) (args : List Value) (skipped : Nat) : Native (List Value) :=
  if args.length ≤ skipped then readFrom x [.ofString "l"] 1 1 []
  else readFrom x args (args.length - skipped) (skipped + 1) []

/-! ### Closing -/

def close (id : Nat) (x : Stream) : Native (List Value) := do
  match x with
  | .file number =>
    update fun s => { s with handles := s.handles.setIfInBounds id .closedFile }
    match ← consult (.close number) with
    | .ok none => return [.boolean true]
    | .ok (some exit) => return System.exitValues exit
    | .error r => return System.refused none r
  | _ => return [.nil, .ofString "cannot close standard file"]

def closeValue (v : Value) (x : Stream) : Native (List Value) :=
  match v with
  | .handle id => close id x
  | _ => Native.pure []

/-! ### Files by name -/

def isMode (mode : ByteArray) : Bool :=
  match Text.byteChars (Text.beforeNull mode) with
  | c :: rest =>
    let rest := match rest with
      | '+' :: rest => rest
      | rest => rest
    c ∈ ['r', 'w', 'a'] && (rest = [] || rest = ['b'])
  | [] => false

def opened (name : Option ByteArray) : Except Refusal Nat → Native (List Value)
  | .ok number => do return [← newFile number]
  | .error r => Native.pure (System.refused name r)

def openFile (args : List Value) : Native (List Value) := do
  let name ← checkText args 1
  let mode ← optionalText args 2 "r".toUTF8
  if isMode mode then
    opened (some name) (← consult (.openFile (Text.beforeNull name) (Text.beforeNull mode)))
  else badArgument 2 "invalid mode".toUTF8

def pipe (args : List Value) : Native (List Value) := do
  let command ← checkText args 1
  let mode ← optionalText args 2 "r".toUTF8
  if ["r", "w"].any fun m => m.toUTF8 == Text.beforeNull mode then
    opened (some command) (← consult (.openPipe (Text.beforeNull command) (Text.beforeNull mode)))
  else badArgument 2 "invalid mode".toUTF8

def openChecked (name : ByteArray) (mode : String) : Native Value := do
  let name := Text.beforeNull name
  match ← consult (.openFile name mode.toUTF8) with
  | .ok number => newFile number
  | .error r =>
    complain ("cannot open file '".toUTF8 ++ name ++ "' (".toUTF8 ++ r.message ++ ")".toUTF8)

def choose (args : List Value) (mode : String) (current : Store → Nat) (set : Nat → Store → Store) :
    Native (List Value) := do
  if isAbsent args 1 then Native.pure ()
  else
    let chosen ← match (arg args 1).toText? with
      | some name => openChecked name mode
      | none => do
        let _ ← checkFile args
        Native.pure (arg args 1)
    match chosen with
    | .handle id => update (set id)
    | _ => Native.pure ()
  return [.handle (← look current)]

/-! ### Lines -/

def formatLimit : Nat := 250

def newReader (file : Value) (formats : List Value) (closesFile : Bool) : Native Value :=
  if formatLimit < formats.length then badArgument (formatLimit + 2) "too many arguments".toUTF8
  else
    match file with
    | .handle id => change fun s => s.newReader ⟨id, formats, closesFile⟩
    | v => Native.pure v

def lines (args : List Value) : Native (List Value) := do
  if isAbsent args 1 then
    let id ← look Store.currentInput
    match ← look fun s => stream? s (.handle id) with
    | some (some _) => return [← newReader (.handle id) args.tail false]
    | _ => complain "attempt to use a closed file".toUTF8
  else
    let file ← openChecked (← checkText args 1) "r"
    return [← newReader file args.tail true, .nil, .nil, file]

def nextLine (reader : Nat) : Native (List Value) := do
  match ← look fun s => s.readers[reader]? with
  | none => return []
  | some r =>
    match ← look fun s => stream? s (.handle r.file) with
    | some (some x) =>
      let found ← read x r.formats 0
      if (arg found 1).truth then return found
      else
        match arg found 2 with
        | .text message => complain message
        | _ =>
          let _ ← if r.closesFile then close r.file x else Native.pure []
          return []
    | _ => complain "file is already closed".toUTF8

/-! ### Files -/

def seek (args : List Value) : Native (List Value) := do
  let x ← checkFile args
  let whence ← checkOption args 2 ["set", "cur", "end"] (some "cur")
  let offset ← optionalInteger args 3 0
  match ← consult (.seek x whence offset) with
  | .ok position => return [.integer position]
  | .error r => return System.refused none r

def setBuffer (args : List Value) : Native (List Value) := do
  let x ← checkFile args
  let mode ← checkOption args 2 ["no", "full", "line"] none
  let size ← optionalInteger args 3 1024
  return System.succeeded none (← consult (.buffer x mode size))

def type (args : List Value) : Native (List Value) := do
  let v ← checkAny args 1
  match ← look fun s => stream? s v with
  | some (some _) => return [.ofString "file"]
  | some none => return [.ofString "closed file"]
  | none => return [.nil]

def work (f : StreamFunction) (args : List Value) : Native (List Value) := do
  match f with
  | .close =>
    match args with
    | [] =>
      let (file, x) ← currentOutput
      closeValue file x
    | _ => closeValue (arg args 1) (← checkFile args)
  | .flush =>
    let (file, x) ← currentOutput
    flush file x
  | .input => choose args "r" Store.currentInput fun id s => { s with currentInput := id }
  | .lines => lines args
  | .openFile => openFile args
  | .output => choose args "w" Store.currentOutput fun id s => { s with currentOutput := id }
  | .pipe => pipe args
  | .read => read (← currentInput).2 args 0
  | .temporaryFile => opened none (← consult .openTemporary)
  | .type => type args
  | .write =>
    let (file, x) ← currentOutput
    write file x args 0
  | .nextLine reader => nextLine reader
  | .fileClose => closeValue (arg args 1) (← checkFile args)
  | .fileFlush => flush (arg args 1) (← checkFile args)
  | .fileLines =>
    let _ ← checkFile args
    return [← newReader (arg args 1) args.tail false]
  | .fileRead => read (← checkFile args) args 1
  | .fileSeek => seek args
  | .fileBuffer => setBuffer args
  | .fileWrite => write (arg args 1) (← checkFile args) args 1
  | .fileText =>
    match ← checkAnyFile args with
    | some _ => return [.text ("file (".toUTF8 ++ (← address (arg args 1)) ++ ")".toUTF8)]
    | none => return [.text "file (closed)".toUTF8]
  | .fileEnd =>
    match ← checkAnyFile args with
    | some (.file number) =>
      let _ ← closeValue (arg args 1) (.file number)
      return []
    | _ => return []

end Streams

end BuildVariants.Script
