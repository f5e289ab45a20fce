import BuildVariants.Text.Bytes
import BuildVariants.Text.Utf8

/-!
# Sources of scripts

A script comes from a file, from memory under a name, or is itself a text that a running
script made. Declarations record the full name of their source; messages of the script itself
show a long name shortened.
-/

set_option autoImplicit false

namespace BuildVariants.Script

inductive Origin
  | file
  | named
  | text
deriving DecidableEq, Repr

structure Source where
  origin : Origin
  name : ByteArray

namespace Source

/-- The source that a running script names: a mark in front tells a file from a name. -/
def ofMarked (marked : ByteArray) : Source :=
  match marked.data.toList with
  | first :: _ =>
    if first = '@'.toUInt8 then ⟨.file, marked.extract 1 marked.size⟩
    else if first = '='.toUInt8 then ⟨.named, marked.extract 1 marked.size⟩
    else ⟨.text, marked⟩
  | [] => ⟨.text, marked⟩

def nameLimit : Nat := 59

def excerptLimit : Nat := 45

def excerpt (bytes : ByteArray) : ByteArray :=
  let line : ByteArray := ⟨bytes.data.takeWhile fun b => b ≠ '\n'.toUInt8⟩
  if line.size = bytes.size && bytes.size < excerptLimit then bytes
  else line.extract 0 excerptLimit ++ "...".toUTF8

def shortName (s : Source) : ByteArray :=
  Text.beforeNull <|
    match s.origin with
    | .named => s.name.extract 0 nameLimit
    | .file =>
      if s.name.size ≤ nameLimit then s.name
      else "...".toUTF8 ++ s.name.extract (s.name.size - 56) s.name.size
    | .text => "[string \"".toUTF8 ++ excerpt s.name ++ "\"]".toUTF8

def location (s : Source) (line : Nat) : String :=
  Text.decodeLossy (Text.beforeNull s.name) ++ ":" ++ toString line

def messagePrefix (s : Source) (line : Nat) : ByteArray :=
  s.shortName ++ (":" ++ toString line ++ ": ").toUTF8

end Source

end BuildVariants.Script
