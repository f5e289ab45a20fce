/-!
# Command line arguments

The command line names a command and a file of declarations; options choose the dimension,
how strictly the file is resolved and how the result is shown. `--verbose` and `--output` may
stand before the command and behind it, where they win; all other options stand behind it.
-/

set_option autoImplicit false

namespace BuildVariants.CommandLine

inductive Command
  | resolve
  | check
deriving DecidableEq, Repr

inductive OutputFormat
  | text
  | json
deriving DecidableEq, Repr

structure Arguments where
  command : Command
  file : String
  mutator : String
  neverFar : Bool
  allowMissing : Bool
  format : OutputFormat
  verbose : Bool
deriving DecidableEq, Repr

inductive Request
  | run (arguments : Arguments)
  | showVersion
  | showHelp
  | misuse
deriving DecidableEq, Repr

structure Given where
  verbose : Bool := false
  format : Option OutputFormat := none
  mutator : Option String := none
  neverFar : Bool := false
  allowMissing : Bool := false
  file : Option String := none

inductive Progress
  | continue (given : Given) (rest : List String)
  | stop (request : Request)

namespace Given

def parseFormat : String → Option OutputFormat
  | "text" => some .text
  | "json" => some .json
  | _ => none

def giveVerbose (g : Given) : Option Given :=
  if g.verbose then none else some { g with verbose := true }

def giveFormat (g : Given) (value : String) : Option Given :=
  match g.format, parseFormat value with
  | none, some format => some { g with format := some format }
  | _, _ => none

def giveMutator (g : Given) (value : String) : Option Given :=
  if g.mutator.isSome then none else some { g with mutator := some value }

def giveNeverFar (g : Given) : Option Given :=
  if g.neverFar then none else some { g with neverFar := true }

def giveAllowMissing (g : Given) : Option Given :=
  if g.allowMissing then none else some { g with allowMissing := true }

def giveFile (g : Given) (value : String) : Option Given :=
  if g.file.isSome || value.isEmpty then none else some { g with file := some value }

end Given

def proceed (rest : List String) : Option Given → Progress
  | some given => .continue given rest
  | none => .stop .misuse

def isValue (s : String) : Bool := s = "-" || !s.startsWith "-"

def withNext (rest : List String) (give : String → Option Given) : Progress :=
  match rest with
  | value :: rest => if isValue value then proceed rest (give value) else .stop .misuse
  | [] => .stop .misuse

def splitLong (s : String) : String × Option String :=
  match s.toList.dropWhile (· ≠ '=') with
  | [] => (s, none)
  | _ :: value => (String.ofList (s.toList.takeWhile (· ≠ '=')), some (String.ofList value))

def long (behind : Bool) (given : Given) (arg : String) (rest : List String) : Progress :=
  match splitLong arg with
  | ("--verbose", none) => proceed rest given.giveVerbose
  | ("--output", some value) => proceed rest (given.giveFormat value)
  | ("--output", none) => withNext rest given.giveFormat
  | ("--help", none) => .stop .showHelp
  | ("--version", none) => .stop (if behind then .misuse else .showVersion)
  | ("--mutator", some value) =>
    if behind then proceed rest (given.giveMutator value) else .stop .misuse
  | ("--mutator", none) => if behind then withNext rest given.giveMutator else .stop .misuse
  | ("--never-far", none) => if behind then proceed rest given.giveNeverFar else .stop .misuse
  | ("--allow-missing-deps", none) =>
    if behind then proceed rest given.giveAllowMissing else .stop .misuse
  | _ => .stop .misuse

/-- A cluster of short options. The value of an option is the rest of its cluster, behind an
equals sign or not, or the next argument. -/
def short (behind : Bool) (given : Given) : List Char → List String → Progress
  | [], rest => .continue given rest
  | 'v' :: cs, rest =>
    match given.giveVerbose with
    | some given => short behind given cs rest
    | none => .stop .misuse
  | 'h' :: _, _ => .stop .showHelp
  | 'V' :: _, _ => .stop (if behind then .misuse else .showVersion)
  | ['o'], rest => withNext rest given.giveFormat
  | 'o' :: '=' :: cs, rest => proceed rest (given.giveFormat (String.ofList cs))
  | 'o' :: cs, rest => proceed rest (given.giveFormat (String.ofList cs))
  | _, _ => .stop .misuse

def option (behind : Bool) (given : Given) (arg : String) (rest : List String) : Progress :=
  if arg.startsWith "--" then long behind given arg rest
  else short behind given (arg.toList.drop 1) rest

def isOption (s : String) : Bool := s.startsWith "-" && s ≠ "-"

def onlyFiles (given : Given) : List String → Option Given
  | [] => some given
  | arg :: rest => (given.giveFile arg).bind fun given => onlyFiles given rest

def finish (command : Command) (before behind : Given) : Request :=
  match behind.file with
  | none => .misuse
  | some file =>
    .run {
      command
      file
      mutator := behind.mutator.getD "transition"
      neverFar := behind.neverFar
      allowMissing := behind.allowMissing
      format := (behind.format.or before.format).getD .text
      verbose := before.verbose || behind.verbose }

def parseBehind (command : Command) (before : Given) : Nat → Given → List String → Request
  | _, given, [] => finish command before given
  | 0, _, _ :: _ => .misuse
  | n + 1, given, arg :: rest =>
    if arg = "--" then
      match onlyFiles given rest with
      | some given => finish command before given
      | none => .misuse
    else if isOption arg then
      match option true given arg rest with
      | .continue given rest => parseBehind command before n given rest
      | .stop request => request
    else
      match given.giveFile arg with
      | some given => parseBehind command before n given rest
      | none => .misuse

def parseHelp : List String → Request
  | [] => .showHelp
  | [arg] => if arg ∈ ["resolve", "check", "help"] then .showHelp else .misuse
  | _ => .misuse

def parseBefore : Nat → Given → List String → Request
  | _, _, [] => .misuse
  | 0, _, _ :: _ => .misuse
  | n + 1, given, arg :: rest =>
    if arg = "resolve" then parseBehind .resolve given rest.length {} rest
    else if arg = "check" then parseBehind .check given rest.length {} rest
    else if arg = "help" then parseHelp rest
    else if isOption arg && arg ≠ "--" then
      match option false given arg rest with
      | .continue given rest => parseBefore n given rest
      | .stop request => request
    else .misuse

def parse (args : List String) : Request := parseBefore args.length {} args

end BuildVariants.CommandLine
