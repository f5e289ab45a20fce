import BuildVariants.CommandLine.Arguments
import BuildVariants.Declared.Decoding
import BuildVariants.Declared.Pipeline
import BuildVariants.Graph.Report
import BuildVariants.Script.Loading

/-!
# Running commands

A command evaluates a file of declarations, resolves it and shows either the result or every
failure. Both commands resolve in the same way and differ only in what they show. How a file evaluates
is up to the run: its script may consult the world, and it may never end. So is the log, which settings
outside of the command line decide about and which mixes with what the script itself writes.
-/

set_option autoImplicit false

namespace BuildVariants.CommandLine

structure Outcome where
  code : Nat
  stdout : String
  stderr : String
deriving DecidableEq, Repr

namespace Outcome

def success (stdout : String) : Outcome := ⟨0, stdout, ""⟩

/-- What a command says, behind what the script and the log have written. What the script has left to
be written comes at the end. -/
def amid {M : Type} (loaded : Script.Loaded M) (journal : String) (o : Outcome) : Outcome :=
  ⟨o.code, Text.decodeLossy loaded.output.written ++ o.stdout ++ Text.decodeLossy loaded.output.waiting,
    journal ++ o.stderr⟩

end Outcome

inductive CommandError
  | load (e : Script.LoadError)
  | resolve (failures : Failures)

namespace Arguments

def options (a : Arguments) : DeclaredModule.Options := ⟨a.mutator, a.neverFar⟩

def settings (a : Arguments) : Settings := ⟨a.allowMissing⟩

def graph (a : Arguments) (modules : Except Script.LoadError (List DeclaredModule)) :
    Except CommandError (Graph DeclaredModule DepKind) := do
  ((DeclaredModule.pipeline a.options a.settings).resolve (← modules.mapError .load)).mapError
    .resolve

end Arguments

def line (s : String) : String := s ++ "\n"

def lines (ls : List String) : String := String.join (ls.map line)

def showVariant (verbose : Bool) (r : VariantReport) : List String :=
  let first := if r.deps = [] then r.label else r.label ++ " → " ++ ", ".intercalate r.deps
  if verbose && !r.variations.isDefault then [first, "    " ++ r.variations.render] else [first]

def showReport (verbose : Bool) (r : GraphReport) (variants : Nat) : List String :=
  r.modules.flatMap (fun m => m.variants.flatMap (showVariant verbose))
    ++ ["", "✓ Resolved " ++ toString r.modules.length ++ " module(s) into "
        ++ toString variants ++ " variant(s)"]
    ++ if verbose then ["• Mutators: " ++ ", ".intercalate r.mutators] else []

def resolveOutput (a : Arguments) (g : Graph DeclaredModule DepKind) : List String :=
  let report := g.report [a.mutator]
  match a.format with
  | .json => [report.toJson.pretty]
  | .text => showReport a.verbose report g.size

def checkOutput (a : Arguments) (g : Graph DeclaredModule DepKind) : List String :=
  match a.format with
  | .json =>
    [(Json.record [("modules", .integer g.groups.length), ("ok", .bool true),
      ("variants", .integer g.size)]).pretty]
  | .text =>
    ["✓ " ++ a.file ++ ": " ++ toString g.groups.length ++ " module(s), " ++ toString g.size
      ++ " variant(s) resolved"]

def output (a : Arguments) (g : Graph DeclaredModule DepKind) : List String :=
  match a.command with
  | .resolve => resolveOutput a g
  | .check => checkOutput a g

def failureOutcome (a : Arguments) (failures : Failures) : Outcome :=
  let summary := "Error: resolution failed with " ++ toString failures.size ++ " error(s)"
  match a.format with
  | .json =>
    let report := Json.record
      [("errors", .list (failures.messages.map .text)), ("ok", .bool false)]
    ⟨1, line report.pretty, line summary⟩
  | .text => ⟨1, "", lines (failures.messages.map (fun m => "✗ " ++ m) ++ [summary])⟩

def loadOutcome (a : Arguments) (e : Script.LoadError) : Outcome :=
  ⟨1, "", lines ["Error: Failed to evaluate modules: " ++ a.file, "", "Caused by:",
    "    " ++ e.message]⟩

def present (a : Arguments) (modules : Except Script.LoadError (List DeclaredModule)) : Outcome :=
  match a.graph modules with
  | .ok g => .success (lines (output a g))
  | .error (.resolve failures) => failureOutcome a failures
  | .error (.load e) => loadOutcome a e

/-- One run of the program: how the contents of files evaluate in it, if their scripts end, and what
stands on standard error before a command says anything. -/
structure Run where
  evaluate : String → Except Script.FileError ByteArray → Option (Script.Loaded DeclaredModule)
  journal : Arguments → Script.Loaded DeclaredModule → String

def Run.silent (world : Script.World) (steps : Nat) : Run where
  evaluate := Script.loadFile world DeclaredModule.moduleTypes steps
  journal _ loaded := Text.decodeLossy loaded.errors

def execute (r : Run) (a : Arguments) (contents : Except Script.FileError ByteArray) :
    Option Outcome :=
  (r.evaluate a.file contents).map fun loaded =>
    let said : Outcome := match loaded.exitCode with
      | some code => ⟨code, "", ""⟩
      | none => present a loaded.modules
    said.amid loaded (r.journal a loaded)

def versionText : String := "varia 0.1.0"

def helpText : String :=
  "Usage: varia [-v] [-o <text|json>] <resolve|check> [--mutator <NAME>] [--never-far] "
    ++ "[--allow-missing-deps] <FILE>"

def respond (r : Run) (read : String → Except Script.FileError ByteArray) :
    Request → Option Outcome
  | .run a => execute r a (read a.file)
  | .showVersion => some (.success (line versionText))
  | .showHelp => some (.success (line helpText))
  | .misuse => some ⟨2, "", line helpText⟩

end BuildVariants.CommandLine
