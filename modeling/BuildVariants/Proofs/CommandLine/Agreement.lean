import BuildVariants.CommandLine.Outcome
import BuildVariants.Proofs.Graph.Report
import BuildVariants.Proofs.Pipeline.Run

/-!
# What the commands say

Both commands load and resolve a file in the same way. When evaluating it comes to the same end in two
runs, they show the same messages if that fails, and else one prints the report and the other counts
what the report lists. A script that ends the program keeps them from saying anything, and a script
that consults the world can come to another end in another run.
-/

set_option autoImplicit false

namespace BuildVariants.CommandLine

open Script

def Arguments.showing (a : Arguments) (command : Command) (format : OutputFormat)
    (verbose : Bool) : Arguments :=
  { a with command, format, verbose }

def CommandError.messages : CommandError → List String
  | .load e => [e.message]
  | .resolve failures => failures.messages

def failureSummary (messages : List String) : String :=
  "Error: resolution failed with " ++ toString messages.length ++ " error(s)"

/-- How a command that fails shows messages. -/
inductive Shows (a : Arguments) : List String → Outcome → Prop
  | listed (messages : List String) (text : a.format = .text) :
      Shows a messages
        ⟨1, "", lines (messages.map (fun m => "✗ " ++ m) ++ [failureSummary messages])⟩
  | encoded (messages : List String) (json : a.format = .json) :
      Shows a messages
        ⟨1, line (Json.record [("errors", .list (messages.map .text)), ("ok", .bool false)]).pretty,
          line (failureSummary messages)⟩
  | cause (message : String) :
      Shows a [message] ⟨1, "", lines ["Error: Failed to evaluate modules: " ++ a.file, "",
        "Caused by:", "    " ++ message]⟩

theorem Shows.code {a : Arguments} {messages : List String} {said : Outcome}
    (fails : Shows a messages said) : said.code = 1 := by
  cases fails <;> rfl

def checkLines (a : Arguments) (r : GraphReport) : List String :=
  match a.format with
  | .json =>
    [(Json.record [("modules", .integer r.modules.length), ("ok", .bool true),
      ("variants", .integer r.variantCount)]).pretty]
  | .text =>
    ["✓ " ++ a.file ++ ": " ++ toString r.modules.length ++ " module(s), "
      ++ toString r.variantCount ++ " variant(s) resolved"]

def resolveLines (a : Arguments) (r : GraphReport) : List String :=
  match a.format with
  | .json => [r.toJson.pretty]
  | .text => showReport a.verbose r r.variantCount

/-- Both scripts end the program with the same code, or neither does and they declare the same modules
or fail with the same error. -/
structure SameEnd (loaded loaded' : Loaded DeclaredModule) : Prop where
  exitCode : loaded'.exitCode = loaded.exitCode
  modules : loaded.exitCode = none → loaded'.modules = loaded.modules

/-- In the run the script comes to an end, and behind what it and the log have written the command
says this. -/
def Tells (r : Run) (a : Arguments) (contents : Except FileError ByteArray) (said : Outcome) : Prop :=
  ∃ loaded, r.evaluate a.file contents = some loaded ∧
    execute r a contents = some (said.amid loaded (r.journal a loaded))

/-- Both commands fail and show the same messages in the same order, or both succeed and say the
same of one report, which tells all of the graph of the declared modules. -/
def Agree (r r' : Run) (check resolve : Arguments) (contents : Except FileError ByteArray) : Prop :=
  (∃ messages shownByCheck shownByResolve,
    Shows check messages shownByCheck ∧ Shows resolve messages shownByResolve ∧
    Tells r check contents shownByCheck ∧ Tells r' resolve contents shownByResolve) ∨
  ∃ loaded modules g, r.evaluate check.file contents = some loaded ∧ loaded.modules = .ok modules ∧
    (DeclaredModule.pipeline resolve.options resolve.settings).resolve modules = .ok g ∧
    g.Reported (modules.map DeclaredModule.name) (g.report [resolve.mutator]) ∧
    Tells r check contents (.success (lines (checkLines check (g.report [resolve.mutator])))) ∧
    Tells r' resolve contents (.success (lines (resolveLines resolve (g.report [resolve.mutator]))))

section Execute

variable {r : Run} {a : Arguments} {contents : Except FileError ByteArray}
  {loaded : Loaded DeclaredModule}

theorem tells_of_exit (ran : r.evaluate a.file contents = some loaded) {code : Nat}
    (exit : loaded.exitCode = some code) : Tells r a contents ⟨code, "", ""⟩ :=
  ⟨loaded, ran, by simp only [execute, ran, exit, Option.map_some]⟩

theorem tells_of_end (ran : r.evaluate a.file contents = some loaded)
    (ends : loaded.exitCode = none) : Tells r a contents (present a loaded.modules) :=
  ⟨loaded, ran, by simp only [execute, ran, ends, Option.map_some]⟩

variable {modules : Except LoadError (List DeclaredModule)}

theorem present_of_graph {g : Graph DeclaredModule DepKind} (h : a.graph modules = .ok g) :
    present a modules = .success (lines (output a g)) := by
  simp only [present, h]

/-- A failing command shows the messages of its error. -/
theorem shows_of_graph_error {e : CommandError} (h : a.graph modules = .error e) :
    Shows a e.messages (present a modules) := by
  cases e with
  | load e =>
    simp only [present, h]
    exact .cause e.message
  | resolve failures =>
    simp only [present, h, failureOutcome]
    have count : failures.size = failures.messages.length := by
      simp [Failures.size, Failures.messages]
    cases format : a.format with
    | text =>
      simp only [count]
      exact .listed failures.messages format
    | json =>
      simp only [count]
      exact .encoded failures.messages format

theorem graph_eq_ok_iff {g : Graph DeclaredModule DepKind} :
    a.graph modules = .ok g ↔ ∃ declared, modules = .ok declared ∧
      (DeclaredModule.pipeline a.options a.settings).resolve declared = .ok g := by
  simp only [Arguments.graph, bind_eq_ok_iff, mapError_eq_ok_iff]

theorem reported_of_graph {declared : List DeclaredModule} {g : Graph DeclaredModule DepKind}
    (h : (DeclaredModule.pipeline a.options a.settings).resolve declared = .ok g) :
    g.Reported (declared.map DeclaredModule.name) (g.report [a.mutator]) := by
  have distinct : (DeclaredModule.pipeline a.options a.settings).dimensions.Nodup :=
    List.nodup_singleton _
  exact (Pipeline.resolve_settled distinct h).reported [a.mutator]

end Execute

section Output

variable (a : Arguments) {g : Graph DeclaredModule DepKind} {names mutators : List String}

theorem checkOutput_eq (reported : g.Reported names (g.report mutators)) :
    checkOutput a g = checkLines a (g.report mutators) := by
  have modules : (g.report mutators).modules.length = g.groups.length := by simp [Graph.report]
  cases format : a.format <;> simp only [checkOutput, checkLines, format, reported.count, modules]

theorem resolveOutput_eq (reported : g.Reported names (g.report [a.mutator])) :
    resolveOutput a g = resolveLines a (g.report [a.mutator]) := by
  cases format : a.format <;> simp only [resolveOutput, resolveLines, format, reported.count]

end Output

def plainly (command : Command) : Arguments where
  command
  file := "modules.lua"
  mutator := "transition"
  neverFar := false
  allowMissing := false
  format := .text
  verbose := false

/-- A sealed world whose first random number is odd or even. -/
def tossed (odd : Bool) : World :=
  { World.sealed with random := ⟨0, if odd then 0x200000000000000 else 0, 0, 0⟩ }

def tossedRun (odd : Bool) : Run := .silent (tossed odd) 10000

def ending (odd : Bool) (script : ByteArray) :
    Option (Option Nat × Option (List DeclaredModule) × List String) :=
  ((tossedRun odd).evaluate "modules.lua" (.ok script)).map fun loaded =>
    (loaded.exitCode, loaded.modules.toOption,
      [loaded.output.written, loaded.output.waiting, loaded.errors].map Text.decodeLossy)

section Ending

variable {odd : Bool} {script : ByteArray} {exit : Option Nat}
  {declared : Option (List DeclaredModule)}

theorem exists_of_ending {written : List String}
    (seen : ending odd script = some (exit, declared, written)) :
    ∃ loaded, (tossedRun odd).evaluate "modules.lua" (.ok script) = some loaded ∧
      loaded.exitCode = exit ∧ loaded.modules.toOption = declared ∧
      [loaded.output.written, loaded.output.waiting, loaded.errors].map Text.decodeLossy = written := by
  obtain ⟨loaded, ran, same⟩ := Option.map_eq_some_iff.mp seen
  simp only [Prod.mk.injEq] at same
  exact ⟨loaded, ran, same⟩

theorem execute_of_tells {command : Command}
    (seen : ending odd script = some (exit, declared, ["", "", ""])) {said : Outcome}
    (tells : Tells (tossedRun odd) (plainly command) (.ok script) said) :
    execute (tossedRun odd) (plainly command) (.ok script) = some said := by
  obtain ⟨loaded, ran, executed⟩ := tells
  obtain ⟨other, ran', _, _, silent⟩ := exists_of_ending seen
  obtain rfl := Option.some.inj (ran.symm.trans ran')
  simp only [List.map_cons, List.map_nil, List.cons.injEq] at silent
  obtain ⟨written, waiting, errors, _⟩ := silent
  rw [executed]
  simp only [Outcome.amid, tossedRun, Run.silent, written, waiting, errors, String.empty_append,
    String.append_empty]

theorem execute_of_ending {command : Command} {modules : List DeclaredModule}
    (seen : ending odd script = some (none, some modules, ["", "", ""])) :
    execute (tossedRun odd) (plainly command) (.ok script) =
      some (present (plainly command) (.ok modules)) := by
  obtain ⟨loaded, ran, ends, declares, _⟩ := exists_of_ending seen
  have tells : Tells (tossedRun odd) (plainly command) (.ok script)
      (present (plainly command) loaded.modules) := tells_of_end (a := plainly command) ran ends
  cases modules : loaded.modules with
  | error e => simp [modules, Except.toOption] at declares
  | ok ms =>
    rw [modules] at declares tells
    obtain rfl := Option.some.inj declares
    exact execute_of_tells seen tells

end Ending

def paired : ByteArray :=
  ("local n = math.random(2) transition_module\x7bname='A',deps=\x7b'B'\x7d,split=\x7b'x','y'\x7d\x7d\n"
    ++ "transition_module\x7bname='B',incoming=''\x7d").toUTF8

def pairedModules : List DeclaredModule :=
  [{ name := "A", deps := ["B"], split := ["x", "y"], location := some "modules.lua:1" },
    { name := "B", incoming := some "", location := some "modules.lua:2" }]

theorem ending_paired (odd : Bool) :
    ending odd paired = some (none, some pairedModules, ["", "", ""]) := by
  cases odd <;> decide +kernel

def leaving : ByteArray := "transition_module\x7bname='A'\x7d\nos.exit(0)".toUTF8

theorem ending_leaving : ending false leaving = some (some 0,
    some [{ name := "A", location := some "modules.lua:1" }], ["", "", ""]) := by
  decide +kernel

def tossing : ByteArray :=
  "if math.random(2)==1 then error('tails') end transition_module\x7bname='A'\x7d".toUTF8

theorem ending_tossing : ending false tossing = some (none, none, ["", "", ""]) ∧
    ending true tossing = some (none,
      some [{ name := "A", location := some "modules.lua:1" }], ["", "", ""]) := by
  constructor <;> decide +kernel

end BuildVariants.CommandLine
