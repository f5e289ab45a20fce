import BuildVariants.Script.Library.Builtins

/-!
# What scripts find in place

The global variables and libraries before a script begins.
-/

set_option autoImplicit false

namespace BuildVariants.Script

namespace Store

def newLibrary (entries : List (String × Value)) (s : Store) : Value × Store :=
  s.newTable (entries.foldl (fun t (name, v) => t.setString name v)
    ((Table.empty s.world.spread).resize 0 entries.length))

def setEntry (s : Store) (table : Value) (name : String) (v : Value) : Store :=
  match table with
  | .table id => s.modifyTable id fun t => t.setString name v
  | _ => s

def functions {F : Type} (make : F → Builtin) (names : List (String × F)) : List (String × Value) :=
  names.map fun (name, f) => (name, .builtin (make f))

def versionText : String := "Lua 5.4"

def tableId : Value → Nat
  | .table id => id
  | _ => 0

structure Roots where
  loaded : Value
  globals : Value

def addLibrary (r : Roots) (name : String) (entries : List (String × Value)) (s : Store) :
    Value × Store :=
  let (library, s) := s.newLibrary entries
  (library, (s.setEntry r.globals name library).setEntry r.loaded name library)

def addPackages (r : Roots) (s : Store) : Store :=
  let (package, s) := s.addLibrary r "package" (functions .package
    [("loadlib", .loadLibrary), ("searchpath", .searchPath)])
  let (searchers, s) := s.newTable ((Table.empty s.world.spread).setItems 0
    [.builtin (.package .preloadSearcher), .builtin (.package .sourceSearcher),
     .builtin (.package .librarySearcher)])
  let (preload, s) := s.newLibrary []
  let entries : List (String × Value) :=
    [("searchers", searchers), ("path", .text s.world.path),
     ("cpath", .text s.world.libraryPath), ("config", .ofString Packages.config),
     ("loaded", r.loaded), ("preload", preload)]
  let s := entries.foldl (fun s (name, v) => s.setEntry package name v) s
  s.setEntry r.globals "require" (.builtin (.package .require))

def addTexts (r : Roots) (s : Store) : Store :=
  let (library, s) := s.addLibrary r "string" (functions .text Texts.names)
  let (metatable, s) := s.newLibrary (functions .text Texts.handlers ++ [("__index", library)])
  { s with textMeta := some (tableId metatable) }

def addStreams (r : Roots) (s : Store) : Store :=
  let (library, s) := s.addLibrary r "io" (functions .stream Streams.names)
  let (methods, s) := s.newLibrary (functions .stream Streams.methods)
  let (metatable, s) := s.newLibrary (functions .stream Streams.handlers
    ++ [("__index", methods), ("__name", .ofString Streams.fileType)])
  let (input, s) := s.newHandle (.stream .input)
  let (output, s) := s.newHandle (.stream .output)
  let (errors, s) := s.newHandle (.stream .errors)
  let s := ((s.setEntry library "stdin" input).setEntry library "stdout" output).setEntry library
    "stderr" errors
  { s with fileMeta := some (tableId metatable), currentInput := 0, currentOutput := 1 }

def addFailures (s : Store) : Store :=
  let (metatable, s) := s.newLibrary
    [("__gc", .builtin .failureEnd), ("__tostring", .builtin .failureText),
     ("__metatable", .boolean false)]
  { s with failureMeta := some (tableId metatable) }

def standard (world : World) : Store :=
  let (loaded, s) := (Store.empty world).newLibrary []
  let (globals, s) := s.newLibrary (functions .basic Basic.names)
  let r : Roots := ⟨loaded, globals⟩
  let s := { s with loaded := tableId loaded, globals := tableId globals }
  let s := s.setEntry loaded "_G" globals
  let s := (s.setEntry globals "_G" globals).setEntry globals "_VERSION" (.ofString versionText)
  let s := s.addPackages r
  let s := (s.addLibrary r "coroutine" (functions .coroutine Coroutines.names)).2
  let s := (s.addLibrary r "table" (functions .table Tables.names)).2
  let s := s.addStreams r
  let s := (s.addLibrary r "os" (functions .system System.names)).2
  let s := s.addTexts r
  let s := (s.addLibrary r "math" (functions .math Mathematics.names ++ Mathematics.constants)).2
  let s := (s.addLibrary r "utf8" (functions .utf8 Codes.names
    ++ [("charpattern", .text Codes.pattern)])).2
  s.addFailures

end Store

end BuildVariants.Script
