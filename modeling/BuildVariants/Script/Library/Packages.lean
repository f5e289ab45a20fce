import BuildVariants.Script.Library.Basic

/-!
# Functions on packages

A package is looked for by one searcher after the other: among what the script has put into place
and among the files of the world.
-/

set_option autoImplicit false

namespace BuildVariants.Script

namespace Packages

open Native

def config : String := "/\n;\n?\n!\n-\n"

def substitute (part by_ : List Char) : Nat → List Char → List Char
  | 0, cs => cs
  | _, [] => []
  | fuel + 1, c :: rest =>
    if part ≠ [] && part.isPrefixOf (c :: rest) then
      by_ ++ substitute part by_ fuel ((c :: rest).drop part.length)
    else c :: substitute part by_ fuel rest

def substituted (bytes part by_ : ByteArray) : ByteArray :=
  let cs := Text.byteChars bytes
  Text.ofByteChars (substitute (Text.byteChars part) (Text.byteChars by_) cs.length cs)

def candidates (name path separator mark : ByteArray) : ByteArray :=
  let name := if separator.size = 0 then name else substituted name separator mark
  substituted (Text.beforeNull path) "?".toUTF8 name

def notFound (files : ByteArray) : ByteArray :=
  "no file '".toUTF8 ++ substituted files ";".toUTF8 "'\n\tno file '".toUTF8 ++ "'".toUTF8

def firstReadable : List ByteArray → Native (Option ByteArray)
  | [] => Native.pure none
  | file :: rest => do
    if ← consult (.isReadable file) then return some file else firstReadable rest

def findFile (name path separator mark : ByteArray) : Native (Except ByteArray ByteArray) := do
  let files := candidates name path separator mark
  let all := (Text.byteChars files).splitOn ';'
  match ← firstReadable (if files.size = 0 then [] else all.map Text.ofByteChars) with
  | some file => return .ok file
  | none => return .error (notFound files)

def searchPath (args : List Value) : Native (List Value) := do
  let name ← checkText args 1
  let path ← checkText args 2
  let separator ← optionalText args 3 ".".toUTF8
  let mark ← optionalText args 4 "/".toUTF8
  match ← findFile (Text.beforeNull name) path (Text.beforeNull separator) (Text.beforeNull mark) with
  | .ok file => return [.text file]
  | .error message => return [.nil, .text message]

def field (name : String) : Native Value := do
  let package ← look fun s => (s.table s.loaded).getString "package"
  index package (.ofString name)

def preloaded (args : List Value) : Native (List Value) := do
  let name := Text.beforeNull (← checkText args 1)
  let preload ← look fun s =>
    match (s.table s.loaded).getString "package" with
    | .table id => (s.table id).getString "preload"
    | v => v
  match ← index preload (.text name) with
  | .nil => return [.text ("no field package.preload['".toUTF8 ++ name ++ "']".toUTF8)]
  | f => return [f, .ofString ":preload:"]

def searchSources (args : List Value) : Native (List Value) := do
  let name := Text.beforeNull (← checkText args 1)
  match (← field "path").toText? with
  | none => complain "'package.path' must be a string".toUTF8
  | some path =>
    match ← findFile name path ".".toUTF8 "/".toUTF8 with
    | .error message => return [.text message]
    | .ok file =>
      match ← Basic.readFile (some file) "bt".toUTF8 none with
      | [f] => return [f, .text file]
      | result =>
        complain ("error loading module '".toUTF8 ++ name ++ "' from file '".toUTF8 ++ file
          ++ "':\n\t".toUTF8 ++ ((arg result 2).toText?.getD .empty))

def loaderFrom (searchers : Nat) (name : ByteArray) : Nat → Nat → ByteArray → Native (Value × Value)
  | 0, _, _ => return (.nil, .nil)
  | fuel + 1, i, message => do
    match ← look fun s => s.rawGet searchers (.ofNat i) with
    | .nil => complain ("module '".toUTF8 ++ name ++ "' not found:".toUTF8 ++ message)
    | searcher =>
      let results ← ask (.call searcher [.text name])
      let first := arg results 1
      if first.isFunction then return (first, arg results 2)
      else
        match first.toText? with
        | some text => loaderFrom searchers name fuel (i + 1) (message ++ "\n\t".toUTF8 ++ text)
        | none => loaderFrom searchers name fuel (i + 1) message

def searcherLimit : Nat := 1000000000

def require (args : List Value) : Native (List Value) := do
  let name := Text.beforeNull (← checkText args 1)
  let loaded ← look fun s => Value.table s.loaded
  let there ← index loaded (.text name)
  if there.truth then return [there]
  else
    match ← field "searchers" with
    | .table searchers =>
      let (loader, extra) ← loaderFrom searchers name searcherLimit 1 .empty
      match (← ask (.call loader [arg args 1, extra])).head?.getD .nil with
      | .nil => Native.pure ()
      | v => setIndex loaded (.text name) v
      match ← index loaded (.text name) with
      | .nil =>
        setIndex loaded (.text name) (.boolean true)
        return [.boolean true, extra]
      | v => return [v, extra]
    | _ => complain "'package.searchers' must be a table".toUTF8

def work (f : PackageFunction) (args : List Value) : Native (List Value) := do
  match f with
  | .require => require args
  | .searchPath => searchPath args
  | .loadLibrary => ask (.refuse "safety error: package.loadlib is disabled in safe mode")
  | .preloadSearcher => preloaded args
  | .sourceSearcher => searchSources args
  | .librarySearcher => return [.ofString "\n\tcan't load C modules in safe mode"]

end Packages

end BuildVariants.Script
