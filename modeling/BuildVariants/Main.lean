import BuildVariants.CommandLine.Outcome

/-!
# The program

Reads the file that the arguments name, runs the command and prints what it says. Scripts run in a
sealed world.
-/

set_option autoImplicit false

open BuildVariants BuildVariants.CommandLine

def readContents (path : String) : IO (Except Script.FileError ByteArray) := do
  try
    return .ok (← IO.FS.readBinFile path)
  catch e =>
    match e with
    | .noFileOrDirectory .. => return .error .notFound
    | .inappropriateType .. => return .error .isDirectory
    | _ => return .error .notFound

def stepLimit : Nat := 1000000000000000

def main (args : List String) : IO UInt32 := do
  let request := parse args
  let contents ← match request with
    | .run a => readContents a.file
    | _ => pure (.error .notFound)
  let some outcome := respond (.silent .sealed stepLimit) (fun _ => contents) request | return 1
  (← IO.getStdout).putStr outcome.stdout
  (← IO.getStderr).putStr outcome.stderr
  return outcome.code.toUInt32
