import PredicateTrace.CommandLine

/-!
# The program

Reads the files that the arguments and the environment may mean, runs the command line on them, and
writes what it leaves.
-/

open PredicateTrace

/-- The environment variable that names the file of settings. -/
def environmentName : String := "POWERASSERT_CONFIG"

/-- The file at a path, if it can be read. -/
def readFile? (path : String) : IO (Option (String × String)) := do
  try
    return some (Configuration.normalPath path, ← IO.FS.readFile path)
  catch _ =>
    return none

/-- The paths that arguments may mean. -/
def pathsIn (arguments : List String) : List String :=
  arguments ++ arguments.filterMap fun argument => (CommandLine.splitOption argument).2

/-- The files and the environment that the program starts in. -/
def readConfiguration (arguments : List String) : IO Configuration := do
  let named ← IO.getEnv environmentName
  let paths := Configuration.defaultFile :: named.toList ++ pathsIn arguments
  let files ← paths.filterMapM readFile?
  return ⟨files, named, none⟩

/-- Runs the program; a command line that makes no sense ends it with exit code 2. -/
def main (arguments : List String) : IO UInt32 := do
  match CommandLine.run (← readConfiguration arguments) arguments with
  | .ok output =>
    IO.print output.stdout
    IO.eprint output.stderr
    return UInt32.ofNat output.exit
  | .error e =>
    IO.eprintln e.message
    return 2
