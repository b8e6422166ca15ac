import EditGraph.CommandLine

/-!
# The program

Reads the two files that the call names, runs the program on them, and prints its outcome.
-/

namespace EditGraph.Program

/-- What a path leads to in the file system, if it can be read as a file. -/
def entryAt (path : String) : IO (Option Entry) := do
  try
    return some (.file (← IO.FS.readBinFile path))
  catch _ =>
    return none

/-- The files that a call reads. -/
def filesOf (arguments : List String) : List String :=
  match Call.ofArguments arguments with
  | .ok (.compare _ old new _) => [old, new]
  | _ => []

/-- The workspace at a directory, of which only the given files are known. -/
def workspaceOf (directory : String) (files : List String) : IO Workspace := do
  let entries ← files.mapM fun file => do
    let path := Path.join directory file
    return (path, ← entryAt path)
  return { path := directory, find := fun path => (entries.lookup path).join }

/-- Runs the program in the current directory. -/
def run (arguments : List String) : IO Outcome := do
  let directory ← IO.currentDir
  let workspace ← workspaceOf directory.toString (filesOf arguments)
  let terminal ← (← IO.getStdout).isTty
  let colour := wantsColour (← IO.getEnv "CLICOLOR_FORCE") (← IO.getEnv "NO_COLOR")
    (← IO.getEnv "CLICOLOR") terminal
  return runCommandLine workspace colour arguments

end EditGraph.Program

/-- Prints the outcome of a call and hands its exit code on. -/
def main (arguments : List String) : IO UInt32 := do
  let outcome ← EditGraph.Program.run arguments
  IO.print outcome.stdout
  IO.eprint outcome.stderr
  return UInt32.ofNat outcome.code
