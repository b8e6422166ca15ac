import EditGraph.Fault
import EditGraph.Path
import EditGraph.Text.Lines
import EditGraph.Text.Quoted

/-!
# Workspaces

A workspace is a directory that the files to compare are read from. What lies in the file
system is given as a function from absolute paths, so that a workspace is a value and reading
is pure.

## Main definitions

* `Entry` — what a path can lead to.
* `Failure` — why a file or directory could not be used; `Failure.chain` words it.
* `Workspace` — the directory.
* `Workspace.resolve`, `Workspace.readFile`, `Workspace.readLines` — its operations.
-/

namespace EditGraph

/-- What a path leads to. -/
inductive Entry where
  | directory
  | file (bytes : ByteArray)

/-- Why the operating system does not follow a path. -/
inductive SystemError where
  /-- A name does not exist. -/
  | notFound
  /-- A name is looked up in something that is no directory. -/
  | notDirectory
  /-- A name is too long for a directory to hold. -/
  | nameTooLong
  /-- The path contains the character that ends paths. -/
  | zeroByte
  deriving DecidableEq, Repr

/-- The operating system's text of an error. -/
def SystemError.message : SystemError → String
  | .notFound => "No such file or directory (os error 2)"
  | .notDirectory => "Not a directory (os error 20)"
  | .nameTooLong => "File name too long (os error 36)"
  | .zeroByte => "file name contained an unexpected NUL byte"

/-- Why a request could not be answered. -/
inductive Failure where
  /-- The directory of the workspace cannot be reached. -/
  | system (error : SystemError)
  /-- The path of the workspace leads to something else than a directory. -/
  | notDirectory (path : String)
  /-- The path does not lead to a file. -/
  | notFile (path : String)
  /-- The file is not a text in UTF-8. -/
  | notText (path : String)
  /-- The comparison broke off. -/
  | fault (fault : Fault)
  deriving DecidableEq, Repr

namespace Failure

/-- The text of a failure, followed by those of its causes. -/
def chain : Failure → List String
  | .system error => [error.message]
  | .notDirectory path => ["The specified path is not a directory: " ++ Text.quote path]
  | .notFile path => ["The specified path is not a file: " ++ Text.quote path]
  | .notText path => ["failed to read " ++ path, "stream did not contain valid UTF-8"]
  | .fault cause => [cause.message.getD "the comparison broke off"]

/-- The texts of a failure and its causes in one line. -/
def message (f : Failure) : String := ": ".intercalate f.chain

end Failure

/-- A directory to read files from. -/
structure Workspace where
  /-- The absolute path of the directory. -/
  path : String
  /-- What an absolute path leads to, if anything. -/
  find : String → Option Entry

namespace Workspace

/-- A path as seen from the directory. -/
def resolve (w : Workspace) (path : String) : String := Path.join w.path path

/-- The text of a file. -/
def readFile (w : Workspace) (path : String) : Except Failure String :=
  let path := w.resolve path
  match w.find path with
  | some (.file bytes) =>
    match String.fromUTF8? bytes with
    | some text => .ok text
    | none => .error (.notText path)
  | _ => .error (.notFile path)

/-- The lines of a file. -/
def readLines (w : Workspace) (path : String) : Except Failure (Array String) := do
  return (Text.lines (← w.readFile path)).toArray

end Workspace

end EditGraph
