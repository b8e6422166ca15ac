import EditGraph.LineComparison
import EditGraph.Report
import EditGraph.Workspace

/-!
# Sessions

A session answers requests about the files of one workspace and keeps the text that its
reports have added up to. Both files of a report are read before anything is compared, the old
one first. A report is written line by line while it is made, and nothing takes lines back, so
what is written before a failure stays in the output.

The answer to a request can also be said without writing: the report is made as a whole, or not
at all. Both ways come to the same, as a report that has begun does not fail any more.

## Main definitions

* `Command` — the kinds of report on two files.
* `Request`, `Reply` — what a session is asked and what it answers.
* `Session.answer` — the answer to a request, with a report made as a whole.
* `Writing` — operations that write.
* `Session.step` — the answer with a report written line by line, and the session after it.
-/

namespace EditGraph

/-- A report on two files. -/
inductive Command where
  /-- The edits that lead from the old file to the new one. -/
  | diff
  /-- How similar the files are. -/
  | similarity
  /-- The lines that the files have in common. -/
  | common
  deriving DecidableEq, Repr

/-- A request to a session. -/
inductive Request where
  | compare (command : Command) (old new : String) (options : LineOptions)
  | write (text : String)
  | path
  | resolve (path : String)
  /-- The text of a file. -/
  | contents (path : String)
  /-- The lines of a file. -/
  | lines (path : String)
  deriving DecidableEq, Repr

/-- The answer to a request. -/
inductive Reply where
  /-- The text that is added to the session's output. -/
  | output (text : String)
  /-- A text that is only answered. -/
  | text (value : String)
  /-- Lines that are only answered. -/
  | lines (values : Array String)
  deriving DecidableEq, Repr

/-- An operation that writes. What it has written is kept when it fails. -/
abbrev Writing : Type → Type := ExceptT Failure (StateM String)

namespace Writing

/-- Writes a line with its end. -/
def writeLine (line : String) : Writing Unit := modify (· ++ line ++ "\n")

/-- The result of a computation that writes nothing. -/
def ofExcept {α : Type} (result : Except Failure α) : Writing α := ExceptT.mk (pure result)

/-- The result of a comparison. -/
def ofFault {α : Type} (result : Except Fault α) : Writing α :=
  ofExcept (result.mapError .fault)

end Writing

/-- The requests so far have left `written` as the output. -/
structure Session where
  workspace : Workspace
  /-- Edits are reported in colours. -/
  colour : Bool
  written : String

namespace Session

/-- A session with no output yet. -/
def create (workspace : Workspace) (colour : Bool) : Session := ⟨workspace, colour, ""⟩

/-! ### Reports as a whole -/

/-- The report of a command on lines. -/
def report (command : Command) (colour : Bool) (c : LineComparison) : Except Fault String :=
  match command with
  | .diff => do Report.diff colour (← c.script)
  | .similarity => do return Report.similarity (← c.similarity)
  | .common => do return Report.common (← c.common)

/-- The report of a command on two files. -/
def compare (s : Session) (command : Command) (old new : String) (options : LineOptions) :
    Except Failure String := do
  let old ← s.workspace.readLines old
  let new ← s.workspace.readLines new
  match report command s.colour ⟨old, new, options⟩ with
  | .ok text => .ok text
  | .error fault => .error (.fault fault)

/-- The answer to a request. -/
def answer (s : Session) : Request → Except Failure Reply
  | .compare command old new options => .output <$> s.compare command old new options
  | .write text => .ok (.output text)
  | .path => .ok (.text s.workspace.path)
  | .resolve path => .ok (.text (s.workspace.resolve path))
  | .contents path => .text <$> s.workspace.readFile path
  | .lines path => .lines <$> s.workspace.readLines path

/-! ### Reports line by line -/

/-- Writes the report of a command on lines. -/
def writeReport (command : Command) (colour : Bool) (c : LineComparison) : Writing Unit :=
  match command with
  | .diff => do
    let script ← Writing.ofFault c.script
    script.edits.toList.forM fun e => do
      Writing.writeLine (← Writing.ofFault (Report.editLine colour e))
    Writing.writeLine (Report.summary script)
  | .similarity => do Writing.writeLine (← Writing.ofFault c.similarity).text
  | .common => do (← Writing.ofFault c.common).toList.forM Writing.writeLine

/-- Reads two files and writes the report of a command on them. -/
def writeComparison (s : Session) (command : Command) (old new : String)
    (options : LineOptions) : Writing Unit := do
  let old ← Writing.ofExcept (s.workspace.readLines old)
  let new ← Writing.ofExcept (s.workspace.readLines new)
  writeReport command s.colour ⟨old, new, options⟩

/-- The answer to a request, and the session with the output that it has added. -/
def step (s : Session) (request : Request) : Except Failure Reply × Session :=
  match request with
  | .compare command old new options =>
    let (result, added) := (s.writeComparison command old new options).run.run ""
    (result.map fun _ => .output added, { s with written := s.written ++ added })
  | .write text => (.ok (.output text), { s with written := s.written ++ text })
  | _ => (s.answer request, s)

end Session

end EditGraph
