import EditGraph.EditScript

/-!
# Reports

What the commands print. A diff report has a line for each edit, in the colour of its kind
when colours are wanted, and a line that sums the script up. The other reports are a number
and a list of lines. Every line ends with a line feed.

Colours are those of ANSI terminals. The control sequence `ESC [ n m` selects a foreground colour,
`n` being 31 for red, 32 for green and 33 for yellow, and `ESC [ 0 m` goes back to the default. A
text in one colour is put between the two as it stands, which is how it is printed as long as it
has no control sequences of its own; the record of an edit has none. Whether colours are wanted is
found out by the caller, from its terminal and environment.

## Main definitions

* `Report.paint` — a text in the colour of a kind of edit.
* `Report.diff`, `Report.similarity`, `Report.common` — the reports.
-/

namespace EditGraph.Report

/-- The number of the terminal colour of a kind: red, green or yellow. -/
def colourCode : EditKind → Nat
  | .delete => 31
  | .insert => 32
  | .change => 33

/-- The text between the control sequence for a colour and the one that resets it. -/
def paint (kind : EditKind) (text : String) : String :=
  "\x1b[" ++ toString (colourCode kind) ++ "m" ++ text ++ "\x1b[0m"

/-- The lines, each with its end. -/
def unlines (lines : List String) : String := String.join (lines.map (· ++ "\n"))

/-- The line for one edit. -/
def editLine (colour : Bool) (e : Edit) : Except Fault String := do
  let record ← e.record
  return if colour then paint e.kind record else record

/-- The line that sums a script up. -/
def summary (s : EditScript) : String :=
  "edits: " ++ toString s.edits.size ++ ", total edit length: " ++ toString s.totalCost ++
    ", similarity: " ++ s.similarity.text

/-- The report on an edit script. -/
def diff (colour : Bool) (s : EditScript) : Except Fault String := do
  let records ← s.edits.toList.mapM (editLine colour)
  return unlines (records ++ [summary s])

/-- The report on a similarity. -/
def similarity (s : Similarity) : String := unlines [s.text]

/-- The report on common lines. -/
def common (lines : Array String) : String := unlines lines.toList

end EditGraph.Report
