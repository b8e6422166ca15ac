import EditGraph.Fault

/-!
# Edits

An edit replaces a stretch of the old sequence by a stretch of the new one, and one of the
two is empty unless the edit is a change, in which both have the same length. Positions
count from zero. Fields are 64-bit quantities; an end or a length that exceeds 64 bits is a
fault where it is asked for.

## Main definitions

* `EditKind`, `Edit` — the operations.
* `Edit.cost` — how many elements are deleted and inserted.
* `Edit.oldEnd`, `Edit.newEnd` — where the stretches end.
* `Edit.record` — the edit as one line of a report.
-/

namespace EditGraph

/-- What an edit does. -/
inductive EditKind where
  | delete
  | insert
  /-- Deletes and inserts equally many elements at one place. -/
  | change
  deriving DecidableEq, Repr

/-- The name of a kind in reports. -/
def EditKind.name : EditKind → String
  | .delete => "Delete"
  | .insert => "Insert"
  | .change => "Change"

/-- One edit: `length` elements at position `x` of the old and `y` of the new sequence. -/
structure Edit where
  kind : EditKind
  x : Nat
  y : Nat
  length : Nat
  deriving DecidableEq, Repr

namespace Edit

/-- How many old elements the edit removes. -/
def removed (e : Edit) : Nat :=
  match e.kind with
  | .insert => 0
  | .delete | .change => e.length

/-- How many new elements the edit brings in. -/
def inserted (e : Edit) : Nat :=
  match e.kind with
  | .delete => 0
  | .insert | .change => e.length

/-- The number of single deletions and insertions. -/
def cost (e : Edit) : Except Fault Nat := Word.fit (e.removed + e.inserted)

/-- The first old position behind the edit. -/
def oldEnd (e : Edit) : Except Fault Nat := Word.fit (e.x + e.removed)

/-- The first new position behind the edit. -/
def newEnd (e : Edit) : Except Fault Nat := Word.fit (e.y + e.inserted)

/-- The line of a report for an edit that ends before `oldEnd` and `newEnd`. A stretch is
written by its ends, the place of an empty one by a single position. -/
def line (e : Edit) (oldEnd newEnd : Nat) : String :=
  match e.kind with
  | .delete => s!"{e.kind.name} a[{e.x}..{oldEnd}] b@{e.y}"
  | .insert => s!"{e.kind.name} a@{e.x} b[{e.y}..{newEnd}]"
  | .change => s!"{e.kind.name} a[{e.x}..{oldEnd}] b[{e.y}..{newEnd}]"

/-- The edit as a line of a report. -/
def record (e : Edit) : Except Fault String := do
  return e.line (← e.oldEnd) (← e.newEnd)

end Edit

end EditGraph
