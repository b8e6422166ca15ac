/-!
# Lines

A line ends at a line feed, and a carriage return right before the line feed belongs to the
end. What follows the last line feed is a line if it is not empty. A carriage return anywhere
else is a character like others.

## Main definitions

* `closeLine` — a line at its line feed.
* `linesOf` — the lines of a text.

## Main results

* `linesFrom_append` — the first line feed of a text closes its first line.
-/

namespace EditGraph.Text

/-- The line that a line feed closes, its characters given backward. -/
def closeLine : List Char → List Char
  | '\r' :: line => line.reverse
  | line => line.reverse

/-- The lines of a text, without their ends, when the first of them begins with `line`, given
backward. -/
def linesFrom (line : List Char) : List Char → List (List Char)
  | [] => if line.isEmpty then [] else [line.reverse]
  | c :: rest =>
    if c = '\n' then closeLine line :: linesFrom [] rest
    else linesFrom (c :: line) rest

/-- The first line feed closes the line that the characters before it add to. -/
theorem linesFrom_append {s : List Char} (h : '\n' ∉ s) (line rest : List Char) :
    linesFrom line (s ++ '\n' :: rest) = closeLine (s.reverse ++ line) :: linesFrom [] rest := by
  induction s generalizing line with
  | nil => simp [linesFrom]
  | cons c s ih =>
    obtain ⟨hc, hs⟩ := List.ne_and_not_mem_of_not_mem_cons h
    rw [List.cons_append, linesFrom, if_neg (Ne.symm hc), ih hs]
    simp

/-- The lines of a text, without their ends. -/
def linesOf (s : List Char) : List (List Char) := linesFrom [] s

/-- The lines of a string. -/
def lines (s : String) : List String := (linesOf s.toList).map String.ofList

end EditGraph.Text
