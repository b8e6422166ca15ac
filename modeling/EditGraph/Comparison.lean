import EditGraph.EditScript

/-!
# Comparisons

Two sequences and the test that says which elements of the one match which of the other.
Everything that this library says about a pair of sequences is said about a comparison: how
far apart they are, what they have in common, and the edits that lead from one to the other.

## Main definitions

* `Comparison` — the sequences and the test.
* `Comparison.distance`, `Comparison.commonLength` — the shortest edit script's length and
  the longest common subsequence's.
* `Comparison.matching`, `Comparison.common` — a longest common subsequence, as pairs of
  positions and as elements.
* `Comparison.script` — a shortest edit script.
-/

namespace EditGraph

/-- An old and a new sequence, and which elements match. -/
structure Comparison (α : Type) where
  old : Array α
  new : Array α
  same : α → α → Bool

namespace Comparison

variable {α : Type}

/-- The comparison of sequences whose elements match when they are equal. -/
def ofEq [BEq α] (old new : Array α) : Comparison α := ⟨old, new, (· == ·)⟩

/-- The edit graph of the whole sequences. -/
def region (c : Comparison α) : Region α := ⟨.full c.old, .full c.new, c.same⟩

/-- The least number of single deletions and insertions from the old to the new sequence. -/
def distance (c : Comparison α) : Except Fault Nat := c.region.distance

/-- The same number, searched from the ends of the sequences. -/
def distanceBackward (c : Comparison α) : Except Fault Nat := c.region.distanceBackward

/-- The number of pairs of a largest matching: what is neither deleted nor inserted, halved.
Lengths whose sum leaves the 64-bit range have no distance, so the sum can be left until after
it. -/
def commonLength (c : Comparison α) : Except Fault Nat := do
  let distance ← c.distance
  let total ← Word.fit (c.old.size + c.new.size)
  return (← Word.difference total distance) / 2

/-- The similarity, from the distance. -/
def similarity (c : Comparison α) : Except Fault Similarity := do
  Similarity.create (← c.commonLength) c.old.size c.new.size

/-- The pairs of a largest matching, in order. -/
def matching (c : Comparison α) : Except Fault (Array Match) := do
  return (← c.region.solve).found

/-- The regions whose middle snakes the matching is made from, in the order of the search. -/
def splits (c : Comparison α) : Except Fault (Array Split) := do
  return (← c.region.solve).splits

/-- The old elements of a largest matching. -/
def common (c : Comparison α) : Except Fault (Array α) := do
  (← c.matching).mapM fun p => (Window.full c.old).get p.x

/-- A shortest edit script; with `changes`, deletions and insertions at one place are paired
up. The matching and the script are checked against the distance. -/
def script (c : Comparison α) (changes : Bool) : Except Fault EditScript := do
  let found ← c.matching
  if found.size ≠ (← c.commonLength) then throw .matchCount
  let s ← EditScript.ofMatching changes c.old.size c.new.size found.toList
  if s.totalCost ≠ (← c.distance) then throw .scriptLength
  return s

end Comparison

end EditGraph
