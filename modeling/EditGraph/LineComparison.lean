import EditGraph.Comparison
import EditGraph.Fingerprint
import EditGraph.Text.Lines

/-!
# Comparisons of texts

Two texts are compared line by line, through the fingerprints of their lines. One hasher
serves both texts, the old one first, so that unique fingerprints differ across them.
Positions in edits are line numbers.

## Main definitions

* `LineOptions` — the method, what is ignored, and whether changes are reported.
* `LineComparison` — two texts as lines, with options.
* `LineComparison.script`, `LineComparison.similarity`, `LineComparison.common` — what is
  asked of it.
-/

namespace EditGraph

/-- How texts are compared. -/
structure LineOptions where
  method : Method
  normalization : Normalization
  /-- Deletions and insertions at one place are reported as changes. -/
  changes : Bool
  deriving DecidableEq, Repr

namespace LineOptions

/-- Lines are compared by content, nothing is ignored, and changes are reported. -/
def default : LineOptions := ⟨.default, .none, true⟩

/-- The hasher of one comparison. -/
def hasher (o : LineOptions) : Hasher := .create o.method o.normalization

/-- The fingerprints of lines by a hasher of their own. -/
def fingerprints (o : LineOptions) (lines : Array String) : Array Int32 :=
  (o.hasher.hashAll lines).1

end LineOptions

/-- An old and a new text, and how they are compared. -/
structure LineComparison where
  old : Array String
  new : Array String
  options : LineOptions

namespace LineComparison

/-- The comparison of the fingerprints. -/
def byFingerprint (c : LineComparison) : Comparison Int32 :=
  let (old, hasher) := c.options.hasher.hashAll c.old
  let (new, _) := hasher.hashAll c.new
  .ofEq old new

/-- A shortest edit script, in line numbers. -/
def script (c : LineComparison) : Except Fault EditScript :=
  c.byFingerprint.script c.options.changes

/-- The similarity of the texts. -/
def similarity (c : LineComparison) : Except Fault Similarity := c.byFingerprint.similarity

/-- The old lines of a largest matching. -/
def common (c : LineComparison) : Except Fault (Array String) := do
  (← c.byFingerprint.matching).mapM fun p => (Window.full c.old).get p.x

end LineComparison

end EditGraph
