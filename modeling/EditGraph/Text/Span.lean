/-!
# Spans of characters

Properties of characters are given by the code points that have them, as a list of spans
from a first to a last one.

## Main definitions

* `inSpans` — a character lies in one of the spans.
-/

namespace EditGraph.Text

/-- One of the spans holds the character. -/
def inSpans (spans : List (Nat × Nat)) (c : Char) : Bool :=
  spans.any fun span => span.1 ≤ c.toNat && c.toNat ≤ span.2

/-- A character is in some spans when its number is between the ends of one of them. -/
theorem inSpans_eq_true_iff {spans : List (Nat × Nat)} {c : Char} :
    inSpans spans c = true ↔ ∃ span ∈ spans, span.1 ≤ c.toNat ∧ c.toNat ≤ span.2 := by
  simp [inSpans]

end EditGraph.Text
