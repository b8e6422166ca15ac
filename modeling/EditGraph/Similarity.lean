import EditGraph.Binary64
import EditGraph.Fault

/-!
# Similarity

The similarity of two sequences is the share of their elements that a largest matching
covers, `2 * common / total`. Two empty sequences are identical. The value is kept as its
two counts and becomes a floating point number only when it is written.

## Main definitions

* `Similarity` — the two counts.
* `Similarity.create` — the counts for two lengths.
* `Similarity.value` — the floating point number.
* `Similarity.text` — the number with three decimals, as reports show it.
-/

namespace EditGraph

/-- How many elements two sequences have in common, and how many they have in all. -/
structure Similarity where
  /-- The number of pairs in a largest matching. -/
  common : Nat
  /-- The lengths of both sequences together. -/
  total : Nat
  deriving DecidableEq, Repr

namespace Similarity

/-- The similarity of sequences of lengths `n` and `m` with `common` pairs. The sum of the lengths
and the double of the pairs have to be 64-bit quantities. -/
def create (common n m : Nat) : Except Fault Similarity := do
  let total ← Word.fit (n + m)
  let _ ← Word.fit (2 * common)
  return ⟨common, total⟩

/-- `2 * common / total` in double precision, the two counts being rounded first. -/
def value (s : Similarity) : Binary64 :=
  if s.total = 0 then .ofNat 1
  else (Binary64.ofNat (2 * s.common)).div (.ofNat s.total)

/-- The value with three decimals. -/
def text (s : Similarity) : String := s.value.fixed 3

/-- A largest matching has no more pairs than either sequence has elements, so its double is no
more than the total. -/
theorem create_eq_ok {common n m : Nat} (hlimit : n + m < Word.limit) (h : 2 * common ≤ n + m) :
    create common n m = .ok ⟨common, n + m⟩ := by
  rw [create, Word.fit_of_lt hlimit, ok_bind, Word.fit_of_lt (by omega)]
  rfl

end Similarity

end EditGraph
