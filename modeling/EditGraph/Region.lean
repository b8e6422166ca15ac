import EditGraph.Window
import EditGraph.Diagonals

/-!
# Regions of the edit graph

The edit graph of two sequences has a point `(x, y)` for every `x` elements of the old and
`y` elements of the new sequence consumed. A step right consumes an old element, a step down
a new one, and where the next elements match there is a diagonal step that consumes both. A
region is the edit graph of a window on each sequence.

Paths prolong greedily: from a point they slide along the diagonal as far as elements match.
A furthest path with `d` steps off the diagonal starts its last slide one step away from a
furthest path with `d - 1` of them, and the diagonal vector says where those have ended.
Points may leave the grid to the right and below, or to the left and above when the search
goes backward; no slide begins there. Coordinates and diagonals are signed 64-bit quantities, and
each of their sums and differences is a fault when it leaves the range.

## Main definitions

* `Point` — a point of the plane.
* `Region` — a window on each sequence, and the test that says which elements match.
* `Region.slideForward`, `Region.slideBackward` — the greedy slides.
* `Region.launchForward`, `Region.launchBackward` — the columns that last slides begin in.
* `Region.advanceIn`, `Region.retreatIn` — one furthest path prolonged, in either direction, in
  any store of columns.
* `Region.advance`, `Region.retreat` — the same in a diagonal vector.
-/

namespace EditGraph

/-- `x` old and `y` new elements consumed, on or off the grid. -/
structure Point where
  x : Int
  y : Int
  deriving DecidableEq, Repr

/-- The edit graph of a window on the old and a window on the new sequence. -/
structure Region (α : Type) where
  /-- The columns. -/
  old : Window α
  /-- The rows. -/
  new : Window α
  /-- Which old elements match which new ones. -/
  same : α → α → Bool

/-- The end points of the last slide of a furthest path, and what records it. -/
structure ReachIn (σ : Type) where
  start : Point
  stop : Point
  record : σ

/-- A furthest path that a diagonal vector records. -/
abbrev Reach := ReachIn Diagonals

namespace Region

variable {α : Type}

/-- The number of columns. -/
def width (r : Region α) : Int := r.old.length

/-- The number of rows. -/
def height (r : Region α) : Int := r.new.length

/-- The diagonal of the far corner. -/
def delta (r : Region α) : Int := r.width - r.height

/-- Whether the element in column `x` matches the element in row `y`. -/
def agree (r : Region α) (x y : Int) : Except Fault Bool := do
  let a ← r.old.entry x
  let b ← r.new.entry y
  return r.same a b

/-! ### Slides -/

/-- From `p` down and right for as long as the next elements match. -/
def slideForward (r : Region α) (p : Point) : Except Fault Point :=
  if p.x < r.width ∧ p.y < r.height then
    match r.agree (p.x + 1) (p.y + 1) with
    | .error fault => .error fault
    | .ok true =>
      if Word.IsSigned (p.x + 1) ∧ Word.IsSigned (p.y + 1) then
        r.slideForward ⟨p.x + 1, p.y + 1⟩
      else .error .overflow
    | .ok false => .ok p
  else .ok p
termination_by (r.width - p.x).toNat

/-- From `p` up and left for as long as the elements just consumed match. -/
def slideBackward (r : Region α) (p : Point) : Except Fault Point :=
  if 0 < p.x ∧ 0 < p.y then
    match r.agree p.x p.y with
    | .error fault => .error fault
    | .ok true =>
      if Word.IsSigned (p.x - 1) ∧ Word.IsSigned (p.y - 1) then
        r.slideBackward ⟨p.x - 1, p.y - 1⟩
      else .error .overflow
    | .ok false => .ok p
  else .ok p
termination_by p.x.toNat

/-! ### Furthest paths -/

/-- The column in which a forward path to diagonal `k` at distance `d` begins its last slide, given
the columns of the row before. It comes from whichever neighbouring diagonal has got further, by a
step right from below or a step down from above; at either end of the row only one neighbour has
been reached. -/
def launchForward (d : Nat) (k : Int) (read : Int → Except Fault Int) : Except Fault Int := do
  if k = -d then read (← Word.signed (k + 1))
  else
    let below ← read (← Word.signed (k - 1))
    if k = d then Word.signed (below + 1)
    else
      let above ← read (← Word.signed (k + 1))
      if below < above then return above else Word.signed (below + 1)

/-- The column in which a backward path to the `k`-th diagonal above the one of the far corner,
which is `delta`, begins its last slide. The lesser column is the further one now. -/
def launchBackward (delta : Int) (d : Nat) (k : Int) (read : Int → Except Fault Int) :
    Except Fault Int := do
  if k = d then read (← Word.signed (k + delta - 1))
  else if k = -d then
    let above ← read (← Word.signed (k + delta + 1))
    Word.signed (above - 1)
  else
    let below ← read (← Word.signed (k + delta - 1))
    let above ← read (← Word.signed (k + delta + 1))
    if below < above then return below else Word.signed (above - 1)

section Stores

variable {σ : Type} (a : Store σ)

/-- Prolongs a furthest path from the origin to diagonal `k` at distance `d`. -/
@[specialize]
def advanceIn (r : Region α) (d : Nat) (k : Int) (v : σ) : Except Fault (ReachIn σ) := do
  let x ← launchForward d k (a.get v)
  let start : Point := ⟨x, ← Word.signed (x - k)⟩
  let stop ← r.slideForward start
  return ⟨start, stop, ← a.set v k stop.x⟩

/-- Prolongs a furthest backward path from the far corner, the `k`-th diagonal above the one
of that corner, at distance `d`. -/
@[specialize]
def retreatIn (r : Region α) (d : Nat) (k : Int) (v : σ) : Except Fault (ReachIn σ) := do
  let diagonal ← Word.signed (k + r.delta)
  let x ← launchBackward r.delta d k (a.get v)
  let start : Point := ⟨x, ← Word.signed (x - diagonal)⟩
  let stop ← r.slideBackward start
  return ⟨start, stop, ← a.set v diagonal stop.x⟩

end Stores

/-- Prolongs a furthest path that a diagonal vector records. -/
def advance (r : Region α) (d : Nat) (k : Int) (v : Diagonals) : Except Fault Reach :=
  r.advanceIn Diagonals.store d k v

/-- Prolongs a furthest backward path that a diagonal vector records. -/
def retreat (r : Region α) (d : Nat) (k : Int) (v : Diagonals) : Except Fault Reach :=
  r.retreatIn Diagonals.store d k v

end Region

end EditGraph
