import EditGraph.MiddleSnake

/-!
# Matchings

A matching pairs old with new elements that match, in rising order on both sides, as many
as possible. Dividing a region at its middle snake gives one: the pairs of the part before
the snake, those on the snake, those of the part after it. The parts wait on a work list
instead of a call stack, with the leftmost task on top, so pairs come out in order.

Regions of distance zero and one are not divided. In the first every element matches the one
at its position. In the second the sides differ by one element, and walking along both while
leaving out that element gives the pairs.

## Main definitions

* `Match` — a pair, by positions in the two whole sequences.
* `Split` — the record of one region that was searched for its middle snake.
* `Task` — a region to solve, or a snake whose pairs are due.
* `Worklist`, `Worklist.perform`, `Worklist.run` — the tasks, one of them done, all of them
  done.
* `Region.solve` — the matching of a region.
-/

namespace EditGraph

/-- Element `x` of the old sequence with element `y` of the new one, counted from one. -/
structure Match where
  x : Nat
  y : Nat
  deriving DecidableEq, Repr

/-- A region with rows and columns, by the offsets and lengths of its windows, and its
distance. -/
structure Split where
  oldOffset : Nat
  newOffset : Nat
  width : Nat
  height : Nat
  distance : Nat
  deriving DecidableEq, Repr

namespace Region

variable {α : Type}

/-- The pair at column `i` and row `j`. -/
def matchAt (r : Region α) (i j : Nat) : Except Fault Match := do
  let x ← r.old.absolute i
  let y ← r.new.absolute j
  return ⟨x, y⟩

/-- The `count` pairs on the diagonal after column `x` and row `y`, behind those found. -/
def collectRun (r : Region α) (x y count : Nat) (found : Array Match) :
    Except Fault (Array Match) :=
  (List.range count).foldlM (fun found i => found.push <$> r.matchAt (x + i + 1) (y + i + 1)) found

/-- The pairs from column `i` and row `j` on, when one side has a single element too many:
where the elements at hand do not match, the longer side goes on alone. -/
def collectWalk (r : Region α) (i j : Nat) (found : Array Match) : Except Fault (Array Match) :=
  if i ≤ r.old.length ∧ j ≤ r.new.length then
    match r.agree i j with
    | .error fault => .error fault
    | .ok true =>
      match r.matchAt i j with
      | .error fault => .error fault
      | .ok pair =>
        if i + 1 < Word.limit ∧ j + 1 < Word.limit then
          r.collectWalk (i + 1) (j + 1) (found.push pair)
        else .error .overflow
    | .ok false =>
      if r.new.length < r.old.length then
        if i + 1 < Word.limit then r.collectWalk (i + 1) j found else .error .overflow
      else if j + 1 < Word.limit then r.collectWalk i (j + 1) found
      else .error .overflow
  else .ok found
termination_by (r.old.length + 1 - i) + (r.new.length + 1 - j)

/-- The part of the region before the snake. -/
def before (r : Region α) (s : Snake) : Except Fault (Region α) := do
  let old ← r.old.narrow 1 s.startX
  let new ← r.new.narrow 1 s.startY
  return { r with old, new }

/-- The part of the region after the snake. -/
def after (r : Region α) (s : Snake) : Except Fault (Region α) := do
  let old ← r.old.narrow (s.endX + 1) (← Word.difference r.old.length s.endX)
  let new ← r.new.narrow (s.endY + 1) (← Word.difference r.new.length s.endY)
  return { r with old, new }

/-- The record of a region with the given distance. -/
def split (r : Region α) (distance : Nat) : Split where
  oldOffset := r.old.offset
  newOffset := r.new.offset
  width := r.old.length
  height := r.new.length
  distance

end Region

/-! ### The work list -/

/-- A unit of work. -/
inductive Task (α : Type) where
  /-- Find the pairs of a region. -/
  | solve (r : Region α)
  /-- Append the pairs on a snake of a region. -/
  | emit (r : Region α) (s : Snake)

/-- The tasks that wait, and what the tasks done so far have found. -/
structure Worklist (α : Type) where
  /-- The tasks, the next one first. -/
  pending : List (Task α)
  /-- The pairs found, in order. -/
  found : Array Match
  /-- The regions searched for a middle snake, in order. -/
  splits : Array Split
  /-- The diagonal vectors, shared by all searches. -/
  frontiers : Frontiers

namespace Worklist

variable {α : Type}

/-- Does a task that was taken off the list. -/
def perform (w : Worklist α) (task : Task α) : Except Fault (Worklist α) := do
  let ⟨pending, found, splits, frontiers⟩ := w
  match task with
  | .emit r s =>
    let count ← Word.difference s.endX s.startX
    let found ← r.collectRun s.startX s.startY count found
    return ⟨pending, found, splits, frontiers⟩
  | .solve r =>
    if r.old.isEmpty || r.new.isEmpty then
      return ⟨pending, found, splits, frontiers⟩
    else
      let ⟨middle, frontiers⟩ ← r.middleSnake frontiers
      let splits := splits.push (r.split middle.distance)
      match middle.distance with
      | 0 =>
        let found ← r.collectRun 0 0 r.old.length found
        return ⟨pending, found, splits, frontiers⟩
      | 1 =>
        let found ← r.collectWalk 1 1 found
        return ⟨pending, found, splits, frontiers⟩
      | _ =>
        let after ← r.after middle.snake
        let before ← r.before middle.snake
        return ⟨.solve before :: .emit r middle.snake :: .solve after :: pending,
          found, splits, frontiers⟩

/-- Does tasks until none is left, `fuel` of them at most. -/
def run (fuel : Nat) (w : Worklist α) : Except Fault (Worklist α) :=
  match w with
  | ⟨[], found, splits, frontiers⟩ => .ok ⟨[], found, splits, frontiers⟩
  | ⟨task :: rest, found, splits, frontiers⟩ =>
    match fuel with
    | 0 => .error .unfinished
    | fuel + 1 => do
      let next ← perform ⟨rest, found, splits, frontiers⟩ task
      run fuel next

/-- A bound on the tasks that a region with `size` columns and rows gives rise to. Dividing a
region adds three tasks and shares its columns and rows out among two parts, of which neither
is left without any; so there are fewer divisions than columns and rows. -/
def taskBound (size : Nat) : Nat := 3 * size + 1

end Worklist

/-- The work done on a whole region: its matching, and the record of the regions searched. -/
def Region.solve {α : Type} (r : Region α) : Except Fault (Worklist α) := do
  let frontiers ← Frontiers.create r.old.length r.new.length
  Worklist.run (Worklist.taskBound (r.old.length + r.new.length))
    ⟨[.solve r], #[], #[], frontiers⟩

end EditGraph
