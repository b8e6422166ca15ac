import EditGraph.Distance

/-!
# The middle snake

A shortest path through a region has a slide near its middle that a forward and a backward
search meet in, and meeting takes either of them only half of the distance. The parts of the
region before and after that slide can then be solved on their own.

The two searches run in lock step. Paths of both have an odd total of steps off the diagonal
when the region's sides differ by an odd number, and then a forward path meets a backward
path of one step less; otherwise a backward path meets a forward path of as many steps.

The diagonal vectors are lent by the caller and need not be cleared: the searches seed the
one value they start from, and read only what they have written since.

## Main definitions

* `Snake` — a slide by its end points, on the grid.
* `Frontiers` — the diagonal vectors of both searches.
* `Stores` — how both searches read and write what they are lent.
* `Region.middleSnakeIn` — the search, in any stores of columns.
* `Region.middleSnake` — the same in diagonal vectors.
-/

namespace EditGraph

/-- A slide from `(startX, startY)` to `(endX, endY)`, in the coordinates of its region. -/
structure Snake where
  startX : Nat
  startY : Nat
  endX : Nat
  endY : Nat
  deriving DecidableEq, Repr

/-- The slide between two points, which have to lie on one diagonal and on the grid. -/
def Snake.between (start stop : Point) : Except Fault Snake := do
  if start.x < 0 ∨ start.y < 0 then throw .snakeOutside
  if (← Word.signed (stop.x - start.x)) ≠ (← Word.signed (stop.y - start.y)) then throw .snakeBent
  if stop.x < 0 ∨ stop.y < 0 then throw .snakeOutside
  return ⟨start.x.toNat, start.y.toNat, stop.x.toNat, stop.y.toNat⟩

/-- The middle snake of a region, and the distance of the whole region. -/
structure MiddleSnake where
  distance : Nat
  snake : Snake
  deriving DecidableEq, Repr

/-- What is lent to the two searches. -/
structure FrontiersIn (σ : Type) where
  forward : σ
  backward : σ

/-- The diagonal vectors of the two searches. -/
abbrev Frontiers := FrontiersIn Diagonals

/-- What a search for the middle snake hands on: its finding and what it was lent. -/
structure MeetingIn (σ : Type) where
  middle : MiddleSnake
  frontiers : FrontiersIn σ

/-- A meeting of two searches that have been lent diagonal vectors. -/
abbrev Meeting := MeetingIn Diagonals

/-- How the two searches read and write what they are lent. -/
structure Stores (σ : Type) where
  forward : Store σ
  backward : Store σ

/-- Both searches use their diagonal vectors as they are. -/
def Diagonals.stores : Stores Diagonals := ⟨Diagonals.store, Diagonals.store⟩

/-- Fresh vectors for two sequences of the given lengths. -/
def Frontiers.create (n m : Nat) : Except Fault Frontiers := do
  let forward ← Diagonals.create n m
  let backward ← Diagonals.create n m
  return { forward, backward }

namespace Region

variable {α : Type}

/-- The sides of the region differ by an odd number. -/
def isOdd (r : Region α) : Bool := r.delta % 2 == 1

/-- Whether the backward paths of distance `d - 1` can be on diagonal `k`, and meet a forward path
of distance `d` there. -/
def facesBackward (r : Region α) (d : Nat) (k : Int) : Except Fault Bool := do
  if r.isOdd then return decide ((← Word.magnitude (k - r.delta)) < d) else return false

/-- Whether the forward paths of distance `d` can be on the `k`-th diagonal above the corner's, and
meet a backward path of that distance there. -/
def facesForward (r : Region α) (d : Nat) (k : Int) : Except Fault Bool := do
  if r.isOdd then return false else return decide ((← Word.magnitude (k + r.delta)) ≤ d)

section Stores

variable {σ : Type}

/-- Looks whether the forward path that has reached diagonal `k` at distance `d` meets the backward
path there. -/
@[specialize]
def lookBackward (a : Store σ) (r : Region α) (d : Nat) (k : Int) (reach : ReachIn σ)
    (backward : σ) : Except Fault (Visit (FrontiersIn σ) (MeetingIn σ)) := do
  if ← r.facesBackward d k then
    let opposite ← a.get backward k
    if opposite ≤ reach.stop.x then
      let distance ← Word.magnitude ((← Word.signed (2 * d)) - 1)
      let snake ← Snake.between reach.start reach.stop
      return .found ⟨⟨distance, snake⟩, ⟨reach.record, backward⟩⟩
    else return .passed ⟨reach.record, backward⟩
  else return .passed ⟨reach.record, backward⟩

/-- Looks whether the backward path that has reached the `k`-th diagonal above the corner's at
distance `d` meets the forward path there. -/
@[specialize]
def lookForward (a : Store σ) (r : Region α) (d : Nat) (k : Int) (reach : ReachIn σ)
    (forward : σ) : Except Fault (Visit (FrontiersIn σ) (MeetingIn σ)) := do
  if ← r.facesForward d k then
    let opposite ← a.get forward (k + r.delta)
    if reach.stop.x ≤ opposite then
      let distance ← Word.magnitude (2 * d)
      let snake ← Snake.between reach.stop reach.start
      return .found ⟨⟨distance, snake⟩, ⟨forward, reach.record⟩⟩
    else return .passed ⟨forward, reach.record⟩
  else return .passed ⟨forward, reach.record⟩

/-- Prolongs the forward path on diagonal `k`, and looks whether it has met the backward
path there. Backward paths have come as far as distance `d - 1`. -/
@[specialize]
def meetForwardIn (a : Stores σ) (r : Region α) (d : Nat) (k : Int) (f : FrontiersIn σ) :
    Except Fault (Visit (FrontiersIn σ) (MeetingIn σ)) := do
  let ⟨forward, backward⟩ := f
  let reach ← r.advanceIn a.forward d k forward
  r.lookBackward a.backward d k reach backward

/-- Prolongs the backward path on the `k`-th diagonal above the corner's, and looks whether
it has met the forward path there. Forward paths have come as far as distance `d`. -/
@[specialize]
def meetBackwardIn (a : Stores σ) (r : Region α) (d : Nat) (k : Int) (f : FrontiersIn σ) :
    Except Fault (Visit (FrontiersIn σ) (MeetingIn σ)) := do
  let ⟨forward, backward⟩ := f
  let reach ← r.retreatIn a.backward d k backward
  r.lookForward a.forward d k reach forward

/-- Both rows of distance `d`, the forward one first. -/
@[specialize]
def meetAtIn (a : Stores σ) (r : Region α) (d : Nat) (f : FrontiersIn σ) :
    Except Fault (Visit (FrontiersIn σ) (MeetingIn σ)) := do
  let visit ← sweep (r.meetForwardIn a d) (diagonalRow d) f
  visit.goOn (sweep (r.meetBackwardIn a d) (diagonalRow d))

/-- The middle snake of a region with rows and columns. Either search has to go half of the
greatest possible distance at most. What they are lent may be read and written in another way for
the seeds, and in each row. -/
@[specialize]
def middleSnakeIn (seeds : Stores σ) (rows : Nat → Stores σ) (r : Region α) (f : FrontiersIn σ) :
    Except Fault (MeetingIn σ) := do
  let ⟨forward, backward⟩ := f
  let delta ← Word.signed r.delta
  let forward ← seeds.forward.set forward 1 0
  let backward ← seeds.backward.set backward (← Word.signed (delta - 1)) r.width
  let _ ← Word.signed (r.width + r.height + 1)
  let halves := List.range ((r.old.length + r.new.length + 1) / 2 + 1)
  let visit ← sweep (fun d => r.meetAtIn (rows d) d) halves ⟨forward, backward⟩
  visit.result

end Stores

/-- A visit of the forward row in diagonal vectors. -/
def meetForward (r : Region α) (d : Nat) (k : Int) (f : Frontiers) :
    Except Fault (Visit Frontiers Meeting) := r.meetForwardIn Diagonals.stores d k f

/-- A visit of the backward row in diagonal vectors. -/
def meetBackward (r : Region α) (d : Nat) (k : Int) (f : Frontiers) :
    Except Fault (Visit Frontiers Meeting) := r.meetBackwardIn Diagonals.stores d k f

/-- Both rows of distance `d` in diagonal vectors. -/
def meetAt (r : Region α) (d : Nat) (f : Frontiers) : Except Fault (Visit Frontiers Meeting) :=
  r.meetAtIn Diagonals.stores d f

/-- The middle snake of a region with rows and columns, searched in the diagonal vectors lent. -/
def middleSnake (r : Region α) (f : Frontiers) : Except Fault Meeting :=
  r.middleSnakeIn Diagonals.stores (fun _ => Diagonals.stores) f

/-! ### The operations on diagonal vectors -/

/-- What a visit of the forward row does to its vectors. -/
theorem meetForward_eq (r : Region α) (d : Nat) (k : Int) (f : Frontiers) :
    r.meetForward d k f = (do
      let reach ← r.advance d k f.forward
      r.lookBackward Diagonals.store d k reach f.backward) := rfl

/-- What a visit of the backward row does to its vectors. -/
theorem meetBackward_eq (r : Region α) (d : Nat) (k : Int) (f : Frontiers) :
    r.meetBackward d k f = (do
      let reach ← r.retreat d k f.backward
      r.lookForward Diagonals.store d k reach f.forward) := rfl

/-- What both rows of a distance do to their vectors. -/
theorem meetAt_eq (r : Region α) (d : Nat) (f : Frontiers) :
    r.meetAt d f = (do
      let visit ← sweep (r.meetForward d) (diagonalRow d) f
      visit.goOn (sweep (r.meetBackward d) (diagonalRow d))) := rfl

/-- What the search does to the vectors lent. -/
theorem middleSnake_eq (r : Region α) (f : Frontiers) :
    r.middleSnake f = (do
      let delta ← Word.signed r.delta
      let forward ← f.forward.set 1 0
      let backward ← f.backward.set (← Word.signed (delta - 1)) r.width
      let _ ← Word.signed (r.width + r.height + 1)
      let halves := List.range ((r.old.length + r.new.length + 1) / 2 + 1)
      let visit ← sweep r.meetAt halves ⟨forward, backward⟩
      visit.result) := rfl

end Region

end EditGraph
