import EditGraph.Region
import EditGraph.Sweep

/-!
# The distance of a region

The distance of a region is the least number of steps off the diagonal on a path through it,
which is the least number of single elements to delete and insert on the way from the old
window to the new one. Two greedy searches find it: one from the origin to the far corner,
one back from the far corner to the origin. At distance `d` either search prolongs one
furthest path for each diagonal of the row.

## Main definitions

* `Region.searchForwardIn`, `Region.searchBackwardIn` — the searches from the origin and from the
  far corner, in any store of columns.
* `Region.distance`, `Region.distanceBackward` — the same in a fresh diagonal vector.
-/

namespace EditGraph

namespace Region

variable {α : Type}

/-- The distances that a path through the region can have. -/
def distances (r : Region α) : List Nat :=
  List.range (r.old.length + r.new.length + 1)

section Stores

variable {σ : Type} (a : Store σ)

/-- Prolongs the path on diagonal `k`; the search ends when it has all elements behind it. -/
@[specialize]
def visitForwardIn (r : Region α) (d : Nat) (k : Int) (v : σ) : Except Fault (Visit σ Nat) := do
  let reach ← r.advanceIn a d k v
  if r.width ≤ reach.stop.x ∧ r.height ≤ reach.stop.y then return .found d
  else return .passed reach.record

/-- Prolongs the backward path on the `k`-th diagonal above the corner's; the search ends
when it has no elements before it. -/
@[specialize]
def visitBackwardIn (r : Region α) (d : Nat) (k : Int) (v : σ) : Except Fault (Visit σ Nat) := do
  let reach ← r.retreatIn a d k v
  if reach.stop.x ≤ 0 ∧ reach.stop.y ≤ 0 then return .found d
  else return .passed reach.record

/-- The distance, searched from the origin. The greatest distance of all is a signed quantity as
well. -/
@[specialize]
def searchForwardIn (r : Region α) (v : σ) : Except Fault Nat := do
  let v ← a.set v 1 0
  let _ ← Word.signed (r.width + r.height)
  let visit ← sweep (fun d => sweep (r.visitForwardIn a d) (diagonalRow d)) r.distances v
  visit.result

/-- The distance, searched from the far corner. -/
@[specialize]
def searchBackwardIn (r : Region α) (v : σ) : Except Fault Nat := do
  let delta ← Word.signed r.delta
  let v ← a.set v (← Word.signed (delta - 1)) r.width
  let _ ← Word.signed (r.width + r.height)
  let visit ← sweep (fun d => sweep (r.visitBackwardIn a d) (diagonalRow d)) r.distances v
  visit.result

end Stores

/-- A visit of the search from the origin in a diagonal vector. -/
def visitForward (r : Region α) (d : Nat) (k : Int) (v : Diagonals) :
    Except Fault (Visit Diagonals Nat) := r.visitForwardIn Diagonals.store d k v

/-- A visit of the search from the far corner in a diagonal vector. -/
def visitBackward (r : Region α) (d : Nat) (k : Int) (v : Diagonals) :
    Except Fault (Visit Diagonals Nat) := r.visitBackwardIn Diagonals.store d k v

/-- The distance, searched from the origin. -/
def distance (r : Region α) : Except Fault Nat := do
  r.searchForwardIn Diagonals.store (← Diagonals.create r.old.length r.new.length)

/-- The distance, searched from the far corner. -/
def distanceBackward (r : Region α) : Except Fault Nat := do
  r.searchBackwardIn Diagonals.store (← Diagonals.create r.old.length r.new.length)

/-! ### The operations on a diagonal vector -/

/-- What a visit of the search from the origin does to its vector. -/
theorem visitForward_eq (r : Region α) (d : Nat) (k : Int) (v : Diagonals) :
    r.visitForward d k v = (do
      let reach ← r.advance d k v
      if r.width ≤ reach.stop.x ∧ r.height ≤ reach.stop.y then return .found d
      else return .passed reach.record) := rfl

/-- What a visit of the search from the far corner does to its vector. -/
theorem visitBackward_eq (r : Region α) (d : Nat) (k : Int) (v : Diagonals) :
    r.visitBackward d k v = (do
      let reach ← r.retreat d k v
      if reach.stop.x ≤ 0 ∧ reach.stop.y ≤ 0 then return .found d
      else return .passed reach.record) := rfl

/-- What the search from the origin does to a vector. -/
theorem searchForward_eq (r : Region α) (v : Diagonals) :
    r.searchForwardIn Diagonals.store v = (do
      let v ← v.set 1 0
      let _ ← Word.signed (r.width + r.height)
      let visit ← sweep (fun d => sweep (r.visitForward d) (diagonalRow d)) r.distances v
      visit.result) := rfl

/-- What the search from the far corner does to a vector. -/
theorem searchBackward_eq (r : Region α) (v : Diagonals) :
    r.searchBackwardIn Diagonals.store v = (do
      let delta ← Word.signed r.delta
      let v ← v.set (← Word.signed (delta - 1)) r.width
      let _ ← Word.signed (r.width + r.height)
      let visit ← sweep (fun d => sweep (r.visitBackward d) (diagonalRow d)) r.distances v
      visit.result) := rfl

end Region

end EditGraph
