import EditGraph.Proofs.Recursion

/-!
# The middle snake bisects

A search for the middle snake answers two questions about its windows, and here both answers are
said of the windows alone. The distance that it returns is the least number of elements that a
matching of the windows leaves over, or, where elements match themselves, the least number of
single deletions and insertions on the way from the one to the other. The snake that it returns is
a run of matching elements on one diagonal, and what lies before the run and behind it are
comparisons with half of the distance each.

The searches themselves prolong their paths beyond the grid, and compare ends of paths that have
left it. Nothing of that shows in the answer. Nor does it matter what the vectors hold that are
lent for the search, as long as they have the diagonals that it uses; the sides may be of any
length, and also of none.

## Main definitions

* `Comparison.IsEditDistance` — the least number of deletions and insertions.
* `Region.Bisects` — what a middle snake is to the windows of a region.

## Main results

* `IsDistance.isEditDistance` — what matchings leave over is deleted and inserted.
* `exists_part` — any stretches of both windows are a part of the region.
* `middleSnake_bisects` — the answer of the search.
-/

namespace EditGraph

open List (Forall₂)

variable {α : Type}

/-! ### Distances as edits -/

namespace Comparison

variable {c : Comparison α} {d : ℕ}

/-- `d` is the least number of single deletions and insertions that lead from the old sequence to
one that matches the new one. -/
def IsEditDistance (c : Comparison α) (d : ℕ) : Prop :=
  IsLeast
    {k | ∃ t, Edits k c.old.toList t ∧ Forall₂ (fun a b => c.same a b = true) t c.new.toList} d

/-- **What a matching leaves over is deleted and inserted**, and no way to the new sequence does
with less. -/
theorem IsDistance.isEditDistance (h : c.IsDistance d) (hsame : ∀ a, c.same a a = true) :
    c.IsEditDistance d := by
  obtain ⟨⟨l, hl, hd⟩, hleast⟩ := h
  refine ⟨?_, ?_⟩
  · obtain ⟨u, hu, hcommon⟩ := hl.exists_isCommon
    obtain ⟨k, t, hk, ht, hcost⟩ := hcommon.exists_edits hsame
    have hlength : l.length = u.length := by simpa using hu.length_eq
    simp only [Array.length_toList] at hcost
    obtain rfl : k = d := by omega
    exact ⟨t, hk, ht⟩
  · rintro k ⟨t, hk, ht⟩
    exact (hleast c.isDistance_grid.1).trans (distance_le_of_edits hk ht)

end Comparison

/-! ### Where a middle snake divides -/

namespace Region

variable {r : Region α} {m : MiddleSnake}

/-- **Any stretches of both windows are a part of the region.** -/
theorem exists_part (r : Region α) (x y width height : ℕ) (hx : x + width ≤ r.old.length)
    (hy : y + height ≤ r.new.length) :
    ∃ part : Region α, part.PartOf r x y ∧ part.old.length = width ∧ part.new.length = height ∧
      part.cut = r.cut.part x y width height := by
  have hold := r.old.inBounds
  have hnew := r.new.inBounds
  have hpart : PartOf ⟨⟨r.old.backing, r.old.offset + x, width, by omega⟩,
      ⟨r.new.backing, r.new.offset + y, height, by omega⟩, r.same⟩ r x y :=
    ⟨rfl, rfl, rfl, rfl, rfl, hx, hy⟩
  exact ⟨_, hpart, rfl, rfl, hpart.cut⟩

/-- What a middle snake is to the windows of a region, and the distance beside it. -/
structure Bisects (r : Region α) (m : MiddleSnake) : Prop where
  /-- The distance is the exact one. -/
  distance : r.cut.IsDistance m.distance
  /-- The snake lies in the old window, and does not end before it starts. -/
  column : m.snake.startX ≤ m.snake.endX ∧ m.snake.endX ≤ r.old.length
  /-- The same of the new window. -/
  row : m.snake.startY ≤ m.snake.endY ∧ m.snake.endY ≤ r.new.length
  /-- It runs along one diagonal. -/
  straight : m.snake.endX - m.snake.startX = m.snake.endY - m.snake.startY
  /-- The elements on it match. -/
  agree (i : ℕ) : 1 ≤ i → i ≤ m.snake.endX - m.snake.startX →
    ∃ a b, r.old.get (m.snake.startX + i) = .ok a ∧ r.new.get (m.snake.startY + i) = .ok b ∧
      r.same a b = true
  /-- What comes before the snake has half of the distance, rounded up. -/
  before : (r.cut.before m.snake).IsDistance ((m.distance + 1) / 2)
  /-- What comes after it has the other half. -/
  after : (r.cut.after m.snake).IsDistance (m.distance / 2)

/-- A middle snake bisects the windows. -/
theorem IsMiddle.bisects (h : r.IsMiddle m) : r.Bisects m := by
  obtain ⟨hle, hx, hstraight, hy⟩ := h.inside
  obtain ⟨left, hleft, hlx, hly, hlcut⟩ :=
    r.exists_part 0 0 m.snake.startX m.snake.startY (by omega) (by omega)
  obtain ⟨right, hright, hrx, hry, hrcut⟩ :=
    r.exists_part m.snake.endX m.snake.endY (r.old.length - m.snake.endX)
      (r.new.length - m.snake.endY) (by omega) (by omega)
  have hdiagonal : (m.snake.endX : ℤ) - (m.snake.startX - m.snake.startY) = m.snake.endY := by
    omega
  refine ⟨?_, ⟨hle, hx⟩, ⟨by omega, hy⟩, by omega, fun i hi hi' => ?_, ?_, ?_⟩
  · rw [h.distance]
    exact r.isDistance_cut
  · have hagree := h.divides.slide.2 (m.snake.startX + i) (by omega) (by omega)
    have hplace : (m.snake.startX : ℤ) + i - (m.snake.startX - m.snake.startY) =
        m.snake.startY + i := by omega
    rw [hplace] at hagree
    exact agree_eq_ok_iff.mp hagree
  · have hdistance := h.divides.distance_before hleft.grid (by simp [hlx]) (by simp [hly])
    have hcut := left.isDistance_cut
    rwa [hlcut, hdistance] at hcut
  · have hdistance := h.divides.distance_after (by rw [hdiagonal]; exact hright.grid)
      (by simp only [grid_width]; omega) (by rw [hdiagonal]; simp only [grid_height]; omega)
    have hcut := right.isDistance_cut
    rw [hrcut, hdistance] at hcut
    simpa only [Comparison.after, size_cut_old, size_cut_new] using hcut

/-- **The search bisects its windows.** With vectors that have all diagonals in reach, whatever
values they hold, it returns the exact distance of the windows and a snake inside the grid. The
snake runs along one diagonal, its elements match one by one, and it divides the distance: what
comes before it has one half, rounded up, and what comes after it has the other. Where elements
match themselves, these distances are least numbers of deletions and insertions. -/
theorem middleSnake_bisects (r : Region α) (f : Frontiers)
    (hf : f.Serve r.forwardSpan r.backwardSpan) :
    ∃ m, r.middleSnake f = .ok m ∧ r.Bisects m.middle ∧
      ((∀ a, r.same a a = true) →
        r.cut.IsEditDistance m.middle.distance ∧
        (r.cut.before m.middle.snake).IsEditDistance ((m.middle.distance + 1) / 2) ∧
        (r.cut.after m.middle.snake).IsEditDistance (m.middle.distance / 2)) := by
  obtain ⟨m, hm, hmet⟩ := exists_middleSnake hf le_rfl le_rfl
  have hbisects := hmet.middle.bisects
  exact ⟨m, hm, hbisects, fun hsame => ⟨hbisects.distance.isEditDistance hsame,
    hbisects.before.isEditDistance hsame, hbisects.after.isEditDistance hsame⟩⟩

/-- Words of seven and six letters are five edits apart. The vectors of this search are full of
sevens at first. -/
theorem middleSnake_bisects_abcabba :
    ∃ c : Comparison Char,
      c = .ofEq #['a', 'b', 'c', 'a', 'b', 'b', 'a'] #['c', 'b', 'a', 'b', 'a', 'c'] ∧
        (Frontiers.filled 28 7).Serve c.region.forwardSpan c.region.backwardSpan ∧
        ∃ m, c.region.middleSnake (.filled 28 7) = .ok m ∧ m.middle.distance = 5 := by
  let c : Comparison Char :=
    .ofEq #['a', 'b', 'c', 'a', 'b', 'b', 'a'] #['c', 'b', 'a', 'b', 'a', 'c']
  have hserve : (Frontiers.filled 28 7).Serve c.region.forwardSpan c.region.backwardSpan :=
    Frontiers.filled_serve (by decide) (by decide) (by decide)
  obtain ⟨m, hm, hbisects, -⟩ := middleSnake_bisects c.region (.filled 28 7) hserve
  have hdistance := hbisects.distance
  rw [cut_region] at hdistance
  have hsizes : c.old.size + c.new.size = 13 := rfl
  have htable : c.table c.old.size c.new.size = 4 := by decide
  have hsum := hdistance.add_table
  exact ⟨c, rfl, hserve, m, hm, by omega⟩

end Region

end EditGraph
