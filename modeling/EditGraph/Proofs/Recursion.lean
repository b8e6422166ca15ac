import EditGraph.Proofs.Parts

/-!
# The recursive algorithm

What a work list does in turn, a recursion says at once. Sequences one of which is empty have no
pairs. Otherwise their middle snake is searched for. Sequences of distance zero or one are solved
directly; others have the pairs of the part before the snake, those on the snake and those of the
part after it.

Nothing is shared here. The parts are sequences of their own, whose positions count from one, and
every search begins with fresh vectors of the size that the part needs. The recursion ends because
a division takes something from both parts, and this in turn is so because half of a distance of
two or more is not zero.

## Main definitions

* `Solution` — pairs, and the record of the searches that they were found by.
* `Comparison.middle` — the middle snake, from fresh vectors.
* `Comparison.direct` — the pairs of sequences that are not divided.
* `Comparison.recursive` — the recursion.

## Main results

* `exists_middle` — the middle snake of a comparison whose vectors fit into memory.
* `IsMiddle.takes` — a division takes something from both parts.
* `recursive_direct`, `recursive_divide` — what the recursion does where it ends and where it goes
  on.
-/

namespace EditGraph

/-! ### Solutions -/

/-- A pair, `dx` old and `dy` new elements further on. -/
def Match.moved (dx dy : ℕ) (p : Match) : Match := ⟨dx + p.x, dy + p.y⟩

/-- The record of a search, `dx` old and `dy` new elements further on. -/
def Split.moved (dx dy : ℕ) (s : Split) : Split :=
  { s with oldOffset := dx + s.oldOffset, newOffset := dy + s.newOffset }

/-- The pairs of two sequences, and the searches that they were found by, in order. -/
structure Solution where
  pairs : List Match
  splits : List Split

/-- The solution of two sequences, `dx` old and `dy` new elements further on. -/
def Solution.moved (dx dy : ℕ) (s : Solution) : Solution :=
  ⟨s.pairs.map (·.moved dx dy), s.splits.map (·.moved dx dy)⟩

/-- The `count` pairs of positions on the diagonal behind column `x` and row `y`. -/
def diagonal (x y count : ℕ) : List Match :=
  (List.range count).map fun i => ⟨x + i + 1, y + i + 1⟩

/-- A diagonal is its first pair, and a shorter one behind it. -/
theorem diagonal_succ (x y count : ℕ) :
    diagonal x y (count + 1) = ⟨x + 1, y + 1⟩ :: diagonal (x + 1) (y + 1) count := by
  simp only [diagonal, List.range_succ_eq_map, List.map_cons, List.map_map, Function.comp_def,
    Nat.add_zero, Nat.succ_eq_add_one, Nat.add_right_comm _ 1, ← Nat.add_assoc]

variable {α : Type}

/-! ### The recursion -/

namespace Comparison

variable {c : Comparison α} {m : MiddleSnake}

/-- The middle snake of the whole sequences, searched for with fresh vectors. -/
def middle (c : Comparison α) : Except Fault MiddleSnake := do
  let frontiers ← Frontiers.create c.old.size c.new.size
  let meeting ← c.region.middleSnake frontiers
  return meeting.middle

/-- What comes before a snake on both sides. -/
def before (c : Comparison α) (s : Snake) : Comparison α := c.part 0 0 s.startX s.startY

/-- What comes after a snake on both sides. -/
def after (c : Comparison α) (s : Snake) : Comparison α :=
  c.part s.endX s.endY (c.old.size - s.endX) (c.new.size - s.endY)

/-- The pairs behind the first `i` old and the first `j` new elements, when one side has a single
element too many: it goes on alone where the next elements do not match. -/
def walk (c : Comparison α) (i j : ℕ) : List Match :=
  if i < c.old.size ∧ j < c.new.size then
    if c.agree i j then ⟨i + 1, j + 1⟩ :: c.walk (i + 1) (j + 1)
    else if c.new.size < c.old.size then c.walk (i + 1) j
    else c.walk i (j + 1)
  else []
termination_by (c.old.size - i) + (c.new.size - j)

/-- The pairs of sequences of distance zero, which match position for position, or one. -/
def direct (c : Comparison α) : ℕ → List Match
  | 0 => diagonal 0 0 c.old.size
  | _ => c.walk 0 0

/-- Fresh vectors are had, and a middle snake is found with them. -/
theorem exists_middle (h : c.Fits) : ∃ m, c.middle = .ok m ∧ c.region.IsMiddle m := by
  obtain ⟨f, hcreate, hserve⟩ := Region.exists_frontiers (fits_iff.mp h)
  obtain ⟨meeting, hmeeting, hmiddle, -⟩ := Region.exists_middleSnake hserve le_rfl le_rfl
  have hcreate : Frontiers.create c.old.size c.new.size = .ok f := hcreate
  refine ⟨meeting.middle, ?_, hmiddle⟩
  rw [middle, hcreate, ok_bind, hmeeting]
  rfl

/-- There is no middle snake when the vectors cannot be made. -/
theorem middle_of_not_fits (h : ¬ c.Fits) : c.middle = .error .capacity := by
  rw [middle, Frontiers.create, create_of_not_fits h]
  rfl

end Comparison

/-- **A division takes something from both parts**, since half of the distance, which is not zero,
is left for either. -/
theorem Region.IsMiddle.takes {r : Region α} {m : MiddleSnake} (h : r.IsMiddle m)
    (hr : r.Addressable) (hd : 2 ≤ m.distance) :
    0 < m.snake.startX + m.snake.startY ∧
      m.snake.endX + m.snake.endY < r.old.length + r.new.length := by
  obtain ⟨before, -, -, hbx, hby, hbd⟩ := Region.exists_before h hr
  obtain ⟨after, -, -, hax, hay, had⟩ := Region.exists_after h hr
  have := before.grid_distance_le
  have := after.grid_distance_le
  omega

namespace Comparison

variable {c : Comparison α} {m : MiddleSnake}

/-- The parts of a division are smaller than the whole. -/
theorem size_parts_lt (h : c.middle = .ok m) (hd : 2 ≤ m.distance) :
    (c.before m.snake).old.size + (c.before m.snake).new.size < c.old.size + c.new.size ∧
      (c.after m.snake).old.size + (c.after m.snake).new.size < c.old.size + c.new.size := by
  by_cases hfits : c.Fits
  · obtain ⟨m', hm', hmiddle⟩ := exists_middle hfits
    obtain rfl : m' = m := Except.ok.inj (hm'.symm.trans h)
    obtain ⟨hle, hx, hstraight, hy⟩ := hmiddle.inside
    obtain ⟨hstart, hend⟩ := hmiddle.takes hfits.addressable hd
    simp only [region, Window.length_full] at hx hy hend
    simp only [before, after, part, Array.size_extract]
    omega
  · rw [middle_of_not_fits hfits] at h
    cases h

/-- **The recursive algorithm.** A search is recorded before those of the parts, the part before
the snake comes before the part after it, and what is found in the latter is moved by what comes
before. -/
def recursive (c : Comparison α) : Except Fault Solution :=
  if c.old.isEmpty || c.new.isEmpty then .ok ⟨[], []⟩
  else
    match h : c.middle with
    | .error fault => .error fault
    | .ok m =>
      if hd : m.distance < 2 then .ok ⟨c.direct m.distance, [c.region.split m.distance]⟩
      else do
        have := size_parts_lt h (Nat.le_of_not_lt hd)
        let left ← (c.before m.snake).recursive
        let right ← (c.after m.snake).recursive
        let snake := diagonal m.snake.startX m.snake.startY (m.snake.endX - m.snake.startX)
        let moved := right.moved m.snake.endX m.snake.endY
        return ⟨left.pairs ++ snake ++ moved.pairs,
          c.region.split m.distance :: (left.splits ++ moved.splits)⟩
termination_by c.old.size + c.new.size
decreasing_by all_goals omega

/-- Nothing is matched when one side has no elements. -/
theorem recursive_of_isEmpty (h : (c.old.isEmpty || c.new.isEmpty) = true) :
    c.recursive = .ok ⟨[], []⟩ := by
  rw [recursive, if_pos h]

/-- Short distances are solved without dividing. -/
theorem recursive_direct (h : ¬ (c.old.isEmpty || c.new.isEmpty) = true) (hm : c.middle = .ok m)
    (hd : m.distance < 2) :
    c.recursive = .ok ⟨c.direct m.distance, [c.region.split m.distance]⟩ := by
  rw [recursive, if_neg h]
  -- the recursion keeps the equation of its search for the sake of termination, so the search
  -- cannot be rewritten there
  split
  · next fault hfault => cases hm.symm.trans hfault
  · next m' hm' =>
      obtain rfl := Except.ok.inj (hm.symm.trans hm')
      rw [dif_pos hd]

/-- Longer distances are solved in two parts, with the middle snake between them. -/
theorem recursive_divide {left right : Solution} (h : ¬ (c.old.isEmpty || c.new.isEmpty) = true)
    (hm : c.middle = .ok m) (hd : 2 ≤ m.distance) (hleft : (c.before m.snake).recursive = .ok left)
    (hright : (c.after m.snake).recursive = .ok right) :
    c.recursive = .ok ⟨left.pairs ++
        diagonal m.snake.startX m.snake.startY (m.snake.endX - m.snake.startX) ++
        (right.moved m.snake.endX m.snake.endY).pairs,
      c.region.split m.distance ::
        (left.splits ++ (right.moved m.snake.endX m.snake.endY).splits)⟩ := by
  rw [recursive, if_neg h]
  split
  · next fault hfault => cases hm.symm.trans hfault
  · next m' hm' =>
      obtain rfl := Except.ok.inj (hm.symm.trans hm')
      rw [dif_neg (Nat.not_lt_of_le hd), hleft, ok_bind, hright]
      rfl

end Comparison

end EditGraph
