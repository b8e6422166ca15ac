import EditGraph.MiddleSnake
import EditGraph.Proofs.Meeting
import Mathlib.Tactic.SplitIfs

/-!
# What the searches keep in their vectors

The searches of a region work on diagonal vectors; here a vector's contents are given their
meaning. After the row of distance `d` a forward search has the furthest column of the routes
with `d` steps on every diagonal of that row, and a backward search the earliest one. Prolonging
one path of the next row needs nothing more, and neither search ever reads a value that is
older than the row before.

Coordinates and diagonals are signed 64-bit quantities. As long as no row is beyond the distance of
the region, a path off the grid has come no further than what a whole route through the grid
consumes, so that no sum of the searches leaves the range on vectors that serve them.

## Main definitions

* `Region.grid` — the edit graph that a region's windows and its test stand for.
* `Region.ForwardOn`, `Region.BackwardOn` — a vector has the extreme columns on some diagonals.
* `Region.ForwardReady`, `Region.BackwardReady` — a vector is ready for a row.
* `Region.ForwardRow`, `Region.BackwardRow` — a vector in the middle of a row.

## Main results

* `route_within`, `route_within_back` — how far paths off the grid can have come.
* `slideForward_delivers`, `slideBackward_delivers` — slides end where the grid stops agreeing.
* `launchForward_delivers`, `launchBackward_delivers` — where last slides begin.
* `ForwardReady.set`, `BackwardReady.set` — writing in a row leaves the row before alone.
* `ForwardReady.advance_delivers`, `BackwardReady.retreat_delivers` — one path prolonged is
  furthest.
* `ForwardRow.exists_advance`, `BackwardRow.exists_retreat` — and nothing breaks off.
-/

namespace EditGraph

/-- The vectors of both searches serve the diagonals up to `b` and up to `c`. -/
structure FrontiersIn.Serve (f : Frontiers) (b c : ℕ) : Prop where
  forward : f.forward.Serves b
  backward : f.backward.Serves c

/-- Vectors that have been used before: all diagonals up to the bias hold `x`. -/
def Frontiers.filled (bias : ℕ) (x : ℤ) : Frontiers :=
  ⟨⟨bias, Array.replicate (2 * bias + 1) x, by simp⟩,
    ⟨bias, Array.replicate (2 * bias + 1) x, by simp⟩⟩

/-- Vectors with room for the bias serve searches up to it, whatever is in them. -/
theorem Frontiers.filled_serve {bias b c : ℕ} {x : ℤ} (hb : b ≤ bias) (hc : c ≤ bias)
    (hbias : bias < Diagonals.memoryLimit) : (filled bias x).Serve b c :=
  ⟨⟨hb, hb.trans_lt hbias⟩, ⟨hc, hc.trans_lt hbias⟩⟩

namespace Region

variable {α : Type} {r : Region α}

/-! ### The edit graph of a region -/

/-- A test of two elements that succeeds is a test of elements inside the windows. -/
theorem agree_eq_ok_iff {x y : ℤ} {b : Bool} :
    r.agree x y = .ok b ↔
      ∃ a a', r.old.entry x = .ok a ∧ r.new.entry y = .ok a' ∧ r.same a a' = b := by
  unfold agree
  cases r.old.entry x with
  | error fault => exact ⟨nofun, fun ⟨_, _, h, _⟩ => nomatch h⟩
  | ok a =>
      cases r.new.entry y with
      | error fault => exact ⟨nofun, fun ⟨_, _, _, h, _⟩ => nomatch h⟩
      | ok a' =>
          constructor
          · intro h
            exact ⟨a, a', rfl, rfl, Except.ok.inj h⟩
          · rintro ⟨_, _, ha, ha', h⟩
            obtain rfl := Except.ok.inj ha
            obtain rfl := Except.ok.inj ha'
            exact congrArg Except.ok h

/-- Elements inside the windows can be tested. -/
theorem exists_agree {x y : ℤ} (hx : 1 ≤ x ∧ x ≤ r.width) (hy : 1 ≤ y ∧ y ≤ r.height) :
    ∃ b, r.agree x y = .ok b := by
  obtain ⟨a, ha⟩ := Window.exists_entry hx.1 hx.2
  obtain ⟨a', ha'⟩ := Window.exists_entry hy.1 hy.2
  exact ⟨_, agree_eq_ok_iff.mpr ⟨a, a', ha, ha', rfl⟩⟩

/-- The edit graph of a region. Its diagonal steps are the tests that succeed. -/
def grid (r : Region α) : Grid where
  width := r.old.length
  height := r.new.length
  agree x y := r.agree x y = .ok true
  inside h := by
    obtain ⟨a, a', ha, ha', -⟩ := agree_eq_ok_iff.mp h
    obtain ⟨hx, hx', -⟩ := Window.entry_eq_ok_iff.mp ha
    obtain ⟨hy, hy', -⟩ := Window.entry_eq_ok_iff.mp ha'
    exact ⟨hx, hx', hy, hy'⟩

/-- The grid of a region is as wide as the old window is long. -/
@[simp] theorem grid_width (r : Region α) : r.grid.width = r.old.length := rfl

/-- The grid of a region is as high as the new window is long. -/
@[simp] theorem grid_height (r : Region α) : r.grid.height = r.new.length := rfl

/-- The grid and the region name the same diagonal of the far corner. -/
@[simp] theorem grid_delta (r : Region α) : r.grid.delta = r.delta := rfl

/-- The grid has a diagonal edge where the region finds two positions to agree. -/
theorem grid_agree_iff {x y : ℤ} : r.grid.agree x y ↔ r.agree x y = .ok true := Iff.rfl

/-! ### Coordinates within the range -/

/-- How far from zero the diagonals lie that forward searches use. -/
def forwardSpan (r : Region α) : ℕ := r.old.length + r.new.length + 1

/-- How far from zero the diagonals lie that backward searches use. -/
def backwardSpan (r : Region α) : ℕ := r.delta.natAbs + (r.old.length + r.new.length + 1)

/-- Backward searches use no fewer diagonals than forward ones. -/
theorem forwardSpan_le : r.forwardSpan ≤ r.backwardSpan := Nat.le_add_left _ _

/-- The distance is no more than both sides together. -/
theorem grid_distance_le (r : Region α) : r.grid.distance ≤ r.old.length + r.new.length :=
  r.grid.distance_le_sides

/-- A route with no more steps than the distance has consumed no more elements than there are. -/
theorem route_within {x y : ℤ} {d : ℕ} (h : r.grid.Route Grid.origin ⟨x, y⟩ d)
    (hd : d ≤ r.grid.distance) : x + y ≤ r.old.length + r.new.length := by
  obtain ⟨e, hr, he⟩ := h.complete (by simp [Grid.origin]) (by simp [Grid.origin])
  have := hr.distance_le
  simp only [grid_width, grid_height] at he
  omega

/-- A backward route with no more steps than the distance has no more elements behind it. -/
theorem route_within_back {x y : ℤ} {d : ℕ} (h : r.grid.Route ⟨x, y⟩ r.grid.corner d)
    (hd : d ≤ r.grid.distance) : 0 ≤ x + y := by
  obtain ⟨e, hr, he⟩ := h.complete_from
  have := hr.distance_le
  simp only at he
  omega

/-! ### Slides -/

/-- **Forward slides** that begin right of and below the axes stop only where the next column and
row do not agree. None breaks off when the sides are within the range. -/
theorem slideForward_delivers {k s : ℤ} (hx : 0 ≤ s) (hy : k ≤ s) :
    Delivers (r.forwardSpan < Word.signedLimit) (r.slideForward ⟨s, s - k⟩) fun q =>
      ∃ t, q = ⟨t, t - k⟩ ∧ r.grid.Slide k s t ∧ ¬ r.grid.agree (t + 1) (t + 1 - k) := by
  have hrow (x : ℤ) : x - k + 1 = x + 1 - k := by omega
  generalize hp : (⟨s, s - k⟩ : Point) = p
  fun_induction slideForward r p generalizing s with
  | case1 p hin fault hfault =>
      subst hp
      simp only at hin
      obtain ⟨b, hb⟩ := r.exists_agree (x := s + 1) (y := s - k + 1) (by omega) (by omega)
      rw [hb] at hfault
      exact nomatch hfault
  | case2 p hin hagree hsigned ih =>
      subst hp
      refine (ih (s := s + 1) (by omega) (by omega) (by rw [hrow])).imp id ?_
      rintro q ⟨t, rfl, hslide, hstop⟩
      rw [hrow] at hagree
      have hslide := Grid.Slide.cons (s := s + 1) hagree hslide
      rw [Int.add_sub_cancel] at hslide
      exact ⟨t, rfl, hslide, hstop⟩
  | case3 p hin hagree hsigned =>
      subst hp
      -- both coordinates are those of elements, which are no more than the sides
      obtain ⟨-, hx', -, hy'⟩ := r.grid.inside hagree
      simp only [grid_width, grid_height] at hx' hy'
      refine ⟨fun hspan => absurd ⟨?_, ?_⟩ hsigned, nofun⟩
      · exact Word.isSigned_of_natAbs_lt (by simp only [forwardSpan] at *; omega)
      · exact Word.isSigned_of_natAbs_lt (by simp only [forwardSpan] at *; omega)
  | case4 p hin hagree =>
      subst hp
      refine delivers_of_eq rfl ⟨s, rfl, .refl _ k s, ?_⟩
      intro h
      rw [grid_agree_iff, ← hrow, hagree] at h
      exact nomatch h
  | case5 p hout =>
      subst hp
      refine delivers_of_eq rfl ⟨s, rfl, .refl _ k s, fun h => hout ?_⟩
      obtain ⟨-, hx', -, hy'⟩ := r.grid.inside h
      simp only [grid_width, grid_height] at hx' hy'
      simp only [width, height]
      omega

/-- **Backward slides** that begin left of and above the far sides stop only where the column and
the row before do not agree. -/
theorem slideBackward_delivers {k s : ℤ} (hx : s ≤ r.width) (hy : s - k ≤ r.height) :
    Delivers (r.forwardSpan < Word.signedLimit) (r.slideBackward ⟨s, s - k⟩) fun q =>
      ∃ t, q = ⟨t, t - k⟩ ∧ r.grid.Slide k t s ∧ ¬ r.grid.agree t (t - k) := by
  have hrow (x : ℤ) : x - k - 1 = x - 1 - k := by omega
  generalize hp : (⟨s, s - k⟩ : Point) = p
  fun_induction slideBackward r p generalizing s with
  | case1 p hin fault hfault =>
      subst hp
      simp only at hin
      obtain ⟨b, hb⟩ := r.exists_agree (x := s) (y := s - k) (by omega) (by omega)
      rw [hb] at hfault
      exact nomatch hfault
  | case2 p hin hagree hsigned ih =>
      subst hp
      refine (ih (s := s - 1) (by omega) (by omega) (by rw [hrow])).imp id ?_
      rintro q ⟨t, rfl, hslide, hstop⟩
      have hagree' : r.grid.agree (s - 1 + 1) (s - 1 + 1 - k) := by
        rw [Int.sub_add_cancel]
        exact hagree
      have hslide := hslide.snoc hagree'
      rw [Int.sub_add_cancel] at hslide
      exact ⟨t, rfl, hslide, hstop⟩
  | case3 p hin hagree hsigned =>
      subst hp
      obtain ⟨hx', hx'', hy', hy''⟩ := r.grid.inside hagree
      simp only [grid_width, grid_height] at hx' hx'' hy' hy''
      refine ⟨fun hspan => absurd ⟨?_, ?_⟩ hsigned, nofun⟩
      · exact Word.isSigned_of_natAbs_lt (by simp only [forwardSpan] at *; omega)
      · exact Word.isSigned_of_natAbs_lt (by simp only [forwardSpan] at *; omega)
  | case4 p hin hagree =>
      subst hp
      refine delivers_of_eq rfl ⟨s, rfl, .refl _ k s, ?_⟩
      intro h
      rw [grid_agree_iff, hagree] at h
      exact nomatch h
  | case5 p hout =>
      subst hp
      refine delivers_of_eq rfl ⟨s, rfl, .refl _ k s, fun h => hout ?_⟩
      obtain ⟨hx', -, hy', -⟩ := r.grid.inside h
      simp only
      omega

/-! ### Vectors that are ready for a row -/

/-- The vector has the furthest columns of the routes with `d` steps on the diagonals `ks`. -/
def ForwardOn (r : Region α) (d : ℕ) (ks : List ℤ) (v : Diagonals) : Prop :=
  ∀ k ∈ ks, ∃ x, v.get k = .ok x ∧ r.grid.Furthest d k x

/-- The vector has the earliest columns of the backward routes with `d` steps on the diagonals
`ks`, counted from the diagonal of the corner. -/
def BackwardOn (r : Region α) (d : ℕ) (ks : List ℤ) (v : Diagonals) : Prop :=
  ∀ k ∈ ks, ∃ x, v.get (k + r.delta) = .ok x ∧ r.grid.FurthestBack d (k + r.delta) x

/-- A forward search can do the row of distance `d`: it has the row before, or its seed. -/
def ForwardReady (r : Region α) : ℕ → Diagonals → Prop
  | 0, v => v.get 1 = .ok 0
  | d + 1, v => r.ForwardOn d (diagonalRow d) v

/-- A backward search can do the row of distance `d`: it has the row before, or its seed. -/
def BackwardReady (r : Region α) : ℕ → Diagonals → Prop
  | 0, v => v.get (r.delta - 1) = .ok r.width
  | d + 1, v => r.BackwardOn d (diagonalRow d) v

/-- Writing in a row leaves the row before it alone. -/
theorem ForwardReady.set {d : ℕ} {k x : ℤ} {v w : Diagonals} (h : r.ForwardReady d v)
    (hk : k ∈ diagonalRow d) (hset : v.set k x = .ok w) : r.ForwardReady d w := by
  rw [mem_diagonalRow] at hk
  cases d with
  | zero =>
      have hne : 1 ≠ k := by omega
      rw [ForwardReady, Diagonals.get_set_of_ne hset hne]
      exact h
  | succ d =>
      intro j hj
      have hne : j ≠ k := by
        rw [mem_diagonalRow] at hj
        omega
      rw [Diagonals.get_set_of_ne hset hne]
      exact h j hj

/-- A furthest column written adds its diagonal to those the vector has. -/
theorem ForwardOn.set {d : ℕ} {ks : List ℤ} {k x : ℤ} {v w : Diagonals} (h : r.ForwardOn d ks v)
    (hx : r.grid.Furthest d k x) (hset : v.set k x = .ok w) : r.ForwardOn d (ks ++ [k]) w := by
  intro j hj
  by_cases hjk : j = k
  · subst hjk
    exact ⟨x, Diagonals.get_set_self hset, hx⟩
  · rw [Diagonals.get_set_of_ne hset hjk]
    exact h j (by simpa [hjk] using hj)

/-- Writing in a backward row leaves the row before it alone, too. -/
theorem BackwardReady.set {d : ℕ} {k x : ℤ} {v w : Diagonals} (h : r.BackwardReady d v)
    (hk : k ∈ diagonalRow d) (hset : v.set (k + r.delta) x = .ok w) : r.BackwardReady d w := by
  rw [mem_diagonalRow] at hk
  cases d with
  | zero =>
      have hne : r.delta - 1 ≠ k + r.delta := by omega
      rw [BackwardReady, Diagonals.get_set_of_ne hset hne]
      exact h
  | succ d =>
      intro j hj
      have hne : j + r.delta ≠ k + r.delta := by
        rw [mem_diagonalRow] at hj
        omega
      rw [Diagonals.get_set_of_ne hset hne]
      exact h j hj

/-- An earliest column written adds its diagonal to those the vector has. -/
theorem BackwardOn.set {d : ℕ} {ks : List ℤ} {k x : ℤ} {v w : Diagonals}
    (h : r.BackwardOn d ks v) (hx : r.grid.FurthestBack d (k + r.delta) x)
    (hset : v.set (k + r.delta) x = .ok w) : r.BackwardOn d (ks ++ [k]) w := by
  intro j hj
  by_cases hjk : j = k
  · subst hjk
    exact ⟨x, Diagonals.get_set_self hset, hx⟩
  · rw [Diagonals.get_set_of_ne hset (by omega)]
    exact h j (by simpa [hjk] using hj)

/-- A vector that is ready for a row has the columns of the row before. -/
theorem ForwardReady.exists_get {d : ℕ} {j : ℤ} {v : Diagonals} (h : r.ForwardReady (d + 1) v)
    (hj : j.natAbs ≤ d) (hpar : (j + d) % 2 = 0) :
    ∃ x, v.get j = .ok x ∧ r.grid.Furthest d j x :=
  h j (mem_diagonalRow.mpr ⟨hj, hpar⟩)

/-- The same of backward searches, the diagonal being counted from zero. -/
theorem BackwardReady.exists_get {d : ℕ} {j : ℤ} {v : Diagonals} (h : r.BackwardReady (d + 1) v)
    (hj : (j - r.delta).natAbs ≤ d) (hpar : (j - r.delta + d) % 2 = 0) :
    ∃ x, v.get j = .ok x ∧ r.grid.FurthestBack d j x := by
  obtain ⟨x, hget, hx⟩ := h (j - r.delta) (mem_diagonalRow.mpr ⟨hj, hpar⟩)
  rw [Int.sub_add_cancel] at hget hx
  exact ⟨x, hget, hx⟩

/-! ### Sums that stay within the range -/

/-- The diagonals of a row and those next to them are signed quantities, up to the row of the
distance. -/
theorem signed_diagonal_delivers {d : ℕ} {j k : ℤ} (hk : k.natAbs ≤ d) (hj : (j - k).natAbs ≤ 1) :
    Delivers (d ≤ r.grid.distance ∧ r.forwardSpan < Word.signedLimit)
      (Word.signed j) (· = j) := by
  have hsides := r.grid_distance_le
  exact Word.signed_delivers fun ⟨hd, hspan⟩ => by rw [forwardSpan] at hspan; omega

/-- So are those of a backward row. -/
theorem signed_diagonal_delivers_back {d : ℕ} {j k : ℤ} (hk : k.natAbs ≤ d)
    (hj : (j - (k + r.delta)).natAbs ≤ 1) :
    Delivers (d ≤ r.grid.distance ∧ r.backwardSpan < Word.signedLimit)
      (Word.signed j) (· = j) := by
  have hsides := r.grid_distance_le
  exact Word.signed_delivers fun ⟨hd, hspan⟩ => by rw [backwardSpan] at hspan; omega

/-- A furthest column is no further right than a route that is not too long can be, so that a step
right from it does not leave the range. -/
theorem signed_right_delivers {d : ℕ} {k x : ℤ} (hx : r.grid.Furthest d k x) :
    Delivers (d + 1 ≤ r.grid.distance ∧ r.forwardSpan < Word.signedLimit)
      (Word.signed (x + 1)) (· = x + 1) := by
  refine Word.signed_delivers fun ⟨hd, hspan⟩ => ?_
  obtain ⟨-, -, hx0, hkx⟩ := hx.route.on_row
  have := route_within hx.route (by omega)
  rw [forwardSpan] at hspan
  omega

/-- Nor does a step left from an earliest column. -/
theorem signed_left_delivers {d : ℕ} {k x : ℤ} (hx : r.grid.FurthestBack d k x) :
    Delivers (d + 1 ≤ r.grid.distance ∧ r.backwardSpan < Word.signedLimit)
      (Word.signed (x - 1)) (· = x - 1) := by
  refine Word.signed_delivers fun ⟨hd, hspan⟩ => ?_
  obtain ⟨-, -, hxn, hxm⟩ := hx.route.on_row_back
  have := route_within_back hx.route (by omega)
  simp only [grid_width, grid_height] at hxn hxm
  rw [backwardSpan] at hspan
  omega

/-! ### One path prolonged -/

/-- **A forward path begins its last slide at a launch** when the vector has the row before. -/
theorem launchForward_delivers {d : ℕ} {k : ℤ} {v : Diagonals} (hk : k ∈ diagonalRow d)
    (hv : r.ForwardReady d v) :
    Delivers (d ≤ r.grid.distance ∧ r.forwardSpan < Word.signedLimit)
      (launchForward d k v.get) (r.grid.Launch d k) := by
  rw [mem_diagonalRow] at hk
  unfold launchForward
  cases d with
  | zero =>
      obtain rfl : k = 0 := by omega
      exact delivers_of_eq hv (Grid.launch_zero _)
  | succ d =>
      by_cases hbottom : k = -((d + 1 : ℕ) : ℤ)
      · obtain ⟨a, hget, ha⟩ := ForwardReady.exists_get (j := k + 1) hv (by omega) (by omega)
        rw [if_pos hbottom]
        refine (signed_diagonal_delivers hk.1 (by omega)).bind ?_
        rintro _ rfl
        exact delivers_of_eq hget (Grid.launch_bottom (by omega) ha)
      rw [if_neg hbottom]
      obtain ⟨b, hget, hb⟩ := ForwardReady.exists_get (j := k - 1) hv (by omega) (by omega)
      refine (signed_diagonal_delivers hk.1 (by omega)).bind ?_
      rintro _ rfl
      rw [hget, ok_bind]
      by_cases htop : k = ((d + 1 : ℕ) : ℤ)
      · rw [if_pos htop]
        refine (signed_right_delivers hb).imp id ?_
        rintro _ rfl
        exact Grid.launch_top (by omega) hb
      · obtain ⟨a, hget', ha⟩ := ForwardReady.exists_get (j := k + 1) hv (by omega) (by omega)
        rw [if_neg htop]
        refine (signed_diagonal_delivers hk.1 (by omega)).bind ?_
        rintro _ rfl
        rw [hget', ok_bind]
        have hlaunch := Grid.launch_between hb ha
        by_cases hlt : b < a
        · rw [if_pos hlt]
          exact delivers_of_eq rfl (by rwa [max_eq_right (by omega)] at hlaunch)
        · rw [if_neg hlt]
          refine (signed_right_delivers hb).imp id ?_
          rintro _ rfl
          rwa [max_eq_left (by omega)] at hlaunch

/-- An earliest column is a furthest one of the grid read backward. -/
theorem furthest_mirror {d : ℕ} {j k x : ℤ} (h : r.grid.FurthestBack d j x) (hk : r.delta - j = k) :
    r.grid.mirror.Furthest d k (r.grid.width - x) := by
  rw [← hk, ← grid_delta]
  exact Grid.furthestBack_iff_mirror.mp h

/-- **A backward path begins its last slide at a launch** of the grid read backward. -/
theorem launchBackward_delivers {d : ℕ} {k : ℤ} {v : Diagonals} (hk : k ∈ diagonalRow d)
    (hv : r.BackwardReady d v) :
    Delivers (d ≤ r.grid.distance ∧ r.backwardSpan < Word.signedLimit)
      (launchBackward r.delta d k v.get) fun s =>
        r.grid.mirror.Launch d (r.grid.delta - (k + r.delta)) (r.grid.width - s) := by
  rw [mem_diagonalRow] at hk
  have hmirror : r.grid.delta - (k + r.delta) = -k := by rw [grid_delta]; omega
  have hstep (x : ℤ) : (r.grid.width : ℤ) - (x - 1) = r.grid.width - x + 1 := by omega
  rw [hmirror]
  unfold launchBackward
  cases d with
  | zero =>
      obtain rfl : k = 0 := by omega
      rw [if_pos (by simp)]
      refine (signed_diagonal_delivers_back hk.1 (by omega)).bind ?_
      rintro _ rfl
      rw [Int.zero_add]
      refine delivers_of_eq hv ?_
      have hself : (r.grid.width : ℤ) - r.width = 0 := Int.sub_self _
      rw [hself]
      exact Grid.launch_zero _
  | succ d =>
      by_cases htop : k = ((d + 1 : ℕ) : ℤ)
      · obtain ⟨b, hget, hb⟩ :=
          BackwardReady.exists_get (j := k + r.delta - 1) hv (by omega) (by omega)
        rw [if_pos htop]
        refine (signed_diagonal_delivers_back hk.1 (by omega)).bind ?_
        rintro _ rfl
        exact delivers_of_eq hget (Grid.launch_bottom (by omega) (furthest_mirror hb (by omega)))
      rw [if_neg htop]
      obtain ⟨a, hget, ha⟩ :=
        BackwardReady.exists_get (j := k + r.delta + 1) hv (by omega) (by omega)
      by_cases hbottom : k = -((d + 1 : ℕ) : ℤ)
      · rw [if_pos hbottom]
        refine (signed_diagonal_delivers_back hk.1 (by omega)).bind ?_
        rintro _ rfl
        rw [hget, ok_bind]
        refine (signed_left_delivers ha).imp id ?_
        rintro _ rfl
        rw [hstep]
        exact Grid.launch_top (by omega) (furthest_mirror ha (by omega))
      · obtain ⟨b, hget', hb⟩ :=
          BackwardReady.exists_get (j := k + r.delta - 1) hv (by omega) (by omega)
        rw [if_neg hbottom]
        refine (signed_diagonal_delivers_back hk.1 (by omega)).bind ?_
        rintro _ rfl
        rw [hget', ok_bind]
        refine (signed_diagonal_delivers_back hk.1 (by omega)).bind ?_
        rintro _ rfl
        rw [hget, ok_bind]
        have hlaunch := Grid.launch_between (k := -k) (furthest_mirror ha (by omega))
          (furthest_mirror hb (by omega))
        by_cases hlt : b < a
        · rw [if_pos hlt]
          exact delivers_of_eq rfl (by rwa [max_eq_right (by omega)] at hlaunch)
        · rw [if_neg hlt]
          refine (signed_left_delivers ha).imp id ?_
          rintro _ rfl
          rw [hstep]
          rwa [max_eq_left (by omega)] at hlaunch

/-- The greatest distance is within the range of a vector that serves the region. -/
theorem signed_sides {v : Diagonals} (h : v.Serves r.forwardSpan) :
    Word.signed (r.width + r.height) = .ok (r.width + r.height) :=
  Word.signed_of_natAbs_lt (h.natAbs_lt (by simp only [width, height, forwardSpan]; omega))

/-- So are the diagonal of the corner, and the one before it. -/
theorem signed_delta {v : Diagonals} (h : v.Serves r.backwardSpan) :
    Word.signed r.delta = .ok r.delta ∧ Word.signed (r.delta - 1) = .ok (r.delta - 1) :=
  ⟨Word.signed_of_natAbs_lt (h.natAbs_lt (by rw [backwardSpan]; omega)),
    Word.signed_of_natAbs_lt (h.natAbs_lt (by rw [backwardSpan]; omega))⟩

/-- The vector of a forward search in the middle of the row of distance `d`, of which the
diagonals `done` have been visited. It serves the diagonals up to `b`. -/
structure ForwardRow (r : Region α) (b d : ℕ) (done : List ℤ) (v : Diagonals) : Prop where
  ready : r.ForwardReady d v
  visited : r.ForwardOn d done v
  serves : v.Serves b

/-- The vector of a backward search in the middle of the row of distance `d`. -/
structure BackwardRow (r : Region α) (b d : ℕ) (done : List ℤ) (v : Diagonals) : Prop where
  ready : r.BackwardReady d v
  visited : r.BackwardOn d done v
  serves : v.Serves b

/-- **One forward path prolonged.** When the vector has the row before, the path slides from its
launch to the furthest column of diagonal `k`, and the vector records that column. This does not
break off in a row that is not beyond the distance, on a vector that serves the search. -/
theorem ForwardReady.advance_delivers {d : ℕ} {k : ℤ} {v : Diagonals} (h : r.ForwardReady d v)
    (hk : k ∈ diagonalRow d) :
    Delivers (d ≤ r.grid.distance ∧ v.Serves r.forwardSpan) (r.advance d k v) fun reach =>
      ∃ s t, reach.start = ⟨s, s - k⟩ ∧ reach.stop = ⟨t, t - k⟩ ∧
        r.grid.Route Grid.origin ⟨s, s - k⟩ d ∧ r.grid.Slide k s t ∧ r.grid.Furthest d k t ∧
        v.set k t = .ok reach.record := by
  have hsides := r.grid_distance_le
  have hrow := (mem_diagonalRow.mp hk).1
  refine ((launchForward_delivers hk h).imp (fun ⟨hd, hserves⟩ => ⟨hd, hserves.2⟩)
    fun s hs => hs).bind fun s hlaunch => ?_
  obtain ⟨-, -, hs0, hks⟩ := hlaunch.route.on_row
  have hrowIndex : Delivers (d ≤ r.grid.distance ∧ v.Serves r.forwardSpan) (Word.signed (s - k))
      (· = s - k) := by
    refine Word.signed_delivers fun ⟨hd, hserves⟩ => hserves.natAbs_lt ?_
    have := route_within hlaunch.route hd
    rw [forwardSpan]
    omega
  refine hrowIndex.bind ?_
  rintro _ rfl
  refine ((slideForward_delivers hs0 hks).imp (fun ⟨_, hserves⟩ => hserves.2)
    fun q hq => hq).bind ?_
  rintro _ ⟨t, rfl, hslide, hstop⟩
  refine (Diagonals.set_delivers t fun ⟨hd, hserves⟩ =>
    ⟨hserves, by rw [forwardSpan]; omega⟩).bind fun w hw => ?_
  exact delivers_of_eq rfl
    ⟨s, t, rfl, rfl, hlaunch.route, hslide, hlaunch.furthest hslide hstop, hw⟩

/-- **One backward path prolonged**, to the earliest column. -/
theorem BackwardReady.retreat_delivers {d : ℕ} {k : ℤ} {v : Diagonals} (h : r.BackwardReady d v)
    (hk : k ∈ diagonalRow d) :
    Delivers (d ≤ r.grid.distance ∧ v.Serves r.backwardSpan) (r.retreat d k v) fun reach =>
      ∃ s t, reach.start = ⟨s, s - (k + r.delta)⟩ ∧ reach.stop = ⟨t, t - (k + r.delta)⟩ ∧
        r.grid.Route ⟨s, s - (k + r.delta)⟩ r.grid.corner d ∧
        r.grid.Slide (k + r.delta) t s ∧ r.grid.FurthestBack d (k + r.delta) t ∧
        v.set (k + r.delta) t = .ok reach.record := by
  have hsides := r.grid_distance_le
  have hrow := (mem_diagonalRow.mp hk).1
  have hdiagonal : Delivers (d ≤ r.grid.distance ∧ v.Serves r.backwardSpan)
      (Word.signed (k + r.delta)) (· = k + r.delta) :=
    Word.signed_delivers fun ⟨hd, hserves⟩ => hserves.natAbs_lt (by rw [backwardSpan]; omega)
  refine hdiagonal.bind ?_
  rintro _ rfl
  refine ((launchBackward_delivers hk h).imp (fun ⟨hd, hserves⟩ => ⟨hd, hserves.2⟩)
    fun s hs => hs).bind fun s hlaunch => ?_
  have hroute := Grid.route_corner_iff.mp hlaunch.route
  obtain ⟨-, -, hsx, hsy⟩ := hroute.on_row_back
  simp only [grid_width, grid_height] at hsx hsy
  have hrowIndex : Delivers (d ≤ r.grid.distance ∧ v.Serves r.backwardSpan)
      (Word.signed (s - (k + r.delta))) (· = s - (k + r.delta)) := by
    refine Word.signed_delivers fun ⟨hd, hserves⟩ => hserves.natAbs_lt ?_
    have := route_within_back hroute hd
    rw [backwardSpan]
    omega
  refine hrowIndex.bind ?_
  rintro _ rfl
  refine ((slideBackward_delivers (k := k + r.delta) (s := s) hsx (by rw [height]; omega)).imp
    (fun ⟨_, hserves⟩ => (hserves.mono forwardSpan_le).2) fun q hq => hq).bind ?_
  rintro _ ⟨t, rfl, hslide, hstop⟩
  refine (Diagonals.set_delivers t fun ⟨hd, hserves⟩ =>
    ⟨hserves, by rw [backwardSpan]; omega⟩).bind fun w hw => ?_
  exact delivers_of_eq rfl
    ⟨s, t, rfl, rfl, hroute, hslide, hlaunch.furthestBack hslide hstop, hw⟩

/-- **In the middle of a row nothing breaks off** when a forward path is prolonged, and its
furthest column is recorded. -/
theorem ForwardRow.exists_advance {b d : ℕ} {k : ℤ} {done : List ℤ} {v : Diagonals}
    (h : r.ForwardRow b d done v) (hk : k ∈ diagonalRow d) (hd : d ≤ r.grid.distance)
    (hb : r.forwardSpan ≤ b) :
    ∃ s t w, r.advance d k v = .ok ⟨⟨s, s - k⟩, ⟨t, t - k⟩, w⟩ ∧
      r.grid.Route Grid.origin ⟨s, s - k⟩ d ∧ r.grid.Slide k s t ∧ r.grid.Furthest d k t ∧
      r.ForwardRow b d (done ++ [k]) w := by
  obtain ⟨⟨start, stop, w⟩, hadvance, s, t, rfl, rfl, hroute, hslide, hfurthest, hw⟩ :=
    (h.ready.advance_delivers hk).exists_ok ⟨hd, h.serves.mono hb⟩
  exact ⟨s, t, w, hadvance, hroute, hslide, hfurthest,
    h.ready.set hk hw, h.visited.set hfurthest hw, h.serves.set hw⟩

/-- **In the middle of a row nothing breaks off** when a backward path is prolonged either. -/
theorem BackwardRow.exists_retreat {b d : ℕ} {k : ℤ} {done : List ℤ} {v : Diagonals}
    (h : r.BackwardRow b d done v) (hk : k ∈ diagonalRow d) (hd : d ≤ r.grid.distance)
    (hb : r.backwardSpan ≤ b) :
    ∃ s t w, r.retreat d k v =
        .ok ⟨⟨s, s - (k + r.delta)⟩, ⟨t, t - (k + r.delta)⟩, w⟩ ∧
      r.grid.Route ⟨s, s - (k + r.delta)⟩ r.grid.corner d ∧
      r.grid.Slide (k + r.delta) t s ∧ r.grid.FurthestBack d (k + r.delta) t ∧
      r.BackwardRow b d (done ++ [k]) w := by
  obtain ⟨⟨start, stop, w⟩, hretreat, s, t, rfl, rfl, hroute, hslide, hfurthest, hw⟩ :=
    (h.ready.retreat_delivers hk).exists_ok ⟨hd, h.serves.mono hb⟩
  exact ⟨s, t, w, hretreat, hroute, hslide, hfurthest,
    h.ready.set hk hw, h.visited.set hfurthest hw, h.serves.set hw⟩

end Region

end EditGraph
