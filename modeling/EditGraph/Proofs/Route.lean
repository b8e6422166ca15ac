import EditGraph.Region
import Mathlib.Order.Lattice.Nat

/-!
# Routes through an edit graph

What the searches of this library look for, said without a search. A `Grid` is an edit graph
with its sides and its diagonal steps; `Grid.Route p q d` says that a way leads from `p` to
`q` with `d` steps off the diagonal. Steps right and down are possible everywhere in the
plane, also beyond the grid, since the searches prolong their paths there too. A diagonal
step needs a column and a row that agree, and those lie inside.

The distance of a grid is the least number of steps off the diagonal from the origin to the
far corner. Reading a grid from its far corner (`Grid.mirror`) turns every route around, so
each fact about routes out of the origin is also one about routes into the corner.

## Main results

* `Route.counts` — a route moves by its steps right, its steps down and its slides.
* `Route.retract`, `Route.shorten_to` — one element less on both sides is never further.
* `Route.complete`, `Route.complete_from` — a route to a point, on the grid or off it, gives
  one to the corner, whose length is known.
* `Route.first_step` — what a route begins with.
* `Route.split` — a route can be cut after any number of its steps.
* `Route.transfer` — routes are carried over to every grid with the agreements they use.
-/

namespace EditGraph

/-- An edit graph: its sides, and the columns and rows that agree. -/
structure Grid where
  /-- The number of columns. -/
  width : ℕ
  /-- The number of rows. -/
  height : ℕ
  /-- There is a diagonal step into column `x` and row `y`. -/
  agree : ℤ → ℤ → Prop
  /-- Diagonal steps stay inside. -/
  inside : ∀ {x y : ℤ}, agree x y → 1 ≤ x ∧ x ≤ width ∧ 1 ≤ y ∧ y ≤ height

namespace Grid

variable {G H : Grid}

/-- The point with nothing consumed. -/
def origin : Point := ⟨0, 0⟩

/-- The point with everything consumed. -/
def corner (G : Grid) : Point := ⟨G.width, G.height⟩

/-- The diagonal of the far corner. -/
def delta (G : Grid) : ℤ := G.width - G.height

/-- A way from one point to another, with the number of its steps off the diagonal. -/
inductive Route (G : Grid) (p : Point) : Point → ℕ → Prop
  | refl : Route G p p 0
  | right {x y : ℤ} {d : ℕ} : Route G p ⟨x, y⟩ d → Route G p ⟨x + 1, y⟩ (d + 1)
  | down {x y : ℤ} {d : ℕ} : Route G p ⟨x, y⟩ d → Route G p ⟨x, y + 1⟩ (d + 1)
  | slide {x y : ℤ} {d : ℕ} :
      Route G p ⟨x, y⟩ d → G.agree (x + 1) (y + 1) → Route G p ⟨x + 1, y + 1⟩ d

/-! ### Basic facts -/

/-- The same route, with its end and its length written differently. -/
theorem Route.cast {p : Point} {x y x' y' : ℤ} {d d' : ℕ} (h : G.Route p ⟨x, y⟩ d)
    (hx : x = x') (hy : y = y') (hd : d = d') : G.Route p ⟨x', y'⟩ d' := by
  subst hx hy hd
  exact h

/-- The same route, with its beginning written differently. -/
theorem Route.cast_start {q : Point} {x y x' y' : ℤ} {d : ℕ} (h : G.Route ⟨x, y⟩ q d)
    (hx : x = x') (hy : y = y') : G.Route ⟨x', y'⟩ q d := by
  subst hx hy
  exact h

/-- **A route moves by its steps.** It is made of steps right, steps down and slides, and only
the former two are counted. -/
theorem Route.counts {p q : Point} {d : ℕ} (h : G.Route p q d) :
    ∃ right down slid : ℕ,
      right + down = d ∧ q.x = p.x + right + slid ∧ q.y = p.y + down + slid := by
  induction h with
  | refl => exact ⟨0, 0, 0, by simp⟩
  | right _ ih =>
      obtain ⟨r, u, t, hd, hx, hy⟩ := ih
      exact ⟨r + 1, u, t, by omega, by simp only at hx ⊢; omega, hy⟩
  | down _ ih =>
      obtain ⟨r, u, t, hd, hx, hy⟩ := ih
      exact ⟨r, u + 1, t, by omega, hx, by simp only at hy ⊢; omega⟩
  | slide _ _ ih =>
      obtain ⟨r, u, t, hd, hx, hy⟩ := ih
      exact ⟨r, u, t + 1, hd, by simp only at hx ⊢; omega, by simp only at hy ⊢; omega⟩

/-- The ends of a route say whether it has an even number of steps. -/
theorem Route.step_parity {p q : Point} {d : ℕ} (h : G.Route p q d) :
    (q.x - p.x + (q.y - p.y) + d) % 2 = 0 := by
  obtain ⟨r, u, t, hd, hx, hy⟩ := h.counts
  omega

/-- Routes can be joined. -/
theorem Route.trans {p q s : Point} {d e : ℕ} (h : G.Route p q d) (h' : G.Route q s e) :
    G.Route p s (d + e) := by
  induction h' with
  | refl => exact h
  | right _ ih => exact ih.right
  | down _ ih => exact ih.down
  | slide _ hagree ih => exact ih.slide hagree

/-- A step right in front of a route. -/
theorem Route.of_right {x y : ℤ} {q : Point} {d : ℕ} (h : G.Route ⟨x + 1, y⟩ q d) :
    G.Route ⟨x, y⟩ q (d + 1) := by
  rw [Nat.add_comm]
  exact (Route.refl.right).trans h

/-- A step down in front of a route. -/
theorem Route.of_down {x y : ℤ} {q : Point} {d : ℕ} (h : G.Route ⟨x, y + 1⟩ q d) :
    G.Route ⟨x, y⟩ q (d + 1) := by
  rw [Nat.add_comm]
  exact (Route.refl.down).trans h

/-- A slide in front of a route. -/
theorem Route.of_slide {x y : ℤ} {q : Point} {d : ℕ} (hagree : G.agree (x + 1) (y + 1))
    (h : G.Route ⟨x + 1, y + 1⟩ q d) : G.Route ⟨x, y⟩ q d := by
  rw [← Nat.zero_add d]
  exact (Route.refl.slide hagree).trans h

/-- **The first step of a route**: none is left, or it goes right, or down, or slides. -/
theorem Route.first_step {p q : Point} {d : ℕ} (h : G.Route p q d) :
    (p = q ∧ d = 0) ∨ (∃ e, d = e + 1 ∧ G.Route ⟨p.x + 1, p.y⟩ q e) ∨
      (∃ e, d = e + 1 ∧ G.Route ⟨p.x, p.y + 1⟩ q e) ∨
      (G.agree (p.x + 1) (p.y + 1) ∧ G.Route ⟨p.x + 1, p.y + 1⟩ q d) := by
  induction h with
  | refl => exact .inl ⟨rfl, rfl⟩
  | right _ ih =>
      rcases ih with ⟨rfl, rfl⟩ | ⟨e, rfl, h⟩ | ⟨e, rfl, h⟩ | ⟨hagree, h⟩
      · exact .inr (.inl ⟨0, rfl, .refl⟩)
      · exact .inr (.inl ⟨_, rfl, h.right⟩)
      · exact .inr (.inr (.inl ⟨_, rfl, h.right⟩))
      · exact .inr (.inr (.inr ⟨hagree, h.right⟩))
  | down _ ih =>
      rcases ih with ⟨rfl, rfl⟩ | ⟨e, rfl, h⟩ | ⟨e, rfl, h⟩ | ⟨hagree, h⟩
      · exact .inr (.inr (.inl ⟨0, rfl, .refl⟩))
      · exact .inr (.inl ⟨_, rfl, h.down⟩)
      · exact .inr (.inr (.inl ⟨_, rfl, h.down⟩))
      · exact .inr (.inr (.inr ⟨hagree, h.down⟩))
  | slide _ hxy ih =>
      rcases ih with ⟨rfl, rfl⟩ | ⟨e, rfl, h⟩ | ⟨e, rfl, h⟩ | ⟨hagree, h⟩
      · exact .inr (.inr (.inr ⟨hxy, .refl⟩))
      · exact .inr (.inl ⟨e, rfl, h.slide hxy⟩)
      · exact .inr (.inr (.inl ⟨e, rfl, h.slide hxy⟩))
      · exact .inr (.inr (.inr ⟨hagree, h.slide hxy⟩))

/-- From every point a route without slides leads to every point right and below of it. -/
theorem Route.straight {p q : Point} (hx : p.x ≤ q.x) (hy : p.y ≤ q.y) :
    G.Route p q ((q.x - p.x).toNat + (q.y - p.y).toNat) := by
  have across (n : ℕ) : G.Route p ⟨p.x + n, p.y⟩ n := by
    induction n with
    | zero => exact Route.refl.cast (by simp) rfl rfl
    | succ n ih => exact ih.right.cast (by omega) rfl rfl
  have along (m : ℕ) : G.Route p ⟨p.x + (q.x - p.x).toNat, p.y + m⟩ ((q.x - p.x).toNat + m) := by
    induction m with
    | zero => exact (across _).cast rfl (by simp) rfl
    | succ m ih => exact ih.down.cast rfl (by omega) rfl
  exact (along (q.y - p.y).toNat).cast (by omega) (by omega) rfl

/-- **A route can be cut** after any number of its steps off the diagonal. -/
theorem Route.split {p q : Point} {d e : ℕ} (h : G.Route p q (d + e)) :
    ∃ s, G.Route p s d ∧ G.Route s q e := by
  generalize hn : d + e = n at h
  induction h generalizing e with
  | refl =>
      obtain ⟨rfl, rfl⟩ : d = 0 ∧ e = 0 := by omega
      exact ⟨p, .refl, .refl⟩
  | right h ih =>
      cases e with
      | zero =>
          obtain rfl : d = _ := hn
          exact ⟨_, h.right, .refl⟩
      | succ e =>
          obtain ⟨s, hs, hs'⟩ := ih (e := e) (by omega)
          exact ⟨s, hs, hs'.right⟩
  | down h ih =>
      cases e with
      | zero =>
          obtain rfl : d = _ := hn
          exact ⟨_, h.down, .refl⟩
      | succ e =>
          obtain ⟨s, hs, hs'⟩ := ih (e := e) (by omega)
          exact ⟨s, hs, hs'.down⟩
  | slide _ hagree ih =>
      obtain ⟨s, hs, hs'⟩ := ih hn
      exact ⟨s, hs, hs'.slide hagree⟩

/-- **Routes carry over** to a grid that has, moved by `(dx, dy)`, the agreements between the
ends of the route. -/
theorem Route.transfer {p q : Point} {d : ℕ} (dx dy : ℤ) (h : G.Route p q d)
    (hagree : ∀ x y, p.x < x → x ≤ q.x → p.y < y → y ≤ q.y → G.agree x y →
      H.agree (x + dx) (y + dy)) :
    H.Route ⟨p.x + dx, p.y + dy⟩ ⟨q.x + dx, q.y + dy⟩ d := by
  induction h with
  | refl => exact .refl
  | right _ ih =>
      have ih := ih fun x y h₁ h₂ h₃ h₄ => hagree x y h₁ (by simp only at h₂ ⊢; omega) h₃ h₄
      exact ih.right.cast (by simp only; omega) rfl rfl
  | down _ ih =>
      have ih := ih fun x y h₁ h₂ h₃ h₄ => hagree x y h₁ h₂ h₃ (by simp only at h₄ ⊢; omega)
      exact ih.down.cast rfl (by simp only; omega) rfl
  | @slide x y d h hxy ih =>
      have ih := ih fun x y h₁ h₂ h₃ h₄ =>
        hagree x y h₁ (by simp only at h₂ ⊢; omega) h₃ (by simp only at h₄ ⊢; omega)
      obtain ⟨r, u, t, -, hx, hy⟩ := h.counts
      simp only at hx hy
      have hxy := hagree (x + 1) (y + 1) (by omega) le_rfl (by omega) le_rfl hxy
      have hxy : H.agree (x + dx + 1) (y + dy + 1) := by
        rwa [Int.add_right_comm x dx 1, Int.add_right_comm y dy 1]
      exact (ih.slide hxy).cast (by simp only; omega) (by simp only; omega) rfl

/-! ### Reading a grid backward -/

/-- The grid read from its far corner. -/
def mirror (G : Grid) : Grid where
  width := G.width
  height := G.height
  agree x y := G.agree (G.width + 1 - x) (G.height + 1 - y)
  inside h := by have := G.inside h; omega

/-- Where a point lies when the grid is read from its far corner. -/
def reflect (G : Grid) (p : Point) : Point := ⟨G.width - p.x, G.height - p.y⟩

/-- A grid is the mirror of its mirror. -/
@[simp] theorem mirror_mirror (G : Grid) : G.mirror.mirror = G := by
  simp [mirror]

/-- A point is reflected back to itself. -/
@[simp] theorem reflect_reflect (G : Grid) (p : Point) : G.mirror.reflect (G.reflect p) = p := by
  simp [mirror, reflect]

/-- A route leads back from its end to its beginning when the grid is read backward. -/
theorem Route.mirror {p q : Point} {d : ℕ} (h : G.Route p q d) :
    G.mirror.Route (G.reflect q) (G.reflect p) d := by
  induction h with
  | refl => exact .refl
  | right _ ih => exact (ih.cast_start (by simp only; omega) rfl).of_right
  | down _ ih => exact (ih.cast_start rfl (by simp only; omega)).of_down
  | slide _ hagree ih =>
      refine Route.of_slide ?_ (ih.cast_start (by simp only; omega) (by simp only; omega))
      simpa [Grid.mirror] using hagree

/-- Routes of a grid and of the grid read backward are the same. -/
theorem route_mirror_iff {p q : Point} {d : ℕ} :
    G.mirror.Route (G.reflect q) (G.reflect p) d ↔ G.Route p q d :=
  ⟨fun h => by simpa using h.mirror, Route.mirror⟩

/-! ### Shortening a route -/

/-- **One element less on both sides is never further.** A point up and left of the end of a
route, and not beyond its beginning, is reached with no more steps. -/
theorem Route.retract {p : Point} {x y : ℤ} {d : ℕ} (h : G.Route p ⟨x + 1, y + 1⟩ d)
    (hx : p.x ≤ x) (hy : p.y ≤ y) : ∃ e ≤ d, G.Route p ⟨x, y⟩ e := by
  generalize hq : (⟨x + 1, y + 1⟩ : Point) = q at h
  induction h generalizing x y with
  | refl => subst hq; simp only at hx; omega
  | @right x' y' d h ih =>
      obtain ⟨rfl, rfl⟩ : x = x' ∧ y + 1 = y' := by simpa using hq
      by_cases hlt : p.x < x
      · obtain ⟨e, he, hr⟩ := ih (x := x - 1) (y := y) (by omega) hy (by simp)
        exact ⟨e + 1, by omega, hr.right.cast (by omega) rfl rfl⟩
      · -- the route has gone down only, and goes down one step less
        obtain ⟨r, u, t, hd, hrx, huy⟩ := h.counts
        simp only at hrx huy
        exact ⟨_, by simp only; omega, Route.straight hx hy⟩
  | @down x' y' d h ih =>
      obtain ⟨rfl, rfl⟩ : x + 1 = x' ∧ y = y' := by simpa using hq
      by_cases hlt : p.y < y
      · obtain ⟨e, he, hr⟩ := ih (x := x) (y := y - 1) hx (by omega) (by simp)
        exact ⟨e + 1, by omega, hr.down.cast rfl (by omega) rfl⟩
      · obtain ⟨r, u, t, hd, hrx, huy⟩ := h.counts
        simp only at hrx huy
        exact ⟨_, by simp only; omega, Route.straight hx hy⟩
  | @slide x' y' d h _ _ =>
      obtain ⟨rfl, rfl⟩ : x = x' ∧ y = y' := by simpa using hq
      exact ⟨d, le_rfl, h⟩

/-- The end of a route moves up its diagonal without lengthening the route. -/
theorem Route.retract_to {p : Point} {k x z : ℤ} {d : ℕ} (h : G.Route p ⟨x, x - k⟩ d)
    (hx : p.x ≤ z) (hy : p.y ≤ z - k) (hle : z ≤ x) :
    ∃ e ≤ d, G.Route p ⟨z, z - k⟩ e := by
  induction x, hle using Int.leInduction generalizing d with
  | base => exact ⟨d, le_rfl, h⟩
  | succ x hle ih =>
      have h : G.Route p ⟨x + 1, x - k + 1⟩ d := h.cast rfl (by omega) rfl
      obtain ⟨e, he, hr⟩ := h.retract (by omega) (by omega)
      obtain ⟨e', he', hr'⟩ := ih hr
      exact ⟨e', by omega, hr'⟩

/-- The beginning of a route moves down its diagonal without lengthening the route. -/
theorem Route.shorten_to {q : Point} {k x z : ℤ} {d : ℕ} (h : G.Route ⟨x, x - k⟩ q d)
    (hx : z ≤ q.x) (hy : z - k ≤ q.y) (hle : x ≤ z) :
    ∃ e ≤ d, G.Route ⟨z, z - k⟩ q e := by
  have hback : G.mirror.Route (G.reflect q)
      ⟨G.width - x, G.width - x - (G.delta - k)⟩ d :=
    h.mirror.cast rfl (by simp only [delta]; omega) rfl
  obtain ⟨e, he, hr⟩ := hback.retract_to (z := G.width - z) (by simp only [reflect]; omega)
    (by simp only [reflect, delta]; omega) (by omega)
  refine ⟨e, he, route_mirror_iff.mp (hr.cast rfl ?_ rfl)⟩
  simp only [delta]
  omega

/-! ### Routes to the corner and the distance -/

/-- **A route to any point gives one to the corner.** What the point has left of the grid adds
to the length, and what it has gone beyond the grid is saved. -/
theorem Route.complete {p q : Point} {d : ℕ} (h : G.Route p q d) (hx : p.x ≤ G.width)
    (hy : p.y ≤ G.height) :
    ∃ e : ℕ, G.Route p G.corner e ∧ (e : ℤ) = d + (G.width - q.x) + (G.height - q.y) := by
  induction h with
  | refl => exact ⟨_, Route.straight hx hy, by simp only [corner]; omega⟩
  | right _ ih =>
      obtain ⟨e, hr, he⟩ := ih
      exact ⟨e, hr, by simp only at he ⊢; omega⟩
  | down _ ih =>
      obtain ⟨e, hr, he⟩ := ih
      exact ⟨e, hr, by simp only at he ⊢; omega⟩
  | @slide x y d h hagree _ =>
      -- a slide ends on the grid, and from there it is straight on
      obtain ⟨-, hx', -, hy'⟩ := G.inside hagree
      exact ⟨_, (h.slide hagree).trans (Route.straight hx' hy'), by simp only [corner]; omega⟩

/-- A route from any point to the corner gives one from the origin. -/
theorem Route.complete_from {p : Point} {d : ℕ} (h : G.Route p G.corner d) :
    ∃ e : ℕ, G.Route origin G.corner e ∧ (e : ℤ) = d + p.x + p.y := by
  obtain ⟨e, hr, he⟩ := h.mirror.complete (by simp [reflect, corner, Grid.mirror])
    (by simp [reflect, corner, Grid.mirror])
  refine ⟨e, ?_, by simp only [reflect, Grid.mirror] at he; omega⟩
  simpa [reflect, corner, origin, Grid.mirror] using hr.mirror

/-- The distance of a grid: the fewest steps off the diagonal from the origin to the corner. -/
noncomputable def distance (G : Grid) : ℕ := sInf {d | G.Route origin G.corner d}

/-- The origin and the corner lie `width + height` steps apart without slides. -/
theorem route_sides (G : Grid) : G.Route origin G.corner (G.width + G.height) :=
  (Route.straight (by simp [origin]) (by simp [origin])).cast rfl rfl (by simp [origin])

/-- The distance is the length of a route. -/
theorem route_distance (G : Grid) : G.Route origin G.corner G.distance :=
  Nat.sInf_mem (s := {d | G.Route origin G.corner d}) ⟨_, G.route_sides⟩

/-- No route through the grid is shorter than the distance. -/
theorem Route.distance_le {d : ℕ} (h : G.Route origin G.corner d) : G.distance ≤ d :=
  Nat.sInf_le h

/-- The distance is never more than the two sides together. -/
theorem distance_le_sides (G : Grid) : G.distance ≤ G.width + G.height :=
  G.route_sides.distance_le

/-- The distance has the parity of the sides, and is at least their difference. -/
theorem distance_parity (G : Grid) :
    (G.distance + G.delta) % 2 = 0 ∧ G.delta.natAbs ≤ G.distance := by
  obtain ⟨r, u, t, hd, hx, hy⟩ := G.route_distance.counts
  simp only [corner, origin] at hx hy
  simp only [delta]
  omega

end Grid

end EditGraph
