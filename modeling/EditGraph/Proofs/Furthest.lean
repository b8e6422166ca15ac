import EditGraph.Proofs.Route

/-!
# Furthest routes

A search keeps, for each diagonal, the furthest column that routes with `d` steps reach there.
This module says what such a column is and how the columns at distance `d + 1` come from those
at distance `d`: a furthest route to diagonal `k` ends with a slide, which begins a step right
of the furthest column on the diagonal below, or at the furthest column on the diagonal above,
whichever is the later one.

Backward routes are the routes of the grid read backward, so their half of the theory is the
first half at `Grid.mirror`.

## Main definitions

* `Grid.Slide` — a stretch of a diagonal on which all columns and rows agree.
* `Grid.Furthest`, `Grid.FurthestBack` — the extreme columns of forward and backward routes.
* `Grid.Launch` — the column in which the last slide of a furthest route begins.

## Main results

* `Launch.furthest` — sliding on from a launch as far as possible is furthest.
* `launch_succ` — the launches at one distance come from the furthest columns before.
* `furthestBack_iff_mirror` — backward routes are forward routes of the mirrored grid.
-/

namespace EditGraph

namespace Grid

variable {G : Grid}

/-- On diagonal `k`, all columns after `s` up to `t` agree with their rows. -/
def Slide (G : Grid) (k s t : ℤ) : Prop := s ≤ t ∧ ∀ x, s < x → x ≤ t → G.agree x (x - k)

/-- No step is a slide. -/
theorem Slide.refl (G : Grid) (k s : ℤ) : G.Slide k s s := ⟨le_rfl, fun x h h' => by omega⟩

/-- A slide goes on over one more agreement. -/
theorem Slide.snoc {k s t : ℤ} (h : G.Slide k s t) (hagree : G.agree (t + 1) (t + 1 - k)) :
    G.Slide k s (t + 1) := by
  refine ⟨by have := h.1; omega, ?_⟩
  intro x hx hx'
  by_cases hxt : x ≤ t
  · exact h.2 x hx hxt
  · obtain rfl : x = t + 1 := by omega
    exact hagree

/-- A slide begins one agreement earlier. -/
theorem Slide.cons {k s t : ℤ} (hagree : G.agree s (s - k)) (h : G.Slide k s t) :
    G.Slide k (s - 1) t := by
  refine ⟨by have := h.1; omega, ?_⟩
  intro x hx hx'
  by_cases hxs : s < x
  · exact h.2 x hxs hx'
  · obtain rfl : x = s := by omega
    exact hagree

/-- A route is prolonged by a slide without becoming longer. -/
theorem Route.slide_to {p : Point} {k s t : ℤ} {d : ℕ} (h : G.Route p ⟨s, s - k⟩ d)
    (hslide : G.Slide k s t) : G.Route p ⟨t, t - k⟩ d := by
  obtain ⟨hle, hagree⟩ := hslide
  induction t, hle using Int.leInduction with
  | base => exact h
  | succ t hle ih =>
      have ih := ih fun x hx hx' => hagree x hx (by omega)
      have hstep := hagree (t + 1) (by omega) le_rfl
      have hplace : t + 1 - k = t - k + 1 := by omega
      rw [hplace] at hstep
      exact (ih.slide hstep).cast rfl (by omega) rfl

/-- **The end of a route is a slide**, before which the route is at its beginning, or makes a
step right from the diagonal below or a step down from the diagonal above. -/
theorem Route.last_slide {p : Point} {k x : ℤ} {d : ℕ} (h : G.Route p ⟨x, x - k⟩ d) :
    ∃ s, G.Slide k s x ∧ (p = ⟨s, s - k⟩ ∧ d = 0 ∨
      ∃ e, d = e + 1 ∧
        (G.Route p ⟨s - 1, s - 1 - (k - 1)⟩ e ∨ G.Route p ⟨s, s - (k + 1)⟩ e)) := by
  generalize hq : (⟨x, x - k⟩ : Point) = q at h
  induction h generalizing x with
  | refl => exact ⟨x, .refl G k x, .inl ⟨hq.symm, rfl⟩⟩
  | @right x' y' d h _ =>
      obtain ⟨rfl, rfl⟩ : x = x' + 1 ∧ x - k = y' := by simpa using hq
      exact ⟨_, .refl G k _, .inr ⟨d, rfl, .inl (h.cast (by omega) (by omega) rfl)⟩⟩
  | @down x' y' d h _ =>
      obtain ⟨rfl, hy⟩ : x = x' ∧ x - k = y' + 1 := by simpa using hq
      exact ⟨_, .refl G k _, .inr ⟨d, rfl, .inr (h.cast rfl (by omega) rfl)⟩⟩
  | @slide x' y' d h hagree ih =>
      obtain ⟨rfl, hy⟩ : x = x' + 1 ∧ x - k = y' + 1 := by simpa using hq
      obtain ⟨s, hslide, hbefore⟩ := ih (x := x') (by rw [show x' - k = y' by omega])
      exact ⟨s, hslide.snoc (by rwa [hy]), hbefore⟩

/-- A route from the origin with `d` steps ends on a diagonal of its row, right of and below
the axes. -/
theorem Route.on_row {k x : ℤ} {d : ℕ} (h : G.Route origin ⟨x, x - k⟩ d) :
    k.natAbs ≤ d ∧ (k + d) % 2 = 0 ∧ 0 ≤ x ∧ k ≤ x := by
  obtain ⟨r, u, t, hd, hx, hy⟩ := h.counts
  simp only [origin] at hx hy
  omega

/-! ### Forward -/

/-- The routes from the origin to diagonal `k` with `d` steps come as far as column `x`. -/
structure Furthest (G : Grid) (d : ℕ) (k x : ℤ) : Prop where
  /-- One of them ends there. -/
  route : G.Route origin ⟨x, x - k⟩ d
  /-- None ends behind. -/
  le {y : ℤ} : G.Route origin ⟨y, y - k⟩ d → y ≤ x

/-- There is only one furthest column. -/
theorem Furthest.unique {d : ℕ} {k x y : ℤ} (hx : G.Furthest d k x) (hy : G.Furthest d k y) :
    x = y :=
  le_antisymm (hy.le hx.route) (hx.le hy.route)

/-- The last slides of the routes to diagonal `k` with `d` steps begin in column `s` at the
latest, and a route comes there. -/
structure Launch (G : Grid) (d : ℕ) (k s : ℤ) : Prop where
  route : G.Route origin ⟨s, s - k⟩ d
  before {x : ℤ} : G.Route origin ⟨x, x - k⟩ d → ∃ s' ≤ s, G.Slide k s' x

/-- **Sliding on is furthest**: a slide from the launch that cannot go on ends in the furthest
column. -/
theorem Launch.furthest {d : ℕ} {k s t : ℤ} (h : G.Launch d k s) (hslide : G.Slide k s t)
    (hstop : ¬ G.agree (t + 1) (t + 1 - k)) : G.Furthest d k t := by
  refine ⟨h.route.slide_to hslide, ?_⟩
  intro y hy
  obtain ⟨s', hs', hslide'⟩ := h.before hy
  by_contra hlt
  have := hslide.1
  exact hstop (hslide'.2 (t + 1) (by omega) (by omega))

/-- Without steps, the only slide begins at the origin. -/
theorem launch_zero (G : Grid) : G.Launch 0 0 0 := by
  refine ⟨Route.refl.cast rfl rfl rfl, ?_⟩
  intro x hx
  rcases hx.last_slide with ⟨s, hslide, ⟨hs, -⟩ | ⟨e, he, -⟩⟩
  · obtain rfl : 0 = s := by simpa [origin] using congrArg Point.x hs
    exact ⟨0, le_rfl, hslide⟩
  · omega

/-- **Launches come from the furthest columns one step before**: from a step right on the
diagonal below or a step down on the diagonal above, whichever is later. -/
theorem launch_succ {d : ℕ} {k s : ℤ} (hroute : G.Route origin ⟨s, s - k⟩ (d + 1))
    (hbelow : ∀ x, G.Route origin ⟨x, x - (k - 1)⟩ d → x + 1 ≤ s)
    (habove : ∀ x, G.Route origin ⟨x, x - (k + 1)⟩ d → x ≤ s) : G.Launch (d + 1) k s := by
  refine ⟨hroute, ?_⟩
  intro x hx
  rcases hx.last_slide with ⟨s', hslide, ⟨-, h0⟩ | ⟨e, he, hbefore⟩⟩
  · omega
  · obtain rfl : d = e := by omega
    refine ⟨s', ?_, hslide⟩
    rcases hbefore with hright | hdown
    · have := hbelow _ hright
      omega
    · exact habove _ hdown

/-- A furthest column on the diagonal below gives a route by a step right. -/
theorem Furthest.route_right {d : ℕ} {k b : ℤ} (h : G.Furthest d (k - 1) b) :
    G.Route origin ⟨b + 1, b + 1 - k⟩ (d + 1) :=
  h.route.right.cast rfl (by omega) rfl

/-- A furthest column on the diagonal above gives a route by a step down. -/
theorem Furthest.route_down {d : ℕ} {k a : ℤ} (h : G.Furthest d (k + 1) a) :
    G.Route origin ⟨a, a - k⟩ (d + 1) :=
  h.route.down.cast rfl (by omega) rfl

/-- On the uppermost diagonal of a row, routes come from below only. -/
theorem launch_top {d : ℕ} {k b : ℤ} (hk : k = d + 1) (hbelow : G.Furthest d (k - 1) b) :
    G.Launch (d + 1) k (b + 1) := by
  refine launch_succ hbelow.route_right ?_ ?_
  · intro x hx
    have := hbelow.le hx
    omega
  · intro x hx
    have := hx.on_row
    omega

/-- On the lowermost diagonal of a row, routes come from above only. -/
theorem launch_bottom {d : ℕ} {k a : ℤ} (hk : k = -(d + 1)) (habove : G.Furthest d (k + 1) a) :
    G.Launch (d + 1) k a := by
  refine launch_succ habove.route_down ?_ ?_
  · intro x hx
    have := hx.on_row
    omega
  · intro x hx
    exact habove.le hx

/-- Between them, routes come from both sides. -/
theorem launch_between {d : ℕ} {k a b : ℤ} (hbelow : G.Furthest d (k - 1) b)
    (habove : G.Furthest d (k + 1) a) : G.Launch (d + 1) k (max (b + 1) a) := by
  refine launch_succ ?_ ?_ ?_
  · rcases max_choice (b + 1) a with h | h
    · rw [h]
      exact hbelow.route_right
    · rw [h]
      exact habove.route_down
  · intro x hx
    have := hbelow.le hx
    omega
  · intro x hx
    have := habove.le hx
    omega

/-! ### Backward -/

/-- The routes with `d` steps that lead from diagonal `k` to the corner begin as early as in
column `x`. -/
structure FurthestBack (G : Grid) (d : ℕ) (k x : ℤ) : Prop where
  /-- One of them begins there. -/
  route : G.Route ⟨x, x - k⟩ G.corner d
  /-- None begins before. -/
  le {y : ℤ} : G.Route ⟨y, y - k⟩ G.corner d → x ≤ y

/-- There is only one earliest column. -/
theorem FurthestBack.unique {d : ℕ} {k x y : ℤ} (hx : G.FurthestBack d k x)
    (hy : G.FurthestBack d k y) : x = y :=
  le_antisymm (hx.le hy.route) (hy.le hx.route)

/-- Routes from a diagonal to the corner are routes to the mirrored diagonal. -/
theorem route_corner_iff {k x : ℤ} {d : ℕ} :
    G.mirror.Route origin ⟨G.width - x, G.width - x - (G.delta - k)⟩ d ↔
      G.Route ⟨x, x - k⟩ G.corner d := by
  rw [← route_mirror_iff (G := G)]
  have hy : (G.width : ℤ) - x - (G.delta - k) = G.height - (x - k) := by
    simp only [delta]
    omega
  simp [reflect, corner, origin, hy]

/-- **Backward routes are forward routes of the mirrored grid.** -/
theorem furthestBack_iff_mirror {d : ℕ} {k x : ℤ} :
    G.FurthestBack d k x ↔ G.mirror.Furthest d (G.delta - k) (G.width - x) := by
  constructor
  · intro h
    refine ⟨route_corner_iff.mpr h.route, ?_⟩
    intro y hy
    have hplace : y = G.width - (G.width - y) := by omega
    rw [hplace] at hy
    have := h.le (route_corner_iff.mp hy)
    omega
  · intro h
    refine ⟨route_corner_iff.mp h.route, ?_⟩
    intro y hy
    have := h.le (route_corner_iff.mpr hy)
    omega

/-- A route with `d` steps to the corner begins on a diagonal of its row, left of and above
the far sides. -/
theorem Route.on_row_back {k x : ℤ} {d : ℕ} (h : G.Route ⟨x, x - k⟩ G.corner d) :
    (k - G.delta).natAbs ≤ d ∧ (k - G.delta + d) % 2 = 0 ∧ x ≤ G.width ∧ x ≤ G.height + k := by
  have := (route_corner_iff.mpr h).on_row
  simp only [delta] at *
  omega

/-- Slides of the mirrored grid are the slides of the grid. -/
theorem slide_mirror_iff {k s t : ℤ} :
    G.mirror.Slide (G.delta - k) (G.width - s) (G.width - t) ↔ G.Slide k t s := by
  have hagree (x : ℤ) :
      G.mirror.agree (G.width + 1 - x) (G.width + 1 - x - (G.delta - k)) ↔ G.agree x (x - k) := by
    have hx : (G.width : ℤ) + 1 - (G.width + 1 - x) = x := by omega
    have hy : (G.height : ℤ) + 1 - (G.width + 1 - x - (G.delta - k)) = x - k := by
      simp only [delta]
      omega
    simp [mirror, hx, hy]
  constructor
  · rintro ⟨hle, h⟩
    exact ⟨by omega, fun x hx hx' => (hagree x).mp (h _ (by omega) (by omega))⟩
  · rintro ⟨hle, h⟩
    refine ⟨by omega, ?_⟩
    intro x hx hx'
    have hplace : x = G.width + 1 - (G.width + 1 - x) := by omega
    rw [hplace]
    exact (hagree _).mpr (h _ (by omega) (by omega))

/-- Sliding back as far as possible from a launch of the mirrored grid is furthest. -/
theorem Launch.furthestBack {d : ℕ} {k s t : ℤ}
    (h : G.mirror.Launch d (G.delta - k) (G.width - s)) (hslide : G.Slide k t s)
    (hstop : ¬ G.agree t (t - k)) : G.FurthestBack d k t := by
  refine furthestBack_iff_mirror.mpr (h.furthest (slide_mirror_iff.mpr hslide) fun hgo => hstop ?_)
  have hx : (G.width : ℤ) + 1 - (G.width - t + 1) = t := by omega
  have hy : (G.height : ℤ) + 1 - (G.width - t + 1 - (G.delta - k)) = t - k := by
    simp only [delta]
    omega
  simpa [mirror, hx, hy] using hgo

end Grid

end EditGraph
