import EditGraph.Proofs.Furthest

/-!
# Where forward and backward routes meet

A forward and a backward route that have passed each other on one diagonal make up a route
from the origin to the corner, also when they do not touch: one end moves up the diagonal and
the other one down, until they are at one point of the grid, and neither route gets longer on
the way. So the distance is at most the sum of both lengths. It is no less either when the two
searches find their first meeting, because a shortest route, cut into halves, is a meeting.

Searches also follow routes off the grid. None of those takes part in the first meeting: a
route that has left the grid has wasted steps.

## Main results

* `distance_le_of_overlap` — passing each other bounds the distance.
* `exists_overlap` — the halves of a shortest route have passed each other.
* `inside_of_forward`, `inside_of_backward` — routes that meet first are on the grid.
* `divides_of_forward`, `divides_of_backward` — the slide that a search ends with at the first
  meeting lies on a shortest route.
* `Divides.distance_before`, `Divides.distance_after` — the distances of the two parts.
-/

namespace EditGraph

namespace Grid

variable {G H : Grid} {d e : ℕ} {k s t x y : ℤ}

/-! ### Overlaps -/

/-- **Routes that have passed each other bound the distance.** -/
theorem distance_le_of_overlap (hf : G.Route origin ⟨x, x - k⟩ d)
    (hb : G.Route ⟨y, y - k⟩ G.corner e) (hle : y ≤ x) : G.distance ≤ d + e := by
  obtain ⟨hk, -, hx, hkx⟩ := hf.on_row
  obtain ⟨hk', -, hy, hky⟩ := hb.on_row_back
  by_cases hgrid : max 0 k ≤ min (G.width : ℤ) (G.height + k)
  · -- the diagonal crosses the grid: both ends move to a common point of it
    obtain ⟨d', hd, hf'⟩ := hf.retract_to (z := max (max 0 k) y)
      (by simp only [origin]; omega) (by simp only [origin]; omega) (by omega)
    obtain ⟨e', he, hb'⟩ := hb.shorten_to (z := max (max 0 k) y)
      (by simp only [corner]; omega) (by simp only [corner]; omega) (by omega)
    have := (hf'.trans hb').distance_le
    omega
  · -- the diagonal misses the grid: both routes together have as many steps as it has sides
    have := G.distance_le_sides
    simp only [delta] at hk'
    omega

/-- **The halves of a shortest route overlap** on the diagonal of the point between them. -/
theorem exists_overlap (h : G.distance = d + e) :
    ∃ k : ℤ, (k.natAbs ≤ d ∧ (k + d) % 2 = 0) ∧
      ((k - G.delta).natAbs ≤ e ∧ (k - G.delta + e) % 2 = 0) ∧
      ∀ x y, G.Furthest d k x → G.FurthestBack e k y → y ≤ x := by
  have hroute := G.route_distance
  rw [h] at hroute
  obtain ⟨⟨px, py⟩, hd, he⟩ := hroute.split
  have hd : G.Route origin ⟨px, px - (px - py)⟩ d := hd.cast rfl (by omega) rfl
  have he : G.Route ⟨px, px - (px - py)⟩ G.corner e := he.cast_start rfl (by omega)
  obtain ⟨hk, hpar, -, -⟩ := hd.on_row
  obtain ⟨hk', hpar', -, -⟩ := he.on_row_back
  refine ⟨px - py, ⟨hk, hpar⟩, ⟨hk', hpar'⟩, ?_⟩
  intro x y hx hy
  exact (hy.le he).trans (hx.le hd)

/-- A forward route with its share of the distance does not leave the grid, on a diagonal that
the rest of the distance can go back to. -/
theorem inside_of_forward (hf : G.Route origin ⟨x, x - k⟩ d) (hk : (k - G.delta).natAbs ≤ e)
    (hle : d + e ≤ G.distance) : x ≤ G.width ∧ x - k ≤ G.height := by
  obtain ⟨l, hr, hl⟩ := hf.complete (by simp [origin]) (by simp [origin])
  have := hr.distance_le
  simp only [delta] at hk hl
  omega

/-- The same of a backward route. -/
theorem inside_of_backward (hb : G.Route ⟨x, x - k⟩ G.corner e) (hk : k.natAbs ≤ d)
    (hle : d + e ≤ G.distance) : 0 ≤ x ∧ 0 ≤ x - k := by
  obtain ⟨l, hr, hl⟩ := hb.complete_from
  have := hr.distance_le
  simp only at hl
  omega

/-! ### Dividing a grid -/

/-- The slide on diagonal `k` from column `s` to column `t` lies on a shortest route, with `d`
of its steps before the slide and `e` behind it. -/
structure Divides (G : Grid) (d e : ℕ) (k s t : ℤ) : Prop where
  slide : G.Slide k s t
  before : G.Route origin ⟨s, s - k⟩ d
  after : G.Route ⟨t, t - k⟩ G.corner e
  total : G.distance = d + e

/-- A dividing slide lies on the grid. -/
theorem Divides.inside (h : G.Divides d e k s t) :
    0 ≤ s ∧ k ≤ s ∧ s ≤ t ∧ t ≤ G.width ∧ t - k ≤ G.height := by
  have := h.before.on_row
  have := h.after.on_row_back
  have := h.slide.1
  omega

/-- The last slide of a forward route divides the grid when the route meets a backward one and
both together have the length of the distance. -/
theorem divides_of_forward (hs : G.Route origin ⟨s, s - k⟩ d) (hslide : G.Slide k s t)
    (hb : G.Route ⟨y, y - k⟩ G.corner e) (hmeet : y ≤ t) (htotal : G.distance = d + e) :
    G.Divides d e k s t := by
  have hf := hs.slide_to hslide
  obtain ⟨hk', -, -, -⟩ := hb.on_row_back
  obtain ⟨htx, hty⟩ := inside_of_forward hf hk' htotal.ge
  obtain ⟨e', he, hafter⟩ := hb.shorten_to (z := t) htx hty hmeet
  have := (hf.trans hafter).distance_le
  obtain rfl : e' = e := by omega
  exact ⟨hslide, hs, hafter, htotal⟩

/-- The last slide of a backward route divides the grid when the route meets a forward one and
both together have the length of the distance. -/
theorem divides_of_backward (ht : G.Route ⟨t, t - k⟩ G.corner e) (hslide : G.Slide k s t)
    (hf : G.Route origin ⟨x, x - k⟩ d) (hmeet : s ≤ x) (htotal : G.distance = d + e) :
    G.Divides d e k s t := by
  have hb : G.Route ⟨s, s - k⟩ G.corner e := by
    simpa using (Route.refl.slide_to hslide).trans ht
  obtain ⟨hk, -, -, -⟩ := hf.on_row
  obtain ⟨hsx, hsy⟩ := inside_of_backward hb hk htotal.ge
  obtain ⟨d', hd, hbefore⟩ := hf.retract_to (z := s) hsx hsy hmeet
  have := (hbefore.trans hb).distance_le
  obtain rfl : d' = d := by omega
  exact ⟨hslide, hbefore, ht, htotal⟩

/-! ### Parts of a grid -/

/-- `H` is the part of `G` behind column `dx` and row `dy`, as far as its sides go. -/
def IsPart (H G : Grid) (dx dy : ℤ) : Prop :=
  ∀ x y : ℤ, 1 ≤ x → x ≤ H.width → 1 ≤ y → y ≤ H.height →
    (H.agree x y ↔ G.agree (x + dx) (y + dy))

/-- **Routes through a part** are the routes of the whole between the part's corners. -/
theorem IsPart.route_iff {dx dy : ℤ} (h : H.IsPart G dx dy) :
    H.Route origin H.corner d ↔ G.Route ⟨dx, dy⟩ ⟨H.width + dx, H.height + dy⟩ d := by
  constructor
  · intro hr
    refine ((hr.transfer dx dy ?_).cast_start (by simp [origin]) (by simp [origin]))
    intro x y hx hx' hy hy' hagree
    simp only [origin, corner] at hx hx' hy hy'
    exact (h x y hx hx' hy hy').mp hagree
  · intro hr
    refine ((hr.transfer (-dx) (-dy) ?_).cast_start (by simp) (by simp)).cast (by simp)
      (by simp) rfl
    intro x y hx hx' hy hy' hagree
    simp only at hx hx' hy hy'
    refine (h _ _ (by omega) (by omega) (by omega) (by omega)).mpr ?_
    simpa using hagree

/-- **The part before a dividing slide** has the steps before the slide as its distance. -/
theorem Divides.distance_before (h : G.Divides d e k s t) (hpart : H.IsPart G 0 0)
    (hw : (H.width : ℤ) = s) (hh : (H.height : ℤ) = s - k) : H.distance = d := by
  have key (n : ℕ) : H.Route origin H.corner n ↔ G.Route origin ⟨s, s - k⟩ n := by
    rw [hpart.route_iff, hw, hh, Int.add_zero, Int.add_zero]
    rfl
  apply le_antisymm ((key d).mpr h.before).distance_le
  have := (((key _).mp H.route_distance).slide_to h.slide |>.trans h.after).distance_le
  have := h.total
  omega

/-- **The part after a dividing slide** has the steps behind the slide as its distance. -/
theorem Divides.distance_after (h : G.Divides d e k s t) (hpart : H.IsPart G t (t - k))
    (hw : (H.width : ℤ) + t = G.width) (hh : (H.height : ℤ) + (t - k) = G.height) :
    H.distance = e := by
  have key (n : ℕ) : H.Route origin H.corner n ↔ G.Route ⟨t, t - k⟩ G.corner n := by
    rw [hpart.route_iff, hw, hh]
    rfl
  apply le_antisymm ((key e).mpr h.after).distance_le
  have := ((h.before.slide_to h.slide).trans ((key _).mp H.route_distance)).distance_le
  have := h.total
  omega

end Grid

end EditGraph
