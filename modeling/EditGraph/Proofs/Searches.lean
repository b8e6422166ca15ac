import EditGraph.Proofs.Frontier

/-!
# The two searches for the distance

Both greedy searches return the distance of the region's edit graph. A row that ends without a
result proves that the distance is greater, since a shortest route would have been on the
diagonal of the corner. A path that does end the search, wherever off the grid it may be,
proves that the distance is not greater.

Vectors need to serve no more diagonals than `Region.forwardSpan` and `Region.backwardSpan`
say, and what they hold beforehand does not matter, the seed apart.

## Main results

* `sweep_visitForward`, `sweep_visitBackward` — what one row of a search establishes.
* `sweep_distances_forward`, `sweep_distances_backward` — the searches, from any seeded vector.
* `distance_eq_grid_distance`, `distanceBackward_eq_grid_distance` — the searches of a region.
-/

namespace EditGraph

namespace Region

variable {α : Type} {r : Region α} {d : ℕ} {v : Diagonals}

/-- The corner lies on its diagonal. -/
theorem route_corner (hd : r.grid.distance = d) :
    r.grid.Route Grid.origin ⟨r.width, r.width - r.delta⟩ d := by
  have hroute := r.grid.route_distance
  rw [hd] at hroute
  exact hroute.cast rfl (by simp only [delta, height, grid_height]; omega) rfl

/-! ### Forward -/

/-- A forward path that has all elements behind it is no shorter than the distance. -/
theorem distance_le_of_reached {k x : ℤ} (h : r.grid.Route Grid.origin ⟨x, x - k⟩ d)
    (hx : r.width ≤ x) (hy : r.height ≤ x - k) : r.grid.distance ≤ d := by
  obtain ⟨e, hr, he⟩ := h.complete (by simp [Grid.origin]) (by simp [Grid.origin])
  have := hr.distance_le
  simp only [width, height, grid_width, grid_height] at hx hy he
  omega

/-- **A row of the forward search** either finds the distance, or leaves the vector ready for
the next row of a region whose distance is greater. -/
theorem sweep_visitForward (hv : r.ForwardReady d v) (hserves : v.Serves r.forwardSpan)
    (hd : d ≤ r.grid.distance) :
    Settles (fun w => r.ForwardReady (d + 1) w ∧ w.Serves r.forwardSpan ∧
        d + 1 ≤ r.grid.distance)
      (fun e => e = r.grid.distance) (sweep (r.visitForward d) (diagonalRow d) v) := by
  have hsides := r.grid_distance_le
  refine (sweep_settles
    (P := fun done w => r.ForwardRow r.forwardSpan d done w ∧
      ∀ k ∈ done, ∀ x, r.grid.Furthest d k x → ¬ (r.width ≤ x ∧ r.height ≤ x - k))
    (Q := fun e => e = r.grid.distance) ?_ ⟨⟨hv, nofun, hserves⟩, nofun⟩).imp ?_ (fun e he => he)
  · rintro done k rest hsplit w ⟨hw, hnone⟩
    obtain ⟨s, t, w', hadvance, -, -, ht, hw'⟩ :=
      hw.exists_advance (k := k) (by simp [hsplit]) hd le_rfl
    simp only [visitForward_eq, hadvance, ok_bind]
    by_cases hstop : r.width ≤ t ∧ r.height ≤ t - k
    · rw [if_pos hstop]
      have := distance_le_of_reached ht.route hstop.1 hstop.2
      have hfound : d = r.grid.distance := by omega
      exact hfound
    · rw [if_neg hstop]
      refine ⟨hw', ?_⟩
      intro j hj x hx
      rcases List.mem_append.mp hj with hj | hj
      · exact hnone j hj x hx
      · obtain rfl : j = k := by simpa using hj
        rwa [hx.unique ht]
  · rintro w ⟨hw, hnone⟩
    refine ⟨hw.visited, hw.serves, ?_⟩
    -- a shortest route would end on the diagonal of the corner, which the row has visited
    by_contra hlt
    have hsame : r.grid.distance = d := by omega
    have hcorner := route_corner hsame
    obtain ⟨hk, hpar, -, -⟩ := hcorner.on_row
    have hmem := mem_diagonalRow.mpr ⟨hk, hpar⟩
    obtain ⟨x, -, hx⟩ := hw.visited r.delta hmem
    have := hx.le hcorner
    exact hnone r.delta hmem x hx ⟨this, by simp only [delta]; omega⟩

/-- **The forward search** finds the distance, from any vector that has the seed. -/
theorem sweep_distances_forward (hseed : v.get 1 = .ok 0) (hserves : v.Serves r.forwardSpan) :
    sweep (fun d => sweep (r.visitForward d) (diagonalRow d)) r.distances v =
      .ok (.found r.grid.distance) := by
  have hsides := r.grid_distance_le
  have hall := sweep_range_settles
    (P := fun d w => r.ForwardReady d w ∧ w.Serves r.forwardSpan ∧ d ≤ r.grid.distance)
    (Q := fun e => e = r.grid.distance) (n := r.old.length + r.new.length + 1)
    (fun d _ w ⟨hv, hserves, hd⟩ => sweep_visitForward hv hserves hd)
    ⟨hseed, hserves, Nat.zero_le _⟩
  obtain ⟨e, he, rfl⟩ := (hall.imp (fun _ h => by omega) (fun _ h => h)).exists_found
  exact he

/-! ### Backward -/

/-- A backward path that has no elements before it is no shorter than the distance. -/
theorem distance_le_of_reached_back {k x : ℤ} (h : r.grid.Route ⟨x, x - k⟩ r.grid.corner d)
    (hx : x ≤ 0) (hy : x - k ≤ 0) : r.grid.distance ≤ d := by
  obtain ⟨e, hr, he⟩ := h.complete_from
  have := hr.distance_le
  simp only at he
  omega

/-- **A row of the backward search** either finds the distance, or leaves the vector ready for
the next row of a region whose distance is greater. -/
theorem sweep_visitBackward (hv : r.BackwardReady d v) (hserves : v.Serves r.backwardSpan)
    (hd : d ≤ r.grid.distance) :
    Settles (fun w => r.BackwardReady (d + 1) w ∧ w.Serves r.backwardSpan ∧
        d + 1 ≤ r.grid.distance)
      (fun e => e = r.grid.distance) (sweep (r.visitBackward d) (diagonalRow d) v) := by
  have hsides := r.grid_distance_le
  refine (sweep_settles
    (P := fun done w => r.BackwardRow r.backwardSpan d done w ∧
      ∀ k ∈ done, ∀ x, r.grid.FurthestBack d (k + r.delta) x →
        ¬ (x ≤ 0 ∧ x - (k + r.delta) ≤ 0))
    (Q := fun e => e = r.grid.distance) ?_ ⟨⟨hv, nofun, hserves⟩, nofun⟩).imp ?_ (fun e he => he)
  · rintro done k rest hsplit w ⟨hw, hnone⟩
    obtain ⟨s, t, w', hretreat, -, -, ht, hw'⟩ :=
      hw.exists_retreat (k := k) (by simp [hsplit]) hd le_rfl
    simp only [visitBackward_eq, hretreat, ok_bind]
    by_cases hstop : t ≤ 0 ∧ t - (k + r.delta) ≤ 0
    · rw [if_pos hstop]
      have := distance_le_of_reached_back ht.route hstop.1 hstop.2
      have hfound : d = r.grid.distance := by omega
      exact hfound
    · rw [if_neg hstop]
      refine ⟨hw', ?_⟩
      intro j hj x hx
      rcases List.mem_append.mp hj with hj | hj
      · exact hnone j hj x hx
      · obtain rfl : j = k := by simpa using hj
        rwa [hx.unique ht]
  · rintro w ⟨hw, hnone⟩
    refine ⟨hw.visited, hw.serves, ?_⟩
    -- a shortest route would begin on the diagonal of the origin, which the row has visited
    by_contra hlt
    have horigin := r.grid.route_distance
    have hplace : r.grid.distance = d := by omega
    rw [hplace] at horigin
    have horigin : r.grid.Route ⟨0, 0 - (-r.delta + r.delta)⟩ r.grid.corner d :=
      horigin.cast_start rfl (by omega)
    obtain ⟨hk, hpar, -, -⟩ := horigin.on_row_back
    rw [grid_delta] at hk hpar
    have hmem : -r.delta ∈ diagonalRow d := mem_diagonalRow.mpr ⟨by omega, by omega⟩
    obtain ⟨x, -, hx⟩ := hw.visited (-r.delta) hmem
    have := hx.le horigin
    exact hnone (-r.delta) hmem x hx ⟨this, by omega⟩

/-- **The backward search** finds the distance, from any vector that has the seed. -/
theorem sweep_distances_backward (hseed : v.get (r.delta - 1) = .ok r.width)
    (hserves : v.Serves r.backwardSpan) :
    sweep (fun d => sweep (r.visitBackward d) (diagonalRow d)) r.distances v =
      .ok (.found r.grid.distance) := by
  have hsides := r.grid_distance_le
  have hall := sweep_range_settles
    (P := fun d w => r.BackwardReady d w ∧ w.Serves r.backwardSpan ∧ d ≤ r.grid.distance)
    (Q := fun e => e = r.grid.distance) (n := r.old.length + r.new.length + 1)
    (fun d _ w ⟨hv, hserves, hd⟩ => sweep_visitBackward hv hserves hd)
    ⟨hseed, hserves, Nat.zero_le _⟩
  obtain ⟨e, he, rfl⟩ := (hall.imp (fun _ h => by omega) (fun _ h => h)).exists_found
  exact he

/-! ### The searches of a region -/

/-- The diagonal vectors of the region fit into memory. -/
abbrev Fits (r : Region α) : Prop := Diagonals.Fits r.old.length r.new.length

/-- A vector made for a region serves all of its searches. -/
theorem serves_of_create (h : Diagonals.create r.old.length r.new.length = .ok v) :
    v.Serves r.forwardSpan ∧ v.Serves r.backwardSpan := by
  have hfits := Diagonals.fits_of_create h
  obtain ⟨w, hw, hbias⟩ := Diagonals.exists_create hfits
  obtain rfl := Except.ok.inj (h.symm.trans hw)
  have hserves : v.Serves r.backwardSpan := by
    simp only [Diagonals.Fits, Diagonals.memoryLimit] at hfits
    refine ⟨?_, ?_⟩
    · simp only [hbias, backwardSpan, delta, width, height, Diagonals.biasFor]
      omega
    · simp only [backwardSpan, delta, width, height, Diagonals.memoryLimit]
      omega
  exact ⟨hserves.mono forwardSpan_le, hserves⟩

/-- There is such a vector when it fits into memory. -/
theorem exists_create (h : r.Fits) :
    ∃ v, Diagonals.create r.old.length r.new.length = .ok v ∧ v.Serves r.forwardSpan ∧
      v.Serves r.backwardSpan := by
  obtain ⟨v, hv, -⟩ := Diagonals.exists_create h
  exact ⟨v, hv, serves_of_create hv⟩

/-- **The forward search of a region finds its distance.** -/
theorem distance_eq_grid_distance (h : r.Fits) : r.distance = .ok r.grid.distance := by
  obtain ⟨v, hv, hserves, -⟩ := exists_create h
  obtain ⟨hin, hleast⟩ := hserves.within (k := 1) (by rw [forwardSpan]; omega)
  obtain ⟨w, hw⟩ := Diagonals.exists_set 0 hin hleast
  simp only [distance, hv, ok_bind, searchForward_eq, hw, signed_sides hserves,
    sweep_distances_forward (Diagonals.get_set_self hw) (hserves.set hw)]
  rfl

/-- **The backward search of a region finds its distance.** -/
theorem distanceBackward_eq_grid_distance (h : r.Fits) :
    r.distanceBackward = .ok r.grid.distance := by
  obtain ⟨v, hv, hserves, hserves'⟩ := exists_create h
  obtain ⟨hin, hleast⟩ := hserves'.within (k := r.delta - 1) (by rw [backwardSpan]; omega)
  obtain ⟨w, hw⟩ := Diagonals.exists_set r.width hin hleast
  obtain ⟨hdelta, hcorner⟩ := signed_delta hserves'
  simp only [distanceBackward, hv, ok_bind, searchBackward_eq, hdelta, hcorner, hw,
    signed_sides hserves, sweep_distances_backward (Diagonals.get_set_self hw) (hserves'.set hw)]
  rfl

end Region

end EditGraph
