import EditGraph.Proofs.Frontier

/-!
# The middle snake is found

The two searches that run in lock step meet at the first distance at which they can, with a
slide that lies on a shortest route and has half of the route's steps on either side. A round
in which they do not meet proves that the distance is greater than the steps of both together:
the halves of a shortest route would have met on one of the diagonals of the row.

The search needs no more of the two vectors than that they serve the diagonals it uses. What
they hold beforehand is never looked at.

## Main definitions

* `Region.IsMiddle` — the answer of a search is right.
* `Region.Round`, `Region.HalfRound` — what holds of the vectors, and of the region, before a round
  and between its rows.
* `Region.InForwardRow`, `Region.InBackwardRow` — what holds in the middle of a row.

## Main results

* `InForwardRow.settles_visit`, `InBackwardRow.settles_visit` — one visit.
* `InForwardRow.unmet`, `InBackwardRow.unmet` — what a row without a meeting proves.
* `settles_meetForward`, `settles_meetBackward` — the rows of a round.
* `exists_middleSnake` — the search returns, with an answer that is right.
-/

namespace EditGraph

namespace Region

variable {α : Type} {r : Region α} {b c d : ℕ}

/-- The distance is that of the region, and the snake lies on a shortest route, with half of
the distance before it, rounded up, and the other half behind it. -/
structure IsMiddle (r : Region α) (m : MiddleSnake) : Prop where
  distance : m.distance = r.grid.distance
  straight : m.snake.endX + m.snake.startY = m.snake.startX + m.snake.endY
  divides : r.grid.Divides ((m.distance + 1) / 2) (m.distance / 2)
    (m.snake.startX - m.snake.startY) m.snake.startX m.snake.endX

/-- The slide between two points of the grid on one diagonal is a snake. -/
theorem between_eq_ok {k s t : ℤ} (hs : 0 ≤ s) (hks : k ≤ s) (hst : s ≤ t)
    (hsigned : (t - s).natAbs < Word.signedLimit) :
    Snake.between ⟨s, s - k⟩ ⟨t, t - k⟩ =
      .ok ⟨s.toNat, (s - k).toNat, t.toNat, (t - k).toNat⟩ := by
  have hdown : t - k - (s - k) = t - s := by omega
  simp only [Snake.between, hdown, Word.signed_of_natAbs_lt hsigned, ok_bind]
  rw [if_neg (by omega), if_neg (by simp), if_neg (by omega)]
  rfl

/-- A slide that divides the grid in halves is a middle snake. -/
theorem isMiddle_of_divides {e : ℕ} {k s t : ℤ} {n : ℕ} (h : r.grid.Divides d e k s t)
    (hd : (n + 1) / 2 = d) (he : n / 2 = e) :
    r.IsMiddle ⟨n, ⟨s.toNat, (s - k).toNat, t.toNat, (t - k).toNat⟩⟩ := by
  obtain ⟨hs, hks, hst, -, -⟩ := h.inside
  have htotal := h.total
  refine ⟨by simp only; omega, by simp only; omega, ?_⟩
  have hy : ((s - k).toNat : ℤ) = s - k := by omega
  simp only [hd, he, hy, Int.toNat_of_nonneg hs, Int.toNat_of_nonneg (hs.trans hst),
    Int.sub_sub_self]
  exact h

/-- What the parity of the sides says about the diagonal of the corner. -/
theorem isOdd_iff : r.isOdd = true ↔ r.delta % 2 = 1 := by simp [isOdd]

/-- **Looking for a backward path**, when no sum on the way leaves the range. -/
theorem lookBackward_eq {k : ℤ} {reach : Reach} {backward : Diagonals}
    (hk : (k - r.delta).natAbs < Word.signedLimit)
    (hd : (2 * d : ℤ).natAbs < Word.signedLimit) :
    r.lookBackward Diagonals.store d k reach backward =
      if r.isOdd = true ∧ (k - r.delta).natAbs < d then do
        let opposite ← backward.get k
        if opposite ≤ reach.stop.x then
          let snake ← Snake.between reach.start reach.stop
          return .found ⟨⟨(2 * d - 1 : ℤ).natAbs, snake⟩, ⟨reach.record, backward⟩⟩
        else return .passed ⟨reach.record, backward⟩
      else return .passed ⟨reach.record, backward⟩ := by
  have hless : (2 * d - 1 : ℤ).natAbs < Word.signedLimit := by
    rw [Word.signedLimit] at hd ⊢
    omega
  simp only [lookBackward, facesBackward, Diagonals.store, Word.magnitude_of_natAbs_lt hk,
    Word.signed_of_natAbs_lt hd, Word.magnitude_of_natAbs_lt hless, ok_bind]
  cases r.isOdd with
  | false => simp
  | true => simp

/-- **Looking for a forward path** likewise. -/
theorem lookForward_eq {k : ℤ} {reach : Reach} {forward : Diagonals}
    (hk : (k + r.delta).natAbs < Word.signedLimit)
    (hd : (2 * d : ℤ).natAbs < Word.signedLimit) :
    r.lookForward Diagonals.store d k reach forward =
      if ¬ r.isOdd = true ∧ (k + r.delta).natAbs ≤ d then do
        let opposite ← forward.get (k + r.delta)
        if reach.stop.x ≤ opposite then
          let snake ← Snake.between reach.stop reach.start
          return .found ⟨⟨(2 * d : ℤ).natAbs, snake⟩, ⟨forward, reach.record⟩⟩
        else return .passed ⟨forward, reach.record⟩
      else return .passed ⟨forward, reach.record⟩ := by
  simp only [lookForward, facesForward, Diagonals.store, Word.magnitude_of_natAbs_lt hk,
    Word.magnitude_of_natAbs_lt hd, ok_bind]
  cases r.isOdd with
  | false => simp
  | true => simp

/-! ### A round of both searches -/

/-- Before the round of distance `d`: either vector is ready for its row, and no meeting has
been missed. The vectors serve the diagonals up to `b` and `c`. -/
structure Round (r : Region α) (b c d : ℕ) (f : Frontiers) : Prop where
  forward : r.ForwardReady d f.forward
  backward : r.BackwardReady d f.backward
  forwardServes : f.forward.Serves b
  backwardServes : f.backward.Serves c
  unmet : 2 * d ≤ r.grid.distance + 1

/-- Between the rows of a round: the forward vector has its row, and no forward path has met
a backward one. -/
structure HalfRound (r : Region α) (b c d : ℕ) (f : Frontiers) : Prop where
  forward : r.ForwardOn d (diagonalRow d) f.forward
  backward : r.BackwardReady d f.backward
  forwardServes : f.forward.Serves b
  backwardServes : f.backward.Serves c
  unmet : 2 * d ≤ r.grid.distance

/-- A search that has met ends with a right answer and returns vectors of the same service. -/
structure Met (r : Region α) (b c : ℕ) (m : Meeting) : Prop where
  middle : r.IsMiddle m.middle
  serve : m.frontiers.Serve b c

/-- On a diagonal that backward paths of one step less can be on, their column is known. -/
theorem BackwardReady.exists_opposite {k : ℤ} {v : Diagonals} (h : r.BackwardReady d v)
    (hk : k ∈ diagonalRow d) (hodd : r.isOdd = true) (hnear : (k - r.delta).natAbs < d) :
    ∃ e y, d = e + 1 ∧ v.get k = .ok y ∧ r.grid.FurthestBack e k y := by
  rw [mem_diagonalRow] at hk
  rw [isOdd_iff] at hodd
  cases d with
  | zero => omega
  | succ e =>
      obtain ⟨y, hget, hy⟩ := BackwardReady.exists_get (j := k) h (by omega) (by omega)
      exact ⟨e, y, rfl, hget, hy⟩

/-- On diagonal `k` the forward paths with `d` steps have not met the backward paths with one
step less. -/
def ApartForward (r : Region α) (d : ℕ) (k : ℤ) : Prop :=
  r.isOdd = true → (k - r.delta).natAbs < d →
    ∀ e x y, d = e + 1 → r.grid.Furthest d k x → r.grid.FurthestBack e k y → x < y

/-- In the forward row of a round, after the diagonals `done`: no forward path has met a backward
one. -/
structure InForwardRow (r : Region α) (b c d : ℕ) (done : List ℤ) (f : Frontiers) : Prop where
  row : r.ForwardRow b d done f.forward
  ready : r.BackwardReady d f.backward
  serves : f.backward.Serves c
  apart : ∀ k ∈ done, r.ApartForward d k

/-- **A visit of the forward row** meets with a right answer, or adds its diagonal to those without
a meeting. -/
theorem InForwardRow.settles_visit {done : List ℤ} {k : ℤ} {f : Frontiers}
    (h : r.InForwardRow b c d done f) (hk : k ∈ diagonalRow d)
    (hunmet : 2 * d ≤ r.grid.distance + 1) (hb : r.forwardSpan ≤ b) (hc : r.backwardSpan ≤ c) :
    Settles (r.InForwardRow b c d (done ++ [k])) (r.Met b c) (r.meetForward d k f) := by
  obtain ⟨hrow, hready, hserves, hapart⟩ := h
  have hparity := r.grid.distance_parity
  rw [grid_delta] at hparity
  have hsides := r.grid_distance_le
  have hd : d ≤ r.grid.distance := by omega
  obtain ⟨s, t, w, hadvance, hs, hslide, ht, hrow'⟩ := hrow.exists_advance hk hd hb
  have hnearest := (mem_diagonalRow.mp hk).1
  rw [backwardSpan] at hc
  rw [meetForward_eq, hadvance, ok_bind, lookBackward_eq (hserves.natAbs_lt (by omega))
    (hserves.natAbs_lt (by omega))]
  by_cases hnear : r.isOdd = true ∧ (k - r.delta).natAbs < d
  · obtain ⟨e, y, rfl, hget, hy⟩ := hready.exists_opposite hk hnear.1 hnear.2
    rw [if_pos hnear, hget, ok_bind]
    by_cases hmeet : y ≤ t
    · -- both paths together are no shorter than the distance, so they are a shortest route
      have hle := Grid.distance_le_of_overlap ht.route hy.route hmeet
      have hdivides := Grid.divides_of_forward hs hslide hy.route hmeet (by omega)
      obtain ⟨hs0, hks, hst, htx, -⟩ := hdivides.inside
      rw [grid_width] at htx
      rw [if_pos hmeet, between_eq_ok hs0 hks hst (hserves.natAbs_lt (by omega))]
      exact ⟨isMiddle_of_divides hdivides (by omega) (by omega), ⟨hrow'.serves, hserves⟩⟩
    · rw [if_neg hmeet]
      refine ⟨hrow', hready, hserves, List.forall_mem_append.mpr
        ⟨hapart, List.forall_mem_singleton.mpr fun _ _ e' x' y' he hx' hy' => ?_⟩⟩
      obtain rfl : e = e' := by omega
      rw [hx'.unique ht, hy'.unique hy]
      omega
  · rw [if_neg hnear]
    exact ⟨hrow', hready, hserves, List.forall_mem_append.mpr ⟨hapart,
      List.forall_mem_singleton.mpr fun hodd hnear' => absurd ⟨hodd, hnear'⟩ hnear⟩⟩

/-- **A forward row without a meeting** shows that the distance is more than the steps of both
searches: the halves of a route of length `2 * d - 1` would have met in this row. -/
theorem InForwardRow.unmet {f : Frontiers} (h : r.InForwardRow b c d (diagonalRow d) f)
    (hunmet : 2 * d ≤ r.grid.distance + 1) : 2 * d ≤ r.grid.distance := by
  obtain ⟨hrow, hready, -, hapart⟩ := h
  have hparity := r.grid.distance_parity
  rw [grid_delta] at hparity
  by_contra hlt
  obtain ⟨e, rfl⟩ : ∃ e, d = e + 1 := ⟨d - 1, by omega⟩
  obtain ⟨k, ⟨hk, hpar⟩, ⟨hnear, -⟩, hmeet⟩ :=
    Grid.exists_overlap (show r.grid.distance = (e + 1) + e by omega)
  rw [grid_delta] at hnear
  have hmem := mem_diagonalRow.mpr ⟨hk, hpar⟩
  have hodd : r.isOdd = true := by rw [isOdd_iff]; omega
  have hnear : (k - r.delta).natAbs < e + 1 := by omega
  obtain ⟨x, -, hx⟩ := hrow.visited k hmem
  obtain ⟨e', y, he, -, hy⟩ := hready.exists_opposite hmem hodd hnear
  obtain rfl : e = e' := by omega
  have := hapart k hmem hodd hnear e x y rfl hx hy
  have := hmeet x y hx hy
  omega

/-- **The forward row of a round** meets with a right answer, or shows that forward paths of
this distance meet no backward path of one step less. -/
theorem settles_meetForward {f : Frontiers} (h : r.Round b c d f) (hb : r.forwardSpan ≤ b)
    (hc : r.backwardSpan ≤ c) :
    Settles (r.HalfRound b c d) (r.Met b c) (sweep (r.meetForward d) (diagonalRow d) f) := by
  have hstart : r.InForwardRow b c d [] f :=
    ⟨⟨h.forward, nofun, h.forwardServes⟩, h.backward, h.backwardServes, nofun⟩
  refine (sweep_settles (fun done k rest hsplit g hg => ?_) hstart).imp (fun g hg => ?_)
    fun m hm => hm
  · exact hg.settles_visit (by simp [hsplit]) h.unmet hb hc
  · exact ⟨hg.row.visited, hg.ready, hg.row.serves, hg.serves, hg.unmet h.unmet⟩

/-- On a diagonal that forward paths of as many steps can be on, their column is known. -/
theorem ForwardOn.exists_opposite {k : ℤ} {v : Diagonals} (h : r.ForwardOn d (diagonalRow d) v)
    (hk : k ∈ diagonalRow d) (heven : ¬ r.isOdd = true) (hnear : (k + r.delta).natAbs ≤ d) :
    ∃ x, v.get (k + r.delta) = .ok x ∧ r.grid.Furthest d (k + r.delta) x := by
  rw [mem_diagonalRow] at hk
  rw [isOdd_iff] at heven
  exact h (k + r.delta) (mem_diagonalRow.mpr ⟨hnear, by omega⟩)

/-- On the `k`-th diagonal above the corner's the backward paths with `d` steps have not met
the forward paths with as many. -/
def ApartBackward (r : Region α) (d : ℕ) (k : ℤ) : Prop :=
  ¬ r.isOdd = true → (k + r.delta).natAbs ≤ d →
    ∀ x y, r.grid.Furthest d (k + r.delta) x → r.grid.FurthestBack d (k + r.delta) y → x < y

/-- In the backward row of a round, after the diagonals `done`: no backward path has met a forward
one. -/
structure InBackwardRow (r : Region α) (b c d : ℕ) (done : List ℤ) (f : Frontiers) : Prop where
  row : r.BackwardRow c d done f.backward
  visited : r.ForwardOn d (diagonalRow d) f.forward
  serves : f.forward.Serves b
  apart : ∀ k ∈ done, r.ApartBackward d k

/-- **A visit of the backward row** meets with a right answer, or adds its diagonal to those without
a meeting. -/
theorem InBackwardRow.settles_visit {done : List ℤ} {k : ℤ} {f : Frontiers}
    (h : r.InBackwardRow b c d done f) (hk : k ∈ diagonalRow d) (hunmet : 2 * d ≤ r.grid.distance)
    (hc : r.backwardSpan ≤ c) :
    Settles (r.InBackwardRow b c d (done ++ [k])) (r.Met b c) (r.meetBackward d k f) := by
  obtain ⟨hrow, hvisited, hserves, hapart⟩ := h
  have hparity := r.grid.distance_parity
  rw [grid_delta] at hparity
  have hsides := r.grid_distance_le
  have hd : d ≤ r.grid.distance := by omega
  obtain ⟨s, t, w, hretreat, hs, hslide, ht, hrow'⟩ := hrow.exists_retreat hk hd hc
  have hnearest := (mem_diagonalRow.mp hk).1
  rw [backwardSpan] at hc
  rw [meetBackward_eq, hretreat, ok_bind, lookForward_eq (hrow.serves.natAbs_lt (by omega))
    (hrow.serves.natAbs_lt (by omega))]
  by_cases hnear : ¬ r.isOdd = true ∧ (k + r.delta).natAbs ≤ d
  · obtain ⟨x, hget, hx⟩ := hvisited.exists_opposite hk hnear.1 hnear.2
    rw [if_pos hnear, hget, ok_bind]
    by_cases hmeet : t ≤ x
    · have hle := Grid.distance_le_of_overlap hx.route ht.route hmeet
      have hdivides := Grid.divides_of_backward hs hslide hx.route hmeet (by omega)
      obtain ⟨ht0, hkt, hts, hsx, -⟩ := hdivides.inside
      rw [grid_width] at hsx
      rw [if_pos hmeet, between_eq_ok ht0 hkt hts (hrow.serves.natAbs_lt (by omega))]
      exact ⟨isMiddle_of_divides hdivides (by omega) (by omega), ⟨hserves, hrow'.serves⟩⟩
    · rw [if_neg hmeet]
      refine ⟨hrow', hvisited, hserves, List.forall_mem_append.mpr
        ⟨hapart, List.forall_mem_singleton.mpr fun _ _ x' y' hx' hy' => ?_⟩⟩
      rw [hx'.unique hx, hy'.unique ht]
      omega
  · rw [if_neg hnear]
    exact ⟨hrow', hvisited, hserves, List.forall_mem_append.mpr ⟨hapart,
      List.forall_mem_singleton.mpr fun heven hnear' => absurd ⟨heven, hnear'⟩ hnear⟩⟩

/-- **A backward row without a meeting** likewise: the halves of a route of length `2 * d` would
have met in this row. -/
theorem InBackwardRow.unmet {f : Frontiers} (h : r.InBackwardRow b c d (diagonalRow d) f)
    (hunmet : 2 * d ≤ r.grid.distance) : 2 * (d + 1) ≤ r.grid.distance + 1 := by
  obtain ⟨hrow, hvisited, -, hapart⟩ := h
  have hparity := r.grid.distance_parity
  rw [grid_delta] at hparity
  by_contra hlt
  obtain ⟨k, ⟨hk, -⟩, ⟨hnear, hpar⟩, hmeet⟩ :=
    Grid.exists_overlap (show r.grid.distance = d + d by omega)
  rw [grid_delta] at hnear hpar
  have hmem : k - r.delta ∈ diagonalRow d := mem_diagonalRow.mpr ⟨hnear, hpar⟩
  have heven : ¬ r.isOdd = true := by rw [isOdd_iff]; omega
  have hnear : (k - r.delta + r.delta).natAbs ≤ d := by rwa [Int.sub_add_cancel]
  obtain ⟨y, -, hy⟩ := hrow.visited (k - r.delta) hmem
  obtain ⟨x, -, hx⟩ := hvisited.exists_opposite hmem heven hnear
  have := hapart (k - r.delta) hmem heven hnear x y hx hy
  rw [Int.sub_add_cancel] at hx hy
  have := hmeet x y hx hy
  omega

/-- **The backward row of a round** meets with a right answer, or shows that the paths of both
searches at this distance do not meet. -/
theorem settles_meetBackward {f : Frontiers} (h : r.HalfRound b c d f)
    (hc : r.backwardSpan ≤ c) :
    Settles (r.Round b c (d + 1)) (r.Met b c) (sweep (r.meetBackward d) (diagonalRow d) f) := by
  have hstart : r.InBackwardRow b c d [] f :=
    ⟨⟨h.backward, nofun, h.backwardServes⟩, h.forward, h.forwardServes, nofun⟩
  refine (sweep_settles (fun done k rest hsplit g hg => ?_) hstart).imp (fun g hg => ?_)
    fun m hm => hm
  · exact hg.settles_visit (by simp [hsplit]) h.unmet hc
  · exact ⟨hg.visited, hg.row.visited, hg.serves, hg.row.serves, hg.unmet h.unmet⟩

/-! ### The search -/

/-- **A round** meets with a right answer, or leaves both vectors ready for the next. -/
theorem settles_meetAt {f : Frontiers} (h : r.Round b c d f) (hb : r.forwardSpan ≤ b)
    (hc : r.backwardSpan ≤ c) :
    Settles (r.Round b c (d + 1)) (r.Met b c) (r.meetAt d f) := by
  have hforward := settles_meetForward h hb hc
  rw [meetAt_eq]
  match hvisit : sweep (r.meetForward d) (diagonalRow d) f, hforward with
  | .ok (.found m), hm => exact hm
  | .ok (.passed g), hg => exact settles_meetBackward hg hc

/-- **The middle snake is found**, whatever the vectors hold that are lent for the search, and
the vectors serve as many diagonals afterwards. -/
theorem exists_middleSnake {f : Frontiers} (hf : f.Serve b c) (hb : r.forwardSpan ≤ b)
    (hc : r.backwardSpan ≤ c) : ∃ m, r.middleSnake f = .ok m ∧ r.Met b c m := by
  obtain ⟨hf, hf'⟩ := hf
  obtain ⟨hdelta, hcorner⟩ := signed_delta (hf'.mono hc)
  obtain ⟨hin, hleast⟩ := hf.within (k := 1) (by rw [forwardSpan] at hb; omega)
  obtain ⟨v, hv⟩ := Diagonals.exists_set 0 hin hleast
  obtain ⟨hin, hleast⟩ := hf'.within (k := r.delta - 1) (by rw [backwardSpan] at hc; omega)
  obtain ⟨w, hw⟩ := Diagonals.exists_set r.width hin hleast
  have hsides := r.grid.distance_le_sides
  simp only [grid_width, grid_height] at hsides
  have hrounds : Word.signed (r.width + r.height + 1) = .ok (r.width + r.height + 1) :=
    Word.signed_of_natAbs_lt (hf.natAbs_lt (by simp only [width, height, forwardSpan] at *; omega))
  have hstart : r.Round b c 0 ⟨v, w⟩ :=
    ⟨Diagonals.get_set_self hv, Diagonals.get_set_self hw, hf.set hv, hf'.set hw, by omega⟩
  have hall := sweep_range_settles (P := r.Round b c) (Q := r.Met b c)
    (n := (r.old.length + r.new.length + 1) / 2 + 1)
    (fun d _ g hg => settles_meetAt hg hb hc) hstart
  have hsome := hall.imp (fun g hg => (by have := hg.unmet; omega : False)) (fun m hm => hm)
  obtain ⟨m, hm, hmet⟩ := hsome.exists_found
  refine ⟨m, ?_, hmet⟩
  simp only [middleSnake_eq, hdelta, hcorner, hv, hw, hrounds, ok_bind, hm]
  rfl

end Region

end EditGraph
