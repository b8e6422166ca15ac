import EditGraph.Proofs.MiddleSnake
import EditGraph.Proofs.Searches
import Mathlib.Order.Bounds.Basic

/-!
# The vectors hold extreme columns throughout

What a search has written is right at once, and stays right until it is overwritten two rows
later. So at each moment of a search, each diagonal that has been visited at all, in this row or
in one before, has the furthest column that can be reached there with no more steps than the
distance of its last visit. This holds for both searches, alone and in lock step, before each
visit, behind it, and in the vectors that a search returns with.

A search knows the routes with exactly `d` steps. A route with fewer of them, and on the same
diagonal, has a detour to the right and down for every two steps that it lacks, which takes it
even further; so the furthest column is that of all routes with `d` steps at most.

No vector is too small for this. On one that does not have all diagonals a search breaks off, and
until then the columns are right as well.

## Main definitions

* `ComesTo`, `ComesToDiagonal` — a moment of a sweep, and of a search that sweeps rows.
* `LastVisited` — the distance of the last visit to a diagonal.
* `Diagonals.Holds` — a vector has the columns of all diagonals visited.
* `Region.IsFurthest`, `Region.IsEarliest` — the columns that the searches are after.
* `Region.ComesForward`, `Region.ComesBackward`, `Region.MeetComesForward`,
  `Region.MeetComesBackward` — the moments of the searches.

## Main results

* `sweep_passed`, `ComesToDiagonal.keeps` — what visits keep, sweeps and searches keep.
* `isFurthest_of_furthest`, `isEarliest_of_furthestBack` — from exactly `d` steps to `d` at most.
* `ForwardKept.advance`, `BackwardKept.retreat` — one visit.
* `searches_hold_extremes` — all moments of all searches.
-/

namespace EditGraph

/-! ### Moments of a sweep -/

section Sweeps

variable {ι σ ρ : Type} {visit : ι → σ → Except Fault (Visit σ ρ)} {is done : List ι} {i : ι}
  {start s : σ}

/-- A sweep of `is` that begins in the state `start` comes to the index `i` in the state `s`,
with the indices `done` behind it. -/
structure ComesTo (visit : ι → σ → Except Fault (Visit σ ρ)) (is : List ι) (start : σ)
    (done : List ι) (i : ι) (s : σ) : Prop where
  next : ∃ rest, is = done ++ i :: rest
  passed : sweep visit done start = .ok (.passed s)

/-- What a loop comes to is on its list. -/
theorem ComesTo.mem (h : ComesTo visit is start done i s) : i ∈ is := by
  obtain ⟨rest, rfl⟩ := h.next
  simp

/-- A visit that a sweep comes to goes well if the sweep does. -/
theorem ComesTo.exists_visit {ended : Visit σ ρ} (h : ComesTo visit is start done i s)
    (hended : sweep visit is start = .ok ended) : ∃ o, visit i s = .ok o := by
  obtain ⟨rest, rfl⟩ := h.next
  rw [sweep_append, h.passed] at hended
  simp only [sweep] at hended
  cases hvisit : visit i s with
  | error fault =>
      rw [hvisit] at hended
      cases hended
  | ok o => exact ⟨o, rfl⟩

/-- **What the visits of a sweep keep that has passed**, whether others would break off or not. -/
theorem sweep_passed {P : List ι → σ → Prop} (hstart : P [] start)
    (hvisit : ∀ done i rest, is = done ++ i :: rest → ∀ s s', P done s →
      visit i s = .ok (.passed s') → P (done ++ [i]) s')
    (h : sweep visit is start = .ok (.passed s)) : P is s := by
  suffices key : ∀ rest done s', is = done ++ rest → P done s' →
      sweep visit rest s' = .ok (.passed s) → P is s from key is [] start rfl hstart h
  -- on what is left of the list, for any part of it that is done
  intro rest
  induction rest with
  | nil =>
      intro done s' his hs' hrest
      obtain rfl : s' = s := by simpa using hrest
      rwa [his, List.append_nil]
  | cons i rest ih =>
      intro done s' his hs' hrest
      rw [sweep] at hrest
      cases hi : visit i s' with
      | error fault =>
          rw [hi] at hrest
          cases hrest
      | ok ended =>
          rw [hi] at hrest
          cases ended with
          | found result => cases hrest
          | passed next =>
              have hnext := hvisit done i rest his s' next hs' hi
              exact ih (done ++ [i]) next (by simp [his]) hnext hrest

/-- What each visit keeps that passes, holds at the end of a sweep that has passed. -/
theorem sweep_passed_of_mem {P : List ι → σ → Prop} (hstart : P [] start)
    (hvisit : ∀ i ∈ is, ∀ done s s', P done s → visit i s = .ok (.passed s') → P (done ++ [i]) s')
    (h : sweep visit is start = .ok (.passed s)) : P is s :=
  sweep_passed hstart (fun done i _ his => hvisit i (by simp [his]) done) h

/-- What each visit keeps that passes, holds at each moment of a sweep. -/
theorem ComesTo.keeps {P : List ι → σ → Prop} (h : ComesTo visit is start done i s)
    (hstart : P [] start)
    (hvisit : ∀ i ∈ is, ∀ done s s', P done s → visit i s = .ok (.passed s') →
      P (done ++ [i]) s') : P done s := by
  obtain ⟨rest, rfl⟩ := h.next
  exact sweep_passed_of_mem hstart (fun j hj => hvisit j (List.mem_append_left _ hj)) h.passed

/-- What a visit of each number makes true for the next, when the sweep of all has passed. -/
theorem sweep_range_passed {visit : ℕ → σ → Except Fault (Visit σ ρ)} {P : ℕ → σ → Prop} {n : ℕ}
    (hstart : P 0 start)
    (hvisit : ∀ i, i < n → ∀ s s', P i s → visit i s = .ok (.passed s') → P (i + 1) s')
    (h : sweep visit (List.range n) start = .ok (.passed s)) : P n s := by
  have key : P (List.range n).length s := by
    refine sweep_passed (P := fun done s => P done.length s) hstart ?_ h
    intro done i rest his s s' hs hi
    obtain ⟨rfl, hlength⟩ := eq_length_of_range_eq his
    rw [List.length_append, List.length_singleton]
    exact hvisit done.length hlength s s' hs hi
  rwa [List.length_range] at key

/-- A search that begins in the state `start` and sweeps the row of each distance in `ds` comes to
diagonal `k` of the row `d` in the state `s`, with the diagonals `done` of the row behind it. -/
def ComesToDiagonal (visit : ℕ → ℤ → σ → Except Fault (Visit σ ρ)) (ds : List ℕ) (start : σ)
    (d : ℕ) (done : List ℤ) (k : ℤ) (s : σ) : Prop :=
  ∃ begun, ComesTo (fun d => sweep (visit d) (diagonalRow d)) ds start (List.range d) d begun ∧
    ComesTo (visit d) (diagonalRow d) begun done k s

section Rows

variable {visit : ℕ → ℤ → σ → Except Fault (Visit σ ρ)} {ds : List ℕ} {d : ℕ} {done : List ℤ}
  {k : ℤ}

/-- The diagonal a sweep comes to is one of its row. -/
theorem ComesToDiagonal.mem (h : ComesToDiagonal visit ds start d done k s) :
    k ∈ diagonalRow d := by
  obtain ⟨begun, -, hvisit⟩ := h
  exact hvisit.mem

/-- A visit that a search comes to goes well if the search does. -/
theorem ComesToDiagonal.exists_visit {ended : Visit σ ρ}
    (h : ComesToDiagonal visit ds start d done k s)
    (hended : sweep (fun d => sweep (visit d) (diagonalRow d)) ds start = .ok ended) :
    ∃ o, visit d k s = .ok o := by
  obtain ⟨begun, hrow, hvisit⟩ := h
  obtain ⟨o, ho⟩ := hrow.exists_visit hended
  exact hvisit.exists_visit ho

/-- **What a search keeps at all moments**: what each visit keeps in its row, and the end of a row
hands on to the next one. -/
theorem ComesToDiagonal.keeps {P : ℕ → List ℤ → σ → Prop}
    (h : ComesToDiagonal visit ds start d done k s) (hstart : P 0 [] start)
    (hvisit : ∀ d, ∀ k ∈ diagonalRow d, ∀ done s s', P d done s →
      visit d k s = .ok (.passed s') → P d (done ++ [k]) s')
    (hnext : ∀ d s, P d (diagonalRow d) s → P (d + 1) [] s) : P d done s := by
  obtain ⟨begun, hrow, hdiagonal⟩ := h
  -- the rows before keep it from one to the next, and then the visits of this row do
  have hbegun : P d [] begun :=
    sweep_range_passed (P := fun d => P d []) hstart
      (fun d _ s s' hs hs' => hnext d s' (sweep_passed_of_mem hs (hvisit d) hs')) hrow.passed
  exact hdiagonal.keeps hbegun (hvisit d)

end Rows

end Sweeps

/-! ### The columns of the diagonals visited -/

/-- When the rows before distance `D` have been visited, and the diagonals `done` of its own row,
the last visit to diagonal `k` was at distance `d`. -/
def LastVisited (D : ℕ) (done : List ℤ) (k : ℤ) (d : ℕ) : Prop :=
  IsGreatest {e | e < D ∧ k ∈ diagonalRow e ∨ e = D ∧ k ∈ done} d

/-- A diagonal of the row that has been done was visited in this row last. -/
theorem lastVisited_of_mem {D : ℕ} {done : List ℤ} {k : ℤ} (hk : k ∈ done) :
    LastVisited D done k D :=
  ⟨.inr ⟨rfl, hk⟩, fun _ he => he.elim (fun h => h.1.le) (fun h => h.1.le)⟩

/-- A diagonal of row `D` that is not done in the row after it was visited in row `D` last. -/
theorem lastVisited_of_not_mem {D : ℕ} {done : List ℤ} {k : ℤ} (hk : k ∈ diagonalRow D)
    (hdone : k ∉ done) : LastVisited (D + 1) done k D := by
  refine ⟨.inl ⟨Nat.lt_succ_self D, hk⟩, ?_⟩
  rintro e (⟨he, -⟩ | ⟨-, hmem⟩)
  · exact Nat.le_of_lt_succ he
  · exact absurd hmem hdone

/-- A row done is a row before the next one. -/
theorem lastVisited_diagonalRow {D : ℕ} {k : ℤ} {d : ℕ} :
    LastVisited D (diagonalRow D) k d ↔ LastVisited (D + 1) [] k d := by
  have hset : {e | e < D ∧ k ∈ diagonalRow e ∨ e = D ∧ k ∈ diagonalRow D} =
      {e | e < D + 1 ∧ k ∈ diagonalRow e ∨ e = D + 1 ∧ k ∈ ([] : List ℤ)} := by
    ext e
    simp only [Set.mem_ofPred_eq, List.not_mem_nil, and_false, or_false]
    constructor
    · rintro (⟨he, hk⟩ | ⟨rfl, hk⟩)
      · exact ⟨by omega, hk⟩
      · exact ⟨by omega, hk⟩
    · rintro ⟨he, hk⟩
      rcases Nat.lt_succ_iff_lt_or_eq.mp he with he | rfl
      · exact .inl ⟨he, hk⟩
      · exact .inr ⟨rfl, hk⟩
  rw [LastVisited, LastVisited, hset]

/-- A visit to one diagonal is no visit to another. -/
theorem LastVisited.of_concat {D : ℕ} {done : List ℤ} {i k : ℤ} {d : ℕ}
    (h : LastVisited D (done ++ [i]) k d) (hk : k ≠ i) : LastVisited D done k d := by
  have hmem : k ∈ done ++ [i] ↔ k ∈ done := by simp [hk]
  simpa only [LastVisited, hmem] using h

/-- On each diagonal visited, all of them moved by `shift`, the vector has a column that is
`Extreme` for the distance of the last visit. -/
def Diagonals.Holds (v : Diagonals) (shift : ℤ) (Extreme : ℕ → ℤ → ℤ → Prop) (D : ℕ)
    (done : List ℤ) : Prop :=
  ∀ k d, LastVisited D done k d → ∃ x, v.get (k + shift) = .ok x ∧ Extreme d (k + shift) x

namespace Diagonals

variable {v w : Diagonals} {shift k x : ℤ} {Extreme Extreme' : ℕ → ℤ → ℤ → Prop} {D : ℕ}
  {done : List ℤ}

/-- Before all visits there is nothing to hold. -/
theorem holds_zero : v.Holds shift Extreme 0 [] := by
  intro k d h
  rcases h.1 with ⟨hlt, -⟩ | ⟨-, hmem⟩
  · omega
  · exact absurd hmem List.not_mem_nil

/-- What holds a value holds every weaker one. -/
theorem Holds.imp (h : v.Holds shift Extreme D done)
    (himp : ∀ d k x, Extreme d k x → Extreme' d k x) : v.Holds shift Extreme' D done := by
  intro k d hlast
  obtain ⟨x, hget, hx⟩ := h k d hlast
  exact ⟨x, hget, himp d _ x hx⟩

/-- What is read on a diagonal visited is extreme. -/
theorem Holds.of_get {d : ℕ} (h : v.Holds shift Extreme D done) (hlast : LastVisited D done k d)
    (hget : v.get (k + shift) = .ok x) : Extreme d (k + shift) x := by
  obtain ⟨y, hget', hy⟩ := h k d hlast
  obtain rfl := Except.ok.inj (hget.symm.trans hget')
  exact hy

/-- An extreme column written is held, along with those of the other diagonals. -/
theorem Holds.set (h : v.Holds shift Extreme D done) (hx : Extreme D (k + shift) x)
    (hset : v.set (k + shift) x = .ok w) : w.Holds shift Extreme D (done ++ [k]) := by
  intro j d hlast
  by_cases hjk : j = k
  · subst hjk
    obtain rfl : d = D := hlast.unique (lastVisited_of_mem (by simp))
    exact ⟨x, get_set_self hset, hx⟩
  · rw [get_set_of_ne hset (by omega)]
    exact h j d (hlast.of_concat hjk)

/-- The end of one row is the start of the next one. -/
theorem holds_diagonalRow :
    v.Holds shift Extreme D (diagonalRow D) ↔ v.Holds shift Extreme (D + 1) [] := by
  simp only [Holds, lastVisited_diagonalRow]

end Diagonals

/-! ### From exactly `d` steps to `d` at most -/

namespace Grid

variable {G : Grid}

/-- Two steps more take a route one column further on its diagonal. -/
theorem Route.detour {p : Point} {k x : ℤ} {d : ℕ} (h : G.Route p ⟨x, x - k⟩ d) (n : ℕ) :
    G.Route p ⟨x + n, x + n - k⟩ (d + 2 * n) := by
  induction n with
  | zero => exact h.cast (by simp) (by simp) rfl
  | succ n ih => exact ih.right.down.cast (by omega) (by omega) (by omega)

/-- Two steps more let a route begin one column earlier on its diagonal. -/
theorem Route.detour_from {q : Point} {k x : ℤ} {d : ℕ} (h : G.Route ⟨x, x - k⟩ q d) (n : ℕ) :
    G.Route ⟨x - n, x - n - k⟩ q (d + 2 * n) := by
  induction n with
  | zero => exact h.cast_start (by simp) (by simp)
  | succ n ih =>
      have hdown : G.Route ⟨x - n, x - (n + 1 : ℕ) - k⟩ q (d + 2 * n + 1) :=
        Route.of_down (ih.cast_start rfl (by omega))
      exact Route.of_right (hdown.cast_start (by omega) rfl)

end Grid

namespace Region

variable {α : Type} {r : Region α} {d : ℕ} {done : List ℤ} {k : ℤ} {v w : Diagonals}

/-- No column behind `x` is reached on diagonal `k` with `d` steps at most from the origin, but
`x` itself is. It is right of the axes and below them. -/
structure IsFurthest (r : Region α) (d : ℕ) (k x : ℤ) : Prop where
  isGreatest : IsGreatest {x | ∃ e ≤ d, r.grid.Route Grid.origin ⟨x, x - k⟩ e} x
  le : max 0 k ≤ x

/-- From no column before `x` on diagonal `k` the corner is reached with `d` steps at most, but
from `x` itself it is. It is left of the far sides and above them. -/
structure IsEarliest (r : Region α) (d : ℕ) (k x : ℤ) : Prop where
  isLeast : IsLeast {x | ∃ e ≤ d, r.grid.Route ⟨x, x - k⟩ r.grid.corner e} x
  le : x ≤ min r.width (r.height + k)

/-- **Fewer steps come no further.** The steps that a route lacks are an even number, and would
take it further still. -/
theorem isFurthest_of_furthest {x : ℤ} (h : r.grid.Furthest d k x) : r.IsFurthest d k x := by
  obtain ⟨-, hpar, hx, hkx⟩ := h.route.on_row
  refine ⟨⟨⟨d, le_rfl, h.route⟩, ?_⟩, max_le hx hkx⟩
  rintro y ⟨e, he, hy⟩
  have hpar' := hy.on_row.2.1
  -- both ends lie on diagonal `k`, so the route lacks an even number of steps
  have hlong : r.grid.Route Grid.origin _ d :=
    (hy.detour ((d - e) / 2)).cast rfl rfl (by omega)
  have := h.le hlong
  omega

/-- Fewer steps begin no earlier. -/
theorem isEarliest_of_furthestBack {x : ℤ} (h : r.grid.FurthestBack d k x) :
    r.IsEarliest d k x := by
  obtain ⟨-, hpar, hx, hkx⟩ := h.route.on_row_back
  refine ⟨⟨⟨d, le_rfl, h.route⟩, ?_⟩, le_min hx hkx⟩
  rintro y ⟨e, he, hy⟩
  have hpar' := hy.on_row_back.2.1
  have hlong : r.grid.Route ⟨y - ((d - e) / 2 : ℕ), y - ((d - e) / 2 : ℕ) - k⟩ r.grid.corner d :=
    (hy.detour_from ((d - e) / 2)).cast rfl rfl (by omega)
  have := h.le hlong
  omega

/-! ### One visit -/

/-- The vector of a forward search at distance `d`, with the diagonals `done` of the row behind
it: it is ready for the others, and has the columns of all diagonals visited. -/
structure ForwardKept (r : Region α) (d : ℕ) (done : List ℤ) (v : Diagonals) : Prop where
  ready : r.ForwardReady d v
  holds : v.Holds 0 r.grid.Furthest d done

/-- The vector of a backward search at distance `d`. -/
structure BackwardKept (r : Region α) (d : ℕ) (done : List ℤ) (v : Diagonals) : Prop where
  ready : r.BackwardReady d v
  holds : v.Holds r.delta r.grid.FurthestBack d done

/-- A vector with the seed is ready for the first row. -/
theorem forwardKept_of_seed (h : v.set 1 0 = .ok w) : r.ForwardKept 0 [] w :=
  ⟨Diagonals.get_set_self h, Diagonals.holds_zero⟩

/-- The seed of the backward search is the extreme column of row zero. -/
theorem backwardKept_of_seed (h : v.set (r.delta - 1) r.width = .ok w) : r.BackwardKept 0 [] w :=
  ⟨Diagonals.get_set_self h, Diagonals.holds_zero⟩

/-- **One forward path prolonged** adds the column of its diagonal. -/
theorem ForwardKept.advance {reach : Reach} (h : r.ForwardKept d done v) (hk : k ∈ diagonalRow d)
    (hreach : r.advance d k v = .ok reach) : r.ForwardKept d (done ++ [k]) reach.record := by
  obtain ⟨s, t, -, -, -, -, ht, hw⟩ := (ForwardReady.advance_delivers h.ready hk).right reach hreach
  have hplace : k + 0 = k := Int.add_zero k
  exact ⟨ForwardReady.set h.ready hk hw, h.holds.set (by rwa [hplace]) (by rwa [hplace])⟩

/-- **One backward path prolonged** adds the column of its diagonal. -/
theorem BackwardKept.retreat {reach : Reach} (h : r.BackwardKept d done v)
    (hk : k ∈ diagonalRow d) (hreach : r.retreat d k v = .ok reach) :
    r.BackwardKept d (done ++ [k]) reach.record := by
  obtain ⟨s, t, -, -, -, -, ht, hw⟩ :=
    (BackwardReady.retreat_delivers h.ready hk).right reach hreach
  exact ⟨BackwardReady.set h.ready hk hw, h.holds.set ht hw⟩

/-- At the end of its row a vector is ready for the next one. -/
theorem ForwardKept.next_row (h : r.ForwardKept d (diagonalRow d) v) :
    r.ForwardKept (d + 1) [] v := by
  refine ⟨?_, Diagonals.holds_diagonalRow.mp h.holds⟩
  intro k hk
  simpa using h.holds k d (lastVisited_of_mem hk)

/-- What the backward search has at the end of a row it has at the start of the next. -/
theorem BackwardKept.next_row (h : r.BackwardKept d (diagonalRow d) v) :
    r.BackwardKept (d + 1) [] v :=
  ⟨fun k hk => h.holds k d (lastVisited_of_mem hk), Diagonals.holds_diagonalRow.mp h.holds⟩

/-! ### Visits and rounds -/

/-- A visit of the forward search that passes hands on the vector with one path prolonged. -/
theorem ForwardKept.visitForward (h : r.ForwardKept d done v) (hk : k ∈ diagonalRow d)
    (hvisit : r.visitForward d k v = .ok (.passed w)) : r.ForwardKept d (done ++ [k]) w := by
  obtain ⟨reach, hreach, hpassed⟩ := exists_of_bind_eq_ok hvisit
  split at hpassed
  · exact nomatch hpassed
  · obtain rfl : reach.record = w := by injections
    exact h.advance hk hreach

/-- A visit of the backward search that passes hands on the vector with one path prolonged. -/
theorem BackwardKept.visitBackward (h : r.BackwardKept d done v) (hk : k ∈ diagonalRow d)
    (hvisit : r.visitBackward d k v = .ok (.passed w)) : r.BackwardKept d (done ++ [k]) w := by
  obtain ⟨reach, hreach, hpassed⟩ := exists_of_bind_eq_ok hvisit
  split at hpassed
  · exact nomatch hpassed
  · obtain rfl : reach.record = w := by injections
    exact h.retreat hk hreach

end Region

/-- The vectors that a visit of the searches in lock step hands on or returns with. -/
def Visit.frontiers : Visit Frontiers Meeting → Frontiers
  | .passed f => f
  | .found meeting => meeting.frontiers

namespace Region

variable {α : Type} {r : Region α} {d : ℕ} {done done' : List ℤ} {k : ℤ} {f g : Frontiers}
  {ended : Visit Frontiers Meeting}

/-- Looking for a backward path writes nothing. -/
theorem frontiers_of_lookBackward {reach : Reach} {backward : Diagonals}
    (h : r.lookBackward Diagonals.store d k reach backward = .ok ended) :
    ended.frontiers = ⟨reach.record, backward⟩ := by
  obtain ⟨near, -, h⟩ := exists_of_bind_eq_ok h
  split at h
  · obtain ⟨opposite, -, h⟩ := exists_of_bind_eq_ok h
    split at h
    · obtain ⟨double, -, h⟩ := exists_of_bind_eq_ok h
      obtain ⟨distance, -, h⟩ := exists_of_bind_eq_ok h
      obtain ⟨snake, -, h⟩ := exists_of_bind_eq_ok h
      obtain rfl := Except.ok.inj h
      rfl
    · obtain rfl := Except.ok.inj h
      rfl
  · obtain rfl := Except.ok.inj h
    rfl

/-- Looking for a forward path does not either. -/
theorem frontiers_of_lookForward {reach : Reach} {forward : Diagonals}
    (h : r.lookForward Diagonals.store d k reach forward = .ok ended) :
    ended.frontiers = ⟨forward, reach.record⟩ := by
  obtain ⟨near, -, h⟩ := exists_of_bind_eq_ok h
  split at h
  · obtain ⟨opposite, -, h⟩ := exists_of_bind_eq_ok h
    split at h
    · obtain ⟨distance, -, h⟩ := exists_of_bind_eq_ok h
      obtain ⟨snake, -, h⟩ := exists_of_bind_eq_ok h
      obtain rfl := Except.ok.inj h
      rfl
    · obtain rfl := Except.ok.inj h
      rfl
  · obtain rfl := Except.ok.inj h
    rfl

/-- A visit of the forward row prolongs one forward path, and writes nothing else. -/
theorem meetForward_eq_ok (h : r.meetForward d k f = .ok ended) :
    ∃ reach, r.advance d k f.forward = .ok reach ∧
      ended.frontiers = ⟨reach.record, f.backward⟩ := by
  rw [meetForward_eq] at h
  obtain ⟨reach, hreach, h⟩ := exists_of_bind_eq_ok h
  exact ⟨reach, hreach, frontiers_of_lookBackward h⟩

/-- A visit of the backward row prolongs one backward path, and writes nothing else. -/
theorem meetBackward_eq_ok (h : r.meetBackward d k f = .ok ended) :
    ∃ reach, r.retreat d k f.backward = .ok reach ∧
      ended.frontiers = ⟨f.forward, reach.record⟩ := by
  rw [meetBackward_eq] at h
  obtain ⟨reach, hreach, h⟩ := exists_of_bind_eq_ok h
  exact ⟨reach, hreach, frontiers_of_lookForward h⟩

/-- Both vectors of the searches in lock step, the diagonals `done` and `done'` of either row
behind them. -/
structure BothKept (r : Region α) (d : ℕ) (done done' : List ℤ) (f : Frontiers) : Prop where
  forward : r.ForwardKept d done f.forward
  backward : r.BackwardKept d done' f.backward

/-- A forward visit of the two searches keeps the extremes of both, with one more diagonal done. -/
theorem BothKept.meetForward (h : r.BothKept d done done' f) (hk : k ∈ diagonalRow d)
    (hended : r.meetForward d k f = .ok ended) :
    r.BothKept d (done ++ [k]) done' ended.frontiers := by
  obtain ⟨reach, hreach, heq⟩ := meetForward_eq_ok hended
  rw [heq]
  exact ⟨h.forward.advance hk hreach, h.backward⟩

/-- A backward visit of the two searches keeps the extremes of both, with one more diagonal done. -/
theorem BothKept.meetBackward (h : r.BothKept d done done' f) (hk : k ∈ diagonalRow d)
    (hended : r.meetBackward d k f = .ok ended) :
    r.BothKept d done (done' ++ [k]) ended.frontiers := by
  obtain ⟨reach, hreach, heq⟩ := meetBackward_eq_ok hended
  rw [heq]
  exact ⟨h.forward, h.backward.retreat hk hreach⟩

/-- A round that has passed has done both of its rows. -/
theorem meetAt_eq_passed (h : r.meetAt d f = .ok (.passed g)) :
    ∃ between, sweep (r.meetForward d) (diagonalRow d) f = .ok (.passed between) ∧
      sweep (r.meetBackward d) (diagonalRow d) between = .ok (.passed g) := by
  obtain ⟨visit, hvisit, h⟩ := exists_of_bind_eq_ok h
  match visit, h with
  | .passed between, h => exact ⟨between, hvisit, h⟩

/-- A forward row that has passed is done. -/
theorem BothKept.forward_row (h : r.BothKept d [] done' f)
    (hrow : sweep (r.meetForward d) (diagonalRow d) f = .ok (.passed g)) :
    r.BothKept d (diagonalRow d) done' g :=
  sweep_passed_of_mem (P := fun done => r.BothKept d done done') h
    (fun _ hk _ _ _ hu hvisit => hu.meetForward hk hvisit) hrow

/-- **A round** leaves both vectors ready for the next. -/
theorem BothKept.meetAt (h : r.BothKept d [] [] f) (hmeet : r.meetAt d f = .ok (.passed g)) :
    r.BothKept (d + 1) [] [] g := by
  obtain ⟨between, hforward, hbackward⟩ := meetAt_eq_passed hmeet
  have hboth : r.BothKept d (diagonalRow d) (diagonalRow d) g :=
    sweep_passed_of_mem (h.forward_row hforward)
      (fun _ hk _ _ _ hu hvisit => hu.meetBackward hk hvisit) hbackward
  exact ⟨hboth.forward.next_row, hboth.backward.next_row⟩

/-! ### The moments of the searches -/

/-- The search from the origin comes to diagonal `k` at distance `d` with the vector `v`, the
diagonals `done` of this row behind it. -/
def ComesForward (r : Region α) (d : ℕ) (done : List ℤ) (k : ℤ) (v : Diagonals) : Prop :=
  ∃ fresh seeded, Diagonals.create r.old.length r.new.length = .ok fresh ∧
    fresh.set 1 0 = .ok seeded ∧ ComesToDiagonal r.visitForward r.distances seeded d done k v

/-- The search from the far corner comes to the `k`-th diagonal above the corner's. -/
def ComesBackward (r : Region α) (d : ℕ) (done : List ℤ) (k : ℤ) (v : Diagonals) : Prop :=
  ∃ fresh seeded, Diagonals.create r.old.length r.new.length = .ok fresh ∧
    fresh.set (r.delta - 1) r.width = .ok seeded ∧
    ComesToDiagonal r.visitBackward r.distances seeded d done k v

/-- The searches in lock step, which `f` was lent to, begin the round of distance `d` with the
vectors `g`. -/
def ComesToRound (r : Region α) (f : Frontiers) (d : ℕ) (g : Frontiers) : Prop :=
  ∃ forward backward, f.forward.set 1 0 = .ok forward ∧
    f.backward.set (r.delta - 1) r.width = .ok backward ∧
    ComesTo r.meetAt (List.range ((r.old.length + r.new.length + 1) / 2 + 1)) ⟨forward, backward⟩
      (List.range d) d g

/-- The searches in lock step come to diagonal `k` in the forward row of distance `d` with the
vectors `g`, the diagonals `done` of this row behind them. -/
def MeetComesForward (r : Region α) (f : Frontiers) (d : ℕ) (done : List ℤ) (k : ℤ)
    (g : Frontiers) : Prop :=
  ∃ begun, r.ComesToRound f d begun ∧ ComesTo (r.meetForward d) (diagonalRow d) begun done k g

/-- The searches in lock step come to the `k`-th diagonal above the corner's in the backward row
of distance `d`. -/
def MeetComesBackward (r : Region α) (f : Frontiers) (d : ℕ) (done : List ℤ) (k : ℤ)
    (g : Frontiers) : Prop :=
  ∃ begun between, r.ComesToRound f d begun ∧
    sweep (r.meetForward d) (diagonalRow d) begun = .ok (.passed between) ∧
    ComesTo (r.meetBackward d) (diagonalRow d) between done k g

/-- At each moment of the search from the origin the vector is kept. -/
theorem ComesForward.kept (h : r.ComesForward d done k v) : r.ForwardKept d done v := by
  obtain ⟨fresh, seeded, -, hseed, hdiagonal⟩ := h
  exact hdiagonal.keeps (forwardKept_of_seed hseed)
    (fun _ _ hk _ _ _ hu hvisit => hu.visitForward hk hvisit) (fun _ _ hu => hu.next_row)

/-- At each moment of the search from the corner the vector is kept. -/
theorem ComesBackward.kept (h : r.ComesBackward d done k v) : r.BackwardKept d done v := by
  obtain ⟨fresh, seeded, -, hseed, hdiagonal⟩ := h
  exact hdiagonal.keeps (backwardKept_of_seed hseed)
    (fun _ _ hk _ _ _ hu hvisit => hu.visitBackward hk hvisit) (fun _ _ hu => hu.next_row)

/-- No visit that the search from the origin comes to breaks off. -/
theorem ComesForward.exists_advance (h : r.ComesForward d done k v) :
    ∃ reach, r.advance d k v = .ok reach := by
  obtain ⟨fresh, seeded, hfresh, hseed, hdiagonal⟩ := h
  obtain ⟨o, hvisit⟩ := hdiagonal.exists_visit (sweep_distances_forward
    (Diagonals.get_set_self hseed) ((serves_of_create hfresh).1.set hseed))
  obtain ⟨reach, hreach, -⟩ := exists_of_bind_eq_ok hvisit
  exact ⟨reach, hreach⟩

/-- No visit that the search from the corner comes to breaks off. -/
theorem ComesBackward.exists_retreat (h : r.ComesBackward d done k v) :
    ∃ reach, r.retreat d k v = .ok reach := by
  obtain ⟨fresh, seeded, hfresh, hseed, hdiagonal⟩ := h
  obtain ⟨o, hvisit⟩ := hdiagonal.exists_visit (sweep_distances_backward
    (Diagonals.get_set_self hseed) ((serves_of_create hfresh).2.set hseed))
  obtain ⟨reach, hreach, -⟩ := exists_of_bind_eq_ok hvisit
  exact ⟨reach, hreach⟩

/-- Before each round both vectors are kept. -/
theorem ComesToRound.kept (h : r.ComesToRound f d g) : r.BothKept d [] [] g := by
  obtain ⟨forward, backward, hforward, hbackward, hround⟩ := h
  exact sweep_range_passed (P := fun d => r.BothKept d [] [])
    ⟨forwardKept_of_seed hforward, backwardKept_of_seed hbackward⟩
    (fun d _ u u' hu hu' => hu.meetAt hu') hround.passed

/-- On vectors that have all diagonals, no round breaks off. -/
theorem ComesToRound.exists_meetAt (h : r.ComesToRound f d g)
    (hf : f.Serve r.forwardSpan r.backwardSpan) : ∃ ended, r.meetAt d g = .ok ended := by
  obtain ⟨forward, backward, hforward, hbackward, hround⟩ := h
  obtain ⟨meeting, hmeeting, -⟩ := exists_middleSnake hf le_rfl le_rfl
  obtain ⟨hdelta, hcorner⟩ := signed_delta hf.backward
  simp only [middleSnake_eq, hdelta, hcorner, hforward, hbackward, ok_bind] at hmeeting
  obtain ⟨-, -, hmeeting⟩ := exists_of_bind_eq_ok hmeeting
  obtain ⟨ended, hended, -⟩ := exists_of_bind_eq_ok hmeeting
  exact hround.exists_visit hended

/-- Whenever the forward half of a row is come to, both searches hold their extremes. -/
theorem MeetComesForward.kept (h : r.MeetComesForward f d done k g) : r.BothKept d done [] g := by
  obtain ⟨begun, hround, hvisit⟩ := h
  exact hvisit.keeps (P := fun done => r.BothKept d done []) hround.kept
    (fun _ hk _ _ _ hu hu' => hu.meetForward hk hu')

/-- Whenever the backward half of a row is come to, both searches hold their extremes. -/
theorem MeetComesBackward.kept (h : r.MeetComesBackward f d done k g) :
    r.BothKept d (diagonalRow d) done g := by
  obtain ⟨begun, between, hround, hrow, hvisit⟩ := h
  exact hvisit.keeps (hround.kept.forward_row hrow)
    (fun _ hk _ _ _ hu hu' => hu.meetBackward hk hu')

/-- The forward visit that is come to succeeds. -/
theorem MeetComesForward.exists_meetForward (h : r.MeetComesForward f d done k g)
    (hf : f.Serve r.forwardSpan r.backwardSpan) : ∃ ended, r.meetForward d k g = .ok ended := by
  obtain ⟨begun, hround, hvisit⟩ := h
  obtain ⟨ended, hended⟩ := hround.exists_meetAt hf
  obtain ⟨row, hrow, -⟩ := exists_of_bind_eq_ok hended
  exact hvisit.exists_visit hrow

/-- The backward visit that is come to succeeds. -/
theorem MeetComesBackward.exists_meetBackward (h : r.MeetComesBackward f d done k g)
    (hf : f.Serve r.forwardSpan r.backwardSpan) : ∃ ended, r.meetBackward d k g = .ok ended := by
  obtain ⟨begun, between, hround, hrow, hvisit⟩ := h
  obtain ⟨ended, hended⟩ := hround.exists_meetAt hf
  rw [meetAt_eq, hrow, ok_bind] at hended
  exact hvisit.exists_visit hended

/-- The diagonal that the forward search comes to is one of its row. -/
theorem ComesForward.mem (h : r.ComesForward d done k v) : k ∈ diagonalRow d := by
  obtain ⟨_, _, -, -, hdiagonal⟩ := h
  exact hdiagonal.mem

/-- The diagonal that the backward search comes to is one of its row. -/
theorem ComesBackward.mem (h : r.ComesBackward d done k v) : k ∈ diagonalRow d := by
  obtain ⟨_, _, -, -, hdiagonal⟩ := h
  exact hdiagonal.mem

/-- The diagonal that the forward half of a row comes to is one of its row. -/
theorem MeetComesForward.mem (h : r.MeetComesForward f d done k g) : k ∈ diagonalRow d := by
  obtain ⟨_, -, hvisit⟩ := h
  exact hvisit.mem

/-- The diagonal that the backward half of a row comes to is one of its row. -/
theorem MeetComesBackward.mem (h : r.MeetComesBackward f d done k g) : k ∈ diagonalRow d := by
  obtain ⟨_, _, -, -, hvisit⟩ := h
  exact hvisit.mem

/-! ### All moments -/

/-- Both vectors have the columns of the diagonals visited in their own search: in the rows before
distance `d`, and on `done` and `done'` in its own two rows. -/
structure HoldExtremes (r : Region α) (d : ℕ) (done done' : List ℤ) (f : Frontiers) : Prop where
  forward : f.forward.Holds 0 r.IsFurthest d done
  backward : f.backward.Holds r.delta r.IsEarliest d done'

/-- The columns that the forward search keeps are the furthest ones. -/
theorem ForwardKept.holds_furthest (h : r.ForwardKept d done v) :
    v.Holds 0 r.IsFurthest d done :=
  h.holds.imp fun _ _ _ => isFurthest_of_furthest

/-- The columns that the backward search keeps are the earliest ones. -/
theorem BackwardKept.holds_earliest (h : r.BackwardKept d done v) :
    v.Holds r.delta r.IsEarliest d done :=
  h.holds.imp fun _ _ _ => isEarliest_of_furthestBack

/-- The columns that the two searches keep are the extreme ones. -/
theorem BothKept.hold_extremes (h : r.BothKept d done done' f) :
    r.HoldExtremes d done done' f :=
  ⟨h.forward.holds_furthest, h.backward.holds_earliest⟩

/-- **The vectors hold extreme columns throughout.** Whenever one of the searches for the distance
comes to a diagonal, its vector has the furthest column, or the earliest one, on each diagonal that
has been visited; the visit does not break off; and behind it the vector has that of its own
diagonal, too. The same is true of both vectors when the searches run in lock step, whatever was
lent for it, and whether they go on after the visit or return. On vectors with all diagonals their
visits do not break off either. -/
theorem searches_hold_extremes (r : Region α) :
    (∀ d done k v, r.ComesForward d done k v →
      v.Holds 0 r.IsFurthest d done ∧
      ∃ reach, r.advance d k v = .ok reach ∧
        reach.record.Holds 0 r.IsFurthest d (done ++ [k])) ∧
    (∀ d done k v, r.ComesBackward d done k v →
      v.Holds r.delta r.IsEarliest d done ∧
      ∃ reach, r.retreat d k v = .ok reach ∧
        reach.record.Holds r.delta r.IsEarliest d (done ++ [k])) ∧
    ∀ f : Frontiers,
      (∀ d done k g, r.MeetComesForward f d done k g →
        r.HoldExtremes d done [] g ∧
        (f.Serve r.forwardSpan r.backwardSpan → ∃ ended, r.meetForward d k g = .ok ended) ∧
        ∀ ended, r.meetForward d k g = .ok ended →
          r.HoldExtremes d (done ++ [k]) [] ended.frontiers) ∧
      ∀ d done k g, r.MeetComesBackward f d done k g →
        r.HoldExtremes d (diagonalRow d) done g ∧
        (f.Serve r.forwardSpan r.backwardSpan → ∃ ended, r.meetBackward d k g = .ok ended) ∧
        ∀ ended, r.meetBackward d k g = .ok ended →
          r.HoldExtremes d (diagonalRow d) (done ++ [k]) ended.frontiers := by
  refine ⟨fun d done k v h => ?_, fun d done k v h => ?_, fun f =>
    ⟨fun d done k g h => ⟨h.kept.hold_extremes, h.exists_meetForward, fun ended hended => ?_⟩,
      fun d done k g h => ⟨h.kept.hold_extremes, h.exists_meetBackward, fun ended hended => ?_⟩⟩⟩
  · obtain ⟨reach, hreach⟩ := h.exists_advance
    exact ⟨h.kept.holds_furthest, reach, hreach, (h.kept.advance h.mem hreach).holds_furthest⟩
  · obtain ⟨reach, hreach⟩ := h.exists_retreat
    exact ⟨h.kept.holds_earliest, reach, hreach, (h.kept.retreat h.mem hreach).holds_earliest⟩
  · exact (h.kept.meetForward h.mem hended).hold_extremes
  · exact (h.kept.meetBackward h.mem hended).hold_extremes

/-- The search from the origin comes to its last visit, with two diagonals behind it. So do the
searches in lock step, on vectors that have been used before, and return from it. -/
theorem searches_hold_extremes_ab :
    ∃ (r : Region Char) (v : Diagonals) (g : Frontiers) (reach : Reach) (meeting : Meeting),
      r = ⟨.full #['a', 'b'], .full #['b'], (· == ·)⟩ ∧
      r.ComesForward 1 [-1] 1 v ∧ r.IsFurthest 0 0 0 ∧ r.IsFurthest 1 (-1) 0 ∧
      r.advance 1 1 v = .ok reach ∧ reach.record.get 1 = .ok 2 ∧ r.IsFurthest 1 1 2 ∧
      r.MeetComesForward (.filled 8 7) 1 [-1] 1 g ∧
      r.meetForward 1 1 g = .ok (.found meeting) ∧
      meeting.frontiers.forward.get 1 = .ok 2 ∧
      meeting.frontiers.backward.get 1 = .ok 1 ∧ r.IsEarliest 0 1 1 := by
  let r : Region Char := ⟨.full #['a', 'b'], .full #['b'], (· == ·)⟩
  let v : Diagonals := ⟨8, #[0, 0, 0, 0, 0, 0, 0, 0, 0, 0, 0, 0, 0, 0, 0, 0, 0], rfl⟩
  let w : Diagonals := ⟨8, #[7, 7, 7, 7, 7, 7, 7, 7, 2, 1, 7, 7, 7, 7, 7, 7, 7], rfl⟩
  let g : Frontiers := ⟨⟨8, #[7, 7, 7, 7, 7, 7, 7, 0, 0, 0, 7, 7, 7, 7, 7, 7, 7], rfl⟩, w⟩
  have hcomes : r.ComesForward 1 [-1] 1 v :=
    ⟨v, v, rfl, rfl, v, ⟨⟨[2, 3], rfl⟩, by with_unfolding_all rfl⟩,
      ⟨⟨[], rfl⟩, by with_unfolding_all rfl⟩⟩
  have hmeet : r.MeetComesForward (.filled 8 7) 1 [-1] 1 g :=
    ⟨⟨⟨8, #[7, 7, 7, 7, 7, 7, 7, 7, 0, 0, 7, 7, 7, 7, 7, 7, 7], rfl⟩, w⟩,
      ⟨_, _, rfl, rfl, ⟨⟨[2], by decide⟩, by with_unfolding_all rfl⟩⟩,
      ⟨⟨[], rfl⟩, by with_unfolding_all rfl⟩⟩
  have hadvance : r.advance 1 1 v = .ok ⟨⟨1, 0⟩, ⟨2, 1⟩,
      ⟨8, #[0, 0, 0, 0, 0, 0, 0, 0, 0, 2, 0, 0, 0, 0, 0, 0, 0], rfl⟩⟩ := by
    with_unfolding_all rfl
  have hfound : r.meetForward 1 1 g = .ok (.found ⟨⟨1, ⟨1, 0, 2, 1⟩⟩,
      ⟨⟨8, #[7, 7, 7, 7, 7, 7, 7, 0, 0, 2, 7, 7, 7, 7, 7, 7, 7], rfl⟩, w⟩⟩) := by
    with_unfolding_all rfl
  obtain ⟨hforward, -, hlent⟩ := searches_hold_extremes r
  obtain ⟨hv, reach, hreach, hrecord⟩ := hforward 1 [-1] 1 v hcomes
  obtain rfl := Except.ok.inj (hadvance.symm.trans hreach)
  have hreturned := ((hlent (.filled 8 7)).1 1 [-1] 1 g hmeet).2.2 _ hfound
  refine ⟨r, v, g, _, _, rfl, hcomes, ?_, ?_, hadvance, rfl, ?_, hmeet, hfound, rfl, rfl, ?_⟩
  · exact hv.of_get (k := 0) (lastVisited_of_not_mem (by decide) (by decide)) rfl
  · exact hv.of_get (k := -1) (lastVisited_of_mem (by decide)) rfl
  · exact hrecord.of_get (k := 1) (lastVisited_of_mem (by decide)) rfl
  · exact hreturned.backward.of_get (k := 0) (lastVisited_of_not_mem (by decide) (by decide)) rfl

end Region

end EditGraph
