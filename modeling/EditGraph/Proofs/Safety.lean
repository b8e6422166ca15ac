import EditGraph.Proofs.Replay
import EditGraph.Proofs.TwoRuns

/-!
# Comparisons do not break off

Every operation on a comparison whose diagonal vectors fit into memory has a result. No read
or write of a vector misses, no window is narrowed or looked up at positions that it does not
have, no snake lies outside of the grid, no search ends without a finding, the work list does not
run out of its bound, and both checks of a script succeed: each of these would be a fault. So would
be a quantity that leaves the 64-bit range, and none does, neither an unsigned one, such as a
position in a window or in a script, nor a signed one, such as a coordinate or a diagonal of a
search, which may lie off the grid.

The vectors have more diagonals than the searches use. These do the same with vectors that
fault outside of a band: `n + m + 1` diagonals on either side of zero for forward paths, and on
either side of the corner's diagonal for backward paths.

## Main definitions

* `Diagonals.nearStore` — vectors that fault outside of a band.
* `Region.Confined` — the searches do the same with these.

## Main results

* `rowsAlike_near`, `roundsAlike_near` — rows and rounds keep to the bands.
* `confined` — so do the searches.
* `runs_without_fault` — the operations on a comparison.
-/

namespace EditGraph

/-! ### Bands of diagonals -/

namespace Diagonals

/-- Vectors of which only the `span` diagonals on either side of `center` are read and written. -/
def nearStore (center : ℤ) (span : ℕ) : Store Diagonals where
  get v k := if (k - center).natAbs ≤ span then v.get k else .error (.diagonal k span)
  set v k x := if (k - center).natAbs ≤ span then v.set k x else .error (.diagonal k span)

variable {center k : ℤ} {span : ℕ}

/-- Inside of the band nothing is different, -/
theorem nearStore_get (h : (k - center).natAbs ≤ span) (v : Diagonals) :
    (nearStore center span).get v k = v.get k := if_pos h

/-- for writes as well. -/
theorem nearStore_set (h : (k - center).natAbs ≤ span) (v : Diagonals) (x : ℤ) :
    (nearStore center span).set v k x = v.set k x := if_pos h

end Diagonals

namespace Region

variable {α : Type} {r : Region α} {d : ℕ} {k : ℤ}

/-- The vectors of both searches, with `n + m + 1` diagonals on either side of zero and of the
corner's diagonal. -/
def nearStores (r : Region α) : Stores Diagonals where
  forward := Diagonals.nearStore 0 r.forwardSpan
  backward := Diagonals.nearStore r.delta r.forwardSpan

/-! ### Searches within the bands -/

/-- The searches of a region keep to the bands: what they do with their vectors, they do with
vectors that fault outside of them, too. This is so of each visit, whatever the vectors hold, and
of the whole searches with their seeds. -/
structure Confined (r : Region α) : Prop where
  advance : ∀ d ∈ r.distances, ∀ k ∈ diagonalRow d, ∀ v,
    r.advance d k v = r.advanceIn r.nearStores.forward d k v
  retreat : ∀ d ∈ r.distances, ∀ k ∈ diagonalRow d, ∀ v,
    r.retreat d k v = r.retreatIn r.nearStores.backward d k v
  meetForward : ∀ d ∈ r.distances, ∀ k ∈ diagonalRow d, ∀ f,
    r.meetForward d k f = r.meetForwardIn r.nearStores d k f
  meetBackward : ∀ d ∈ r.distances, ∀ k ∈ diagonalRow d, ∀ f,
    r.meetBackward d k f = r.meetBackwardIn r.nearStores d k f
  searchForward (v : Diagonals) :
    r.searchForwardIn Diagonals.store v = r.searchForwardIn r.nearStores.forward v
  searchBackward (v : Diagonals) :
    r.searchBackwardIn Diagonals.store v = r.searchBackwardIn r.nearStores.backward v
  middleSnake (f : Frontiers) :
    r.middleSnake f = r.middleSnakeIn r.nearStores (fun _ => r.nearStores) f

/-- The distances of a region are those up to the sum of its sides. -/
theorem mem_distances : d ∈ r.distances ↔ d ≤ r.old.length + r.new.length := by
  rw [distances, List.mem_range]
  exact Nat.lt_succ_iff

/-- A forward row reads next to its diagonals, -/
theorem natAbs_le_of_mem_forwardReads (h : k ∈ forwardReads d) : k.natAbs ≤ d + 1 := by
  cases d with
  | zero => simp only [forwardReads, Set.mem_singleton_iff] at h; omega
  | succ d => exact (mem_diagonalRow.mp h).1.trans (by omega)

/-- and so does a backward row. -/
theorem natAbs_le_of_mem_backwardReads {delta : ℤ} (h : k ∈ backwardReads delta d) :
    (k - delta).natAbs ≤ d + 1 := by
  cases d with
  | zero => simp only [backwardReads, Set.mem_singleton_iff] at h; omega
  | succ d => exact (mem_diagonalRow.mp h).1.trans (by omega)

/-- Vectors that fault outside of a band are like themselves for rows that keep to it. -/
theorem rowsAlike_near (last : ℕ) (reads : ℕ → Set ℤ) (center : ℤ)
    (hreads : ∀ d ≤ last, ∀ j ∈ reads d, (j - center).natAbs ≤ last + 1) :
    RowsAlike last reads (· + center) (fun _ => Diagonals.store)
      (fun _ => Diagonals.nearStore center (last + 1)) fun _ _ => Eq where
  get := by
    rintro d done v _ hd rfl j hj
    exact (Diagonals.nearStore_get (hreads d hd j hj) v).symm
  set := by
    rintro d done v _ k x hd hk rfl
    have hrow := (mem_diagonalRow.mp hk).1
    rw [Diagonals.nearStore_set (by omega)]
    exact alike_self _
  next _ _ _ h := h

/-- The rows of forward paths keep to their band, -/
theorem rowsAlike_near_forward (r : Region α) :
    RowsAlike (r.old.length + r.new.length) forwardReads (fun k => k) (fun _ => Diagonals.store)
      (fun _ => r.nearStores.forward) fun _ _ => Eq := by
  have hrows := rowsAlike_near (r.old.length + r.new.length) forwardReads 0 fun d hd j hj => by
    have := natAbs_le_of_mem_forwardReads hj
    omega
  simp only [add_zero] at hrows
  exact hrows

/-- and so do those of backward paths. -/
theorem rowsAlike_near_backward (r : Region α) :
    RowsAlike (r.old.length + r.new.length) (backwardReads r.delta) (· + r.delta)
      (fun _ => Diagonals.store) (fun _ => r.nearStores.backward) fun _ _ => Eq :=
  rowsAlike_near _ _ _ fun d hd j hj => (natAbs_le_of_mem_backwardReads hj).trans (by omega)

/-- The rounds of the search for the middle snake keep to both. A completed forward row lies in the
band of forward paths, where backward paths look for it. -/
theorem roundsAlike_near (r : Region α) :
    RoundsAlike r (fun _ => Diagonals.stores) (fun _ => r.nearStores) (fun _ _ => Eq)
      fun _ _ => Eq where
  forward := r.rowsAlike_near_forward
  backward := r.rowsAlike_near_backward
  complete := by
    rintro d v _ hd rfl j hj
    have hrow := (mem_diagonalRow.mp hj).1
    exact (Diagonals.nearStore_get (by rw [forwardSpan]; omega) v).symm

/-- The seeds lie in the bands. -/
theorem seeds_near (r : Region α) (v : Diagonals) :
    Alike Eq (v.set 1 0) (r.nearStores.forward.set v 1 0) ∧
      Alike Eq (v.set (r.delta - 1) r.width)
        (r.nearStores.backward.set v (r.delta - 1) r.width) := by
  have hforward : r.nearStores.forward.set v 1 0 = v.set 1 0 :=
    Diagonals.nearStore_set (by rw [forwardSpan]; omega) v 0
  have hbackward : r.nearStores.backward.set v (r.delta - 1) r.width =
      v.set (r.delta - 1) r.width := Diagonals.nearStore_set (by rw [forwardSpan]; omega) v r.width
  rw [hforward, hbackward]
  exact ⟨alike_self _, alike_self _⟩

/-- **Searches keep to the bands.** -/
theorem confined (r : Region α) : r.Confined := by
  have hself := r.congruent_self
  have hrounds := r.roundsAlike_near
  refine ⟨fun d hd k hk v => ?_, fun d hd k hk v => ?_, fun d hd k hk f => ?_,
    fun d hd k hk f => ?_, fun v => ?_, fun v => ?_, fun f => ?_⟩
  · rw [mem_distances] at hd
    refine ((hself.advanceIn_alike hk (hrounds.forward.get d [] v v hd rfl)
      fun x => hrounds.forward.set d [] v v k x hd hk rfl).imp fun _ _ hreach => ?_).eq
    exact hreach.eq
  · rw [mem_distances] at hd
    refine ((hself.retreatIn_alike hk (hrounds.backward.get d [] v v hd rfl)
      fun x => hrounds.backward.set d [] v v k x hd hk rfl).imp fun _ _ hreach => ?_).eq
    exact hreach.eq
  · rw [mem_distances] at hd
    refine ((hself.meetForwardIn_alike hrounds [] hd hk ⟨rfl, rfl⟩).imp
      fun _ _ hrel => ?_).eq
    exact (hrel.imp (fun _ _ hboth => hboth.eq) fun _ _ hend => hend.eq).eq
  · rw [mem_distances] at hd
    refine ((hself.meetBackwardIn_alike hrounds [] hd hk ⟨rfl, rfl⟩).imp
      fun _ _ hrel => ?_).eq
    exact (hrel.imp (fun _ _ hboth => hboth.eq) fun _ _ hend => hend.eq).eq
  · exact (hself.searchForwardIn_alike hrounds.forward (r.seeds_near v).1).eq
  · exact (hself.searchBackwardIn_alike hrounds.backward (r.seeds_near v).2).eq
  · refine ((hself.middleSnakeIn_alike hrounds Diagonals.stores r.nearStores
      (r.seeds_near f.forward).1 (r.seeds_near f.backward).2).imp fun _ _ hend => ?_).eq
    exact hend.eq

end Region

/-! ### The operations on a comparison -/

namespace Comparison

variable {α : Type}

/-- **No operation breaks off** when the diagonal vectors fit into memory: the matching, the
scripts with and without changes, the distance from either end, the longest common subsequence
and its length, and the similarity all have results. The searches on the way, those of all
regions that the whole is divided into among them, keep to `n + m + 1` diagonals on either side
of zero, or of the corner's diagonal when they go backward. -/
theorem runs_without_fault (c : Comparison α) (h : c.Fits) :
    (∃ found, c.matching = .ok found) ∧ (∀ changes, ∃ s, c.script changes = .ok s) ∧
      (∃ d, c.distance = .ok d) ∧ (∃ d, c.distanceBackward = .ok d) ∧
      (∃ common, c.common = .ok common) ∧ (∃ k, c.commonLength = .ok k) ∧
      (∃ s, c.similarity = .ok s) ∧ ∀ r : Region α, r.Confined := by
  obtain ⟨found, hfound, hmatching, hlength⟩ := exists_matching h
  obtain ⟨u, hu, -⟩ := hmatching.exists_isCommon
  have hcount := commonLength_eq_ok h (l := found.size) (by omega)
  have hbackward := Region.distanceBackward_eq_grid_distance (fits_iff.mp h)
  refine ⟨⟨_, hfound⟩, ?_, ⟨_, distance_eq_ok h⟩, ⟨_, hbackward⟩, ⟨_, common_eq_ok hfound hu⟩,
    ⟨_, hcount⟩, ⟨_, similarity_eq_ok h hfound⟩, fun r => r.confined⟩
  intro changes
  exact ⟨_, script_eq_ok h hfound changes⟩

/-- The script of two words of four and three letters. -/
theorem runs_without_fault_kitt :
    (ofEq #['k', 'i', 't', 't'] #['s', 'i', 't']).Fits ∧
      ∃ s, (ofEq #['k', 'i', 't', 't'] #['s', 'i', 't']).script true = .ok s := by
  have hfits : (ofEq #['k', 'i', 't', 't'] #['s', 'i', 't']).Fits := by decide
  exact ⟨hfits, (runs_without_fault _ hfits).2.1 true⟩

end Comparison

end EditGraph
