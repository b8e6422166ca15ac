import EditGraph.Comparison
import EditGraph.Proofs.TwoRuns

/-!
# Fresh reads

Vectors are lent to a search for the middle snake with whatever earlier searches have left in
them. That the search finds the same with any other vectors is the first half of the result. The
second half is about the values themselves. The search can be run in any stores of columns, and
here it is run in vectors that keep a record of who has written each of their values, and that
fault on a read of any value but those that the row at hand has written, or the row of the distance
before, or, at distance zero, a seed. It ends as in plain vectors, with the same middle snake and
the same values.

Both searches of the lock step need this record, since either looks into the vector of the other.
When the forward row of distance `d` looks there, the backward search has not begun that distance;
when the backward row looks, the forward row of its distance is complete. The tests on parity and
on the width of the opposite row keep both from finding anything older. No such test guards the
launches of the paths, whose neighbouring diagonals have been visited because the row before has
visited all of its own.

## Main definitions

* `Origin`, `Origin.IsRecent` — who has written a value, and which of them a row may read.
* `Dated`, `Dated.store` — a diagonal vector with the origins of its values.
* `Region.middleSnakeDated` — the search in such vectors.
* `Dated.Follows` — the origins that a row relies on, and those that it leaves.

## Main results

* `Dated.Follows.get_eq`, `Dated.Follows.set_alike` — a read that is allowed, and a write.
* `rowsAlike_follows`, `middleSnakeDated_alike` — rows, and the whole search.
* `lent_vectors_leave_no_trace` — what lent vectors hold is never read and never shows.
-/

namespace EditGraph

/-! ### Values with an origin -/

/-- Who has written a value since its vector was lent. -/
inductive Origin where
  /-- The search did, before its first row. -/
  | seed
  /-- The row of distance `d` did. -/
  | row (d : ℕ)
  deriving DecidableEq

/-- The distance at which it writes. -/
def Origin.distance : Origin → ℕ
  | .seed => 0
  | .row d => d

/-- A row of distance `d` may read what it has written itself, and what the row before has. The
first row has no row before it, but a seed. -/
def Origin.IsRecent (d : ℕ) : Origin → Prop
  | .seed => d = 0
  | .row e => e = d ∨ e + 1 = d

instance (d : ℕ) : DecidablePred (Origin.IsRecent d)
  | .seed => inferInstanceAs (Decidable (d = 0))
  | .row e => inferInstanceAs (Decidable (e = d ∨ e + 1 = d))

/-- A diagonal vector, and the origins of those values that have been written since it was lent. -/
structure Dated where
  vector : Diagonals
  origin : ℤ → Option Origin

namespace Dated

/-- A vector just lent: nothing in it has been written by the search. -/
def lent (v : Diagonals) : Dated := ⟨v, fun _ => none⟩

/-- The value on diagonal `k`, read by a row of distance `d`. A value that the row may not read is
a fault. -/
def get (d : ℕ) (w : Dated) (k : ℤ) : Except Fault ℤ :=
  if ∃ o ∈ w.origin k, o.IsRecent d then w.vector.get k else .error (.diagonal k w.vector.bias)

/-- The vector with `x` as the value on diagonal `k`, written by `o`. -/
def set (o : Origin) (w : Dated) (k x : ℤ) : Except Fault Dated := do
  return ⟨← w.vector.set k x, Function.update w.origin k (some o)⟩

/-- How whoever writes as `o` reads and writes. -/
def store (o : Origin) : Store Dated := ⟨get o.distance, set o⟩

/-- Both searches use vectors with origins. -/
def stores (o : Origin) : Stores Dated := ⟨store o, store o⟩

end Dated

/-- Vectors just lent to both searches. -/
def Frontiers.dated (f : Frontiers) : FrontiersIn Dated := ⟨.lent f.forward, .lent f.backward⟩

/-- The vectors alone. -/
def FrontiersIn.vectors (g : FrontiersIn Dated) : Frontiers := ⟨g.forward.vector, g.backward.vector⟩

/-- The search for the middle snake, in vectors with origins. -/
def Region.middleSnakeDated {α : Type} (r : Region α) (g : FrontiersIn Dated) :
    Except Fault (MeetingIn Dated) :=
  r.middleSnakeIn (Dated.stores .seed) (fun d => Dated.stores (.row d)) g

/-! ### What a row relies on -/

namespace Dated

variable {s t : Set ℤ} {d : ℕ} {k : ℤ} {v : Diagonals} {w : Dated}

/-- `w` is the vector `v` with origins. A row of distance `d` may read it on the diagonals `s`, and
has written the diagonals `t`. -/
structure Follows (d : ℕ) (s t : Set ℤ) (v : Diagonals) (w : Dated) : Prop where
  vector : w.vector = v
  recent : ∀ k ∈ s, ∃ o ∈ w.origin k, o.IsRecent d
  written : ∀ k ∈ t, w.origin k = some (.row d)

/-- **A read that is allowed** gives the value of the vector. -/
theorem Follows.get_eq (h : Follows d s t v w) (hk : k ∈ s ∪ t) : v.get k = w.get d k := by
  rw [get, h.vector]
  refine (if_pos ?_).symm
  rcases hk with hk | hk
  · exact h.recent k hk
  · exact ⟨_, h.written k hk, .inl rfl⟩

/-- **A write of the row** makes its diagonal one of those written, and takes none away. -/
theorem Follows.set_alike (h : Follows d s t v w) (k x : ℤ) :
    Alike (Follows d s (insert k t)) (v.set k x) (w.set (.row d) k x) := by
  obtain ⟨rfl, hrecent, hwritten⟩ := h
  rw [← bind_pure (w.vector.set k x), set]
  refine (alike_self _).bind ?_
  rintro u _ rfl
  refine ⟨rfl, fun j hj => ?_, fun j hj => ?_⟩
  · by_cases hjk : j = k
    · exact ⟨.row d, by simp [hjk], .inl rfl⟩
    · simpa [hjk] using hrecent j hj
  · by_cases hjk : j = k
    · simp [hjk]
    · simpa [hjk] using hwritten j (hj.resolve_left hjk)

/-- What one row has written, the row of the next distance may read. -/
theorem Follows.next (h : Follows d s t v w) : Follows (d + 1) t ∅ v w :=
  ⟨h.vector, fun k hk => ⟨.row d, h.written k hk, .inr rfl⟩, nofun⟩

/-- Fewer diagonals are asked for. -/
theorem Follows.mono {s' t' : Set ℤ} (h : Follows d s t v w) (hs : s' ⊆ s) (ht : t' ⊆ t) :
    Follows d s' t' v w :=
  ⟨h.vector, fun k hk => h.recent k (hs hk), fun k hk => h.written k (ht hk)⟩

/-- A vector just lent, with a seed. -/
theorem lent_set_alike (v : Diagonals) (k x : ℤ) :
    Alike (Follows 0 {k} ∅) (v.set k x) ((lent v).set .seed k x) := by
  rw [← bind_pure (v.set k x), set]
  refine (alike_self _).bind ?_
  rintro u _ rfl
  refine ⟨rfl, ?_, nofun⟩
  rintro j rfl
  exact ⟨.seed, by simp, rfl⟩

end Dated

namespace Region

variable {α : Type} {r : Region α} {d : ℕ} {k : ℤ}

/-- **Rows read nothing but what rows have written** in this one and in the one before: vectors
with origins are like those without. -/
theorem rowsAlike_follows (last : ℕ) (reads : ℕ → Set ℤ) (delta : ℤ)
    (hreads : ∀ d, reads (d + 1) ⊆ {j | j - delta ∈ diagonalRow d}) :
    RowsAlike last reads (· + delta) (fun _ => Diagonals.store) (fun d => Dated.store (.row d))
      fun d done => Dated.Follows d (reads d) {j | j - delta ∈ done} where
  get _ _ _ _ _ h := fun _ hj => h.get_eq (.inl hj)
  set d done v w k x _ _ h := by
    refine (h.set_alike (k + delta) x).imp fun _ _ hset => hset.mono subset_rfl ?_
    simpa using union_visited_subset (k := k) ∅ done delta
  next d v w h := h.next.mono (hreads d) (by simp)

/-- **The search reads nothing but what it has written** in the row at hand or in the row before,
and the seeds: with vectors that fault on any other read it ends in the same way. -/
theorem middleSnakeDated_alike (r : Region α) (f : Frontiers) :
    Alike (fun m x => m.middle = x.middle ∧ x.frontiers.vectors = m.frontiers) (r.middleSnake f)
      (r.middleSnakeDated f.dated) := by
  have hrounds : RoundsAlike r (fun _ => Diagonals.stores) (fun d => Dated.stores (.row d))
      (fun d done => Dated.Follows d (forwardReads d) {j | j - 0 ∈ done})
      (fun d done => Dated.Follows d (backwardReads r.delta d) {j | j - r.delta ∈ done}) :=
    { forward := by
        have hrows := rowsAlike_follows (r.old.length + r.new.length) forwardReads 0
          fun d j hj => by simpa [forwardReads] using hj
        simp only [add_zero] at hrows
        exact hrows
      backward := rowsAlike_follows _ _ _ fun d j hj => hj
      complete := fun d v w _ hrow => fun j hj => hrow.get_eq (.inr (by simpa using hj)) }
  have hall := r.congruent_self.middleSnakeIn_alike hrounds Diagonals.stores (Dated.stores .seed)
    (f := f) (g := f.dated)
    ((Dated.lent_set_alike f.forward 1 0).imp fun _ _ hseed =>
      hseed.mono subset_rfl (by simp))
    ((Dated.lent_set_alike f.backward (r.delta - 1) r.width).imp fun _ _ hseed =>
      hseed.mono subset_rfl (by simp))
  refine hall.imp fun m x hends => ?_
  obtain ⟨hmiddle, d, done, done', hforward, hbackward⟩ := hends
  exact ⟨hmiddle, congrArg₂ FrontiersIn.mk hforward.vector hbackward.vector⟩

/-- **What lent vectors hold is never read and never shows.** With any two pairs of vectors that
have all diagonals in reach, of the same bias or not, the search for the middle snake succeeds and
finds the same distance and the same snake. Each value that it reads on the way has been written
by its own rows at this distance or the one before, or is a seed, which the rows of distance zero
read: it does the same with vectors that fault on every other read. -/
theorem lent_vectors_leave_no_trace (r : Region α) (f f' : Frontiers)
    (hf : f.Serve r.forwardSpan r.backwardSpan) (hf' : f'.Serve r.forwardSpan r.backwardSpan) :
    ∃ m m' g, r.middleSnake f = .ok m ∧ r.middleSnake f' = .ok m' ∧ m.middle = m'.middle ∧
      r.middleSnakeDated f.dated = .ok ⟨m.middle, g⟩ ∧ g.vectors = m.frontiers := by
  obtain ⟨m, hm, -⟩ := exists_middleSnake hf le_rfl le_rfl
  have hsame := r.congruent_self.middleSnake_alike hf hf' le_rfl le_rfl le_rfl le_rfl
  have hdated := middleSnakeDated_alike r f
  rw [hm] at hsame hdated
  obtain ⟨m', hm', hmiddle⟩ := hsame.exists_of_ok
  obtain ⟨⟨middle, g⟩, hg, rfl, hvectors⟩ := hdated.exists_of_ok
  exact ⟨m, m', g, hm, hm', hmiddle, hg, hvectors⟩

/-- Vectors of two sizes, full of sevens and full of eights. -/
theorem lent_vectors_leave_no_trace_abc :
    ∃ c : Comparison Char, c = .ofEq #['a', 'b', 'c'] #['c', 'b'] ∧
      (Frontiers.filled 12 7).Serve c.region.forwardSpan c.region.backwardSpan ∧
      (Frontiers.filled 20 8).Serve c.region.forwardSpan c.region.backwardSpan ∧
      ∃ m m', c.region.middleSnake (.filled 12 7) = .ok m ∧
        c.region.middleSnake (.filled 20 8) = .ok m' ∧ m.middle = m'.middle := by
  let c : Comparison Char := .ofEq #['a', 'b', 'c'] #['c', 'b']
  have hsmall : (Frontiers.filled 12 7).Serve c.region.forwardSpan c.region.backwardSpan :=
    Frontiers.filled_serve (by decide) (by decide) (by decide)
  have hlarge : (Frontiers.filled 20 8).Serve c.region.forwardSpan c.region.backwardSpan :=
    Frontiers.filled_serve (by decide) (by decide) (by decide)
  obtain ⟨m, m', -, hm, hm', hmiddle, -⟩ :=
    lent_vectors_leave_no_trace c.region (.filled 12 7) (.filled 20 8) hsmall hlarge
  exact ⟨c, rfl, hsmall, hlarge, m, m', hm, hm', hmiddle⟩

end Region

end EditGraph
