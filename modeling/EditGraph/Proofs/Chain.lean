import EditGraph.Matching
import EditGraph.Proofs.Searches

/-!
# Chains of pairs

A chain of a region is a list of pairs of its elements that match, rising on both sides. The
lists that the matching of a region is put together from are chains: the pairs on a snake, and
the pairs that a walk along both windows finds when they are one step apart.

A chain and the steps off the diagonal beside it use up the columns and rows of the region,
each pair one of both. So a chain is as long as the steps beside it are few, and the chains
found here have no more steps beside them than the distance.

## Main definitions

* `Region.HasMatch`, `Region.IsChain` — pairs that match, and lists of them that rise.
* `Region.run` — the pairs along a slide.

## Main results

* `collectRun_eq`, `isChain_run` — what a snake adds to the matching.
* `IsChain.distance_le` — no chain is longer than the distance allows.
* `exists_collectWalk` — what a walk adds to it, a step or none off the diagonal.
* `distance_of_isEmpty`, `isChain_of_distance_zero`, `exists_collectWalk_of_distance_one` —
  the regions that are not divided.
-/

namespace EditGraph

namespace Region

variable {α : Type} {r : Region α}

/-! ### Pairs and chains -/

/-- The pair, by positions in the whole sequences, is one of elements of the region that
match. -/
def HasMatch (r : Region α) (p : Match) : Prop :=
  r.grid.agree (p.x - r.old.offset) (p.y - r.new.offset)

/-- The pair `p` lies before the pair `q` on both sides. -/
def Precedes (p q : Match) : Prop := p.x < q.x ∧ p.y < q.y

/-- A list of pairs of the region that match, rising on both sides. -/
structure IsChain (r : Region α) (l : List Match) : Prop where
  matched : ∀ p ∈ l, r.HasMatch p
  rising : l.Pairwise Precedes

/-- A pair of the region lies in its windows. -/
theorem HasMatch.inside {p : Match} (h : r.HasMatch p) :
    (r.old.offset < p.x ∧ p.x ≤ r.old.offset + r.old.length) ∧
      (r.new.offset < p.y ∧ p.y ≤ r.new.offset + r.new.length) := by
  have := r.grid.inside h
  simp only [grid_width, grid_height] at this
  omega

/-- Nothing matched is a chain. -/
theorem isChain_nil (r : Region α) : r.IsChain [] := ⟨nofun, .nil⟩

/-- A pair can be put in front of a chain that lies behind it. -/
theorem IsChain.cons {p : Match} {l : List Match} (hp : r.HasMatch p) (hl : r.IsChain l)
    (hlt : ∀ q ∈ l, Precedes p q) : r.IsChain (p :: l) :=
  ⟨List.forall_mem_cons.mpr ⟨hp, hl.matched⟩, List.pairwise_cons.mpr ⟨hlt, hl.rising⟩⟩

/-- A chain goes on with a chain that lies behind it. -/
theorem IsChain.append {l l' : List Match} (hl : r.IsChain l) (hl' : r.IsChain l')
    (hlt : ∀ p ∈ l, ∀ q ∈ l', Precedes p q) : r.IsChain (l ++ l') :=
  ⟨List.forall_mem_append.mpr ⟨hl.matched, hl'.matched⟩,
    List.pairwise_append.mpr ⟨hl.rising, hl'.rising, hlt⟩⟩

/-- All positions in the backing sequences are 64-bit quantities, those one past the end among
them. -/
def Addressable (r : Region α) : Prop :=
  r.old.backing.size + 1 < Word.limit ∧ r.new.backing.size + 1 < Word.limit

/-- Columns and rows of the region have positions in the whole sequences. -/
theorem matchAt_eq (h : r.Addressable) {i j : ℕ} (hi : i ≤ r.old.length)
    (hj : j ≤ r.new.length) : r.matchAt i j = .ok ⟨r.old.offset + i, r.new.offset + j⟩ := by
  have hold := r.old.inBounds
  have hnew := r.new.inBounds
  obtain ⟨holdLimit, hnewLimit⟩ := h
  simp only [matchAt, Window.absolute]
  rw [Word.fit_of_lt (by omega), Word.fit_of_lt (by omega)]
  rfl

/-! ### Runs -/

/-- The `count` pairs on the diagonal after column `x` and row `y`. -/
def run (r : Region α) (x y count : ℕ) : List Match :=
  (List.range count).map fun i => ⟨r.old.offset + (x + i + 1), r.new.offset + (y + i + 1)⟩

/-- A run has as many pairs as it counts. -/
@[simp] theorem length_run (r : Region α) (x y count : ℕ) :
    (r.run x y count).length = count := by simp [run]

/-- Pushing the results of operations that all succeed appends their list. -/
theorem foldlM_push_eq {ι β : Type} {f : ι → Except Fault β} {g : ι → β} {is : List ι}
    (h : ∀ i ∈ is, f i = .ok (g i)) (found : Array β) :
    is.foldlM (fun found i => found.push <$> f i) found = .ok (found ++ (is.map g).toArray) := by
  induction is generalizing found with
  | nil => simp [pure, Except.pure]
  | cons i is ih =>
      obtain ⟨hi, his⟩ := List.forall_mem_cons.mp h
      have hpush : found.push <$> f i = .ok (found.push (g i)) := by rw [hi]; rfl
      rw [List.foldlM_cons, hpush, ok_bind, ih his]
      simp

/-- **A run is collected** as the pairs on its diagonal. -/
theorem collectRun_eq (h : r.Addressable) {x y count : ℕ} (hx : x + count ≤ r.old.length)
    (hy : y + count ≤ r.new.length) (found : Array Match) :
    r.collectRun x y count found = .ok (found ++ (r.run x y count).toArray) := by
  refine foldlM_push_eq ?_ found
  intro i hi
  rw [List.mem_range] at hi
  exact matchAt_eq h (by omega) (by omega)

/-- Pairs of a run lie behind its beginning and not behind its end. -/
theorem mem_run {x y count : ℕ} {p : Match} (h : p ∈ r.run x y count) :
    ∃ i < count, p.x = r.old.offset + (x + i + 1) ∧ p.y = r.new.offset + (y + i + 1) := by
  simp only [run, List.mem_map, List.mem_range] at h
  obtain ⟨i, hi, rfl⟩ := h
  exact ⟨i, hi, rfl, rfl⟩

/-- **The pairs along a slide are a chain.** -/
theorem isChain_run {k : ℤ} {x y count : ℕ} (hk : (x : ℤ) - k = y)
    (h : r.grid.Slide k x (x + count)) : r.IsChain (r.run x y count) := by
  refine ⟨?_, ?_⟩
  · intro p hp
    obtain ⟨i, hi, hpx, hpy⟩ := mem_run hp
    have hagree := h.2 (x + i + 1) (by omega) (by omega)
    have hx : (p.x : ℤ) - r.old.offset = x + i + 1 := by omega
    have hy : (p.y : ℤ) - r.new.offset = x + i + 1 - k := by omega
    rw [HasMatch, hx, hy]
    exact hagree
  · refine List.pairwise_map.mpr (List.pairwise_lt_range.imp fun {i j} hij => ?_)
    exact ⟨by simp only; omega, by simp only; omega⟩

/-! ### A chain as a route -/

/-- A chain behind a point gives a route from there to the corner, which slides over its pairs
and goes right and down between them. -/
theorem IsChain.exists_route {l : List Match} (hl : r.IsChain l) {x y : ℕ}
    (hx : x ≤ r.old.length) (hy : y ≤ r.new.length)
    (hbehind : ∀ p ∈ l, r.old.offset + x < p.x ∧ r.new.offset + y < p.y) :
    ∃ e, r.grid.Route ⟨x, y⟩ r.grid.corner e ∧
      e + 2 * l.length + x + y = r.old.length + r.new.length := by
  induction l generalizing x y with
  | nil =>
      refine ⟨_, Grid.Route.straight (by simp [Grid.corner, hx]) (by simp [Grid.corner, hy]), ?_⟩
      simp only [Grid.corner, grid_width, grid_height, List.length_nil]
      omega
  | cons p l ih =>
      obtain ⟨hlt, hrising⟩ := List.pairwise_cons.mp hl.rising
      have hp := hl.matched p List.mem_cons_self
      obtain ⟨⟨hpx, hpx'⟩, hpy, hpy'⟩ := hp.inside
      obtain ⟨hxp, hyp⟩ := hbehind p List.mem_cons_self
      obtain ⟨e, hroute, he⟩ := ih
        ⟨fun q hq => hl.matched q (List.mem_cons_of_mem _ hq), hrising⟩
        (x := p.x - r.old.offset) (y := p.y - r.new.offset) (by omega) (by omega)
        (fun q hq => by have := hlt q hq; simp only [Precedes] at this; omega)
      have hslide : r.grid.Route ⟨(p.x - r.old.offset : ℤ) - 1, (p.y - r.new.offset : ℤ) - 1⟩
          r.grid.corner e := by
        refine Grid.Route.of_slide ?_ (hroute.cast_start (by omega) (by omega))
        rw [Int.sub_add_cancel, Int.sub_add_cancel]
        exact hp
      have hstraight := Grid.Route.straight (G := r.grid) (p := ⟨x, y⟩)
        (q := ⟨(p.x - r.old.offset : ℤ) - 1, (p.y - r.new.offset : ℤ) - 1⟩)
        (by simp only; omega) (by simp only; omega)
      refine ⟨_, hstraight.trans hslide, ?_⟩
      simp only [List.length_cons]
      omega

/-- **No chain is longer than the distance allows.** -/
theorem IsChain.distance_le {l : List Match} (hl : r.IsChain l) :
    r.grid.distance + 2 * l.length ≤ r.old.length + r.new.length := by
  obtain ⟨e, hroute, he⟩ := hl.exists_route (x := 0) (y := 0) (by omega) (by omega)
    (fun p hp => by have := (hl.matched p hp).inside; omega)
  have := Grid.Route.distance_le (hroute.cast_start rfl rfl)
  omega

/-! ### Walks -/

/-- Where the next elements do not match, a walk with at most one step to go makes that step
now, along the longer side. -/
theorem one_step_of_mismatch {i j e : ℕ} (hroute : r.grid.Route ⟨i - 1, j - 1⟩ r.grid.corner e)
    (he : e = 0 ∨ e = 1 ∧ i = j) (hi : i ≤ r.old.length) (hno : ¬ r.agree i j = .ok true) :
    e = 1 ∧ (r.old.length = r.new.length + 1 ∧ r.grid.Route ⟨i, j - 1⟩ r.grid.corner 0 ∨
      r.new.length = r.old.length + 1 ∧ r.grid.Route ⟨i - 1, j⟩ r.grid.corner 0) := by
  rcases hroute.first_step with ⟨hend, -⟩ | ⟨e', rfl, hright⟩ | ⟨e', rfl, hdown⟩ | ⟨hagree, -⟩
  · have := congrArg Point.x hend
    simp only [Grid.corner, grid_width] at this
    omega
  · obtain rfl : e' = 0 := by omega
    have hright := hright.cast_start (Int.sub_add_cancel _ _) rfl
    obtain ⟨right, down, slid, hcount, hx, hy⟩ := hright.counts
    simp only [Grid.corner, grid_width, grid_height] at hx hy
    exact ⟨rfl, .inl ⟨by omega, hright⟩⟩
  · obtain rfl : e' = 0 := by omega
    have hdown := hdown.cast_start rfl (Int.sub_add_cancel _ _)
    obtain ⟨right, down, slid, hcount, hx, hy⟩ := hdown.counts
    simp only [Grid.corner, grid_width, grid_height] at hx hy
    exact ⟨rfl, .inr ⟨by omega, hdown⟩⟩
  · simp only [Int.sub_add_cancel] at hagree
    exact absurd hagree hno

/-- Behind a column and a row at hand, a walk with at most one step to go has as many steps to go:
both sides are shorter by one there, and as far apart as before. -/
theorem route_behind {i j e : ℕ} (hroute : r.grid.Route ⟨i - 1, j - 1⟩ r.grid.corner e)
    (he : e = 0 ∨ e = 1 ∧ i = j) (hi : i ≤ r.old.length) (hj : j ≤ r.new.length) :
    r.grid.Route ⟨i, j⟩ r.grid.corner e := by
  have hroute' : r.grid.Route ⟨(i : ℤ) - 1, i - 1 - (i - j)⟩ r.grid.corner e :=
    hroute.cast_start rfl (by omega)
  obtain ⟨e', he', hrest⟩ := hroute'.shorten_to (z := i)
    (by simp only [Grid.corner, grid_width]; omega)
    (by simp only [Grid.corner, grid_height]; omega) (by omega)
  have hsame : e' = e := by
    have := hroute.step_parity
    have := hrest.step_parity
    simp only at *
    omega
  subst hsame
  exact hrest.cast_start rfl (by omega)

/-- **A walk finds all pairs** of two windows that are at most one step apart: from column `i`
and row `j`, with `e` steps off the diagonal to go, it uses up all columns and rows. -/
theorem exists_collectWalk (h : r.Addressable) {i j e : ℕ} (hi : 1 ≤ i) (hj : 1 ≤ j)
    (hroute : r.grid.Route ⟨i - 1, j - 1⟩ r.grid.corner e) (he : e = 0 ∨ e = 1 ∧ i = j)
    (found : Array Match) :
    ∃ l : List Match, r.collectWalk i j found = .ok (found ++ l.toArray) ∧ r.IsChain l ∧
      (∀ p ∈ l, r.old.offset + i ≤ p.x ∧ r.new.offset + j ≤ p.y) ∧
      2 * l.length + e + i + j = r.old.length + r.new.length + 2 := by
  have hnext (w : Window α) (n : ℕ) (hw : w.backing.size + 1 < Word.limit) (hn : n ≤ w.length) :
      n + 1 < Word.limit := by
    have := w.inBounds
    omega
  fun_induction collectWalk r i j found generalizing e with
  | case1 i j found hin fault hfault =>
      obtain ⟨b, hb⟩ := r.exists_agree (x := i) (y := j) (by rw [width]; omega)
        (by rw [height]; omega)
      rw [hb] at hfault
      cases hfault
  | case2 i j found hin hagree fault hfault =>
      rw [matchAt_eq h hin.1 hin.2] at hfault
      cases hfault
  | case3 i j found hin hagree pair hpair _ ih =>
      have hrest := route_behind hroute he hin.1 hin.2
      obtain ⟨l, hl, hchain, hbehind, hlength⟩ :=
        ih (e := e) (by omega) (by omega) (hrest.cast_start (by omega) (by omega)) (by omega)
      rw [matchAt_eq h hin.1 hin.2] at hpair
      obtain rfl := Except.ok.inj hpair
      refine ⟨⟨r.old.offset + i, r.new.offset + j⟩ :: l, by rw [hl]; simp,
        hchain.cons ?_ fun q hq => ?_, ?_, ?_⟩
      · simpa [HasMatch, grid_agree_iff] using hagree
      · have := hbehind q hq
        exact ⟨by simp only; omega, by simp only; omega⟩
      · refine List.forall_mem_cons.mpr ⟨⟨le_rfl, le_rfl⟩, fun q hq => ?_⟩
        have := hbehind q hq
        omega
      · rw [List.length_cons]
        omega
  | case4 i j found hin hagree pair hpair hlimit =>
      exact absurd ⟨hnext _ _ h.1 hin.1, hnext _ _ h.2 hin.2⟩ hlimit
  | case5 i j found hin hagree hlonger _ ih =>
      obtain ⟨rfl, hright | hdown⟩ := one_step_of_mismatch hroute he (by omega) (by simp [hagree])
      · obtain ⟨l, hl, hchain, hbehind, hlength⟩ := ih (e := 0) (by omega) hj
          (hright.2.cast_start (by omega) rfl) (.inl rfl)
        exact ⟨l, hl, hchain, fun p hp => by have := hbehind p hp; omega, by omega⟩
      · omega
  | case6 i j found hin hagree hlonger hlimit => exact absurd (hnext _ _ h.1 hin.1) hlimit
  | case7 i j found hin hagree hlonger _ ih =>
      obtain ⟨rfl, hright | hdown⟩ := one_step_of_mismatch hroute he (by omega) (by simp [hagree])
      · omega
      · obtain ⟨l, hl, hchain, hbehind, hlength⟩ := ih (e := 0) hi (by omega)
          (hdown.2.cast_start rfl (by omega)) (.inl rfl)
        exact ⟨l, hl, hchain, fun p hp => by have := hbehind p hp; omega, by omega⟩
  | case8 i j found hin hagree hlonger hlimit => exact absurd (hnext _ _ h.2 hin.2) hlimit
  | case9 i j found hout =>
      obtain ⟨right, down, slid, hcount, hright, hdown⟩ := hroute.counts
      simp only [Grid.corner, grid_width, grid_height] at hright hdown
      refine ⟨[], by simp, isChain_nil r, by simp, ?_⟩
      rw [List.length_nil]
      omega

/-! ### Regions that are not divided -/

/-- Without columns or without rows, all steps are off the diagonal. -/
theorem distance_of_isEmpty (h : (r.old.isEmpty || r.new.isEmpty) = true) :
    r.grid.distance = r.old.length + r.new.length := by
  have hleast := r.grid.distance_parity.2
  have hmost := r.grid_distance_le
  simp only [Window.isEmpty, Bool.or_eq_true, beq_iff_eq] at h
  simp only [grid_delta, delta, width, height] at hleast
  omega

/-- In a region of distance zero every column is a pair with the row of its number. -/
theorem isChain_of_distance_zero (h : r.grid.distance = 0) :
    r.old.length = r.new.length ∧ r.IsChain (r.run 0 0 r.old.length) := by
  have hroute := r.grid.route_distance
  rw [h] at hroute
  obtain ⟨right, down, slid, hcount, hx, hy⟩ := hroute.counts
  simp only [Grid.origin, Grid.corner, grid_width, grid_height] at hx hy
  have hsquare : r.old.length = r.new.length := by omega
  have hroute : r.grid.Route Grid.origin ⟨r.old.length, r.old.length - 0⟩ 0 :=
    hroute.cast rfl (by simp only [grid_height]; omega) rfl
  rcases hroute.last_slide with ⟨s, hslide, ⟨hs, -⟩ | ⟨e, he, -⟩⟩
  · obtain rfl : 0 = s := congrArg Point.x hs
    refine ⟨hsquare, isChain_run (k := 0) (by simp) ?_⟩
    simpa using hslide
  · omega

/-- In a region of distance one a walk finds a chain with a single step beside it. -/
theorem exists_collectWalk_of_distance_one (h : r.Addressable) (hd : r.grid.distance = 1)
    (found : Array Match) :
    ∃ l : List Match, r.collectWalk 1 1 found = .ok (found ++ l.toArray) ∧ r.IsChain l ∧
      2 * l.length + 1 = r.old.length + r.new.length := by
  have hroute := r.grid.route_distance
  rw [hd] at hroute
  obtain ⟨l, hl, hchain, -, hlength⟩ := exists_collectWalk h le_rfl le_rfl
    (hroute.cast_start (by simp) (by simp)) (.inr ⟨rfl, rfl⟩) found
  exact ⟨l, hl, hchain, by omega⟩

end Region

end EditGraph
