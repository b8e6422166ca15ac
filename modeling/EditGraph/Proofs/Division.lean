import EditGraph.Proofs.Chain
import EditGraph.Proofs.MiddleSnake

/-!
# Dividing a region

A region whose distance is two or more is divided at its middle snake, and solved by the tasks
of a work list. Every task of the list succeeds. The parts of a division are closer together
than the region is, which bounds the tasks; their chains and the pairs on the snake, one after
the other, are a chain of the region with no more steps beside it than the distance.

## Main definitions

* `Region.PartOf` — the windows of a region lie in those of another.
* `Worklist.Steps` — a number of tasks done in order.

## Main results

* `exists_before`, `exists_after` — the parts of a division, with their distances.
* `run_of_steps` — the fuelled run does the tasks that can be done.
* `exists_steps_solve` — a region is solved, within the tasks that its distance allows for.
* `Region.exists_solve` — the matching of a region.
-/

namespace EditGraph

namespace Region

variable {α : Type} {r part : Region α}

/-! ### Parts of a region -/

/-- The region `part` has the columns of `r` behind column `dx` and the rows behind row `dy`,
as many as its windows are long. -/
structure PartOf (part r : Region α) (dx dy : ℕ) : Prop where
  same : part.same = r.same
  oldBacking : part.old.backing = r.old.backing
  newBacking : part.new.backing = r.new.backing
  oldOffset : part.old.offset = r.old.offset + dx
  newOffset : part.new.offset = r.new.offset + dy
  oldLength : dx + part.old.length ≤ r.old.length
  newLength : dy + part.new.length ≤ r.new.length

/-- A part tests the elements that the region tests, under other numbers. -/
theorem PartOf.agree_iff {dx dy : ℕ} (h : part.PartOf r dx dy) {x y : ℤ}
    (hx : 1 ≤ x ∧ x ≤ part.old.length) (hy : 1 ≤ y ∧ y ≤ part.new.length) :
    part.grid.agree x y ↔ r.grid.agree (x + dx) (y + dy) := by
  have hold (a : α) : part.old.entry x = .ok a ↔ r.old.entry (x + dx) = .ok a := by
    have hplace : (r.old.offset : ℤ) + (x + dx) - 1 = ((r.old.offset + dx : ℕ) : ℤ) + x - 1 := by
      omega
    have := h.oldLength
    rw [Window.entry_eq_ok_iff, Window.entry_eq_ok_iff, hplace, h.oldBacking, h.oldOffset]
    constructor
    · exact fun ⟨_, _, hget⟩ => ⟨by omega, by omega, hget⟩
    · exact fun ⟨_, _, hget⟩ => ⟨hx.1, hx.2, hget⟩
  have hnew (a : α) : part.new.entry y = .ok a ↔ r.new.entry (y + dy) = .ok a := by
    have hplace : (r.new.offset : ℤ) + (y + dy) - 1 = ((r.new.offset + dy : ℕ) : ℤ) + y - 1 := by
      omega
    have := h.newLength
    rw [Window.entry_eq_ok_iff, Window.entry_eq_ok_iff, hplace, h.newBacking, h.newOffset]
    constructor
    · exact fun ⟨_, _, hget⟩ => ⟨by omega, by omega, hget⟩
    · exact fun ⟨_, _, hget⟩ => ⟨hy.1, hy.2, hget⟩
  rw [grid_agree_iff, grid_agree_iff, agree_eq_ok_iff, agree_eq_ok_iff]
  simp only [hold, hnew, h.same]

/-- The edit graph of a part is a part of the edit graph. -/
theorem PartOf.grid {dx dy : ℕ} (h : part.PartOf r dx dy) : part.grid.IsPart r.grid dx dy :=
  fun _ _ hx hx' hy hy' => h.agree_iff ⟨hx, hx'⟩ ⟨hy, hy'⟩

/-- A part of a region has its positions in the 64-bit range if the region has. -/
theorem PartOf.addressable {dx dy : ℕ} (h : part.PartOf r dx dy) (hr : r.Addressable) :
    part.Addressable := by
  rw [Addressable, h.oldBacking, h.newBacking]
  exact hr

/-- Pairs of a part are pairs of the region. -/
theorem PartOf.hasMatch {dx dy : ℕ} (h : part.PartOf r dx dy) {p : Match}
    (hp : part.HasMatch p) : r.HasMatch p := by
  have hinside := part.grid.inside hp
  simp only [grid_width, grid_height] at hinside
  have hagree := (h.agree_iff (by omega) (by omega)).mp hp
  have hx : (p.x : ℤ) - part.old.offset + dx = p.x - r.old.offset := by
    rw [h.oldOffset]
    omega
  have hy : (p.y : ℤ) - part.new.offset + dy = p.y - r.new.offset := by
    rw [h.newOffset]
    omega
  rwa [hx, hy] at hagree

/-- Chains of a part are chains of the region. -/
theorem PartOf.isChain {dx dy : ℕ} (h : part.PartOf r dx dy) {l : List Match}
    (hl : part.IsChain l) : r.IsChain l :=
  ⟨fun p hp => h.hasMatch (hl.matched p hp), hl.rising⟩

/-- A region is a part of itself. -/
theorem partOf_self (r : Region α) : r.PartOf r 0 0 :=
  ⟨rfl, rfl, rfl, rfl, rfl, by omega, by omega⟩

/-- A part of a part is a part. -/
theorem PartOf.trans {whole : Region α} {dx dy ex ey : ℕ} (h : part.PartOf r ex ey)
    (hr : r.PartOf whole dx dy) : part.PartOf whole (dx + ex) (dy + ey) where
  same := h.same.trans hr.same
  oldBacking := h.oldBacking.trans hr.oldBacking
  newBacking := h.newBacking.trans hr.newBacking
  oldOffset := by rw [h.oldOffset, hr.oldOffset, Nat.add_assoc]
  newOffset := by rw [h.newOffset, hr.newOffset, Nat.add_assoc]
  oldLength := by have := h.oldLength; have := hr.oldLength; omega
  newLength := by have := h.newLength; have := hr.newLength; omega

/-- The vectors of a part fit into memory if those of the region do. -/
theorem PartOf.fits {dx dy : ℕ} (h : part.PartOf r dx dy) (hr : r.Fits) : part.Fits := by
  have := h.oldLength
  have := h.newLength
  exact hr.mono (by omega)

/-- The searches of a part use no diagonals that those of the region do not use. -/
theorem PartOf.spans {dx dy : ℕ} (h : part.PartOf r dx dy) :
    part.forwardSpan ≤ r.forwardSpan ∧ part.backwardSpan ≤ r.backwardSpan := by
  have := h.oldLength
  have := h.newLength
  simp only [forwardSpan, backwardSpan, delta, width, height]
  omega

/-! ### The parts of a division -/

variable {m : MiddleSnake}

/-- A middle snake lies in the windows. -/
theorem IsMiddle.inside (h : r.IsMiddle m) :
    m.snake.startX ≤ m.snake.endX ∧ m.snake.endX ≤ r.old.length ∧
      m.snake.endX + m.snake.startY = m.snake.startX + m.snake.endY ∧
      m.snake.endY ≤ r.new.length := by
  obtain ⟨-, -, hle, hx, hy⟩ := h.divides.inside
  have := h.straight
  simp only [grid_width, grid_height] at hx hy
  omega

/-- **The part before the middle snake** can be cut out, and has half of the distance. -/
theorem exists_before (h : r.IsMiddle m) (hr : r.Addressable) :
    ∃ part, r.before m.snake = .ok part ∧ part.PartOf r 0 0 ∧
      part.old.length = m.snake.startX ∧ part.new.length = m.snake.startY ∧
      part.grid.distance = (m.distance + 1) / 2 := by
  obtain ⟨hle, hx, hstraight, hy⟩ := h.inside
  have hold := r.old.inBounds
  have hnew := r.new.inBounds
  obtain ⟨hlimit, hlimit'⟩ := hr
  obtain ⟨old, ho, hob, hoo, hol⟩ :=
    r.old.exists_narrow 1 m.snake.startX le_rfl (by omega) (by omega) (by omega)
  obtain ⟨new, hn, hnb, hno, hnl⟩ :=
    r.new.exists_narrow 1 m.snake.startY le_rfl (by omega) (by omega) (by omega)
  have hpart : PartOf { r with old, new } r 0 0 :=
    ⟨rfl, hob, hnb, hoo, hno, by simp only; omega, by simp only; omega⟩
  refine ⟨_, by rw [before, ho, hn]; rfl, hpart, hol, hnl, ?_⟩
  exact h.divides.distance_before hpart.grid (by simp [hol]) (by simp [hnl])

/-- **The part after the middle snake** can be cut out, and has the other half. -/
theorem exists_after (h : r.IsMiddle m) (hr : r.Addressable) :
    ∃ part, r.after m.snake = .ok part ∧ part.PartOf r m.snake.endX m.snake.endY ∧
      m.snake.endX + part.old.length = r.old.length ∧
      m.snake.endY + part.new.length = r.new.length ∧
      part.grid.distance = m.distance / 2 := by
  obtain ⟨hle, hx, hstraight, hy⟩ := h.inside
  have hold := r.old.inBounds
  have hnew := r.new.inBounds
  obtain ⟨hlimit, hlimit'⟩ := hr
  obtain ⟨old, ho, hob, hoo, hol⟩ :=
    r.old.exists_narrow (m.snake.endX + 1) (r.old.length - m.snake.endX) (by omega) (by omega)
      (by omega) (by omega)
  obtain ⟨new, hn, hnb, hno, hnl⟩ :=
    r.new.exists_narrow (m.snake.endY + 1) (r.new.length - m.snake.endY) (by omega) (by omega)
      (by omega) (by omega)
  have hpart : PartOf { r with old, new } r m.snake.endX m.snake.endY :=
    ⟨rfl, hob, hnb, hoo, hno, by simp only; omega, by simp only; omega⟩
  refine ⟨{ r with old, new }, ?_, hpart, by simp only; omega, by simp only; omega, ?_⟩
  · rw [after, Word.difference_of_le hx, Word.difference_of_le hy]
    simp only [ok_bind, ho, hn]
    rfl
  · have hdiagonal : (m.snake.endX : ℤ) - (m.snake.startX - m.snake.startY) = m.snake.endY := by
      omega
    refine h.divides.distance_after (by rw [hdiagonal]; exact hpart.grid) ?_ ?_
    · simp only [grid_width]
      omega
    · rw [hdiagonal]
      simp only [grid_height]
      omega

/-- **The chains of both parts and the pairs on the snake**, in this order, are a chain, and as
long as the distance allows. -/
theorem isChain_division {before after : Region α} {l l' : List Match} (h : r.IsMiddle m)
    (hbefore : before.PartOf r 0 0) (hbx : before.old.length = m.snake.startX)
    (hby : before.new.length = m.snake.startY)
    (hafter : after.PartOf r m.snake.endX m.snake.endY) (hl : before.IsChain l)
    (hl' : after.IsChain l') :
    r.IsChain (l ++ r.run m.snake.startX m.snake.startY (m.snake.endX - m.snake.startX) ++ l') := by
  obtain ⟨hle, hx, hstraight, hy⟩ := h.inside
  have hboffset := hbefore.oldOffset
  have hboffset' := hbefore.newOffset
  have haoffset := hafter.oldOffset
  have haoffset' := hafter.newOffset
  have hslide : r.grid.Slide (m.snake.startX - m.snake.startY) m.snake.startX
      (m.snake.startX + (m.snake.endX - m.snake.startX : ℕ)) := by
    have hplace : (m.snake.startX : ℤ) + (m.snake.endX - m.snake.startX : ℕ) = m.snake.endX := by
      omega
    rw [hplace]
    exact h.divides.slide
  refine ((hbefore.isChain hl).append (isChain_run (Int.sub_sub_self _ _) hslide) ?_).append
    (hafter.isChain hl') ?_
  · intro p hp q hq
    have := (hl.matched p hp).inside
    obtain ⟨i, hi, hqx, hqy⟩ := mem_run hq
    exact ⟨by omega, by omega⟩
  · intro p hp q hq
    have := (hl'.matched q hq).inside
    rcases List.mem_append.mp hp with hp | hp
    · have := (hl.matched p hp).inside
      exact ⟨by omega, by omega⟩
    · obtain ⟨i, hi, hpx, hpy⟩ := mem_run hp
      exact ⟨by omega, by omega⟩

end Region

/-! ### Doing tasks -/

namespace Worklist

variable {α : Type}

/-- Doing the next task, `n` times over, leads from the one work list to the other. -/
inductive Steps : ℕ → Worklist α → Worklist α → Prop
  | refl (w : Worklist α) : Steps 0 w w
  | step {n : ℕ} {task : Task α} {rest : List (Task α)} {found : Array Match}
      {splits : Array Split} {frontiers : Frontiers} {next last : Worklist α} :
      perform ⟨rest, found, splits, frontiers⟩ task = .ok next → Steps n next last →
      Steps (n + 1) ⟨task :: rest, found, splits, frontiers⟩ last

/-- Tasks can be done after tasks. -/
theorem Steps.trans {n k : ℕ} {u v w : Worklist α} (h : Steps n u v) (h' : Steps k v w) :
    Steps (n + k) u w := by
  induction h with
  | refl u => rwa [Nat.zero_add]
  | step hperform _ ih =>
      rw [Nat.add_right_comm]
      exact .step hperform (ih h')

/-- One task done. -/
theorem Steps.single {task : Task α} {rest : List (Task α)} {found : Array Match}
    {splits : Array Split} {frontiers : Frontiers} {next : Worklist α}
    (h : perform ⟨rest, found, splits, frontiers⟩ task = .ok next) :
    Steps 1 ⟨task :: rest, found, splits, frontiers⟩ next :=
  .step h (.refl next)

/-- Tasks done to the end lead to one work list only. -/
theorem Steps.unique {n k : ℕ} {u v w : Worklist α} (h : Steps n u v) (h' : Steps k u w)
    (hv : v.pending = []) (hw : w.pending = []) : v = w := by
  induction h generalizing k with
  | refl u =>
      cases h' with
      | refl => rfl
      | step hperform _ => cases hv
  | step hperform _ ih =>
      cases h' with
      | refl => cases hw
      | step hperform' hrest =>
          rw [hperform] at hperform'
          obtain rfl := Except.ok.inj hperform'
          exact ih hrest hv

/-- **The run does the tasks that can be done**, if its fuel is enough for them. -/
theorem run_of_steps {n fuel : ℕ} {u w : Worklist α} (h : Steps n u w) (hdone : w.pending = [])
    (hfuel : n ≤ fuel) : run fuel u = .ok w := by
  induction h generalizing fuel with
  | refl u =>
      obtain ⟨pending, found, splits, frontiers⟩ := u
      obtain rfl : pending = [] := hdone
      cases fuel <;> rfl
  | step hperform _ ih =>
      obtain ⟨fuel, rfl⟩ : ∃ k, fuel = k + 1 := ⟨fuel - 1, by omega⟩
      rw [run, hperform]
      exact ih hdone (by omega)

/-! ### Solving a region -/

variable {r : Region α} {b c : ℕ} {pending : List (Task α)} {found : Array Match}
  {splits : Array Split} {f : Frontiers}

/-- A region can be solved with vectors that serve the diagonals up to `b` and `c`. -/
structure Suits (r : Region α) (b c : ℕ) : Prop where
  addressable : r.Addressable
  forward : r.forwardSpan ≤ b
  backward : r.backwardSpan ≤ c

/-- Vectors that are large enough for a region are so for its parts. -/
theorem Suits.part {part : Region α} {dx dy : ℕ} (h : Suits r b c) (hpart : part.PartOf r dx dy) :
    Suits part b c :=
  ⟨hpart.addressable h.addressable, hpart.spans.1.trans h.forward,
    hpart.spans.2.trans h.backward⟩

/-- A region without columns or without rows is done with. -/
theorem perform_solve_empty (h : (r.old.isEmpty || r.new.isEmpty) = true) :
    perform ⟨pending, found, splits, f⟩ (.solve r) = .ok ⟨pending, found, splits, f⟩ := by
  simp only [perform, h, if_true]
  rfl

/-- The pairs on a snake are added. -/
theorem perform_emit {m : MiddleSnake} (hr : r.Addressable) (h : r.IsMiddle m) :
    perform ⟨pending, found, splits, f⟩ (.emit r m.snake) = .ok ⟨pending,
      found ++ (r.run m.snake.startX m.snake.startY (m.snake.endX - m.snake.startX)).toArray,
      splits, f⟩ := by
  obtain ⟨hle, hx, hstraight, hy⟩ := h.inside
  simp only [perform, Word.difference_of_le hle, ok_bind]
  rw [Region.collectRun_eq hr (by omega) (by omega)]
  rfl

/-- A region of distance zero adds all its columns and rows as pairs. -/
theorem perform_solve_zero (hr : r.Addressable)
    (h : ¬ (r.old.isEmpty || r.new.isEmpty) = true) {m : Meeting} (hm : r.middleSnake f = .ok m)
    (hd : m.middle.distance = 0) (hsquare : r.old.length = r.new.length) :
    perform ⟨pending, found, splits, f⟩ (.solve r) = .ok ⟨pending,
      found ++ (r.run 0 0 r.old.length).toArray, splits.push (r.split 0), m.frontiers⟩ := by
  simp only [perform, h, hm, ok_bind, hd]
  rw [Region.collectRun_eq hr (by omega) (by omega)]
  rfl

/-- A region of distance one adds the pairs of a walk along its windows. -/
theorem perform_solve_one (h : ¬ (r.old.isEmpty || r.new.isEmpty) = true) {m : Meeting}
    (hm : r.middleSnake f = .ok m) (hd : m.middle.distance = 1) {l : List Match}
    (hl : r.collectWalk 1 1 found = .ok (found ++ l.toArray)) :
    perform ⟨pending, found, splits, f⟩ (.solve r) =
      .ok ⟨pending, found ++ l.toArray, splits.push (r.split 1), m.frontiers⟩ := by
  simp only [perform, h, hm, ok_bind, hd, hl]
  rfl

/-- A region of a greater distance is divided at its middle snake. -/
theorem perform_solve_divide (h : ¬ (r.old.isEmpty || r.new.isEmpty) = true) {m : Meeting}
    (hm : r.middleSnake f = .ok m) (hd : 2 ≤ m.middle.distance) {before after : Region α}
    (hbefore : r.before m.middle.snake = .ok before)
    (hafter : r.after m.middle.snake = .ok after) :
    perform ⟨pending, found, splits, f⟩ (.solve r) =
      .ok ⟨.solve before :: .emit r m.middle.snake :: .solve after :: pending, found,
        splits.push (r.split m.middle.distance), m.frontiers⟩ := by
  obtain ⟨d, hd⟩ : ∃ d, m.middle.distance = d + 2 := ⟨m.middle.distance - 2, by omega⟩
  simp only [perform, h, hm, ok_bind, hd, hbefore, hafter]
  rfl

/-- **A region is solved.** Its task and those it gives rise to succeed, and there are fewer
than three for each step of its distance. They add a chain that has no more steps beside it
than the distance. -/
theorem exists_steps_solve {d : ℕ} (hr : Suits r b c) (hd : r.grid.distance = d)
    (hf : f.Serve b c) (pending : List (Task α)) (found : Array Match) (splits : Array Split) :
    ∃ n l searched g, n + 2 ≤ 3 * max 1 d ∧ r.IsChain l ∧
      2 * l.length + d = r.old.length + r.new.length ∧ g.Serve b c ∧
      Steps n ⟨.solve r :: pending, found, splits, f⟩
        ⟨pending, found ++ l.toArray, splits ++ searched, g⟩ := by
  induction d using Nat.strong_induction_on generalizing r pending found splits f with
  | _ d ih =>
    by_cases hempty : (r.old.isEmpty || r.new.isEmpty) = true
    · have := Region.distance_of_isEmpty hempty
      exact ⟨1, [], #[], f, by omega, r.isChain_nil, by simp only [List.length_nil]; omega, hf,
        by simpa using Steps.single (perform_solve_empty hempty)⟩
    obtain ⟨m, hm, hmiddle, hserve⟩ := Region.exists_middleSnake hf hr.forward hr.backward
    have hdistance := hmiddle.distance
    rw [hd] at hdistance
    by_cases hsmall : d ≤ 1
    · have hcases : d = 0 ∨ d = 1 := by omega
      rcases hcases with rfl | rfl
      · obtain ⟨hsquare, hchain⟩ := Region.isChain_of_distance_zero hd
        exact ⟨1, _, #[r.split 0], m.frontiers, by omega, hchain,
          by rw [Region.length_run]; omega, hserve,
          .single (perform_solve_zero hr.addressable hempty hm hdistance hsquare)⟩
      · obtain ⟨l, hl, hchain, hlength⟩ :=
          Region.exists_collectWalk_of_distance_one hr.addressable hd found
        exact ⟨1, l, #[r.split 1], m.frontiers, by omega, hchain, hlength, hserve,
          .single (perform_solve_one hempty hm hdistance hl)⟩
    obtain ⟨before, hbefore, hbpart, hbx, hby, hbd⟩ :=
      Region.exists_before hmiddle hr.addressable
    obtain ⟨after, hafter, hapart, hax, hay, had⟩ := Region.exists_after hmiddle hr.addressable
    obtain ⟨hle, hx, hstraight, hy⟩ := hmiddle.inside
    rw [hdistance] at hbd had
    -- the tasks of the part before, the snake, the tasks of the part after
    obtain ⟨n, l, searched, g, hn, hl, hlength, hg, hsteps⟩ :=
      ih _ (by omega) (hr.part hbpart) hbd hserve
        (.emit r m.middle.snake :: .solve after :: pending) found (splits.push (r.split d))
    obtain ⟨n', l', searched', g', hn', hl', hlength', hg', hsteps'⟩ :=
      ih _ (by omega) (hr.part hapart) had hg pending
        (found ++ l.toArray ++ (r.run m.middle.snake.startX m.middle.snake.startY
          (m.middle.snake.endX - m.middle.snake.startX)).toArray)
        (splits.push (r.split d) ++ searched)
    have hdivide : perform ⟨pending, found, splits, f⟩ (.solve r) = _ :=
      perform_solve_divide hempty hm (by omega) hbefore hafter
    rw [hdistance] at hdivide
    have hall := (Steps.single hdivide).trans
      (hsteps.trans ((Steps.single (perform_emit hr.addressable hmiddle)).trans hsteps'))
    refine ⟨1 + (n + (1 + n')), _, #[r.split d] ++ searched ++ searched', g', by omega,
      Region.isChain_division hmiddle hbpart hbx hby hapart hl hl', ?_, hg', ?_⟩
    · simp only [List.length_append, Region.length_run]
      omega
    · simpa using hall

end Worklist

/-! ### The matching of a region -/

/-- Fresh vectors for a region serve all of its searches. -/
theorem Region.exists_frontiers {α : Type} {r : Region α} (h : r.Fits) :
    ∃ f, Frontiers.create r.old.length r.new.length = .ok f ∧
      f.Serve r.forwardSpan r.backwardSpan := by
  obtain ⟨v, hv, hforward, hbackward⟩ := Region.exists_create h
  refine ⟨⟨v, v⟩, ?_, hforward, hbackward⟩
  simp only [Frontiers.create, hv, ok_bind]
  rfl

/-- **A region is solved to the end**: from fresh vectors its tasks lead to a work list on which
none waits, and the fuelled run comes to it. -/
theorem Region.exists_run {α : Type} {r : Region α} (h : r.Fits) (hr : r.Addressable) :
    ∃ f n w, Frontiers.create r.old.length r.new.length = .ok f ∧
      f.Serve r.forwardSpan r.backwardSpan ∧ Worklist.Steps n ⟨[.solve r], #[], #[], f⟩ w ∧
      w.pending = [] ∧ r.solve = .ok w ∧ r.IsChain w.found.toList ∧
      2 * w.found.size + r.grid.distance = r.old.length + r.new.length := by
  obtain ⟨f, hcreate, hserve⟩ := Region.exists_frontiers h
  obtain ⟨n, l, searched, g, hn, hl, hlength, -, hsteps⟩ :=
    Worklist.exists_steps_solve ⟨hr, le_rfl, le_rfl⟩ rfl hserve [] #[] #[]
  have hsides := r.grid_distance_le
  have hrun := Worklist.run_of_steps hsteps rfl
    (show n ≤ Worklist.taskBound (r.old.length + r.new.length) by rw [Worklist.taskBound]; omega)
  refine ⟨f, n, _, hcreate, hserve, hsteps, rfl, by rw [Region.solve, hcreate, ok_bind, hrun],
    ?_, ?_⟩
  · simpa using hl
  · simpa using hlength

/-- **The matching of a region** is a chain with as many steps beside it as the distance. -/
theorem Region.exists_solve {α : Type} {r : Region α} (h : r.Fits) (hr : r.Addressable) :
    ∃ w, r.solve = .ok w ∧ r.IsChain w.found.toList ∧
      2 * w.found.size + r.grid.distance = r.old.length + r.new.length := by
  obtain ⟨f, n, w, -, -, -, -, hsolve, hchain, hlength⟩ := Region.exists_run h hr
  exact ⟨w, hsolve, hchain, hlength⟩

end EditGraph
