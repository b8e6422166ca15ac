import EditGraph.Proofs.Recursion

/-!
# What doing a task comes to

Every task that comes up while a region is solved can be done, and there are only four things
that it can come to. They are told in terms of the recursive algorithm: the search of a task,
with vectors that earlier searches have used, finds the middle snake that the recursion finds for
the region's windows cut out, and the pairs that a task adds are those of the recursion, moved by
the offsets of the windows.

## Main definitions

* `Task.Arises` — the tasks that come up.
* `Worklist.Outcome` — what doing a task can come to.

## Main results

* `exists_same_middle` — a search with used vectors finds what one with fresh vectors finds.
* `collectWalk_eq`, `perform_solve_direct` — the pairs of a region that is not divided.
* `exists_outcome` — every task that comes up can be done.
-/

namespace EditGraph

variable {α : Type} {r whole : Region α} {b c : ℕ}

/-! ### Searches and walks of a region -/

/-- Whether elements of the whole sequences match. -/
theorem Comparison.agree_region {c : Comparison α} {i j : ℕ} (hi : i < c.old.size)
    (hj : j < c.new.size) : c.region.agree (i + 1) (j + 1) = .ok (c.agree i j) := by
  have hold : c.region.old.entry (i + 1) = .ok c.old[i] :=
    Window.entry_eq_ok_iff.mpr ⟨by omega, by simp only [region, Window.length_full]; omega,
      by simp [region, Window.full, hi]⟩
  have hnew : c.region.new.entry (j + 1) = .ok c.new[j] :=
    Window.entry_eq_ok_iff.mpr ⟨by omega, by simp only [region, Window.length_full]; omega,
      by simp [region, Window.full, hj]⟩
  rw [Region.agree, hold, ok_bind, hnew, ok_bind, agree, Array.getElem?_eq_getElem hi,
    Array.getElem?_eq_getElem hj]
  rfl

namespace Region

variable {f : Frontiers}

/-- **Used vectors do no harm.** A search with vectors that serve finds the middle snake that is
found for the region's windows, cut out, with fresh vectors of their size. -/
theorem exists_same_middle (h : r.Fits) (hf : f.Serve b c) (hb : r.forwardSpan ≤ b)
    (hc : r.backwardSpan ≤ c) :
    ∃ m, r.middleSnake f = .ok m ∧ r.cut.middle = .ok m.middle ∧ r.IsMiddle m.middle ∧
      m.frontiers.Serve b c := by
  obtain ⟨m, hm, hmiddle, hserve⟩ := exists_middleSnake hf hb hc
  obtain ⟨g, hcreate, hg⟩ := exists_frontiers (Comparison.fits_iff.mp (fits_cut h))
  have hcreate : Frontiers.create r.cut.old.size r.cut.new.size = .ok g := hcreate
  have halike := r.congruent_cut.middleSnake_alike hf hg hb r.congruent_cut.forwardSpan.le hc
    r.congruent_cut.backwardSpan.le
  rw [hm] at halike
  obtain ⟨m', hm', hsame⟩ := halike.exists_of_ok
  refine ⟨m, hm, ?_, hmiddle, hserve⟩
  rw [Comparison.middle, hcreate, ok_bind, hm', ok_bind, ← hsame]
  rfl

/-- A run of a region is a diagonal, moved to the places of its windows. -/
theorem run_eq_diagonal (r : Region α) (x y count : ℕ) :
    r.run x y count = (diagonal x y count).map (·.moved r.old.offset r.new.offset) := by
  rw [diagonal, List.map_map]
  rfl

/-- A walk adds the pairs that the walk along the windows, cut out, has. -/
theorem collectWalk_eq (h : r.Addressable) (i j : ℕ) (found : Array Match) :
    r.collectWalk (i + 1) (j + 1) found =
      .ok (found ++ ((r.cut.walk i j).map (·.moved r.old.offset r.new.offset)).toArray) := by
  have hstep {i j : ℕ} (hin : i < r.cut.old.size ∧ j < r.cut.new.size) :
      (i + 1 ≤ r.old.length ∧ j + 1 ≤ r.new.length) ∧
        r.agree (i + 1 : ℕ) (j + 1 : ℕ) = .ok (r.cut.agree i j) := by
    refine ⟨by rwa [size_cut_old, size_cut_new] at hin, ?_⟩
    exact (r.congruent_cut.agree _ _).trans (Comparison.agree_region hin.1 hin.2)
  have hlimit {i j : ℕ} (hin : i + 1 ≤ r.old.length ∧ j + 1 ≤ r.new.length) :
      i + 1 + 1 < Word.limit ∧ j + 1 + 1 < Word.limit := by
    have hold := r.old.inBounds
    have hnew := r.new.inBounds
    obtain ⟨holdLimit, hnewLimit⟩ := h
    omega
  fun_induction Comparison.walk r.cut i j generalizing found with
  | case1 i j hin htrue ih =>
      obtain ⟨hin, hagree⟩ := hstep hin
      rw [collectWalk, if_pos hin, hagree, htrue]
      simp only [matchAt_eq h hin.1 hin.2, if_pos (hlimit hin)]
      rw [ih, List.map_cons, Match.moved]
      simp
  | case2 i j hin hfalse hlonger ih =>
      obtain ⟨hin, hagree⟩ := hstep hin
      rw [size_cut_old, size_cut_new] at hlonger
      rw [collectWalk, if_pos hin, hagree, Bool.eq_false_iff.mpr hfalse]
      simp only [if_pos hlonger, if_pos (hlimit hin).1]
      exact ih found
  | case3 i j hin hfalse hlonger ih =>
      obtain ⟨hin, hagree⟩ := hstep hin
      rw [size_cut_old, size_cut_new] at hlonger
      rw [collectWalk, if_pos hin, hagree, Bool.eq_false_iff.mpr hfalse]
      simp only [if_neg hlonger, if_pos (hlimit hin).2]
      exact ih found
  | case4 i j hout =>
      rw [size_cut_old, size_cut_new] at hout
      rw [collectWalk, if_neg (by omega)]
      simp

/-! ### The parts of a region -/

/-- A region is divided at its middle snake into two parts. Cut out, they are those of the
recursion, and each has half of the distance. -/
structure Parts (r : Region α) (m : MiddleSnake) (left right : Region α) : Prop where
  before : r.before m.snake = .ok left
  leftPart : left.PartOf r 0 0
  leftCut : left.cut = r.cut.before m.snake
  leftDistance : left.grid.distance = (m.distance + 1) / 2
  after : r.after m.snake = .ok right
  rightPart : right.PartOf r m.snake.endX m.snake.endY
  rightCut : right.cut = r.cut.after m.snake
  rightDistance : right.grid.distance = m.distance / 2

/-- The two parts around a middle snake can be cut out. -/
theorem exists_parts {m : MiddleSnake} (h : r.IsMiddle m) (hr : r.Addressable) :
    ∃ left right, r.Parts m left right := by
  obtain ⟨before, hbefore, hbpart, hbx, hby, hbd⟩ := exists_before h hr
  obtain ⟨after, hafter, hapart, hax, hay, had⟩ := exists_after h hr
  refine ⟨before, after, hbefore, hbpart, ?_, hbd, hafter, hapart, ?_, had⟩
  · rw [hbpart.cut, hbx, hby]
    rfl
  · have hcut := hapart.cut
    rw [Comparison.after, size_cut_old, size_cut_new, hcut, ← hax, ← hay,
      Nat.add_sub_cancel_left, Nat.add_sub_cancel_left]

end Region

/-! ### Doing a task -/

/-- A task that comes up when `whole` is solved: to solve a part of it, or to add the pairs on
the middle snake of a part. -/
inductive Task.Arises (whole : Region α) : Task α → Prop
  | solve {r : Region α} {dx dy : ℕ} : r.PartOf whole dx dy → Task.Arises whole (.solve r)
  | emit {r : Region α} {dx dy : ℕ} {m : MiddleSnake} :
      r.PartOf whole dx dy → r.IsMiddle m → Task.Arises whole (.emit r m.snake)

namespace Worklist

variable {w next : Worklist α} {task : Task α} {pending : List (Task α)} {found : Array Match}
  {splits : Array Split} {f : Frontiers}

/-- A region of distance zero or one adds the pairs of its windows, moved by their offsets. -/
theorem perform_solve_direct (hr : r.Addressable) (h : ¬ (r.old.isEmpty || r.new.isEmpty) = true)
    {m : Meeting} (hm : r.middleSnake f = .ok m) (hmiddle : r.IsMiddle m.middle)
    (hd : m.middle.distance < 2) :
    perform ⟨pending, found, splits, f⟩ (.solve r) = .ok ⟨pending,
      found ++
        ((r.cut.direct m.middle.distance).map (·.moved r.old.offset r.new.offset)).toArray,
      splits.push (r.split m.middle.distance), m.frontiers⟩ := by
  have hcases : m.middle.distance = 0 ∨ m.middle.distance = 1 := by omega
  rcases hcases with hzero | hone
  · obtain ⟨hsquare, -⟩ := Region.isChain_of_distance_zero (hmiddle.distance.symm.trans hzero)
    rw [perform_solve_zero hr h hm hzero hsquare, hzero, Comparison.direct, r.run_eq_diagonal,
      r.size_cut_old]
  · rw [perform_solve_one h hm hone (Region.collectWalk_eq hr 0 0 found), hone]
    rfl

/-- What doing a task can come to. A region without columns or rows is done with. One that has
both is searched, which is recorded. When its distance is zero or one, its pairs are added; else
its parts of half the distance wait on the list, with the snake between them. -/
inductive Outcome (b c : ℕ) (w : Worklist α) : Task α → Worklist α → Prop
  | emitted {r : Region α} {s : Snake} :
      Outcome b c w (.emit r s) { w with
        found := w.found ++ (r.run s.startX s.startY (s.endX - s.startX)).toArray }
  | empty {r : Region α} (hempty : (r.old.isEmpty || r.new.isEmpty) = true) :
      Outcome b c w (.solve r) w
  | solved {r : Region α} {m : MiddleSnake} {g : Frontiers}
      (hempty : ¬ (r.old.isEmpty || r.new.isEmpty) = true) (hmiddle : r.IsMiddle m)
      (hfresh : r.cut.middle = .ok m) (hsmall : m.distance < 2) (hserve : g.Serve b c) :
      Outcome b c w (.solve r) ⟨w.pending,
        w.found ++ ((r.cut.direct m.distance).map (·.moved r.old.offset r.new.offset)).toArray,
        w.splits.push (r.split m.distance), g⟩
  | divided {r left right : Region α} {m : MiddleSnake} {g : Frontiers}
      (hempty : ¬ (r.old.isEmpty || r.new.isEmpty) = true) (hmiddle : r.IsMiddle m)
      (hfresh : r.cut.middle = .ok m) (hlarge : 2 ≤ m.distance)
      (hparts : r.Parts m left right) (hserve : g.Serve b c) :
      Outcome b c w (.solve r) ⟨.solve left :: .emit r m.snake :: .solve right :: w.pending,
        w.found, w.splits.push (r.split m.distance), g⟩

/-- **Every task that comes up can be done.** -/
theorem exists_outcome (hs : Suits whole b c) (hfits : whole.Fits) (ht : task.Arises whole)
    (hw : w.frontiers.Serve b c) : ∃ next, perform w task = .ok next ∧ Outcome b c w task next := by
  obtain ⟨pending, found, splits, f⟩ := w
  cases ht with
  | emit hpart hm =>
      exact ⟨_, perform_emit (hpart.addressable hs.addressable) hm, .emitted⟩
  | @solve r dx dy hpart =>
      have hr := hs.part hpart
      by_cases hempty : (r.old.isEmpty || r.new.isEmpty) = true
      · exact ⟨_, perform_solve_empty hempty, .empty hempty⟩
      obtain ⟨m, hm, hfresh, hmiddle, hserve⟩ :=
        Region.exists_same_middle (hpart.fits hfits) hw hr.forward hr.backward
      rcases Nat.lt_or_ge m.middle.distance 2 with hsmall | hlarge
      · exact ⟨_, perform_solve_direct hr.addressable hempty hm hmiddle hsmall,
          .solved hempty hmiddle hfresh hsmall hserve⟩
      · obtain ⟨left, right, hparts⟩ := Region.exists_parts hmiddle hr.addressable
        exact ⟨_, perform_solve_divide hempty hm hlarge hparts.before hparts.after,
          .divided hempty hmiddle hfresh hlarge hparts hserve⟩

end Worklist

end EditGraph
