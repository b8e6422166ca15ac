import EditGraph.Proofs.TwoRuns
import EditGraph.Proofs.LongestMatching

/-!
# Congruent comparisons

Two comparisons are congruent when their sequences have the same lengths and the same positions
match. Their elements may be of different kinds. Everything that is asked of congruent comparisons
is answered the same, faults included: the sequences are looked at through no test but the one
that says which old element matches which new one.

Congruent regions are searched alike from equal vectors, step for step. The regions that come up
on the two work lists lie over the same stretches of the two pairs of sequences, and are
congruent because the comparisons are. So the work lists stay in step: equal pairs, equal records
and equal vectors, and tasks that are to solve regions over the same stretches.

## Main definitions

* `Window.Twins`, `Region.Twins`, `Task.Twins`, `Worklist.Twins` — over the same stretches.
* `Comparison.Congruent` — sequences of the same lengths with matches at the same positions.
* `Comparison.SameAnswers` — comparisons that answer everything the same.

## Main results

* `Region.Congruent.middleSnake`, `Region.Congruent.distance` — congruent regions are searched
  alike.
* `Worklist.perform_alike`, `Worklist.run_alike` — work lists that are in step stay in step.
* `sees_only_agreement` — congruent comparisons answer everything the same.
-/

namespace EditGraph

open List (Forall₂)

variable {α β : Type}

/-! ### Searches of congruent regions -/

namespace Region.Congruent

variable {r : Region α} {r' : Region β} (h : r.Congruent r')
include h

/-- **Congruent regions have the same middle snake**, and the vectors are left the same. -/
theorem middleSnake (f : Frontiers) : r.middleSnake f = r'.middleSnake f := by
  have hall := h.middleSnakeIn_alike (r.roundsAlike_refl fun _ => Diagonals.stores)
    Diagonals.stores Diagonals.stores (f := f) (g := f) (alike_self _) (alike_self _)
  exact (hall.imp fun _ _ hend => hend.eq).eq

/-- **Congruent regions have the same distance** in the search from the origin. -/
theorem distance : r.distance = r'.distance := by
  rw [Region.distance, Region.distance, h.old, h.new]
  refine congrArg _ (funext fun v => ?_)
  exact (h.searchForwardIn_alike (rowsAlike_refl _ _ _ _) (alike_self _)).eq

/-- The search from the far corner gives the same, too. -/
theorem distanceBackward : r.distanceBackward = r'.distanceBackward := by
  rw [Region.distanceBackward, Region.distanceBackward, h.old, h.new]
  refine congrArg _ (funext fun v => ?_)
  exact (h.searchBackwardIn_alike (rowsAlike_refl _ _ _ _) (alike_self _)).eq

end Region.Congruent

/-! ### Windows over the same stretch -/

namespace Window

variable {a : Array α} {a' : Array β} {w : Window α} {w' : Window β}

/-- The windows lie over the same stretch of the sequences `a` and `a'`. -/
structure Twins (a : Array α) (a' : Array β) (w : Window α) (w' : Window β) : Prop where
  backing : w.backing = a
  backing' : w'.backing = a'
  offset : w.offset = w'.offset
  length : w.length = w'.length

/-- Whole sequences of one size have the same places. -/
theorem twins_full (h : a.size = a'.size) : Twins a a' (full a) (full a') := ⟨rfl, rfl, rfl, h⟩

/-- Windows on the same places are empty together. -/
theorem Twins.isEmpty (h : Twins a a' w w') : w.isEmpty = w'.isEmpty := by
  rw [Window.isEmpty, Window.isEmpty, h.length]

/-- Windows on the same places count a position alike. -/
theorem Twins.absolute (h : Twins a a' w w') (i : ℕ) : w.absolute i = w'.absolute i := by
  rw [Window.absolute, Window.absolute, h.offset]

/-- **Elements are looked up at the same position** of both sequences. -/
theorem Twins.entry_alike (h : Twins a a' w w') (x : ℤ) :
    Alike (fun u u' => ∃ i : ℕ, a[i]? = some u ∧ a'[i]? = some u') (w.entry x) (w'.entry x) := by
  cases x with
  | negSucc i => rfl
  | ofNat i =>
      by_cases hi : 1 ≤ i ∧ i ≤ w.length
      · have hi' : 1 ≤ i ∧ i ≤ w'.length := by rwa [← h.length]
        rw [entry, entry, get, get, dif_pos hi, dif_pos hi']
        refine ⟨w.offset + (i - 1), ?_, ?_⟩
        · simp [← h.backing]
        · simp [← h.backing', h.offset]
      · have hi' : ¬ (1 ≤ i ∧ i ≤ w'.length) := by rwa [← h.length]
        rw [entry, entry, get, get, dif_neg hi, dif_neg hi', h.length]
        rfl

/-- Twins are narrowed to twins. -/
theorem Twins.narrow_alike (h : Twins a a' w w') (start count : ℕ) :
    Alike (Twins a a') (w.narrow start count) (w'.narrow start count) := by
  unfold narrow
  by_cases hzero : start = 0
  · rw [if_pos hzero, if_pos hzero]
    rfl
  rw [if_neg hzero, if_neg hzero]
  by_cases hlimit : Word.limit ≤ start - 1 + count
  · rw [if_pos hlimit, if_pos hlimit]
    rfl
  rw [if_neg hlimit, if_neg hlimit]
  by_cases hrange : start - 1 + count ≤ w.length
  · rw [dif_pos hrange, dif_pos (by rwa [← h.length])]
    by_cases hstart : Word.limit ≤ w.offset + start
    · rw [if_pos hstart, if_pos (by rwa [← h.offset])]
      rfl
    · rw [if_neg hstart, if_neg (by rwa [← h.offset])]
      exact ⟨h.backing, h.backing', by simp only [h.offset], rfl⟩
  · rw [dif_neg hrange, dif_neg (by rwa [← h.length])]
    rfl

end Window

/-! ### Congruent comparisons -/

namespace Comparison

/-- The old sequences are of the same length, so are the new ones, and the same positions match. -/
structure Congruent (c : Comparison α) (c' : Comparison β) : Prop where
  old : c.old.size = c'.old.size
  new : c.new.size = c'.new.size
  agree : ∀ i < c.old.size, ∀ j < c.new.size, c.agree i j = c'.agree i j

/-- Elements at the same positions match in both comparisons, or in neither. -/
theorem Congruent.same {c : Comparison α} {c' : Comparison β} (h : c.Congruent c') {i j : ℕ}
    {a b : α} {a' b' : β} (ha : c.old[i]? = some a) (ha' : c'.old[i]? = some a')
    (hb : c.new[j]? = some b) (hb' : c'.new[j]? = some b') : c.same a b = c'.same a' b' := by
  have hi := (Array.getElem?_eq_some_iff.mp ha).1
  have hj := (Array.getElem?_eq_some_iff.mp hb).1
  have hij := h.agree i hi j hj
  simpa only [Comparison.agree, ha, ha', hb, hb'] using hij

variable {γ : Type} {c : Comparison α} {c' : Comparison β} {c'' : Comparison γ}

/-- Comparisons whose tests agree may be named in either order. -/
theorem Congruent.symm (h : c.Congruent c') : c'.Congruent c where
  old := h.old.symm
  new := h.new.symm
  agree i hi j hj := (h.agree i (h.old ▸ hi) j (h.new ▸ hj)).symm

/-- Agreement of tests passes from one comparison to the next. -/
theorem Congruent.trans (h : c.Congruent c') (h' : c'.Congruent c'') : c.Congruent c'' where
  old := h.old.trans h'.old
  new := h.new.trans h'.new
  agree i hi j hj := (h.agree i hi j hj).trans (h'.agree i (h.old ▸ hi) j (h.new ▸ hj))

/-- **Elements can be replaced** by others that match where they did. -/
theorem congruent_map {f g : α → β} {same : β → β → Bool}
    (h : ∀ a ∈ c.old, ∀ b ∈ c.new, same (f a) (g b) = c.same a b) :
    c.Congruent ⟨c.old.map f, c.new.map g, same⟩ where
  old := (Array.size_map ..).symm
  new := (Array.size_map ..).symm
  agree i hi j hj := by
    have hij := h c.old[i] (Array.getElem_mem hi) c.new[j] (Array.getElem_mem hj)
    simp [agree, hi, hj, hij]

/-- A test can be replaced by one that says the same of old and new elements. -/
theorem congruent_of_same {old new : Array α} {same same' : α → α → Bool}
    (h : ∀ a ∈ old, ∀ b ∈ new, same a b = same' a b) :
    (⟨old, new, same⟩ : Comparison α).Congruent ⟨old, new, same'⟩ := by
  have hmap : (⟨old, new, same⟩ : Comparison α).Congruent ⟨old.map id, new.map id, same'⟩ :=
    congruent_map fun a ha b hb => (h a ha b hb).symm
  rwa [Array.map_id, Array.map_id] at hmap

/-- The comparison of sequences whose elements match when an order does not decide between them. -/
def ofOrder (order : α → α → Ordering) (old new : Array α) : Comparison α :=
  ⟨old, new, fun a b => order a b == .eq⟩

end Comparison

namespace Region

variable {c : Comparison α} {c' : Comparison β} {r : Region α} {r' : Region β}

/-- The regions lie over the same stretches of two comparisons. -/
structure Twins (c : Comparison α) (c' : Comparison β) (r : Region α) (r' : Region β) :
    Prop where
  old : Window.Twins c.old c'.old r.old r'.old
  new : Window.Twins c.new c'.new r.new r'.new
  same : r.same = c.same
  same' : r'.same = c'.same

/-- The whole regions of comparisons that agree are on the same places. -/
theorem twins_region (h : c.Congruent c') : Twins c c' c.region c'.region :=
  ⟨Window.twins_full h.old, Window.twins_full h.new, rfl, rfl⟩

/-- **Twins are congruent**, when the comparisons are. -/
theorem Twins.congruent (ht : Twins c c' r r') (h : c.Congruent c') : r.Congruent r' where
  old := ht.old.length
  new := ht.new.length
  agree x y := by
    refine ((ht.old.entry_alike x).bind fun a a' ha => ?_).eq
    refine (ht.new.entry_alike y).bind fun b b' hb => ?_
    obtain ⟨i, hi, hi'⟩ := ha
    obtain ⟨j, hj, hj'⟩ := hb
    rw [ht.same, ht.same']
    exact h.same hi hi' hj hj'

namespace Twins

variable (ht : Twins c c' r r')
include ht

/-- Regions on the same places have an empty side together. -/
theorem isEmpty : (r.old.isEmpty || r.new.isEmpty) = (r'.old.isEmpty || r'.new.isEmpty) := by
  rw [ht.old.isEmpty, ht.new.isEmpty]

/-- Regions on the same places are recorded by the same split. -/
theorem split (d : ℕ) : r.split d = r'.split d := by
  simp only [Region.split, ht.old.offset, ht.new.offset, ht.old.length, ht.new.length]

/-- Regions on the same places match the same positions. -/
theorem matchAt (i j : ℕ) : r.matchAt i j = r'.matchAt i j := by
  simp only [Region.matchAt, ht.old.absolute, ht.new.absolute]

/-- Regions on the same places collect the same runs. -/
theorem collectRun (x y count : ℕ) (found : Array Match) :
    r.collectRun x y count found = r'.collectRun x y count found := by
  simp only [Region.collectRun, ht.matchAt]

/-- Walks along twins go the same way. -/
theorem collectWalk (h : c.Congruent c') (i j : ℕ) (found : Array Match) :
    r.collectWalk i j found = r'.collectWalk i j found := by
  have hin {i j : ℕ} : i ≤ r.old.length ∧ j ≤ r.new.length ↔
      i ≤ r'.old.length ∧ j ≤ r'.new.length := by rw [ht.old.length, ht.new.length]
  have hagree := (ht.congruent h).agree
  fun_induction Region.collectWalk r i j found with
  | case1 i j found hi fault hfault =>
      rw [hagree] at hfault
      rw [Region.collectWalk, if_pos (hin.mp hi), hfault]
  | case2 i j found hi htrue fault hfault =>
      rw [hagree] at htrue
      rw [ht.matchAt] at hfault
      rw [Region.collectWalk, if_pos (hin.mp hi), htrue]
      simp only [hfault]
  | case3 i j found hi htrue pair hpair hnext ih =>
      rw [hagree] at htrue
      rw [ht.matchAt] at hpair
      rw [ih, Region.collectWalk.eq_def r' i j, if_pos (hin.mp hi), htrue]
      simp only [hpair, if_pos hnext]
  | case4 i j found hi htrue pair hpair hnext =>
      rw [hagree] at htrue
      rw [ht.matchAt] at hpair
      rw [Region.collectWalk, if_pos (hin.mp hi), htrue]
      simp only [hpair, if_neg hnext]
  | case5 i j found hi hfalse hlonger hnext ih =>
      rw [hagree] at hfalse
      rw [ht.old.length, ht.new.length] at hlonger
      rw [ih, Region.collectWalk.eq_def r' i j, if_pos (hin.mp hi), hfalse]
      simp only [if_pos hlonger, if_pos hnext]
  | case6 i j found hi hfalse hlonger hnext =>
      rw [hagree] at hfalse
      rw [ht.old.length, ht.new.length] at hlonger
      rw [Region.collectWalk, if_pos (hin.mp hi), hfalse]
      simp only [if_pos hlonger, if_neg hnext]
  | case7 i j found hi hfalse hlonger hnext ih =>
      rw [hagree] at hfalse
      rw [ht.old.length, ht.new.length] at hlonger
      rw [ih, Region.collectWalk.eq_def r' i j, if_pos (hin.mp hi), hfalse]
      simp only [if_neg hlonger, if_pos hnext]
  | case8 i j found hi hfalse hlonger hnext =>
      rw [hagree] at hfalse
      rw [ht.old.length, ht.new.length] at hlonger
      rw [Region.collectWalk, if_pos (hin.mp hi), hfalse]
      simp only [if_neg hlonger, if_neg hnext]
  | case9 i j found hi =>
      rw [Region.collectWalk, if_neg (mt hin.mpr hi)]

/-- The parts of twins before a snake are twins. -/
theorem before_alike (s : Snake) : Alike (Twins c c') (r.before s) (r'.before s) := by
  refine (ht.old.narrow_alike 1 s.startX).bind fun old old' hold => ?_
  refine (ht.new.narrow_alike 1 s.startY).bind fun new new' hnew => ?_
  exact ⟨hold, hnew, ht.same, ht.same'⟩

/-- So are the parts after it. -/
theorem after_alike (s : Snake) : Alike (Twins c c') (r.after s) (r'.after s) := by
  unfold after
  rw [ht.old.length, ht.new.length]
  refine (alike_self _).bind ?_
  rintro width _ rfl
  refine (ht.old.narrow_alike _ _).bind fun old old' hold => ?_
  refine (alike_self _).bind ?_
  rintro height _ rfl
  refine (ht.new.narrow_alike _ _).bind fun new new' hnew => ?_
  exact ⟨hold, hnew, ht.same, ht.same'⟩

end Twins

end Region

/-! ### Work lists in step -/

/-- The tasks are the same, of regions over the same stretches. -/
inductive Task.Twins (c : Comparison α) (c' : Comparison β) : Task α → Task β → Prop
  | solve {r : Region α} {r' : Region β} :
      Region.Twins c c' r r' → Task.Twins c c' (.solve r) (.solve r')
  | emit {r : Region α} {r' : Region β} (s : Snake) :
      Region.Twins c c' r r' → Task.Twins c c' (.emit r s) (.emit r' s)

namespace Worklist

variable {c : Comparison α} {c' : Comparison β}

/-- The same tasks wait on both lists; what has been found, the record of the searches and the
vectors are equal. -/
structure Twins (c : Comparison α) (c' : Comparison β) (w : Worklist α) (w' : Worklist β) :
    Prop where
  pending : Forall₂ (Task.Twins c c') w.pending w'.pending
  found : w.found = w'.found
  splits : w.splits = w'.splits
  frontiers : w.frontiers = w'.frontiers

/-- **Doing the same task** keeps two work lists in step. -/
theorem perform_alike (h : c.Congruent c') {w : Worklist α} {w' : Worklist β}
    (hw : Twins c c' w w') {task : Task α} {task' : Task β} (ht : Task.Twins c c' task task') :
    Alike (Twins c c') (perform w task) (perform w' task') := by
  obtain ⟨pending, found, splits, f⟩ := w
  obtain ⟨pending', found', splits', f'⟩ := w'
  obtain ⟨hpending, rfl, rfl, rfl⟩ := hw
  cases ht with
  | emit s hr =>
      simp only [perform, hr.collectRun]
      refine (alike_self _).bind ?_
      rintro count _ rfl
      refine (alike_self _).bind ?_
      rintro found _ rfl
      exact ⟨hpending, rfl, rfl, rfl⟩
  | @solve r r' hr =>
      simp only [perform, hr.isEmpty, (hr.congruent h).middleSnake]
      by_cases hempty : (r'.old.isEmpty || r'.new.isEmpty) = true
      · rw [if_pos hempty, if_pos hempty]
        exact ⟨hpending, rfl, rfl, rfl⟩
      rw [if_neg hempty, if_neg hempty]
      refine (alike_self _).bind ?_
      rintro ⟨middle, f⟩ _ rfl
      simp only [hr.split, hr.collectRun, hr.collectWalk h, hr.old.length]
      split
      · refine (alike_self _).bind ?_
        rintro found _ rfl
        exact ⟨hpending, rfl, rfl, rfl⟩
      · refine (alike_self _).bind ?_
        rintro found _ rfl
        exact ⟨hpending, rfl, rfl, rfl⟩
      · refine (hr.after_alike middle.snake).bind fun after after' hafter => ?_
        refine (hr.before_alike middle.snake).bind fun before before' hbefore => ?_
        exact ⟨.cons (.solve hbefore) (.cons (.emit _ hr) (.cons (.solve hafter) hpending)),
          rfl, rfl, rfl⟩

/-- **Whole runs stay in step.** -/
theorem run_alike (h : c.Congruent c') (fuel : ℕ) {w : Worklist α} {w' : Worklist β}
    (hw : Twins c c' w w') : Alike (Twins c c') (run fuel w) (run fuel w') := by
  induction fuel generalizing w w' with
  | zero =>
      obtain ⟨pending, found, splits, f⟩ := w
      obtain ⟨pending', found', splits', f'⟩ := w'
      obtain ⟨hpending, rfl, rfl, rfl⟩ := hw
      cases hpending with
      | nil => exact ⟨.nil, rfl, rfl, rfl⟩
      | cons ht hpending => rfl
  | succ fuel ih =>
      obtain ⟨pending, found, splits, f⟩ := w
      obtain ⟨pending', found', splits', f'⟩ := w'
      obtain ⟨hpending, rfl, rfl, rfl⟩ := hw
      cases hpending with
      | nil => exact ⟨.nil, rfl, rfl, rfl⟩
      | cons ht hpending =>
          exact (perform_alike h ⟨hpending, rfl, rfl, rfl⟩ ht).bind fun next next' hnext =>
            ih hnext

end Worklist

/-- Congruent comparisons are solved in step. -/
theorem Comparison.Congruent.solve_alike {c : Comparison α} {c' : Comparison β}
    (h : c.Congruent c') : Alike (Worklist.Twins c c') c.region.solve c'.region.solve := by
  have htwins := Region.twins_region h
  simp only [Region.solve, htwins.old.length, htwins.new.length]
  refine (alike_self _).bind ?_
  rintro f _ rfl
  exact Worklist.run_alike h _ ⟨.cons (.solve htwins) .nil, rfl, rfl, rfl⟩

/-! ### Everything is answered the same -/

namespace Comparison

/-- The comparisons answer everything that is asked of them the same: with equal results, or with
the same fault. -/
structure SameAnswers (c : Comparison α) (c' : Comparison β) : Prop where
  matching : c.matching = c'.matching
  splits : c.splits = c'.splits
  distance : c.distance = c'.distance
  distanceBackward : c.distanceBackward = c'.distanceBackward
  commonLength : c.commonLength = c'.commonLength
  similarity : c.similarity = c'.similarity
  script (changes : Bool) : c.script changes = c'.script changes

/-- **Congruent comparisons** answer everything the same. -/
theorem Congruent.sameAnswers {c : Comparison α} {c' : Comparison β} (h : c.Congruent c') :
    c.SameAnswers c' := by
  have hregion := (Region.twins_region h).congruent h
  have hdistance : c.distance = c'.distance := hregion.distance
  have hmatching : c.matching = c'.matching := by
    refine (h.solve_alike.bind fun w w' hw => ?_).eq
    exact hw.found
  have hsplits : c.splits = c'.splits := by
    refine (h.solve_alike.bind fun w w' hw => ?_).eq
    exact hw.splits
  have hlength : c.commonLength = c'.commonLength := by
    rw [commonLength, commonLength, hdistance, h.old, h.new]
  refine ⟨hmatching, hsplits, hdistance, hregion.distanceBackward, hlength, ?_, fun changes => ?_⟩
  · rw [similarity, similarity, hlength, h.old, h.new]
  · rw [script, script, hmatching, hlength, hdistance, h.old, h.new]

/-- **Only the matches count.** Congruent comparisons answer everything the same, whatever their
elements are. When the matches are read off an order, all that counts is which old and new elements
it does not decide between: neither which of two elements comes first nor what the order says inside
one sequence. And when the test goes by keys, elements can be exchanged for others with the same
keys. -/
theorem sees_only_agreement (c : Comparison α) :
    (∀ (β : Type) (c' : Comparison β), c.Congruent c' → c.SameAnswers c') ∧
    (∀ order order' : α → α → Ordering,
      (∀ a ∈ c.old, ∀ b ∈ c.new, order a b = .eq ↔ order' a b = .eq) →
      (ofOrder order c.old c.new).SameAnswers (ofOrder order' c.old c.new)) ∧
    (∀ (κ : Type) (key : α → κ) (same : κ → κ → Bool) (old new : Array α),
      (∀ a b, c.same a b = same (key a) (key b)) →
      c.old.map key = old.map key → c.new.map key = new.map key →
      c.SameAnswers ⟨old, new, c.same⟩) := by
  refine ⟨fun β c' h => h.sameAnswers, fun order order' h => ?_, ?_⟩
  · refine (congruent_of_same fun a ha b hb => ?_).sameAnswers
    rw [Bool.eq_iff_iff, beq_iff_eq, beq_iff_eq]
    exact h a ha b hb
  · intro κ key same old new hsame hold hnew
    have hleft : c.Congruent ⟨c.old.map key, c.new.map key, same⟩ :=
      congruent_map fun a _ b _ => (hsame a b).symm
    have hright : (⟨old, new, c.same⟩ : Comparison α).Congruent
        ⟨old.map key, new.map key, same⟩ := congruent_map fun a _ b _ => (hsame a b).symm
    rw [hold, hnew] at hleft
    exact (hleft.trans hright.symm).sameAnswers

/-- Letters are compared like the numbers they have in the alphabet, with the new ones ten higher;
rising and falling order match the same numbers; and pairs that are compared by their first
components are compared like pairs with other second components. -/
theorem sees_only_agreement_abcabba :
    (ofEq #['a', 'b', 'c', 'a', 'b', 'b', 'a'] #['c', 'b', 'a', 'b', 'a', 'c']).SameAnswers
      ⟨#[1, 2, 3, 1, 2, 2, 1], #[13, 12, 11, 12, 11, 13], fun i j => i + 10 == j⟩ ∧
    (ofOrder (fun i j : ℕ => compare i j) #[1, 2, 3] #[3, 2]).SameAnswers
      (ofOrder (fun i j => compare j i) #[1, 2, 3] #[3, 2]) ∧
    (⟨#[('a', 1), ('b', 2)], #[('b', 3)], fun p q => p.1 == q.1⟩ :
      Comparison (Char × ℕ)).SameAnswers
        ⟨#[('a', 7), ('b', 7)], #[('b', 0)], fun p q => p.1 == q.1⟩ := by
  refine ⟨?_, ?_, ?_⟩
  · exact (sees_only_agreement (ofEq #['a', 'b', 'c', 'a', 'b', 'b', 'a']
      #['c', 'b', 'a', 'b', 'a', 'c'])).1 ℕ _ ⟨rfl, rfl, by decide⟩
  · exact (sees_only_agreement (ofEq #[1, 2, 3] #[3, 2])).2.1 _ _ fun i _ j _ => by
      rw [Nat.compare_eq_eq, Nat.compare_eq_eq, eq_comm]
  · exact (sees_only_agreement (⟨#[('a', 1), ('b', 2)], #[('b', 3)], fun p q => p.1 == q.1⟩ :
      Comparison (Char × ℕ))).2.2 Char Prod.fst (· == ·) #[('a', 7), ('b', 7)] #[('b', 0)]
      (fun _ _ => rfl) (by simp) (by simp)

end Comparison

end EditGraph
