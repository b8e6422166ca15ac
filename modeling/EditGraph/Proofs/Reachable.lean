import EditGraph.Proofs.Outcome
import Mathlib.Algebra.GroupWithZero.Nat
import Mathlib.Data.Nat.Log

/-!
# What the work list can hold

A division halves the distance of a region: the part before the snake has one half of it,
rounded up, and the part after the snake the other. Halving bounds all that a work list can come
to. A region of distance `d` is searched together with its parts `2 * d - 1` times at most, in
no more than `3 * d - 2` tasks; and since the part before the snake is on top of the list, two
tasks are added each time that its distance is halved, so the list holds no more than two tasks
for each halving, and one.

Each of these bounds is an invariant: what has been used of it, and what the waiting tasks may
still use, are no more than the whole region is allowed.

## Main definitions

* `Worklist.Kept` — what holds of every work list that is reached.
* `Comparison.IsRow` — the record of a search is right.
* `Worklist.Halves` — a region was divided evenly.
* `Comparison.Reached` — the bounds, and that the next task can be done and divides evenly.

## Main results

* `Kept.outcome`, `Kept.steps` — one task done, any number of them.
* `reached_of_steps`, `worklist_halves` — the work list of a comparison.
-/

namespace EditGraph

variable {α : Type} {r whole : Region α} {b c k n : ℕ}

/-! ### What tasks may use -/

/-- The distance of a region, or one if that is zero. -/
noncomputable def Region.effort (r : Region α) : ℕ := max r.grid.distance 1

/-- How many tasks a task may take, with those that it gives rise to. -/
noncomputable def Task.tasks : Task α → ℕ
  | .solve r => 3 * r.effort - 2
  | .emit _ _ => 1

/-- How many searches it may make. -/
noncomputable def Task.searches : Task α → ℕ
  | .solve r => 2 * r.effort - 1
  | .emit _ _ => 0

/-- How many places it may take on the list. -/
noncomputable def Task.height : Task α → ℕ
  | .solve r => 2 * Nat.clog 2 r.effort + 1
  | .emit _ _ => 1

/-- Every region takes a search, also one with nothing to find. -/
theorem Region.one_le_effort (r : Region α) : 1 ≤ r.effort := le_max_right _ _

/-- Every task takes a place on the work list. -/
theorem Task.one_le_height (task : Task α) : 1 ≤ task.height := by
  cases task with
  | solve r => exact Nat.le_add_left 1 _
  | emit r s => exact le_rfl

/-- Halving a number takes one from its logarithm. -/
theorem clog_half {d : ℕ} (h : 2 ≤ d) : Nat.clog 2 ((d + 1) / 2) + 1 = Nat.clog 2 d :=
  (Nat.clog_of_two_le Nat.one_lt_two h).symm

namespace Worklist

variable {w next : Worklist α} {task : Task α} {rest pending : List (Task α)}
  {found : Array Match} {splits : Array Split} {f : Frontiers}

/-- Each task of the list has room for the places that it may take above those below it, when
`h` places are allowed. -/
def Stacked (h : ℕ) : List (Task α) → Prop
  | [] => True
  | task :: rest => rest.length + task.height ≤ h ∧ Stacked h rest

/-- A work list is no longer than the height it is stacked to. -/
theorem Stacked.length_le {h : ℕ} (hp : Stacked h pending) : pending.length ≤ h := by
  cases pending with
  | nil => exact Nat.zero_le h
  | cons task rest =>
      have := task.one_le_height
      have := hp.1
      rw [List.length_cons]
      omega

/-- The record `s` is that of a part of `whole` with columns and rows, and its distance. -/
def RowOf (whole : Region α) (s : Split) : Prop :=
  ∃ (r : Region α) (dx dy : ℕ), r.PartOf whole dx dy ∧
    ¬ (r.old.isEmpty || r.new.isEmpty) = true ∧ s = r.split r.grid.distance

/-- What holds of a work list that is reached from `whole` in `k` tasks. -/
structure Kept (whole : Region α) (b c k : ℕ) (w : Worklist α) : Prop where
  arises : ∀ task ∈ w.pending, task.Arises whole
  serve : w.frontiers.Serve b c
  tasks : k + (w.pending.map Task.tasks).sum + 2 ≤ 3 * whole.effort
  searches : w.splits.size + (w.pending.map Task.searches).sum + 1 ≤ 2 * whole.effort
  height : Stacked (2 * Nat.clog 2 whole.effort + 1) w.pending
  rows : ∀ s ∈ w.splits, RowOf whole s

/-- At first only the whole region waits. -/
theorem kept_start (hf : f.Serve b c) : Kept whole b c 0 ⟨[.solve whole], #[], #[], f⟩ := by
  have heffort := whole.one_le_effort
  refine ⟨?_, hf, ?_, ?_, ?_, by simp⟩
  · simpa using Task.Arises.solve (Region.partOf_self whole)
  · simp only [List.map_cons, List.map_nil, List.sum_cons, List.sum_nil, Task.tasks]
    omega
  · simp only [List.map_cons, List.map_nil, List.sum_cons, List.sum_nil, Task.searches,
      List.size_toArray, List.length_nil]
    omega
  · simp [Stacked, Task.height]

/-- A search of a region that comes up is recorded right. -/
theorem forall_mem_push_split {m : MiddleSnake} (ht : (Task.solve r).Arises whole)
    (hempty : ¬ (r.old.isEmpty || r.new.isEmpty) = true) (hmiddle : r.IsMiddle m)
    (hrows : ∀ s ∈ splits, RowOf whole s) :
    ∀ s ∈ splits.push (r.split m.distance), RowOf whole s := by
  intro s hs
  rcases Array.mem_push.mp hs with hs | rfl
  · exact hrows s hs
  · cases ht with
    | @solve _ dx dy hpart => exact ⟨r, dx, dy, hpart, hempty, by rw [hmiddle.distance]⟩

/-- **One task done** keeps all this. -/
theorem Kept.outcome (h : Kept whole b c k ⟨task :: rest, found, splits, f⟩)
    (ho : Outcome b c ⟨rest, found, splits, f⟩ task next) : Kept whole b c (k + 1) next := by
  obtain ⟨hall, hserve, htasks, hsearches, ⟨hheight, hstacked⟩, hrows⟩ := h
  obtain ⟨htask, harises⟩ := List.forall_mem_cons.mp hall
  simp only [List.map_cons, List.sum_cons] at htasks hsearches
  cases ho with
  | @emitted r s =>
      simp only [Task.tasks, Task.searches] at htasks hsearches
      exact ⟨harises, hserve, by simp only; omega, by simp only; omega, hstacked, hrows⟩
  | @empty r hempty =>
      have := r.one_le_effort
      simp only [Task.tasks, Task.searches] at htasks hsearches
      exact ⟨harises, hserve, by simp only; omega, by simp only; omega, hstacked, hrows⟩
  | @solved r m g hempty hmiddle hfresh hsmall hserve' =>
      have := r.one_le_effort
      simp only [Task.tasks, Task.searches] at htasks hsearches
      refine ⟨harises, hserve', by simp only; omega, ?_, hstacked,
        forall_mem_push_split htask hempty hmiddle hrows⟩
      simp only [Array.size_push]
      omega
  | @divided r left right m g hempty hmiddle hfresh hlarge hparts hserve' =>
      -- both halves of the distance are one or more, and add up to it
      have hr : r.effort = m.distance := by
        rw [Region.effort, ← hmiddle.distance]
        omega
      have hl : left.effort = (m.distance + 1) / 2 := by
        rw [Region.effort, hparts.leftDistance]
        omega
      have hright : right.effort = m.distance / 2 := by
        rw [Region.effort, hparts.rightDistance]
        omega
      simp only [Task.tasks, Task.searches, Task.height, hr] at htasks hsearches hheight
      refine ⟨?_, hserve', ?_, ?_, ?_, forall_mem_push_split htask hempty hmiddle hrows⟩
      · cases htask with
        | solve hpart =>
            simp only [List.forall_mem_cons]
            exact ⟨.solve (hparts.leftPart.trans hpart), .emit hpart hmiddle,
              .solve (hparts.rightPart.trans hpart), harises⟩
      · simp only [List.map_cons, List.sum_cons, Task.tasks, hl, hright]
        omega
      · simp only [List.map_cons, List.sum_cons, Task.searches, hl, hright, Array.size_push]
        omega
      · have hhalf := clog_half hlarge
        have hless : Nat.clog 2 (m.distance / 2) ≤ Nat.clog 2 ((m.distance + 1) / 2) :=
          Nat.clog_mono_right 2 (by omega)
        simp only [Stacked, Task.height, hl, hright, List.length_cons]
        exact ⟨by omega, by omega, by omega, hstacked⟩

/-- **Any number of tasks done** keeps it. -/
theorem Kept.steps {u v : Worklist α} (h : Kept whole b c k u) (hs : Suits whole b c)
    (hfits : whole.Fits) (hsteps : Steps n u v) : Kept whole b c (k + n) v := by
  induction hsteps generalizing k with
  | refl u => exact h
  | @step n task rest found splits f next last hperform _ ih =>
      obtain ⟨next', hnext, ho⟩ := exists_outcome (w := ⟨rest, found, splits, f⟩) hs hfits
        (h.arises task List.mem_cons_self) h.serve
      rw [hperform] at hnext
      obtain rfl := Except.ok.inj hnext
      rw [Nat.add_comm n 1, ← Nat.add_assoc]
      exact ih (h.outcome ho)

/-! ### The work list of a comparison -/

/-- Solving the region `r`, when `splits` are recorded and the tasks `rest` wait below it, leads
to the work list `next` as it should. The search is recorded with the distance `d` of the region's
windows. When that is zero or one nothing new waits; otherwise the parts before and after a snake
of the region wait, and have the halves of the distance, both less than it. -/
structure Halves (r : Region α) (rest : List (Task α)) (splits : Array Split) (next : Worklist α)
    (d : ℕ) : Prop where
  distance : r.cut.IsDistance d
  recorded : next.splits = splits.push (r.split d)
  small : d < 2 → next.pending = rest
  large : 2 ≤ d → ∃ before s after, r.before s = .ok before ∧ r.after s = .ok after ∧
    next.pending = .solve before :: .emit r s :: .solve after :: rest ∧
    before.cut.IsDistance ((d + 1) / 2) ∧ after.cut.IsDistance (d / 2) ∧
    (d + 1) / 2 < d ∧ d / 2 < d

/-- A region with columns and rows on top of the list is halved. -/
theorem Outcome.halves (ho : Outcome b c w (.solve r) next)
    (hempty : ¬ (r.old.isEmpty || r.new.isEmpty) = true) :
    Halves r w.pending w.splits next r.grid.distance := by
  cases ho with
  | empty hempty' => exact absurd hempty' hempty
  | solved hempty hmiddle hfresh hsmall hserve =>
      rw [hmiddle.distance] at hsmall ⊢
      exact ⟨r.isDistance_cut, rfl, fun _ => rfl, fun hlarge => by omega⟩
  | @divided _ left right m g hempty hmiddle hfresh hlarge hparts hserve =>
      have hleft := left.isDistance_cut
      have hright := right.isDistance_cut
      rw [hparts.leftDistance] at hleft
      rw [hparts.rightDistance] at hright
      rw [← hmiddle.distance]
      refine ⟨?_, rfl, fun _ => by omega, fun _ => ⟨left, m.snake, right, hparts.before,
        hparts.after, rfl, hleft, hright, by omega, by omega⟩⟩
      rw [hmiddle.distance]
      exact r.isDistance_cut

end Worklist

namespace Comparison

open Worklist (Steps Halves)

/-- The work list that solving a comparison begins with. -/
def start (c : Comparison α) (f : Frontiers) : Worklist α := ⟨[.solve c.region], #[], #[], f⟩

/-- The record of a search tells stretches of both sequences, neither of them empty, and their
distance. -/
structure IsRow (c : Comparison α) (s : Split) : Prop where
  width : 0 < s.width
  height : 0 < s.height
  old : s.oldOffset + s.width ≤ c.old.size
  new : s.newOffset + s.height ≤ c.new.size
  distance : (c.part s.oldOffset s.newOffset s.width s.height).IsDistance s.distance

/-- The search of a part of the whole region is recorded right. -/
theorem isRow_split {c : Comparison α} {dx dy : ℕ} (hr : r.PartOf c.region dx dy)
    (hempty : ¬ (r.old.isEmpty || r.new.isEmpty) = true) :
    c.IsRow (r.split r.grid.distance) := by
  have hcut := hr.cut
  have hdistance := r.isDistance_cut
  have hx : r.old.offset = dx := hr.oldOffset.trans (Nat.zero_add dx)
  have hy : r.new.offset = dy := hr.newOffset.trans (Nat.zero_add dy)
  have hold : dx + r.old.length ≤ c.old.size := hr.oldLength
  have hnew : dy + r.new.length ≤ c.new.size := hr.newLength
  simp only [Window.isEmpty, Bool.or_eq_true, beq_iff_eq, not_or] at hempty
  rw [hcut, Region.cut_region] at hdistance
  exact ⟨Nat.pos_of_ne_zero hempty.1, Nat.pos_of_ne_zero hempty.2, by rwa [Region.split, hx],
    by rwa [Region.split, hy], by rwa [Region.split, hx, hy]⟩

/-- What holds of a work list that `k` tasks lead to when a comparison of distance `d` is solved. -/
structure Reached (c : Comparison α) (d k : ℕ) (w : Worklist α) : Prop where
  /-- Fewer tasks have been done than three for each step of the distance. -/
  tasks : k + 2 ≤ 3 * max d 1
  /-- Fewer searches have been made than two for each step of it, or one. -/
  searches : w.splits.size ≤ max 1 (2 * d - 1)
  /-- No more tasks wait than two for each halving of it, and one. -/
  height : w.pending.length ≤ 2 * Nat.clog 2 (max d 1) + 1
  /-- The searches are recorded right. -/
  rows : ∀ s ∈ w.splits, c.IsRow s
  /-- The next task can be done. -/
  goesOn : w.pending ≠ [] → ∃ next, Steps 1 w next
  /-- If it is to solve a region with columns and rows, the region is halved. -/
  halves : ∀ r rest, w.pending = .solve r :: rest → 0 < r.old.length → 0 < r.new.length →
    ∃ next e, Steps 1 w next ∧ Halves r rest w.splits next e

/-- Every work list that is reached keeps to the bounds. -/
theorem reached_of_steps {c : Comparison α} {f : Frontiers} {k : ℕ} {w : Worklist α}
    (h : c.Fits) (hserve : f.Serve c.region.forwardSpan c.region.backwardSpan)
    (hsteps : Steps k (c.start f) w) : c.Reached c.region.grid.distance k w := by
  have hfits := fits_iff.mp h
  have hsuits : Worklist.Suits c.region c.region.forwardSpan c.region.backwardSpan :=
    ⟨h.addressable, le_rfl, le_rfl⟩
  obtain ⟨harises, hserve, htasks, hsearches, hheight, hrows⟩ :=
    (Worklist.kept_start hserve).steps hsuits hfits hsteps
  have hnext (task : Task α) (rest : List (Task α)) (hw : w.pending = task :: rest) :
      ∃ next, Steps 1 w next ∧
        Worklist.Outcome c.region.forwardSpan c.region.backwardSpan
          ⟨rest, w.found, w.splits, w.frontiers⟩ task next := by
    obtain ⟨pending, found, splits, g⟩ := w
    obtain rfl : pending = task :: rest := hw
    obtain ⟨next, hnext, ho⟩ := Worklist.exists_outcome (w := ⟨rest, found, splits, g⟩) hsuits
      hfits (harises task List.mem_cons_self) hserve
    exact ⟨next, .single hnext, ho⟩
  rw [Nat.zero_add, Region.effort] at htasks
  rw [Region.effort] at hsearches hheight
  refine ⟨by omega, by omega, hheight.length_le, ?_, ?_, ?_⟩
  · intro s hs
    obtain ⟨r, dx, dy, hpart, hempty, rfl⟩ := hrows s hs
    exact isRow_split hpart hempty
  · intro hpending
    obtain ⟨task, rest, hw⟩ := List.exists_cons_of_ne_nil hpending
    obtain ⟨next, hstep, -⟩ := hnext task rest hw
    exact ⟨next, hstep⟩
  · intro r rest hw hold hnew
    obtain ⟨next, hstep, ho⟩ := hnext _ rest hw
    have hempty : ¬ (r.old.isEmpty || r.new.isEmpty) = true := by
      simp only [Window.isEmpty, Bool.or_eq_true, beq_iff_eq]
      omega
    exact ⟨next, _, hstep, ho.halves hempty⟩

/-- **The work list is finished, and divides evenly.** Whenever the diagonal vectors fit into
memory, the tasks of a comparison of distance `d` can be done one after the other until none
waits, in less than `3 * max d 1` tasks however far one goes. Every search on the way is recorded
with the exact distance of its windows, and a region that is divided has parts of half its
distance. So there are no more than `2 * d - 1` searches, or one, and never more tasks on the
list than twice the number of halvings of `d`, and one. -/
theorem worklist_halves (c : Comparison α) :
    (c.Fits →
      ∃ d f, c.distance = .ok d ∧ c.IsDistance d ∧
        Frontiers.create c.old.size c.new.size = .ok f ∧
        (∃ n w, Steps n (c.start f) w ∧ w.pending = [] ∧ c.region.solve = .ok w) ∧
        ∀ k w, Steps k (c.start f) w → c.Reached d k w) ∧
    (¬ c.Fits → c.matching = .error .capacity) := by
  refine ⟨fun h => ?_, matching_of_not_fits⟩
  obtain ⟨f, n, w, hcreate, hserve, hsteps, hdone, hsolve, -⟩ :=
    Region.exists_run (fits_iff.mp h) h.addressable
  exact ⟨_, f, distance_eq_ok h, c.isDistance_grid, hcreate, ⟨n, w, hsteps, hdone, hsolve⟩,
    fun k w hsteps => reached_of_steps h hserve hsteps⟩

/-- The tasks of two words of distance five come to an end. There are nine searches at most, and
never more than seven tasks on the list. -/
theorem worklist_halves_abcabba :
    ∃ f n w, Steps n ((ofEq #['a', 'b', 'c', 'a', 'b', 'b', 'a']
        #['c', 'b', 'a', 'b', 'a', 'c']).start f) w ∧ w.pending = [] ∧ w.splits.size ≤ 9 ∧
      ∀ k v, Steps k ((ofEq #['a', 'b', 'c', 'a', 'b', 'b', 'a']
        #['c', 'b', 'a', 'b', 'a', 'c']).start f) v → v.pending.length ≤ 7 := by
  have hfits : (ofEq #['a', 'b', 'c', 'a', 'b', 'b', 'a']
      #['c', 'b', 'a', 'b', 'a', 'c']).Fits := by decide
  obtain ⟨d, f, -, hd, -, ⟨n, w, hsteps, hdone, -⟩, hall⟩ :=
    (worklist_halves (ofEq #['a', 'b', 'c', 'a', 'b', 'b', 'a']
      #['c', 'b', 'a', 'b', 'a', 'c'])).1 hfits
  have htable : d + 2 * 4 = 13 := hd.add_table
  obtain rfl : d = 5 := by omega
  refine ⟨f, n, w, hsteps, hdone, ?_, ?_⟩
  · exact (hall n w hsteps).searches
  · intro k v hv
    exact (hall k v hv).height.trans (by decide)

end Comparison

end EditGraph
