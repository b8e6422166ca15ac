import EditGraph.Proofs.Replacement
import EditGraph.Proofs.Reports

/-!
# Replays on other sequences

A script is made from two sequences and can be replayed on any others. All that it asks of them is
to be long enough: the old one for the last edit, and the new one for the edits that bring elements
in. The first of these is enough for all edits, as they are in order, each beginning no earlier
than the one before it ends; so no edit begins behind the place that the replay has come to.

The replay is then said position by position. In the place of an old element stand the new elements
of the edits that begin there, and behind them the old element itself, unless an edit removes it;
edits at the end of the old sequence have a place behind its last element. No element is moved, and
none is asked whether it is the one that the script was made for.

Sequences that go on behind those that the script was made from have a replay that goes on likewise.
This is so for any script, in order or not.

## Main definitions

* `oldReach`, `newReach` — how long the sequences have to be.
* `broughtIn`, `placed`, `rewritten` — what a script makes of two sequences.
* `Ordered` — edits that are in order.

## Main results

* `apply_append` — replays of longer sequences.
* `Ordered.le_oldReach` — the last edit reaches furthest.
* `Ordered.rewrittenFrom_cons` — one edit rewrites one place.
* `finish_ordered`, `finish_of_not_reaches` — the replay of edits that are in order.
* `replay_on_others` — the replay of a script of a comparison.
-/

namespace EditGraph

open EditScript (Replay stretch)

variable {α : Type} {a b t u : Array α} {r : Replay α} {e : Edit} {es : List Edit} {i x y n m : ℕ}

/-! ### Longer sequences -/

/-- What is cut out of the front of a sequence does not depend on what follows it. -/
theorem extract_append_of_le {start stop : ℕ} (h : stop ≤ a.size) :
    (a ++ t).extract start stop = a.extract start stop := by
  have hnone : stop - a.size = 0 := by omega
  rw [Array.extract_append, hnone, Array.extract_zero, Array.append_empty]

/-- What is left of a longer sequence ends with what makes it longer. -/
theorem extract_append_size {start : ℕ} (h : start ≤ a.size) :
    (a ++ t).extract start (a ++ t).size = a.extract start a.size ++ t := by
  have hbegin : start - a.size = 0 := by omega
  have hown : a.extract start (a.size + t.size) = a.extract start a.size :=
    Array.extract_eq_extract_right.mpr (by omega)
  rw [Array.extract_append, Array.size_append, hown, hbegin, Nat.add_sub_cancel_left,
    Array.extract_size]

/-- A stretch that a sequence has, a longer one has, too. -/
theorem stretch_append {start stop : ℕ} {s : Array α} (h : stretch a start stop = .ok s) :
    stretch (a ++ t) start stop = .ok s := by
  by_cases hin : start ≤ stop ∧ stop ≤ a.size
  · rw [stretch, if_pos hin] at h
    obtain rfl := Except.ok.inj h
    have hsize : stop ≤ (a ++ t).size := by rw [Array.size_append]; omega
    rw [stretch, if_pos ⟨hin.1, hsize⟩, extract_append_of_le hin.2]
  · rw [stretch, if_neg hin] at h
    cases h

/-- An edit that can be replayed on two sequences is replayed on longer ones likewise. -/
theorem step_append {r' : Replay α} (h : Replay.step a b r e = .ok r') :
    Replay.step (a ++ t) (b ++ u) r e = .ok r' := by
  obtain ⟨kept, hkept, h⟩ := exists_of_bind_eq_ok h
  simp only [Replay.step, stretch_append hkept, ok_bind]
  cases hkind : e.kind with
  | delete =>
      simp only [hkind] at h
      exact h
  | insert | change =>
      simp only [hkind] at h
      obtain ⟨stop, hstop, h⟩ := exists_of_bind_eq_ok h
      obtain ⟨added, hadded, h⟩ := exists_of_bind_eq_ok h
      simp only [hstop, stretch_append hadded, ok_bind]
      exact h

/-- A replay that succeeds does so on longer sequences, with what they have behind the shorter ones.
-/
theorem finish_append {v : Array α} (h : Replay.finish a b r es = .ok v) :
    Replay.finish (a ++ t) (b ++ u) r es = .ok (v ++ t) := by
  induction es generalizing r with
  | nil =>
      rw [Replay.finish, List.foldlM_nil, pure_bind] at h ⊢
      by_cases hin : r.cursor ≤ a.size
      · rw [stretch_eq_ok hin le_rfl] at h
        obtain rfl := Except.ok.inj h
        have hlonger : r.cursor ≤ (a ++ t).size := by rw [Array.size_append]; omega
        rw [stretch_eq_ok hlonger le_rfl, extract_append_size hin, ok_bind, Array.append_assoc]
        rfl
      · rw [stretch, if_neg (by omega)] at h
        cases h
  | cons e es ih =>
      rw [finish_cons] at h ⊢
      obtain ⟨r', hstep, h⟩ := exists_of_bind_eq_ok h
      rw [step_append hstep, ok_bind, ih h]

/-- **A replay on longer sequences** comes to the same, with the rest of the old sequence behind
it. This is so for any script. -/
theorem apply_append {s : EditScript} {v : Array α} (h : s.apply a b = .ok v) (t u : Array α) :
    s.apply (a ++ t) (b ++ u) = .ok (v ++ t) := by
  rw [apply_eq_finish] at h ⊢
  exact finish_append h

/-! ### What a script asks for, and what it makes -/

/-- The end of the last edit in the old sequence. -/
def oldReach (es : List Edit) : ℕ := es.getLast?.elim 0 fun e => e.x + e.removed

/-- The furthest end, in the new sequence, of the edits that bring elements in. -/
def newReach (es : List Edit) : ℕ :=
  (es.filter fun e => e.kind ≠ .delete).foldr (fun e reach => max (e.y + e.inserted) reach) 0

/-- The new elements that the edits at position `i` bring in. -/
def broughtIn (es : List Edit) (b : Array α) (i : ℕ) : List α :=
  es.flatMap fun e => if e.x = i then (b.extract e.y (e.y + e.inserted)).toList else []

/-- What stands in the place of the old element at position `i`: what the edits there bring in, and
the element itself, unless an edit removes it. -/
def placed (es : List Edit) (a b : Array α) (i : ℕ) : List α :=
  broughtIn es b i ++ if Removed es i then [] else a[i]?.toList

/-- What stands in the places from position `x` on, the place behind the last element among
them. -/
def rewrittenFrom (es : List Edit) (a b : Array α) (x : ℕ) : List α :=
  (List.range' x (a.size + 1 - x)).flatMap (placed es a b)

/-- The old sequence, rewritten place by place. -/
def rewritten (es : List Edit) (a b : Array α) : List α := rewrittenFrom es a b 0

/-- The sequences have the elements that the edit is about. -/
structure Reaches (n m : ℕ) (e : Edit) : Prop where
  old : e.x + e.removed ≤ n
  new : e.kind ≠ .delete → e.y + e.inserted ≤ m

/-- The reach on the new side fits when the ends of all edits that take from it do. -/
theorem newReach_le_iff : newReach es ≤ m ↔ ∀ e ∈ es, e.kind ≠ .delete → e.y + e.inserted ≤ m := by
  induction es with
  | nil => simp [newReach]
  | cons e es ih =>
      rw [List.forall_mem_cons, ← ih]
      by_cases hkind : e.kind = .delete <;> simp [newReach, hkind]

/-! ### Edits in order -/

/-- Each edit begins at position `x` or behind it, the next one where this one ends or behind that,
and so on. Each is about some elements, and ends at 64-bit positions. -/
def Ordered : ℕ → List Edit → Prop
  | _, [] => True
  | x, e :: es =>
    x ≤ e.x ∧ 0 < e.length ∧ e.x + e.removed < Word.limit ∧ e.y + e.inserted < Word.limit ∧
      Ordered (e.x + e.removed) es

/-- None of the edits begins before the first position, and all of them end at 64-bit ones. -/
theorem Ordered.of_mem (h : Ordered x es) (he : e ∈ es) :
    x ≤ e.x ∧ e.x + e.removed < Word.limit ∧ e.y + e.inserted < Word.limit := by
  induction es generalizing x with
  | nil => exact nomatch he
  | cons e' es ih =>
      obtain ⟨hx, -, hold, hnew, hes⟩ := h
      rcases List.mem_cons.mp he with rfl | he
      · exact ⟨hx, hold, hnew⟩
      · obtain ⟨hbehind, hlimits⟩ := ih hes he
        exact ⟨by omega, hlimits⟩

/-- **The last edit reaches furthest.** -/
theorem Ordered.le_oldReach (h : Ordered x es) (he : e ∈ es) : e.x + e.removed ≤ oldReach es := by
  induction es generalizing x e with
  | nil => exact nomatch he
  | cons e' es ih =>
      obtain ⟨-, -, -, -, hes⟩ := h
      cases es with
      | nil =>
          obtain rfl := List.mem_singleton.mp he
          exact le_rfl
      | cons e'' es =>
          have hlast : oldReach (e' :: e'' :: es) = oldReach (e'' :: es) := by
            rw [oldReach, oldReach, List.getLast?_cons_cons]
          rw [hlast]
          rcases List.mem_cons.mp he with rfl | he
          · exact hes.1.trans ((Nat.le_add_right _ _).trans (ih hes List.mem_cons_self))
          · exact ih hes he

/-- The reach on the old side fits when the ends of all edits do. -/
theorem Ordered.oldReach_le_iff (h : Ordered x es) :
    oldReach es ≤ n ↔ ∀ e ∈ es, e.x + e.removed ≤ n := by
  constructor
  · exact fun hn e he => (h.le_oldReach he).trans hn
  · intro hall
    rw [oldReach]
    cases hlast : es.getLast? with
    | none => exact Nat.zero_le n
    | some e => exact hall e (List.mem_of_getLast? hlast)

/-- **Two numbers say how long the sequences have to be** for all of the edits. -/
theorem Ordered.reaches_iff (h : Ordered x es) :
    oldReach es ≤ n ∧ newReach es ≤ m ↔ ∀ e ∈ es, Reaches n m e := by
  rw [h.oldReach_le_iff, newReach_le_iff]
  constructor
  · exact fun hall e he => ⟨hall.1 e he, hall.2 e he⟩
  · exact fun hall => ⟨fun e he => (hall e he).old, fun e he => (hall e he).new⟩

/-- Nothing is brought in before the first edit. -/
theorem Ordered.broughtIn_of_lt (h : Ordered x es) (hi : i < x) (b : Array α) :
    broughtIn es b i = [] := by
  refine List.flatMap_eq_nil_iff.mpr fun e he => if_neg ?_
  have := (h.of_mem he).1
  omega

/-- Nothing happens at all before the first edit. -/
theorem Ordered.placed_of_lt (h : Ordered x es) (hi : i < x) (a b : Array α) :
    placed es a b i = a[i]?.toList := by
  have hstays : ¬ Removed es i := by
    rintro ⟨e, he, hle, -⟩
    have := (h.of_mem he).1
    omega
  rw [placed, h.broughtIn_of_lt hi, if_neg hstays, List.nil_append]

/-- At an edit and behind it: what it brings in stands in the place where it begins, and the
places of the elements that it removes are left to nothing else. -/
theorem Ordered.placed_cons (h : Ordered x (e :: es)) (hi : e.x ≤ i) (a b : Array α) :
    placed (e :: es) a b i =
      (if e.x = i then (b.extract e.y (e.y + e.inserted)).toList else []) ++
        if i < e.x + e.removed then [] else placed es a b i := by
  obtain ⟨-, -, -, -, hes⟩ := h
  have hbrought : broughtIn (e :: es) b i =
      (if e.x = i then (b.extract e.y (e.y + e.inserted)).toList else []) ++ broughtIn es b i :=
    List.flatMap_cons
  have hremoved : Removed (e :: es) i ↔ i < e.x + e.removed ∨ Removed es i := by
    rw [← List.singleton_append, removed_append]
    simp [Removed, hi]
  rw [placed, hbrought, List.append_assoc]
  by_cases hlt : i < e.x + e.removed
  · rw [hes.broughtIn_of_lt hlt, if_pos (hremoved.mpr (.inl hlt)), if_pos hlt, List.append_nil]
  · simp only [placed, hremoved, hlt, false_or, if_false]

/-! ### Rewriting place by place -/

/-- The elements at consecutive positions are a stretch. -/
theorem flatMap_getElem? (a : Array α) (x k : ℕ) :
    ((List.range' x k).flatMap fun i => a[i]?.toList) = (a.extract x (x + k)).toList := by
  rw [Array.toList_extract, List.extract_eq_take_drop, Nat.add_sub_cancel_left]
  induction k generalizing x with
  | zero => rfl
  | succ k ih =>
      rw [List.range'_succ, List.flatMap_cons, ih, List.drop_eq_getElem?_toList_append (i := x),
        Array.getElem?_toList]
      cases hx : a[x]? with
      | none =>
          have hlength : a.toList.length ≤ x + 1 := by
            have := Array.getElem?_eq_none_iff.mp hx
            rw [Array.length_toList]
            omega
          simp [List.drop_eq_nil_of_le hlength]
      | some z => simp

/-- Without edits there is only the old sequence. -/
theorem rewrittenFrom_nil (a b : Array α) (x : ℕ) :
    rewrittenFrom [] a b x = (a.extract x a.size).toList := by
  have hplaced : placed [] a b = fun i => a[i]?.toList := by
    funext i
    have hnone : Ordered (i + 1) [] := trivial
    exact hnone.placed_of_lt (Nat.lt_succ_self i) a b
  rw [rewrittenFrom, hplaced, flatMap_getElem?]
  refine congrArg _ (Array.extract_eq_extract_right.mpr ?_)
  omega

/-- The elements before the first edit stay. -/
theorem Ordered.rewrittenFrom_eq (h : Ordered y es) (hxy : x ≤ y) (hy : y ≤ a.size + 1)
    (b : Array α) :
    rewrittenFrom es a b x = (a.extract x y).toList ++ rewrittenFrom es a b y := by
  obtain ⟨k, rfl⟩ := Nat.exists_eq_add_of_le hxy
  have hplaces : a.size + 1 - x = k + (a.size + 1 - (x + k)) := by omega
  have hbefore : (List.range' x k).flatMap (placed es a b) =
      (List.range' x k).flatMap fun i => a[i]?.toList := by
    refine List.flatMap_congr fun i hi => h.placed_of_lt ?_ a b
    have := (List.mem_range'_1.mp hi).2
    omega
  rw [rewrittenFrom, hplaces, ← List.range'_append_1, List.flatMap_append, hbefore,
    flatMap_getElem?, rewrittenFrom]

/-- Something put in front of the first place. -/
theorem flatMap_cons_first {k : ℕ} (hk : 0 < k) (x : ℕ) (front : List α) (place : ℕ → List α) :
    ((List.range' x k).flatMap fun i => (if x = i then front else []) ++ place i) =
      front ++ (List.range' x k).flatMap place := by
  obtain ⟨k, rfl⟩ := Nat.exists_eq_add_of_lt hk
  rw [Nat.zero_add, List.range'_succ, List.flatMap_cons, List.flatMap_cons, if_pos rfl,
    List.append_assoc]
  refine congrArg _ (congrArg _ (List.flatMap_congr fun i hi => ?_))
  have := (List.mem_range'_1.mp hi).1
  rw [if_neg (by omega), List.nil_append]

/-- Places that are empty can be left out. -/
theorem flatMap_skip (x k j : ℕ) (place : ℕ → List α) :
    ((List.range' x (k + j)).flatMap fun i => if i < x + k then [] else place i) =
      (List.range' (x + k) j).flatMap place := by
  have hempty : ((List.range' x k).flatMap fun i => if i < x + k then [] else place i) = [] := by
    refine List.flatMap_eq_nil_iff.mpr fun i hi => if_pos ?_
    have := (List.mem_range'_1.mp hi).2
    omega
  rw [← List.range'_append_1, List.flatMap_append, hempty, List.nil_append]
  refine List.flatMap_congr fun i hi => if_neg ?_
  have := (List.mem_range'_1.mp hi).1
  omega

/-- **One edit rewrites one place.** The elements before it stay, and what it brings in stands in
the place of what it removes. -/
theorem Ordered.rewrittenFrom_cons (h : Ordered x (e :: es)) (hsize : e.x + e.removed ≤ a.size)
    (b : Array α) :
    rewrittenFrom (e :: es) a b x =
      (a.extract x e.x).toList ++ ((b.extract e.y (e.y + e.inserted)).toList ++
        rewrittenFrom es a b (e.x + e.removed)) := by
  have hhere : Ordered e.x (e :: es) := ⟨le_rfl, h.2⟩
  have hplaces : a.size + 1 - e.x = e.removed + (a.size + 1 - (e.x + e.removed)) := by omega
  rw [hhere.rewrittenFrom_eq h.1 (by omega) b, rewrittenFrom, rewrittenFrom,
    List.flatMap_congr fun i hi => hhere.placed_cons (List.mem_range'_1.mp hi).1 a b,
    flatMap_cons_first (by omega), hplaces, flatMap_skip]

/-! ### The replay of edits in order -/

/-- What the step of a replay asks of the new sequence. -/
theorem brings_iff (hlength : 0 < e.length) :
    e.y + e.inserted ≤ max e.y m ↔ (e.kind ≠ .delete → e.y + e.inserted ≤ m) := by
  cases hkind : e.kind with
  | delete => simp [Edit.inserted, hkind]
  | insert | change =>
      have hsome : e.inserted = e.length := by rw [Edit.inserted, hkind]
      simp only [ne_eq, reduceCtorEq, not_false_eq_true, forall_const]
      omega

/-- **Edits in order are replayed** on sequences that have the elements that they are about. -/
theorem finish_ordered (h : Ordered r.cursor es) (hcursor : r.cursor ≤ a.size)
    (hes : ∀ e ∈ es, Reaches a.size b.size e) :
    Replay.finish a b r es = .ok (r.output ++ (rewrittenFrom es a b r.cursor).toArray) := by
  induction es generalizing r with
  | nil =>
      rw [Replay.finish, List.foldlM_nil, pure_bind, stretch_eq_ok hcursor le_rfl,
        rewrittenFrom_nil, Array.toArray_toList]
      rfl
  | cons e es ih =>
      have hrewritten := h.rewrittenFrom_cons (hes e List.mem_cons_self).old b
      obtain ⟨hx, hlength, hold, hnew, hrest⟩ := h
      obtain ⟨he, hes⟩ := List.forall_mem_cons.mp hes
      have hbegin : e.x ≤ a.size := (Nat.le_add_right _ _).trans he.old
      rw [finish_cons, step_eq hlength hold hnew,
        if_pos ⟨hx, hbegin, (brings_iff hlength).mpr he.new⟩, ok_bind, ih hrest he.old hes,
        hrewritten]
      simp only [← List.append_toArray, Array.toArray_toList, Array.append_assoc]

/-- **On other sequences the replay breaks off.** -/
theorem finish_of_not_reaches (h : Ordered x es) (hes : ¬ ∀ e ∈ es, Reaches a.size b.size e) :
    Replay.finish a b r es = .error .sliceRange := by
  induction es generalizing r x with
  | nil => exact absurd nofun hes
  | cons e es ih =>
      obtain ⟨-, hlength, hold, hnew, hrest⟩ := h
      rw [finish_cons, step_eq hlength hold hnew]
      by_cases hstep : r.cursor ≤ e.x ∧ e.x ≤ a.size ∧ e.y + e.inserted ≤ max e.y b.size
      · rw [if_pos hstep, ok_bind]
        by_cases hsize : e.x + e.removed ≤ a.size
        · refine ih hrest fun hall => hes (List.forall_mem_cons.mpr ⟨⟨hsize, ?_⟩, hall⟩)
          exact (brings_iff hlength).mp hstep.2.2
        · -- the removed elements are not looked at, but the replay has gone past the end
          exact finish_of_lt (by simp only; omega) es
      · rw [if_neg hstep, error_bind]

/-- What is removed and brought in tells the length. -/
theorem length_rewrittenFrom (h : Ordered x es) (hx : x ≤ a.size)
    (hes : ∀ e ∈ es, Reaches a.size b.size e) :
    (rewrittenFrom es a b x).length + (es.map Edit.removed).sum + x =
      a.size + (es.map Edit.inserted).sum := by
  induction es generalizing x with
  | nil =>
      simp only [rewrittenFrom_nil, Array.length_toList, Array.size_extract, List.map_nil,
        List.sum_nil]
      omega
  | cons e es ih =>
      have hrewritten := h.rewrittenFrom_cons (hes e List.mem_cons_self).old b
      obtain ⟨hle, hlength, -, -, hrest⟩ := h
      obtain ⟨he, hes⟩ := List.forall_mem_cons.mp hes
      have hlater := ih hrest he.old hes
      have hbrought := (brings_iff hlength).mpr he.new
      have hold := he.old
      simp only [hrewritten, List.length_append, Array.length_toList, Array.size_extract,
        List.map_cons, List.sum_cons]
      omega

/-- The replay of a script whose edits are in order. -/
theorem apply_ordered {s : EditScript} (h : Ordered 0 s.edits.toList)
    (hes : ∀ e ∈ s.edits.toList, Reaches a.size b.size e) :
    s.apply a b = .ok (rewritten s.edits.toList a b).toArray := by
  rw [apply_eq_finish, finish_ordered h (Nat.zero_le _) hes, Array.empty_append]
  rfl

/-- A script that does not reach what it needs fails. -/
theorem apply_of_not_reaches {s : EditScript} (h : Ordered x s.edits.toList)
    (hes : ¬ ∀ e ∈ s.edits.toList, Reaches a.size b.size e) :
    s.apply a b = .error .sliceRange := by
  rw [apply_eq_finish, finish_of_not_reaches h hes]

/-! ### The script of a comparison -/

namespace Comparison

variable {c : Comparison α} {l : List Match}

/-- The edits of an alignment are in order. -/
theorem Aligns.ordered (h : c.Aligns x y es l) : Ordered x es := by
  induction h with
  | last _ _ _ => trivial
  | @edit x y k ex ey e es l hx hy _ hlength hold hnew _ ih =>
      obtain ⟨holdlimit, rfl⟩ := Word.fit_eq_ok_iff.mp hold
      obtain ⟨hnewlimit, rfl⟩ := Word.fit_eq_ok_iff.mp hnew
      exact ⟨by omega, hlength, holdlimit, hnewlimit, ih⟩

/-- **Replays on other sequences.** A script, with or without changes, is replayed on any old and
new sequence, of any elements, of which the old one reaches the end of the last edit and the new
one that of the furthest edit that brings elements in, and it breaks off on all others. The result
has as many elements more than the old sequence, or less, as the sequences of the script differ by.
It is the old sequence with the removed stretches taken out and the stretches of the new one that
are brought in put in their places; all other old elements are kept, in their order. On the
sequences that it was made from, gone on with, it makes what it makes of them, gone on with. -/
theorem replay_on_others (c : Comparison α) (changes : Bool) :
    (c.Fits →
      ∃ s, c.script changes = .ok s ∧
        (∀ e ∈ s.edits, e.oldEnd = .ok (e.x + e.removed) ∧ e.newEnd = .ok (e.y + e.inserted)) ∧
        (∀ (β : Type) (a b : Array β),
          ((∃ fault, s.apply a b = .error fault) ↔
            a.size < oldReach s.edits.toList ∨ b.size < newReach s.edits.toList) ∧
          (oldReach s.edits.toList ≤ a.size → newReach s.edits.toList ≤ b.size →
            ∃ v, s.apply a b = .ok v ∧ v.size + c.old.size = a.size + c.new.size ∧
              v.toList = rewritten s.edits.toList a b)) ∧
        ∃ v, s.apply c.old c.new = .ok v ∧
          ∀ t u, s.apply (c.old ++ t) (c.new ++ u) = .ok (v ++ t)) ∧
    (¬ c.Fits → c.script changes = .error .capacity) := by
  refine ⟨fun h => ?_, fun h => script_of_not_fits h changes⟩
  obtain ⟨found, s, hfound, hs, haligns, hedits⟩ := exists_script_aligns h changes
  obtain ⟨hmatching, -⟩ := isMatching_of_matching h hfound
  obtain ⟨hold, hnew⟩ := hmatching.lengthOf_allEdits changes
  rw [← sum_removed, allEdits, ← hedits] at hold
  rw [← sum_inserted, allEdits, ← hedits] at hnew
  have hordered := haligns.ordered
  refine ⟨s, hs, fun e he => ?_, fun β a b => ⟨?_, fun ha hb => ?_⟩, ?_⟩
  · obtain ⟨-, holdlimit, hnewlimit⟩ := hordered.of_mem (Array.mem_toList_iff.mpr he)
    exact ⟨Word.fit_of_lt holdlimit, Word.fit_of_lt hnewlimit⟩
  · rw [← not_le, ← not_le, ← not_and_or, hordered.reaches_iff]
    constructor
    · rintro ⟨fault, hfault⟩ hall
      rw [apply_ordered hordered hall] at hfault
      cases hfault
    · exact fun hes => ⟨_, apply_of_not_reaches hordered hes⟩
  · have hall := hordered.reaches_iff.mp ⟨ha, hb⟩
    have hlength := length_rewrittenFrom hordered (Nat.zero_le _) hall
    refine ⟨_, apply_ordered hordered hall, ?_, rfl⟩
    rw [List.size_toArray, rewritten]
    omega
  · have happly := apply_eq_ok changes h.limits hmatching.rises
      (Array.toList_inj.mp hedits)
    exact ⟨_, happly, apply_append happly⟩

/-- The script that takes the first of two letters away, replayed on numbers. -/
theorem replay_on_others_ab :
    (ofEq #['a', 'b'] #['b']).Fits ∧
      ∃ s v, (ofEq #['a', 'b'] #['b']).script true = .ok s ∧
        s.apply #[1, 2, 3] #[4, 5] = .ok v ∧ v.size = 2 := by
  have hfits : (ofEq #['a', 'b'] #['b']).Fits := by decide
  obtain ⟨s, hs, -, hall, w, hw, -⟩ := (replay_on_others (ofEq #['a', 'b'] #['b']) true).1 hfits
  have hown : s.apply #['a', 'b'] #['b'] = .ok w := hw
  have hreach : ¬ (2 < oldReach s.edits.toList ∨ 1 < newReach s.edits.toList) := by
    intro hshort
    obtain ⟨fault, hfault⟩ := (hall Char #['a', 'b'] #['b']).1.mpr hshort
    rw [hown] at hfault
    exact nomatch hfault
  have hold : oldReach s.edits.toList ≤ 3 := by omega
  have hnew : newReach s.edits.toList ≤ 2 := by omega
  obtain ⟨v, hv, hsize, -⟩ := (hall ℕ #[1, 2, 3] #[4, 5]).2 hold hnew
  have hsize : v.size + 2 = 3 + 1 := hsize
  exact ⟨hfits, s, v, hs, hv, by omega⟩

end Comparison

end EditGraph
