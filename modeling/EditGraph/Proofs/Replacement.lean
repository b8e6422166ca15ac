import EditGraph.Proofs.Alignment

/-!
# Gaps as replacements

Replayed on any two sequences, the edits of a gap do one thing: new elements take the place of old
ones. Whether the gap's edits are changes or deletions and insertions makes no difference to that,
and none to whether the replay breaks off, though it may break off at another edit. With changes a
replay asks for the old elements of a gap only when it goes on behind the gap; but then a replay
that has gone too far is already lost, as it has to come to the end of the old sequence in any case.

The proof lets edits that touch melt into one replacement, and goes along the gaps with that.

## Main definitions

* `Replay.finish` — a replay brought to its end.
* `Replay.replace` — a stretch replaced at once.
* `Gap.replay` — a gap replaced at once.

## Main results

* `finish_of_lt` — a replay that has gone too far breaks off.
* `finish_spans` — edits that touch are replayed as one replacement.
* `apply_of_leaves` — a script is replayed gap by gap, with or without changes.
* `apply_paired_eq_apply_separate` — the scripts of a comparison, with and without changes.
-/

namespace EditGraph

open EditScript (Replay stretch)

variable {α : Type} {a b : Array α} {r : Replay α} {e : Edit} {es es' : List Edit} {g : Gap}
  {gs : List Gap} {l : List Match} {n m x y x' y' : ℕ}

/-! ### Replays to the end -/

/-- The edits are replayed, and what is left of the old sequence is copied. -/
def Replay.finish (a b : Array α) (r : Replay α) (es : List Edit) : Except Fault (Array α) := do
  let r ← es.foldlM (Replay.step a b) r
  return r.output ++ (← stretch a r.cursor a.size)

/-- A script is applied edit by edit, from the start. -/
theorem apply_eq_finish (s : EditScript) (a b : Array α) :
    s.apply a b = Replay.finish a b ⟨0, #[]⟩ s.edits.toList := by
  rw [EditScript.apply, Replay.finish, Array.foldlM_toList]

/-- A replay goes on after its first edit. -/
theorem finish_cons (e : Edit) (es : List Edit) :
    Replay.finish a b r (e :: es) =
      Replay.step a b r e >>= fun r => Replay.finish a b r es := by
  simp only [Replay.finish, List.foldlM_cons, bind_assoc]

/-- What the replay of one edit needs, and what it does. It does not need the old elements that
the edit removes. -/
theorem step_eq (hlength : 0 < e.length) (hx : e.x + e.removed < Word.limit)
    (hy : e.y + e.inserted < Word.limit) :
    Replay.step a b r e =
      if r.cursor ≤ e.x ∧ e.x ≤ a.size ∧ e.y + e.inserted ≤ max e.y b.size then
        .ok ⟨e.x + e.removed, r.output ++ a.extract r.cursor e.x ++
          b.extract e.y (e.y + e.inserted)⟩
      else .error .sliceRange := by
  have hend : e.oldEnd = .ok (e.x + e.removed) := Word.fit_of_lt hx
  have hend' : e.newEnd = .ok (e.y + e.inserted) := Word.fit_of_lt hy
  simp only [Replay.step, stretch, hend, hend', ok_bind]
  by_cases hkept : r.cursor ≤ e.x ∧ e.x ≤ a.size
  · rw [if_pos hkept, ok_bind]
    cases hkind : e.kind with
    | delete =>
        have hnone : e.inserted = 0 := by rw [Edit.inserted, hkind]
        simp [hkept, hnone, pure, Except.pure]
    | insert | change =>
        have hsome : e.inserted = e.length := by rw [Edit.inserted, hkind]
        have hiff : e.y + e.inserted ≤ max e.y b.size ↔ e.y + e.inserted ≤ b.size := by omega
        by_cases hb : e.y + e.inserted ≤ b.size <;> simp [hkept, hiff, hb, pure, Except.pure]
  · rw [if_neg hkept, error_bind, if_neg (fun h => hkept ⟨h.1, h.2.1⟩)]

/-- **A replay that has gone too far breaks off**, at the next edit or at the end. -/
theorem finish_of_lt (h : a.size < r.cursor) (es : List Edit) :
    Replay.finish a b r es = .error .sliceRange := by
  have hpast (stop : ℕ) : stretch a r.cursor stop = .error .sliceRange := if_neg (by omega)
  cases es with
  | nil =>
      rw [Replay.finish, List.foldlM_nil, pure_bind, hpast]
      rfl
  | cons e es =>
      rw [finish_cons, Replay.step, hpast]
      rfl

/-! ### Replacements -/

/-- The old elements from position `x` up to `x'` are replaced by the new ones from `y` up to `y'`.
The sequences need to have them; but where there are no new ones, nothing is asked of the new
sequence. -/
def Replay.replace (a b : Array α) (x y x' y' : ℕ) (r : Replay α) : Except Fault (Replay α) :=
  if r.cursor ≤ x ∧ x' ≤ a.size ∧ y' ≤ max y b.size then
    .ok ⟨x', r.output ++ a.extract r.cursor x ++ b.extract y y'⟩
  else .error .sliceRange

/-- **Edits that touch are replayed as one replacement** of what they span, on the way to the
end. -/
theorem finish_spans (h : Spans x' y' x y (e :: es)) (hx : x' < Word.limit) (hy : y' < Word.limit) :
    Replay.finish a b r (e :: es ++ es') =
      Replay.replace a b x y x' y' r >>= fun r => Replay.finish a b r es' := by
  induction es generalizing e x y r with
  | nil =>
      obtain ⟨rfl, rfl, hlength, rfl, rfl⟩ := h
      rw [List.cons_append, List.nil_append, finish_cons, step_eq hlength hx hy, Replay.replace]
      by_cases hsize : e.x + e.removed ≤ a.size
      · have hbegin : e.x ≤ a.size := by omega
        simp only [hsize, hbegin]
      · -- the step may succeed here, but leaves the replay behind the end of the old sequence
        have hlost (r : Replay α) (hr : r.cursor = e.x + e.removed) :=
          finish_of_lt (b := b) (by omega : a.size < r.cursor) es'
        rw [if_neg (fun h : _ ∧ e.x + e.removed ≤ a.size ∧ _ => hsize h.2.1)]
        split
        · exact hlost _ rfl
        · rfl
  | cons e' es ih =>
      obtain ⟨rfl, rfl, hlength, hes⟩ := h
      have hle := hes.le
      rw [List.cons_append, finish_cons, step_eq hlength (by omega) (by omega), Replay.replace]
      by_cases hfits : r.cursor ≤ e.x ∧ x' ≤ a.size ∧ y' ≤ max e.y b.size
      · rw [if_pos hfits, if_pos ⟨hfits.1, by omega, by omega⟩, ok_bind, ih hes, Replay.replace,
          if_pos ⟨le_rfl, hfits.2.1, by omega⟩]
        simp [Array.append_assoc, hle.2]
      · rw [if_neg hfits]
        split
        · rw [ok_bind, ih hes, Replay.replace, if_neg (by simp only; omega)]
        · rfl

/-! ### Gaps -/

/-- The gap replaced at once. Nothing is asked for a gap without elements, which has no edits. -/
def Gap.replay (a b : Array α) (r : Replay α) (g : Gap) : Except Fault (Replay α) :=
  if g.width = 0 ∧ g.height = 0 then .ok r
  else Replay.replace a b g.x g.y (g.x + g.width) (g.y + g.height) r

/-- Only a gap without elements gives no edits. -/
theorem edits_eq_nil_iff {changes : Bool} :
    g.edits changes = [] ↔ g.width = 0 ∧ g.height = 0 := by
  constructor
  · intro hnil
    have hspans := spans_edits changes g
    rw [hnil] at hspans
    obtain ⟨hwidth, hheight⟩ := hspans
    omega
  · rintro ⟨hwidth, hheight⟩
    simp [edits_eq, Gap.shared, Edit.unlessEmpty, hwidth, hheight]

/-- **The edits of a gap do what the gap does**, with and without changes. -/
theorem finish_gap (changes : Bool) (hx : g.x + g.width < Word.limit)
    (hy : g.y + g.height < Word.limit) (es : List Edit) :
    Replay.finish a b r (g.edits changes ++ es) =
      g.replay a b r >>= fun r => Replay.finish a b r es := by
  rw [Gap.replay]
  by_cases hempty : g.width = 0 ∧ g.height = 0
  · rw [if_pos hempty, edits_eq_nil_iff.mpr hempty]
    rfl
  · obtain ⟨e, es', hedits⟩ := List.exists_cons_of_ne_nil
      (mt edits_eq_nil_iff.mp hempty : g.edits changes ≠ [])
    have hspans := spans_edits changes g
    rw [hedits] at hspans
    rw [if_neg hempty, hedits, finish_spans hspans hx hy]

/-- The edits of gaps are replayed gap by gap. -/
theorem finish_gaps (changes : Bool)
    (hgs : ∀ g ∈ gs, g.x + g.width < Word.limit ∧ g.y + g.height < Word.limit) :
    Replay.finish a b r (gs.flatMap (Gap.edits changes)) =
      gs.foldlM (Gap.replay a b) r >>= fun r => Replay.finish a b r [] := by
  induction gs generalizing r with
  | nil => rfl
  | cons g gs ih =>
      obtain ⟨hg, hgs⟩ := List.forall_mem_cons.mp hgs
      rw [List.flatMap_cons, finish_gap changes hg.1 hg.2, List.foldlM_cons, bind_assoc]
      exact bind_congr fun r => ih hgs

/-- Every gap ends inside the grid. -/
theorem Leaves.within (h : Leaves n m x y l gs) (hg : g ∈ gs) :
    g.x + g.width ≤ n ∧ g.y + g.height ≤ m := by
  induction h with
  | last hx hy =>
      obtain rfl := List.mem_singleton.mp hg
      exact ⟨hx.le, hy.le⟩
  | pair hrest ih =>
      have := hrest.le
      rcases List.mem_cons.mp hg with rfl | hg
      · simp only
        omega
      · exact ih hg

/-- **A script is replayed gap by gap**, and its gaps alone say how, with or without changes. -/
theorem apply_of_leaves {changes : Bool} {s : EditScript} (h : Leaves n m x y l gs)
    (hlimit : n < Word.limit ∧ m < Word.limit)
    (hs : s.edits.toList = gs.flatMap (Gap.edits changes)) :
    s.apply a b =
      gs.foldlM (Gap.replay a b) ⟨0, #[]⟩ >>= fun r => Replay.finish a b r [] := by
  rw [apply_eq_finish, hs]
  refine finish_gaps changes fun g hg => ?_
  have := h.within hg
  omega

/-! ### The scripts of a comparison -/

namespace Comparison

/-- **Changes make no difference to a replay.** The scripts with and without changes have the edits
of the same gaps, which the matching leaves over: without changes each is deleted and inserted,
with changes as much as possible of it is changed and the rest deleted or inserted. Their costs and
similarities are the same. Replayed on any two sequences, of any elements, either both break off
or both make the same sequence. -/
theorem apply_paired_eq_apply_separate (c : Comparison α) :
    (c.Fits →
      ∃ found gs paired separate, c.matching = .ok found ∧
        Leaves c.old.size c.new.size 0 0 found.toList gs ∧
        c.script true = .ok paired ∧ c.script false = .ok separate ∧
        paired.edits.toList = gs.flatMap Gap.paired ∧
        separate.edits.toList = gs.flatMap Gap.separate ∧
        paired.totalCost = separate.totalCost ∧ paired.similarity = separate.similarity ∧
        ∀ (β : Type) (a b : Array β), paired.apply a b = separate.apply a b) ∧
    (¬ c.Fits → c.script true = .error .capacity ∧ c.script false = .error .capacity) := by
  refine ⟨fun h => ?_, fun h => ⟨script_of_not_fits h true, script_of_not_fits h false⟩⟩
  obtain ⟨found, hfound, hmatching, -⟩ := exists_matching h
  have hleaves := leaves_allGaps hmatching.rises
  refine ⟨found, _, _, _, hfound, hleaves, script_eq_ok h hfound true, script_eq_ok h hfound false,
    ?_, ?_, rfl, rfl, ?_⟩
  · exact List.flatMap_congr fun g _ => edits_true g
  · exact List.flatMap_congr fun g _ => edits_false g
  · intro β a b
    rw [apply_of_leaves hleaves h.limits rfl, apply_of_leaves hleaves h.limits rfl]

/-- The scripts between two words without a common letter have the edits of a single gap. -/
theorem apply_paired_eq_apply_separate_xyz :
    (ofEq #['a', 'b'] #['x', 'y', 'z']).Fits ∧
      ∃ paired separate, (ofEq #['a', 'b'] #['x', 'y', 'z']).script true = .ok paired ∧
        (ofEq #['a', 'b'] #['x', 'y', 'z']).script false = .ok separate ∧
        paired.edits.toList = [⟨.change, 0, 0, 2⟩, ⟨.insert, 2, 2, 1⟩] ∧
        separate.edits.toList = [⟨.delete, 0, 0, 2⟩, ⟨.insert, 2, 0, 3⟩] ∧
        paired.apply #[1, 2, 3] #[4, 5, 6, 7] = separate.apply #[1, 2, 3] #[4, 5, 6, 7] := by
  have hfits : (ofEq #['a', 'b'] #['x', 'y', 'z']).Fits := by decide
  obtain ⟨found, gs, paired, separate, hfound, hleaves, hpaired, hseparate, hedits, hedits', -, -,
    happly⟩ := (apply_paired_eq_apply_separate (ofEq #['a', 'b'] #['x', 'y', 'z'])).1 hfits
  obtain ⟨hmatching, hlength⟩ := isMatching_of_matching hfits hfound
  have hnone : found.toList = [] :=
    List.length_eq_zero_iff.mp ((hmatching.length_eq_table hlength).trans (by decide))
  rw [hnone] at hleaves
  cases hleaves with
  | @last _ _ width height hx hy =>
      obtain rfl : width = 2 := by simpa [ofEq] using hx
      obtain rfl : height = 3 := by simpa [ofEq] using hy
      exact ⟨hfits, paired, separate, hpaired, hseparate, hedits, hedits', happly _ _ _⟩

end Comparison

end EditGraph
