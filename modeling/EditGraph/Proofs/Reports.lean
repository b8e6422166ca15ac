import EditGraph.Proofs.Printing

/-!
# Reports agree

The three reports on two texts come about on different ways: the edits are made from the matching
and checked against the distance, the similarity comes from the distance alone, and the lines in
common are looked up at the positions of the matching. Each report reads the files again and has a
hasher of its own. They tell the same story all the same, as the fingerprints are the same each time
and both searches are right about them.

What the edits leave of the old text are the lines in common. The elements of a gap are those that
its edits remove, and behind a gap comes the old element of a pair, which no edit removes.

## Main definitions

* `Removed` — the positions that edits remove.
* `kept` — what edits leave of a sequence.

## Main results

* `Leaves.kept_eq` — the edits of all gaps leave the elements of the pairs.
* `Session.reports_agree` — the reports on two files.
-/

namespace EditGraph

open List (Forall₂)

variable {α : Type} {n m x y x' y' i : ℕ} {es es' : List Edit} {l : List Match} {gs : List Gap}
  {changes : Bool}

/-! ### What edits remove and leave -/

/-- One of the edits removes the old element at position `i`, counted from zero. -/
def Removed (es : List Edit) (i : ℕ) : Prop := ∃ e ∈ es, e.x ≤ i ∧ i < e.x + e.removed

instance (es : List Edit) (i : ℕ) : Decidable (Removed es i) :=
  inferInstanceAs (Decidable (∃ e ∈ es, e.x ≤ i ∧ i < e.x + e.removed))

/-- A position is removed by edits when it is by some of them. -/
theorem removed_append : Removed (es ++ es') i ↔ Removed es i ∨ Removed es' i := by
  simp only [Removed, List.mem_append, or_and_right, exists_or]

/-- The elements that no edit removes, in order, the first element being at position `x`. -/
def kept (es : List Edit) (x : ℕ) : List α → List α
  | [] => []
  | a :: s => if Removed es x then kept es (x + 1) s else a :: kept es (x + 1) s

/-- What is kept of a sequence is kept of its parts. -/
theorem kept_append (es : List Edit) (x : ℕ) (s t : List α) :
    kept es x (s ++ t) = kept es x s ++ kept es (x + s.length) t := by
  induction s generalizing x with
  | nil => rfl
  | cons a s ih =>
      rw [List.cons_append, kept, kept, ih, List.length_cons, Nat.add_assoc, Nat.add_comm 1]
      split <;> rfl

/-- Nothing is kept where everything is removed. -/
theorem kept_eq_nil {s : List α} (h : ∀ i, x ≤ i → i < x + s.length → Removed es i) :
    kept es x s = [] := by
  induction s generalizing x with
  | nil => rfl
  | cons a s ih =>
      rw [List.length_cons] at h
      rw [kept, if_pos (h x le_rfl (by omega))]
      exact ih fun i hx hi => h i (by omega) (by omega)

/-- Only what is removed behind the beginning of a sequence counts. -/
theorem kept_congr (h : ∀ i, x ≤ i → (Removed es i ↔ Removed es' i)) (s : List α) :
    kept es x s = kept es' x s := by
  induction s generalizing x with
  | nil => rfl
  | cons a s ih =>
      rw [kept, kept, ih fun i hi => h i (by omega)]
      simp only [h x le_rfl]

/-! ### What the edits of gaps leave -/

/-- Edits that lead from one point to another remove what lies between them. -/
theorem Spans.removed_iff (h : Spans x' y' x y es) : Removed es i ↔ x ≤ i ∧ i < x' := by
  induction es generalizing x y with
  | nil =>
      obtain ⟨rfl, rfl⟩ := h
      simp only [Removed, List.not_mem_nil, false_and, exists_false, false_iff]
      omega
  | cons e es ih =>
      obtain ⟨rfl, rfl, -, hes⟩ := h
      have hle := hes.le
      rw [← List.singleton_append, removed_append, ih hes]
      simp only [Removed, List.mem_singleton, exists_eq_left]
      omega

/-- The edits of a gap remove its old elements. -/
theorem removed_edits_iff {g : Gap} : Removed (g.edits changes) i ↔ g.x ≤ i ∧ i < g.x + g.width :=
  (spans_edits changes g).removed_iff

/-- A position is removed in the first gap, or by the edits of the others. -/
theorem removed_cons_iff {g : Gap} :
    Removed ((g :: gs).flatMap (Gap.edits changes)) i ↔
      (g.x ≤ i ∧ i < g.x + g.width) ∨ Removed (gs.flatMap (Gap.edits changes)) i := by
  rw [List.flatMap_cons, removed_append, removed_edits_iff]

/-- The edits of gaps remove nothing before the first gap. -/
theorem Leaves.le_of_removed (h : Leaves n m x y l gs)
    (hi : Removed (gs.flatMap (Gap.edits changes)) i) : x ≤ i := by
  obtain ⟨e, he, hxi, -⟩ := hi
  exact (h.le_of_mem he).trans hxi

/-- The edits of a gap remove its old elements, the element of the pair behind it stays, and what
comes then is left to the other gaps. -/
theorem kept_gap {width height : ℕ} {s t : List α} {a : α} (hs : s.length = width)
    (hbehind : ∀ i, Removed (gs.flatMap (Gap.edits changes)) i → x + width < i) :
    kept ((⟨x, y, width, height⟩ :: gs).flatMap (Gap.edits changes)) x (s ++ a :: t) =
      a :: kept (gs.flatMap (Gap.edits changes)) (x + width + 1) t := by
  have hgap : kept ((⟨x, y, width, height⟩ :: gs).flatMap (Gap.edits changes)) x s = [] :=
    kept_eq_nil fun i hxi hi => removed_cons_iff.mpr (.inl ⟨hxi, hs ▸ hi⟩)
  have hpair : ¬ Removed ((⟨x, y, width, height⟩ :: gs).flatMap (Gap.edits changes))
      (x + width) := by
    rw [removed_cons_iff]
    rintro (⟨-, hi⟩ | hi)
    · exact absurd hi (lt_irrefl _)
    · exact absurd (hbehind _ hi) (lt_irrefl _)
  rw [kept_append, hgap, List.nil_append, hs, kept, if_neg hpair]
  refine congrArg _ (kept_congr (fun i hi => ?_) t)
  rw [removed_cons_iff, or_iff_right]
  simp only
  omega

/-- **The edits of all gaps leave the elements of the pairs.** -/
theorem Leaves.kept_eq (h : Leaves n m x y l gs) {s u : List α} (hs : s.length = n)
    (hu : Forall₂ (HasAt s) (l.map Match.x) u) :
    kept (gs.flatMap (Gap.edits changes)) x (s.drop x) = u := by
  induction h generalizing u with
  | @last x y width height hx hy =>
      cases hu
      refine kept_eq_nil fun i hxi hi => ?_
      rw [List.length_drop] at hi
      rw [List.flatMap_cons, List.flatMap_nil, List.append_nil, removed_edits_iff]
      exact ⟨hxi, by simp only; omega⟩
  | @pair x y width height l gs hrest ih =>
      cases hu with
      | @cons _ a _ u ha hu =>
          have ha : s[x + width]? = some a := ha.2
          obtain ⟨hlt, rfl⟩ := List.getElem?_eq_some_iff.mp ha
          have hsplit : s.drop x =
              (s.drop x).take width ++ s[x + width] :: s.drop (x + width + 1) := by
            rw [← List.drop_eq_getElem_cons hlt, ← List.drop_drop, List.take_append_drop]
          have hlength : ((s.drop x).take width).length = width := by
            rw [List.length_take, List.length_drop]
            omega
          rw [hsplit, kept_gap hlength fun i hi => hrest.le_of_removed hi, ih hu]

/-! ### What the reports say -/

/-- The edits of a matching cost the elements beside its pairs. -/
theorem Comparison.IsMatching.sum_cost_allEdits {c : Comparison α} (h : c.IsMatching l)
    (changes : Bool) :
    ((allEdits changes c.old.size c.new.size l).map fun e => e.removed + e.inserted).sum +
      2 * l.length = c.old.size + c.new.size := by
  obtain ⟨hold, hnew⟩ := h.lengthOf_allEdits changes
  rw [List.sum_map_add, sum_removed, sum_inserted]
  omega

/-! ### Answers of a session -/

namespace Session

variable {s : Session} {old new : String} {a b : Array String} {o : LineOptions}

/-- **The reports agree.** Both files can be read, and colours are not wanted. With the same method
and normalization the reports on the edits, with or without changes, on the similarity and on the
lines in common have this to do with each other: the lines in common are those old lines that no
edit removes, in order; the number of edits is that of the lines before the summary; the total
length is the sum of their lengths, and what is left of the lines of both texts without it are the
lines in common, counted twice; and the similarities have the same text. -/
theorem reports_agree (s : Session) (hcolour : s.colour = false) (old new : String)
    (a b : Array String) (ha : s.workspace.readLines old = .ok a)
    (hb : s.workspace.readLines new = .ok b) (o : LineOptions) (changes : Bool) :
    (LineComparison.Fits ⟨a, b, o⟩ → ∃ script records costs common similarity,
      LineComparison.script ⟨a, b, { o with changes }⟩ = .ok script ∧
      script.edits.toList.mapM Edit.record = .ok records ∧
      script.edits.toList.mapM Edit.cost = .ok costs ∧
      s.Prints (.compare .diff old new { o with changes }) (Report.unlines
        (records ++ ["edits: " ++ toString records.length ++ ", total edit length: " ++
          toString costs.sum ++ ", similarity: " ++ similarity])) ∧
      s.Prints (.compare .similarity old new o) (Report.unlines [similarity]) ∧
      s.Prints (.compare .common old new o) (Report.unlines common) ∧
      common = kept script.edits.toList 0 a.toList ∧
      costs.sum + 2 * common.length = a.size + b.size) ∧
    (¬ LineComparison.Fits ⟨a, b, o⟩ → ∀ command,
      s.Fails (.compare command old new o) (.fault .capacity)) := by
  refine ⟨fun hfits => ?_, fun hfits command => ?_⟩
  · have hfits := LineComparison.fits_byFingerprint_iff.mpr hfits
    obtain ⟨found, u, hfound, hcommon, hu⟩ := LineComparison.exists_common hfits
    obtain ⟨hmatching, hlength⟩ := Comparison.isMatching_of_matching hfits hfound
    obtain ⟨records, hrecords, hcount⟩ := hmatching.exists_records hfits changes
    -- the edits cost no more than both texts have lines, so their sum does not overflow
    have hsum := hmatching.sum_cost_allEdits changes
    have hlimit := (Nat.le_add_right _ 2).trans_lt hfits.sum_lt
    have hcosts := mapM_cost_eq_ok (lt_of_le_of_lt (Nat.le_of_add_right_le hsum.le) hlimit)
    have hscript : LineComparison.script ⟨a, b, { o with changes }⟩ = .ok _ :=
      Comparison.script_eq_ok hfits hfound changes
    have hlines : found.toList.length = u.length := by simpa using hu.length_eq
    rw [Array.length_toList] at hsum hlines
    refine ⟨_, records, _, u, (⟨found.size, _⟩ : Similarity).text, hscript, hrecords, hcosts, ?_,
      prints_of_report ha hb (report_similarity (Comparison.similarity_eq_ok hfits hfound) _),
      prints_of_report ha hb (report_common hcommon _), ?_, ?_⟩
    · refine prints_of_report ha hb ?_
      have hcost := Nat.eq_sub_of_add_eq hsum
      rw [hcolour, report_diff hscript hrecords, Report.summary, hcount, hcost,
        Nat.eq_sub_of_add_eq' hlength]
      rfl
    · have hold : a.toList.length = (⟨a, b, o⟩ : LineComparison).byFingerprint.old.size := by
        rw [LineComparison.size_byFingerprint_old, Array.length_toList]
      exact ((leaves_allGaps hmatching.rises).kept_eq hold hu).symm
    · rw [← hlines, hsum, LineComparison.size_byFingerprint_old,
        LineComparison.size_byFingerprint_new]
  · exact fails_of_fault ha hb (report_of_not_fits hfits command _)

/-- Two files have a line in common but for its case. It is what the deletion of the other old line
leaves. -/
theorem reports_agree_ignoring_case :
    let texts := [("/w/old", "One\ntwo\n"), ("/w/new", "three\nONE\n")]
    let s := Session.create
      ⟨"/w", fun path => (texts.lookup path).map fun text => .file text.toUTF8⟩ false
    let o : LineOptions := ⟨.crc32, ⟨0, false, true⟩, true⟩
    ∃ similarity,
      s.Prints (.compare .diff "old" "new" { o with changes := false })
        (Report.unlines ["Insert a@0 b[0..1]", "Delete a[1..2] b@2",
          "edits: 2, total edit length: 2, similarity: " ++ similarity]) ∧
      s.Prints (.compare .similarity "old" "new" o) (Report.unlines [similarity]) ∧
      s.Prints (.compare .common "old" "new" o) "One\n" := by
  intro texts s o
  have hold : s.workspace.readLines "old" = .ok #["One", "two"] := by decide +kernel
  have hnew : s.workspace.readLines "new" = .ok #["three", "ONE"] := by decide +kernel
  obtain ⟨script, records, costs, common, similarity, hscript, hrecords, hcosts, hdiff,
    hsimilarity, hcommon, hkept, -⟩ :=
    (reports_agree s rfl "old" "new" _ _ hold hnew o false).1 (by decide)
  have hedits : LineComparison.script
      ⟨#["One", "two"], #["three", "ONE"], ⟨.crc32, ⟨0, false, true⟩, false⟩⟩ =
        .ok ⟨#[⟨.insert, 0, 0, 1⟩, ⟨.delete, 1, 2, 1⟩], 2, ⟨1, 4⟩⟩ := by decide +kernel
  obtain rfl := Except.ok.inj (hedits.symm.trans hscript)
  obtain rfl : ["Insert a@0 b[0..1]", "Delete a[1..2] b@2"] = records := Except.ok.inj hrecords
  obtain rfl : [1, 1] = costs := Except.ok.inj hcosts
  obtain rfl : common = ["One"] := hkept
  exact ⟨similarity, hdiff, hsimilarity, hcommon⟩

end Session

end EditGraph
