import EditGraph.Proofs.Reports

/-!
# Lines in common, saved

The report on the lines in common has a line feed behind each line, so it is a text of just these
lines: none of them has a line feed, since they are lines of the old text, and none loses a carriage
return unless it ends in one. Saved as a file, the report is read back line by line.

Compared with either of the two texts by content, the saved lines are in common once more, all of
them. They are lines of the old text in their order, and their partners are lines of the new text
with the same fingerprints. A longest common subsequence of them and either text has them all, and
so the report is the same again. This needs the search to find a longest one, and the report to
write the lines of the first file.

## Main results

* `Text.lines_unlines` — reading lines that were written.
* `Comparison.common_eq_old` — a sequence all of which is in common with another one.
* `Session.saved_lines_stay` — the report on the lines in common, saved as a file.
-/

namespace EditGraph

open List (Forall₂)

/-! ### Writing and reading lines -/

namespace Report

/-- A text of lines begins with the first of them and its end. -/
theorem toList_unlines_cons (line : String) (rest : List String) :
    (unlines (line :: rest)).toList = line.toList ++ '\n' :: (unlines rest).toList := by
  rw [unlines, List.map_cons, String.join_cons, String.toList_append, String.toList_append,
    List.append_assoc]
  rfl

end Report

namespace Text

variable {s line : List Char}

/-- The end of a line takes nothing but one carriage return. -/
theorem subset_closeLine (line : List Char) : closeLine line ⊆ line := by
  unfold closeLine
  split
  · exact fun c hc => List.mem_cons_of_mem _ (List.mem_reverse.mp hc)
  · exact fun c hc => List.mem_reverse.mp hc

/-- A line without a carriage return at its end is closed as it stands. -/
theorem closeLine_reverse (h : s.getLast? ≠ some '\r') : closeLine s.reverse = s := by
  unfold closeLine
  split
  · next heq =>
      rw [← List.head?_reverse, heq] at h
      exact absurd rfl h
  · exact List.reverse_reverse s

/-- No line has a line feed. -/
theorem not_mem_of_mem_linesFrom (hline : '\n' ∉ line) {l : List Char}
    (hl : l ∈ linesFrom line s) : '\n' ∉ l := by
  induction s generalizing line with
  | nil =>
      rw [linesFrom] at hl
      split at hl
      · exact absurd hl List.not_mem_nil
      · rw [List.mem_singleton.mp hl, List.mem_reverse]
        exact hline
  | cons c s ih =>
      rw [linesFrom] at hl
      split at hl
      · rcases List.mem_cons.mp hl with rfl | hl
        · exact fun h => hline (subset_closeLine line h)
        · exact ih List.not_mem_nil hl
      · next hc => exact ih (List.not_mem_cons_of_ne_of_not_mem (Ne.symm hc) hline) hl

/-- No line that is read has a line end in it. -/
theorem not_mem_of_mem_lines {text line : String} (h : line ∈ lines text) :
    '\n' ∉ line.toList := by
  obtain ⟨l, hl, rfl⟩ := List.mem_map.mp h
  rw [String.toList_ofList]
  exact not_mem_of_mem_linesFrom List.not_mem_nil hl

/-- **Lines that were written are read back**, unless they have a line feed or end in a carriage
return. -/
theorem lines_unlines {ls : List String} (hfeed : ∀ line ∈ ls, '\n' ∉ line.toList)
    (hreturn : ∀ line ∈ ls, line.toList.getLast? ≠ some '\r') :
    lines (Report.unlines ls) = ls := by
  induction ls with
  | nil => rfl
  | cons line rest ih =>
      obtain ⟨hfeed, hfeed'⟩ := List.forall_mem_cons.mp hfeed
      obtain ⟨hreturn, hreturn'⟩ := List.forall_mem_cons.mp hreturn
      rw [lines, linesOf, Report.toList_unlines_cons, linesFrom_append hfeed, List.append_nil,
        closeLine_reverse hreturn, List.map_cons, String.ofList_toList]
      exact congrArg _ (ih hfeed' hreturn')

end Text

namespace Workspace

variable {w : Workspace} {path : String}

/-- A text in UTF-8 is read as itself. -/
theorem fromUTF8?_toUTF8 (text : String) : String.fromUTF8? text.toUTF8 = some text := by
  rw [String.fromUTF8?, String.toUTF8, dif_pos text.isValidUTF8]
  rfl

/-- A file that holds a text in UTF-8 has its lines. -/
theorem readLines_of_find {text : String}
    (h : w.find (w.resolve path) = some (.file text.toUTF8)) :
    w.readLines path = .ok (Text.lines text).toArray := by
  simp only [readLines, readFile, h, fromUTF8?_toUTF8]
  rfl

/-- The lines of a file have no line feeds. -/
theorem not_mem_of_readLines {a : Array String} (h : w.readLines path = .ok a) {line : String}
    (hline : line ∈ a) : '\n' ∉ line.toList := by
  rw [readLines] at h
  cases hread : w.readFile path with
  | error failure =>
      rw [hread] at h
      cases h
  | ok text =>
      rw [hread] at h
      obtain rfl := Except.ok.inj h
      exact Text.not_mem_of_mem_lines (List.mem_toArray.mp hline)

end Workspace

/-! ### Sequences in common with others -/

/-- A sequence all of which is in common with another one is what the two have in common. -/
theorem Comparison.common_eq_old {α : Type} {c : Comparison α} (h : c.Fits)
    (hall : IsCommon c.same c.old.toList c.new.toList c.old.toList) : c.common = .ok c.old := by
  obtain ⟨found, hfound, hmatching, hlength⟩ := exists_matching h
  obtain ⟨u, hu, hcommon⟩ := hmatching.exists_isCommon
  obtain ⟨l, hl, hl'⟩ := exists_isMatching_of_isCommon hall
  have hmost := hl.distance_le
  have hcount : found.size = u.length := by simpa using hu.length_eq
  have hle := hcommon.1.length_le
  have heq : u = c.old.toList := hcommon.1.eq_of_length (by omega)
  rw [common_eq_ok hfound hu, heq]

namespace LineComparison

variable {c : LineComparison}

/-- The lines in common are old lines, in order. -/
theorem exists_common_sublist (h : c.Fits) :
    ∃ u : List String, c.common = .ok u.toArray ∧ u.Sublist c.old.toList := by
  have hfits := fits_byFingerprint_iff.mpr h
  obtain ⟨found, u, hfound, hcommon, hu⟩ := exists_common hfits
  have hrising := (Comparison.isMatching_of_matching hfits hfound).1.rising
  exact ⟨u, hcommon, sublist_iff_hasAt.mpr ⟨_, List.pairwise_map.mpr (hrising.imp And.left), hu⟩⟩

/-- By content, the lines in common are those of the comparison of lines. -/
theorem common_eq_byLine (h : c.options.method ≠ .unique) : c.common = c.byLine.common := by
  rw [common, Comparison.common, (congruent_byLine h).sameAnswers.matching]
  rfl

/-- By content, the lines in common have partners with the same fingerprints among the new lines. -/
theorem isCommon_of_common (hmethod : c.options.method ≠ .unique) (h : c.Fits) {u : List String}
    (hu : c.common = .ok u.toArray) :
    IsCommon c.options.same c.old.toList c.new.toList u := by
  have hfits := fits_byLine_iff.mpr h
  obtain ⟨found, hfound, hmatching, -⟩ := Comparison.exists_matching hfits
  obtain ⟨u', hu', hcommon⟩ := hmatching.exists_isCommon
  rw [common_eq_byLine hmethod, Comparison.common_eq_ok hfound hu'] at hu
  obtain rfl : u' = u := congrArg Array.toList (Except.ok.inj hu)
  exact hcommon

/-- By content, lines that all are in common with a text are what they have in common with it. -/
theorem common_of_isCommon {u : List String} {b : Array String} {o : LineOptions}
    (hmethod : o.method ≠ .unique) (h : LineComparison.Fits ⟨u.toArray, b, o⟩)
    (hall : IsCommon o.same u b.toList u) :
    LineComparison.common ⟨u.toArray, b, o⟩ = .ok u.toArray := by
  rw [common_eq_byLine hmethod]
  exact Comparison.common_eq_old (fits_byLine_iff.mpr h) hall

end LineComparison

namespace Session

/-- **The lines in common, saved.** Both files can be read. The report on the lines that they have
in common is saved as a file, and none of these lines ends in a carriage return. Then the lines of
that file are the lines in common, the empty ones among them. When lines are compared by content and
the two files are still as they were, the report on the lines that the saved file has in common with
the old one, or with the new one, is the same text again. -/
theorem saved_lines_stay (s : Session) (old new : String) (a b : Array String)
    (ha : s.workspace.readLines old = .ok a) (hb : s.workspace.readLines new = .ok b)
    (o : LineOptions) :
    (LineComparison.Fits ⟨a, b, o⟩ → ∃ (common : Array String) (text : String),
      LineComparison.common ⟨a, b, o⟩ = .ok common ∧ text = Report.common common ∧
      s.Prints (.compare .common old new o) text ∧
      ((∀ line ∈ common, line.toList.getLast? ≠ some '\r') → ∀ (t : Session) (saved : String),
        t.workspace.find (t.workspace.resolve saved) = some (.file text.toUTF8) →
          t.workspace.readLines saved = .ok common ∧
          (o.method ≠ .unique →
            (t.workspace.readLines old = .ok a →
              t.Prints (.compare .common saved old o) text) ∧
            (t.workspace.readLines new = .ok b →
              t.Prints (.compare .common saved new o) text)))) ∧
    (¬ LineComparison.Fits ⟨a, b, o⟩ →
      s.Fails (.compare .common old new o) (.fault .capacity)) := by
  refine ⟨fun hfits => ?_, fun hfits => fails_of_fault ha hb (report_of_not_fits hfits _ _)⟩
  obtain ⟨u, hcommon, hu⟩ := LineComparison.exists_common_sublist hfits
  refine ⟨_, _, hcommon, rfl, prints_of_report ha hb (report_common hcommon _),
    fun hreturn t saved hsaved => ?_⟩
  have hread : t.workspace.readLines saved = .ok u.toArray := by
    have hfeed (line : String) (hline : line ∈ u) :=
      Workspace.not_mem_of_readLines ha (Array.mem_toList_iff.mp (hu.subset hline))
    rw [Workspace.readLines_of_find hsaved, Report.common,
      Text.lines_unlines hfeed fun line hline => hreturn line (List.mem_toArray.mpr hline)]
  refine ⟨hread, fun hmethod => ?_⟩
  obtain ⟨-, v, hv, huv⟩ := LineComparison.isCommon_of_common hmethod hfits hcommon
  have hself : IsCommon o.same u a.toList u :=
    ⟨.refl u, u, hu, List.forall₂_same.mpr fun line _ => beq_self_eq_true _⟩
  -- the saved lines are no more than those of either text, so these comparisons are no larger
  have hle := hu.length_le
  have hle' := hv.length_le
  have hsize := huv.length_eq
  simp only [LineComparison.Fits, Array.length_toList] at hfits hle hle'
  refine ⟨fun hold => ?_, fun hnew => ?_⟩
  · refine prints_of_report hread hold (report_common ?_ _)
    refine LineComparison.common_of_isCommon hmethod ?_ hself
    exact hfits.mono (by simp only [List.size_toArray]; omega)
  · refine prints_of_report hread hnew (report_common ?_ _)
    refine LineComparison.common_of_isCommon hmethod ?_ ⟨.refl u, v, hv, huv⟩
    exact hfits.mono (by simp only [List.size_toArray]; omega)

/-- Two of three old lines are new lines as well, up to the white space around them, and one of
these is empty. -/
theorem saved_lines_stay_trimmed :
    let texts := [("/w/old", " a\n\nb\n"), ("/w/new", "c\na\n\n")]
    let session (texts : List (String × String)) : Session := Session.create
      ⟨"/w", fun path => (texts.lookup path).map fun text => .file text.toUTF8⟩ false
    let s := session texts
    let t := session (("/w/saved", " a\n\n") :: texts)
    let o : LineOptions := ⟨.crc32, ⟨0, true, false⟩, true⟩
    s.Prints (.compare .common "old" "new" o) " a\n\n" ∧
    t.workspace.readLines "saved" = .ok #[" a", ""] ∧
    t.Prints (.compare .common "saved" "old" o) " a\n\n" ∧
    t.Prints (.compare .common "saved" "new" o) " a\n\n" := by
  intro texts session s t o
  have hlines :
      LineComparison.common ⟨#[" a", "", "b"], #["c", "a", ""], o⟩ = .ok #[" a", ""] := by
    decide +kernel
  have hfind : t.workspace.find (t.workspace.resolve "saved") =
      some (.file " a\n\n".toUTF8) := by
    have hlookup : (("/w/saved", " a\n\n") :: texts).lookup (t.workspace.resolve "saved") =
        some " a\n\n" := by decide +kernel
    exact congrArg (Option.map fun text => Entry.file text.toUTF8) hlookup
  obtain ⟨common, text, hcommon, htext, hanswer, hsaved⟩ :=
    (saved_lines_stay s "old" "new" #[" a", "", "b"] #["c", "a", ""] (by decide +kernel)
      (by decide +kernel) o).1 (by decide)
  obtain rfl := Except.ok.inj (hlines.symm.trans hcommon)
  obtain rfl : text = " a\n\n" := htext
  obtain ⟨hread, hagain⟩ := hsaved (by decide) t "saved" hfind
  obtain ⟨hold, hnew⟩ := hagain (by decide)
  exact ⟨hanswer, hread, hold (by decide +kernel), hnew (by decide +kernel)⟩

end Session

end EditGraph
