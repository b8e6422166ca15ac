import EditGraph.Proofs.ForeignReplay
import EditGraph.Proofs.SavedLines

/-!
# Records of edits

The report on edits loses nothing of them. Each kind of edit is written in a shape of its own, which
its first letter tells. In every shape the numbers stand between characters that are no digits, so
they can be read off; and an end less the beginning is the length. Records have no control
characters, so the lines of a report are the records and, as the last one, the summary.

With colours, a record stands between two control sequences. A terminal takes these out; what it
shows is the report without colours.

## Main definitions

* `Edit.EndsFit` — an edit whose ends are 64-bit quantities.
* `Text.visible` — a text without control characters.
* `Report.unpaint` — a text without its control sequences.
* `Session.Reads` — the comparison of two files of a session.

## Main results

* `Edit.line_inj` — the record of an edit determines it.
* `Report.lines_diff` — the lines of a report on edits.
* `Report.diff_uncoloured` — painted reports without their control sequences.
* `Session.reports_are_lossless` — the reports on edits, with and without colours.
-/

namespace EditGraph

open List (Forall₂)

/-! ### Records -/

/-- Digits that something else follows can be read off. -/
theorem toDigits_append_inj {n m : ℕ} {s t : List Char} (hs : s.takeWhile Char.isDigit = [])
    (ht : t.takeWhile Char.isDigit = [])
    (h : Nat.toDigits 10 n ++ s = Nat.toDigits 10 m ++ t) : n = m ∧ s = t := by
  have hdigits (k : ℕ) : ∀ c ∈ Nat.toDigits 10 k, c.isDigit = true := fun c =>
    Nat.isDigit_of_mem_toDigits (by decide) (by decide)
  have hfront := congrArg (List.takeWhile Char.isDigit) h
  rw [List.takeWhile_append_of_pos (hdigits n), List.takeWhile_append_of_pos (hdigits m), hs, ht,
    List.append_nil, List.append_nil] at hfront
  have hvalue := congrArg (fun digits => Nat.ofDigitChars 10 digits 0) hfront
  simp only [Nat.ofDigitChars_ten_toDigits] at hvalue
  rw [hfront] at h
  exact ⟨hvalue, List.append_cancel_left h⟩

namespace Edit

variable {e e' : Edit} {es es' : List Edit} {r : String} {rs : List String} {x y x' y' : ℕ}

/-- The ends of the edit are 64-bit quantities, and with them all that it consists of. -/
structure EndsFit (e : Edit) : Prop where
  old : e.x + e.removed < Word.limit
  new : e.y + e.inserted < Word.limit

/-- An edit whose ends are 64-bit quantities is recorded, with those ends. -/
theorem record_eq_ok (h : e.EndsFit) :
    e.record = .ok (e.line (e.x + e.removed) (e.y + e.inserted)) := by
  rw [record, oldEnd, newEnd, Word.fit_of_lt h.old, ok_bind, Word.fit_of_lt h.new, ok_bind]
  rfl

/-- Only edits with 64-bit ends have records. -/
theorem record_eq_ok_iff :
    e.record = .ok r ↔ e.EndsFit ∧ e.line (e.x + e.removed) (e.y + e.inserted) = r := by
  refine ⟨fun h => ?_, fun ⟨h, hr⟩ => hr ▸ record_eq_ok h⟩
  obtain ⟨_, holdEnd, h⟩ := exists_of_bind_eq_ok h
  obtain ⟨_, hnewEnd, h⟩ := exists_of_bind_eq_ok h
  obtain ⟨hold, rfl⟩ := Word.fit_eq_ok_iff.mp holdEnd
  obtain ⟨hnew, rfl⟩ := Word.fit_eq_ok_iff.mp hnewEnd
  exact ⟨⟨hold, hnew⟩, Except.ok.inj h⟩

/-- The line of a deletion, number by number. -/
theorem toList_line_delete (h : e.kind = .delete) : (e.line x y).toList =
    "Delete a[".toList ++ (Nat.toDigits 10 e.x ++ ("..".toList ++ (Nat.toDigits 10 x ++
      ("] b@".toList ++ (Nat.toDigits 10 e.y ++ []))))) := by
  simp [line, h, EditKind.name, toString]

/-- The line of an insertion, number by number. -/
theorem toList_line_insert (h : e.kind = .insert) : (e.line x y).toList =
    "Insert a@".toList ++ (Nat.toDigits 10 e.x ++ (" b[".toList ++ (Nat.toDigits 10 e.y ++
      ("..".toList ++ (Nat.toDigits 10 y ++ "]".toList))))) := by
  simp [line, h, EditKind.name, toString]

/-- The line of a change, number by number. -/
theorem toList_line_change (h : e.kind = .change) : (e.line x y).toList =
    "Change a[".toList ++ (Nat.toDigits 10 e.x ++ ("..".toList ++ (Nat.toDigits 10 x ++
      ("] b[".toList ++ (Nat.toDigits 10 e.y ++ ("..".toList ++ (Nat.toDigits 10 y ++
        "]".toList))))))) := by
  simp [line, h, EditKind.name, toString]

/-- The first letter of a record is that of the name of the kind. -/
theorem head?_line (e : Edit) (x y : ℕ) :
    (e.line x y).toList.head? = e.kind.name.toList.head? := by
  cases h : e.kind with
  | delete => rw [toList_line_delete h]; rfl
  | insert => rw [toList_line_insert h]; rfl
  | change => rw [toList_line_change h]; rfl

/-- No two kinds have the same first letter. -/
theorem kind_eq_of_line (h : e.line x y = e'.line x' y') : e.kind = e'.kind := by
  have hfirst := congrArg (fun r : String => r.toList.head?) h
  simp only [head?_line] at hfirst
  revert hfirst
  cases e.kind <;> cases e'.kind <;> decide

/-- **The record of an edit determines it**, and the ends that it shows. -/
theorem line_inj (h : e.line (e.x + e.removed) (e.y + e.inserted) =
    e'.line (e'.x + e'.removed) (e'.y + e'.inserted)) : e = e' := by
  have hkind := kind_eq_of_line h
  obtain ⟨kind, x, y, length⟩ := e
  obtain ⟨kind', x', y', length'⟩ := e'
  obtain rfl : kind = kind' := hkind
  have hlist := congrArg String.toList h
  cases kind with
  | delete =>
      rw [toList_line_delete rfl, toList_line_delete rfl, List.append_cancel_left_eq] at hlist
      obtain ⟨rfl, hlist⟩ := toDigits_append_inj rfl rfl hlist
      rw [List.append_cancel_left_eq] at hlist
      obtain ⟨hend, hlist⟩ := toDigits_append_inj rfl rfl hlist
      rw [List.append_cancel_left_eq] at hlist
      obtain ⟨rfl, -⟩ := toDigits_append_inj rfl rfl hlist
      obtain rfl := Nat.add_left_cancel hend
      rfl
  | insert =>
      rw [toList_line_insert rfl, toList_line_insert rfl, List.append_cancel_left_eq] at hlist
      obtain ⟨rfl, hlist⟩ := toDigits_append_inj rfl rfl hlist
      rw [List.append_cancel_left_eq] at hlist
      obtain ⟨rfl, hlist⟩ := toDigits_append_inj rfl rfl hlist
      rw [List.append_cancel_left_eq] at hlist
      obtain ⟨hend, -⟩ := toDigits_append_inj rfl rfl hlist
      obtain rfl := Nat.add_left_cancel hend
      rfl
  | change =>
      rw [toList_line_change rfl, toList_line_change rfl, List.append_cancel_left_eq] at hlist
      obtain ⟨rfl, hlist⟩ := toDigits_append_inj rfl rfl hlist
      rw [List.append_cancel_left_eq] at hlist
      obtain ⟨hend, hlist⟩ := toDigits_append_inj rfl rfl hlist
      rw [List.append_cancel_left_eq] at hlist
      obtain ⟨rfl, -⟩ := toDigits_append_inj rfl rfl hlist
      obtain rfl := Nat.add_left_cancel hend
      rfl

/-- Records that come out alike come from the same edits. -/
theorem eq_of_record (h : e.record = .ok r) (h' : e'.record = .ok r) : e = e' := by
  obtain ⟨-, rfl⟩ := record_eq_ok_iff.mp h
  exact (line_inj (record_eq_ok_iff.mp h').2).symm

/-- So do lists of records. -/
theorem eq_of_mapM_record (h : es.mapM record = .ok rs) (h' : es'.mapM record = .ok rs) :
    es = es' :=
  have hunique : Relator.LeftUnique fun (e : Edit) r => e.record = .ok r :=
    fun _ _ _ => eq_of_record
  List.left_unique_forall₂' hunique (forall₂_of_mapM h) (forall₂_of_mapM h')

end Edit

/-! ### No control characters -/

namespace Text

/-- The text has no control characters. -/
def visible (s : List Char) : Bool := s.all fun c => ' '.toNat ≤ c.toNat

variable {s t : List Char}

/-- Texts are visible together when each of them is. -/
@[simp] theorem visible_append : visible (s ++ t) = (visible s && visible t) := List.all_append

/-- Characters from the space on are no control characters. -/
theorem not_mem_of_visible (h : visible s = true) {c : Char} (hc : c.toNat < ' '.toNat) :
    c ∉ s :=
  fun hmem => absurd (of_decide_eq_true (List.all_eq_true.mp h c hmem)) (not_le.mpr hc)

/-- Digits are visible. -/
@[simp] theorem visible_toDigits (n : ℕ) : visible (Nat.toDigits 10 n) = true := by
  refine List.all_eq_true.mpr fun c hc => decide_eq_true ?_
  have hdigit := Nat.isDigit_of_mem_toDigits (by decide) (by decide) hc
  simp only [Char.isDigit, Bool.and_eq_true, decide_eq_true_eq] at hdigit
  exact le_trans (by decide) (UInt32.le_iff_toNat_le.mp hdigit.1)

/-- Zeros are visible. -/
@[simp] theorem visible_replicate_zero (n : ℕ) : visible (List.replicate n '0') = true := by
  rw [visible, List.all_replicate]
  split <;> rfl

/-- A number with decimal places is visible. -/
theorem visible_fixed (places : ℕ) (x : Binary64) :
    visible (x.fixed places).toList = true := by
  simp only [Binary64.fixed, toString, String.toList_append, visible_append, String.toList_ofList,
    Nat.toList_repr, visible_toDigits, visible_replicate_zero, Bool.true_and, Bool.and_true]
  rfl

/-- Lines without control characters are read back when they were written. -/
theorem lines_unlines_of_visible {ls : List String} (h : ∀ l ∈ ls, visible l.toList = true) :
    lines (Report.unlines ls) = ls :=
  lines_unlines (fun l hl => not_mem_of_visible (h l hl) (by decide)) fun l hl hlast =>
    not_mem_of_visible (h l hl) (by decide) (List.mem_of_getLast? hlast)

end Text

open Text (visible)

/-- The line of an edit is visible. -/
theorem Edit.visible_line (e : Edit) (x y : ℕ) : visible (e.line x y).toList = true := by
  cases h : e.kind with
  | delete => simp only [toList_line_delete h, Text.visible_append, Text.visible_toDigits]; rfl
  | insert => simp only [toList_line_insert h, Text.visible_append, Text.visible_toDigits]; rfl
  | change => simp only [toList_line_change h, Text.visible_append, Text.visible_toDigits]; rfl

/-- Records are visible. -/
theorem Edit.visible_of_mem_records {es : List Edit} {rs : List String}
    (h : es.mapM record = .ok rs) {r : String} (hr : r ∈ rs) : visible r.toList = true := by
  have hrs := forall₂_of_mapM h
  clear h
  induction hrs with
  | nil => exact absurd hr List.not_mem_nil
  | cons hrecord _ ih =>
      rcases List.mem_cons.mp hr with rfl | hr
      · obtain ⟨-, rfl⟩ := record_eq_ok_iff.mp hrecord
        exact visible_line ..
      · exact ih hr

namespace Report

/-- The summary is visible. -/
theorem visible_summary (s : EditScript) : visible (summary s).toList = true := by
  simp only [summary, Similarity.text, toString, Nat.toList_repr, String.toList_append,
    Text.visible_append, Text.visible_toDigits, Text.visible_fixed]
  rfl

/-- The lines of a report on edits are the records and the summary. -/
theorem lines_diff {s : EditScript} {rs : List String}
    (h : s.edits.toList.mapM Edit.record = .ok rs) :
    Text.lines (unlines (rs ++ [summary s])) = rs ++ [summary s] :=
  Text.lines_unlines_of_visible <| List.forall_mem_append.mpr
    ⟨fun _ => Edit.visible_of_mem_records h, List.forall_mem_singleton.mpr (visible_summary s)⟩

/-! ### Without colours -/

/-- Where a terminal is in a text. -/
inductive Scan where
  /-- Between the control sequences. -/
  | text
  /-- Behind the character that may begin a control sequence. -/
  | escape
  /-- In a control sequence. -/
  | sequence
  deriving DecidableEq, Repr

/-- What a terminal shows of a text. A control sequence begins with an escape character and a
bracket and ends with the first character from `@` to `~`. -/
def shown : Scan → List Char → List Char
  | .text, [] => []
  | .text, c :: s => if c = '\x1b' then shown .escape s else c :: shown .text s
  | .escape, [] => ['\x1b']
  | .escape, c :: s =>
      if c = '[' then shown .sequence s
      else if c = '\x1b' then '\x1b' :: shown .escape s
      else '\x1b' :: c :: shown .text s
  | .sequence, [] => []
  | .sequence, c :: s => if '@' ≤ c ∧ c ≤ '~' then shown .text s else shown .sequence s

/-- The text without the control sequences in it. -/
def unpaint (text : String) : String := .ofList (shown .text text.toList)

/-- A text without escapes is shown as it is, whatever follows. -/
theorem shown_append {s : List Char} (h : '\x1b' ∉ s) (t : List Char) :
    shown .text (s ++ t) = s ++ shown .text t := by
  induction s with
  | nil => rfl
  | cons c s ih =>
      obtain ⟨hc, hs⟩ := List.ne_and_not_mem_of_not_mem_cons h
      rw [List.cons_append, shown, if_neg (Ne.symm hc), ih hs, List.cons_append]

/-- A terminal shows the first text, at the beginning of any other, as the second one. -/
def Shows (painted plain : String) : Prop :=
  ∀ t, shown .text (painted.toList ++ t) = plain.toList ++ shown .text t

/-- A visible text shows itself. -/
theorem shows_of_visible {text : String} (h : visible text.toList = true) : Shows text text :=
  shown_append (Text.not_mem_of_visible h (by decide))

/-- A visible text shows through its colour. -/
theorem shows_paint (kind : EditKind) {text : String} (h : visible text.toList = true) :
    Shows (paint kind text) text := by
  intro t
  have hcolour (s : List Char) :
      shown .text (("\x1b[" ++ toString (colourCode kind) ++ "m").toList ++ s) =
        shown .text s := by
    cases kind <;> rfl
  have hreset : shown .text ("\x1b[0m".toList ++ t) = shown .text t := rfl
  rw [paint, String.toList_append, String.toList_append, List.append_assoc, List.append_assoc,
    hcolour, shows_of_visible h, hreset]

/-- Lines that show others show their text, line by line. -/
theorem shown_unlines {painted plain : List String} (h : Forall₂ Shows painted plain) :
    shown .text (unlines painted).toList = (unlines plain).toList := by
  induction h with
  | nil => rfl
  | cons h _ ih =>
      rw [toList_unlines_cons, toList_unlines_cons, h, ← ih]
      rfl

/-- The coloured records of edits show the plain ones. -/
theorem shows_coloured {es : List Edit} {rs : List String} (h : es.mapM Edit.record = .ok rs) :
    Forall₂ Shows (es.zipWith (coloured true) rs) (es.zipWith (coloured false) rs) := by
  have hvisible (r : String) (hr : r ∈ rs) := Edit.visible_of_mem_records h hr
  have hrs := forall₂_of_mapM h
  clear h
  induction hrs with
  | nil => exact .nil
  | cons _ _ ih =>
      obtain ⟨hr, hvisible⟩ := List.forall_mem_cons.mp hvisible
      exact .cons (shows_paint _ hr) (ih hvisible)

/-- **Painted reports differ in nothing but their control sequences.** -/
theorem diff_uncoloured (s : EditScript) : diff false s = unpaint <$> diff true s := by
  rw [diff, diff, mapM_editLine, mapM_editLine]
  cases h : s.edits.toList.mapM Edit.record with
  | error fault => rfl
  | ok rs =>
      have hsummary : Forall₂ Shows [summary s] [summary s] :=
        .cons (shows_of_visible (visible_summary s)) .nil
      have hshown := shown_unlines (List.rel_append (shows_coloured h) hsummary)
      exact congrArg Except.ok ((String.ofList_toList ..).symm.trans (congrArg _ hshown.symm))

end Report

/-! ### Reports of a session -/

namespace Session

/-- The comparison is one of the lines of the files at the two paths. -/
structure Reads (s : Session) (old new : String) (c : LineComparison) : Prop where
  old : s.workspace.readLines old = .ok c.old
  new : s.workspace.readLines new = .ok c.new

variable {s : Session} {old new : String} {c : LineComparison} {command : Command}

/-- What such a comparison reports is printed. -/
theorem Reads.prints {text : String} (h : s.Reads old new c)
    (hreport : report command s.colour c = .ok text) :
    s.Prints (.compare command old new c.options) text := prints_of_report h.old h.new hreport

/-- Reports in colours differ in nothing but their control sequences, -/
theorem report_uncoloured (c : LineComparison) :
    report .diff false c = Report.unpaint <$> report .diff true c := by
  rw [report, report]
  cases c.script with
  | error fault => rfl
  | ok script => exact Report.diff_uncoloured script

/-- and so do reports on two files. -/
theorem compare_uncoloured (s : Session) (old new : String) (o : LineOptions) :
    { s with colour := false }.compare .diff old new o =
      Report.unpaint <$> { s with colour := true }.compare .diff old new o := by
  rw [compare, compare]
  cases s.workspace.readLines old with
  | error failure => rfl
  | ok a =>
      cases s.workspace.readLines new with
      | error failure => rfl
      | ok b =>
          simp only [bind, Except.bind, report_uncoloured]
          cases report .diff true ⟨a, b, o⟩ <;> rfl

/-- What is printed in colours is printed without them, but for the control sequences. -/
theorem prints_uncoloured {o : LineOptions} {text : String}
    (h : { s with colour := true }.Prints (.compare .diff old new o) text) :
    { s with colour := false }.Prints (.compare .diff old new o) (Report.unpaint text) := by
  refine prints_of_answer ?_
  have hanswer := h.answer
  rw [answer] at hanswer ⊢
  rw [compare_uncoloured]
  cases hpainted : { s with colour := true }.compare .diff old new o with
  | error failure =>
      rw [hpainted] at hanswer
      cases hanswer
  | ok painted =>
      rw [hpainted] at hanswer
      obtain rfl := Reply.output.inj (Except.ok.inj hanswer)
      rfl

/-- The report on the edits of two files that are not too large. -/
theorem Reads.exists_report (h : s.Reads old new c) (hcolour : s.colour = false) (hfits : c.Fits) :
    ∃ script records, c.script = .ok script ∧ script.edits.toList.mapM Edit.record = .ok records ∧
      s.Prints (.compare .diff old new c.options)
        (Report.unlines (records ++ [Report.summary script])) := by
  obtain ⟨script, records, hscript, hrecords⟩ := LineComparison.exists_script hfits
  refine ⟨script, records, hscript, hrecords, h.prints ?_⟩
  rw [hcolour, report_diff hscript hrecords]

/-- **Reports on edits are lossless.** Edits with 64-bit ends have the same record only if they are
the same. The first of two sessions, neither with colours, reads two files, and so does the second.
If neither comparison is too large, both report on the edits, and each report ends with the line for
the summary. The lines before it are the same in both only if the edits are. A comparison that is
too large has no report. And with colours, a report is the same when the control sequences are taken
out of it, or fails just alike; so it is printed as well. -/
theorem reports_are_lossless :
    (∀ e e' : Edit, e.EndsFit → e'.EndsFit →
      ∃ r r', e.record = .ok r ∧ e'.record = .ok r' ∧ (r = r' ↔ e = e')) ∧
    (∀ (s s' : Session) (old new old' new' : String) (c c' : LineComparison),
      s.colour = false → s'.colour = false → s.Reads old new c → s'.Reads old' new' c' →
      c.Fits → c'.Fits → ∃ script script' text text',
        c.script = .ok script ∧ c'.script = .ok script' ∧
        s.Prints (.compare .diff old new c.options) text ∧
        s'.Prints (.compare .diff old' new' c'.options) text' ∧
        (Text.lines text).getLast? = some (Report.summary script) ∧
        (Text.lines text').getLast? = some (Report.summary script') ∧
        ((Text.lines text).dropLast = (Text.lines text').dropLast ↔
          script.edits = script'.edits)) ∧
    (∀ (s : Session) (old new : String) (c : LineComparison), s.Reads old new c → ¬ c.Fits →
      s.Fails (.compare .diff old new c.options) (.fault .capacity)) ∧
    ∀ (s : Session) (old new : String) (o : LineOptions),
      { s with colour := false }.compare .diff old new o =
        Report.unpaint <$> { s with colour := true }.compare .diff old new o ∧
      ∀ text, { s with colour := true }.Prints (.compare .diff old new o) text →
        { s with colour := false }.Prints (.compare .diff old new o) (Report.unpaint text) := by
  refine ⟨fun e e' he he' => ?_, fun s s' old new old' new' c c' hcolour hcolour' h h' hc hc' => ?_,
    fun s old new c h hc => fails_of_fault h.old h.new (report_of_not_fits hc _ _),
    fun s old new o => ⟨compare_uncoloured s old new o, fun _ => prints_uncoloured⟩⟩
  · refine ⟨_, _, Edit.record_eq_ok he, Edit.record_eq_ok he', Edit.line_inj, ?_⟩
    rintro rfl
    rfl
  · obtain ⟨script, records, hscript, hrecords, htext⟩ := h.exists_report hcolour hc
    obtain ⟨script', records', hscript', hrecords', htext'⟩ := h'.exists_report hcolour' hc'
    refine ⟨script, script', _, _, hscript, hscript', htext, htext', ?_⟩
    rw [Report.lines_diff hrecords, Report.lines_diff hrecords', List.dropLast_concat,
      List.dropLast_concat]
    refine ⟨List.getLast?_concat, List.getLast?_concat, ?_, fun hedits => ?_⟩
    · rintro rfl
      exact Array.toList_inj.mp (Edit.eq_of_mapM_record hrecords hrecords')
    · rw [hedits] at hrecords
      exact Except.ok.inj (hrecords.symm.trans hrecords')

/-- Records of two kinds of edit, two reports that differ in the summary alone, and one of them in
colours. -/
theorem reports_are_lossless_deletion :
    let texts := [("/w/old", "a\nb\n"), ("/w/new", "b\n"), ("/w/longer", "a\nb\nc\n"),
      ("/w/shorter", "b\nc\n")]
    let s := Session.create
      ⟨"/w", fun path => (texts.lookup path).map fun text => .file text.toUTF8⟩ false
    let o : LineOptions := ⟨.crc32, ⟨0, false, false⟩, true⟩
    (∃ r r', Edit.record ⟨.delete, 0, 0, 1⟩ = .ok r ∧ Edit.record ⟨.change, 0, 0, 1⟩ = .ok r' ∧
      r ≠ r') ∧
    (∃ text text', s.Prints (.compare .diff "old" "new" o) text ∧
      s.Prints (.compare .diff "longer" "shorter" o) text' ∧
      (Text.lines text).dropLast = (Text.lines text').dropLast ∧ text ≠ text') ∧
    (∃ painted, { s with colour := true }.Prints (.compare .diff "old" "new" o) painted ∧
      s.Prints (.compare .diff "old" "new" o) (Report.unpaint painted) ∧
      painted ≠ Report.unpaint painted) := by
  intro texts s o
  obtain ⟨hedits, hruns, -, hcolours⟩ := reports_are_lossless
  have hread : s.Reads "old" "new" ⟨#["a", "b"], #["b"], o⟩ :=
    ⟨by decide +kernel, by decide +kernel⟩
  refine ⟨?_, ?_, ?_⟩
  · obtain ⟨r, r', hr, hr', hiff⟩ := hedits ⟨.delete, 0, 0, 1⟩ ⟨.change, 0, 0, 1⟩
      ⟨by decide, by decide⟩ ⟨by decide, by decide⟩
    exact ⟨r, r', hr, hr', fun h => absurd (hiff.mp h) (by decide)⟩
  · obtain ⟨script, script', text, text', hscript, hscript', htext, htext', hlast, hlast', hiff⟩ :=
      hruns s s "old" "new" "longer" "shorter" ⟨#["a", "b"], #["b"], o⟩
        ⟨#["a", "b", "c"], #["b", "c"], o⟩ rfl rfl hread
        ⟨by decide +kernel, by decide +kernel⟩ (by decide) (by decide)
    have hfirst : LineComparison.script ⟨#["a", "b"], #["b"], o⟩ =
        .ok ⟨#[⟨.delete, 0, 0, 1⟩], 1, ⟨1, 3⟩⟩ := by decide +kernel
    have hsecond : LineComparison.script ⟨#["a", "b", "c"], #["b", "c"], o⟩ =
        .ok ⟨#[⟨.delete, 0, 0, 1⟩], 1, ⟨2, 5⟩⟩ := by decide +kernel
    obtain rfl := Except.ok.inj (hfirst.symm.trans hscript)
    obtain rfl := Except.ok.inj (hsecond.symm.trans hscript')
    refine ⟨text, text', htext, htext', hiff.mpr rfl, ?_⟩
    rintro rfl
    exact absurd (hlast.symm.trans hlast') (by decide +kernel)
  · have hreport : report .diff true ⟨#["a", "b"], #["b"], o⟩ = .ok
        (Report.unlines ["\x1b[31mDelete a[0..1] b@0\x1b[0m",
          "edits: 1, total edit length: 1, similarity: 0.667"]) := by decide +kernel
    have hpainted : { s with colour := true }.Prints (.compare .diff "old" "new" o) _ :=
      prints_of_report hread.old hread.new hreport
    exact ⟨_, hpainted, (hcolours s "old" "new" o).2 _ hpainted, by decide +kernel⟩

end Session

end EditGraph
