import EditGraph.Proofs.LineReplay
import EditGraph.Session

/-!
# What a session prints

A session writes a report line by line, and what has been written is not taken back. All the same a
step writes either a whole report or nothing. The files are read before the first line, and all that
can break off is done before it too: a script has no edit without a record, and the other reports
write what has been computed already. So a step comes to the same as its answer, in which the report
is made as a whole, and there is one way to say what a request prints, or why it fails.

## Main definitions

* `Writing.Writes` — what an operation results in and adds to the output.
* `Session.Prints`, `Session.Fails` — what comes of a request, as its answer and in a step.

## Main results

* `LineComparison.exists_records` — the edits of a script have records.
* `Session.writes_report`, `Session.writes_fault` — a report written line by line.
* `Session.step_eq` — a step adds the answer to the output, if that is what it is.
* `Session.prints_of_report`, `Session.fails_of_fault` — reports on two files.
-/

namespace EditGraph

open List (Forall₂)

/-! ### Edits and their records -/

/-- An operation that succeeds on a whole list succeeds on each element. -/
theorem forall₂_of_mapM {α β : Type} {f : α → Except Fault β} {s : List α} {u : List β}
    (h : s.mapM f = .ok u) : Forall₂ (fun a b => f a = .ok b) s u := by
  induction s generalizing u with
  | nil =>
      obtain rfl := Except.ok.inj h
      exact .nil
  | cons a s ih =>
      rw [List.mapM_cons] at h
      obtain ⟨b, hb, h⟩ := exists_of_bind_eq_ok h
      obtain ⟨u, hu, h⟩ := exists_of_bind_eq_ok h
      obtain rfl := Except.ok.inj h
      exact .cons hb (ih hu)

section Records

variable {α : Type} {x y : ℕ} {es : List Edit} {l : List Match}

/-- The edits between stretches of elements left alone can be reported. -/
theorem Comparison.Aligns.exists_records {c : Comparison α} (h : c.Aligns x y es l) :
    ∃ records, es.mapM Edit.record = .ok records ∧ records.length = es.length := by
  induction h with
  | last _ _ _ => exact ⟨[], rfl, rfl⟩
  | @edit _ _ _ ex ey e es _ _ _ _ _ hold hnew _ ih =>
      obtain ⟨records, hrecords, hlength⟩ := ih
      refine ⟨e.line ex ey :: records, ?_, congrArg Nat.succ hlength⟩
      rw [List.mapM_cons, Edit.record, hold, ok_bind, hnew, ok_bind, hrecords]
      rfl

/-- The edits of a matching can be reported. -/
theorem Comparison.IsMatching.exists_records {c : Comparison α} (h : c.IsMatching l)
    (hfits : c.Fits) (changes : Bool) :
    ∃ records, (allEdits changes c.old.size c.new.size l).mapM Edit.record = .ok records ∧
      records.length = (allEdits changes c.old.size c.new.size l).length :=
  (aligns_of_leaves (leaves_allGaps h.rises) hfits.limits
    fun p hp => (h.pairs p hp).agree).exists_records

end Records

namespace LineComparison

variable {c : LineComparison} {script : EditScript}

/-- A comparison that is not too large has a script, and the edits of it have records. -/
theorem exists_script (h : c.Fits) :
    ∃ script records, c.script = .ok script ∧
      script.edits.toList.mapM Edit.record = .ok records := by
  have hfits := fits_byFingerprint_iff.mpr h
  obtain ⟨found, hfound, hmatching, -⟩ := Comparison.exists_matching hfits
  obtain ⟨records, hrecords, -⟩ := hmatching.exists_records hfits c.options.changes
  exact ⟨_, records, Comparison.script_eq_ok hfits hfound c.options.changes, hrecords⟩

/-- The edits of any script have records. -/
theorem exists_records (h : c.script = .ok script) :
    ∃ records, script.edits.toList.mapM Edit.record = .ok records := by
  by_cases hfits : c.Fits
  · obtain ⟨script', records, hscript', hrecords⟩ := exists_script hfits
    obtain rfl := Except.ok.inj (hscript'.symm.trans h)
    exact ⟨records, hrecords⟩
  · rw [script_of_not_fits hfits] at h
    cases h

end LineComparison

namespace Report

/-- A record as a report has it. -/
def coloured (colour : Bool) (e : Edit) (record : String) : String :=
  if colour then paint e.kind record else record

/-- The lines for edits are their records, in colours or not. -/
theorem mapM_editLine (colour : Bool) (es : List Edit) :
    es.mapM (editLine colour) = es.zipWith (coloured colour) <$> es.mapM Edit.record := by
  induction es with
  | nil => rfl
  | cons e es ih =>
      rw [List.mapM_cons, List.mapM_cons, ih, editLine]
      cases e.record with
      | error fault => rfl
      | ok r =>
          cases es.mapM Edit.record with
          | error fault => rfl
          | ok rs => rfl

end Report

/-! ### Reports as a whole -/

namespace Session

/-- Without colours the lines of a report on edits are their records. -/
theorem report_diff {c : LineComparison} {script : EditScript} {records : List String}
    (h : c.script = .ok script) (hrecords : script.edits.toList.mapM Edit.record = .ok records) :
    report .diff false c = .ok (Report.unlines (records ++ [Report.summary script])) := by
  have hline : Report.editLine false = Edit.record := funext fun e => bind_pure _
  rw [report, h, ok_bind, Report.diff, hline, hrecords]
  rfl

/-- The line of a report on a similarity is its number. -/
theorem report_similarity {c : LineComparison} {similarity : Similarity}
    (h : c.similarity = .ok similarity) (colour : Bool) :
    report .similarity colour c = .ok (Report.unlines [similarity.text]) := by
  rw [report, h]
  rfl

/-- The lines of a report on common lines are these. -/
theorem report_common {c : LineComparison} {lines : Array String} (h : c.common = .ok lines)
    (colour : Bool) : report .common colour c = .ok (Report.unlines lines.toList) := by
  rw [report, h]
  rfl

/-- Without the memory for diagonal vectors there is no report. -/
theorem report_of_not_fits {c : LineComparison} (h : ¬ c.Fits) (command : Command)
    (colour : Bool) : report command colour c = .error .capacity := by
  rw [← LineComparison.fits_byFingerprint_iff] at h
  cases command with
  | diff => rw [report, LineComparison.script, Comparison.script_of_not_fits h, error_bind]
  | similarity =>
      rw [report, LineComparison.similarity, Comparison.similarity_of_not_fits h, error_bind]
  | common => rw [report, LineComparison.common_of_not_fits h, error_bind]

/-- A comparison that is not too large has a report. -/
theorem exists_report {c : LineComparison} (h : c.Fits) (command : Command) (colour : Bool) :
    ∃ text, report command colour c = .ok text := by
  have hfits := LineComparison.fits_byFingerprint_iff.mpr h
  obtain ⟨found, u, hfound, hcommon, -⟩ := LineComparison.exists_common hfits
  cases command with
  | diff =>
      obtain ⟨script, records, hscript, hrecords⟩ := LineComparison.exists_script h
      rw [report, hscript, ok_bind, Report.diff, Report.mapM_editLine, hrecords]
      exact ⟨_, rfl⟩
  | similarity => exact ⟨_, report_similarity (Comparison.similarity_eq_ok hfits hfound) colour⟩
  | common => exact ⟨_, report_common hcommon colour⟩

end Session

/-! ### Operations that write -/

/-- The last line stands at the end. -/
theorem Report.unlines_concat (lines : List String) (line : String) :
    unlines (lines ++ [line]) = unlines lines ++ (line ++ "\n") := by
  rw [unlines, List.map_append, String.join_append, List.map_singleton, String.join_cons,
    String.join_nil, String.append_empty]
  rfl

namespace Writing

variable {α β : Type} {x : Writing α} {next : α → Writing β} {a : α} {r : Except Failure α}
  {r' : Except Failure β} {failure : Failure} {s t : String}

/-- Whatever the output was before, the operation has the result and adds the text. -/
def Writes (x : Writing α) (result : Except Failure α) (added : String) : Prop :=
  ∀ written : String, x.run.run written = (result, written ++ added)

/-- A computation writes nothing. -/
theorem writes_ofExcept (r : Except Failure α) : Writes (ofExcept r) r "" :=
  fun _ => congrArg (r, ·) String.append_empty.symm

/-- A line is written with its end. -/
theorem writes_writeLine (line : String) : Writes (writeLine line) (.ok ()) (line ++ "\n") :=
  fun _ => congrArg (Except.ok (), ·) String.append_assoc

/-- What two operations write stands one behind the other. -/
theorem Writes.bind (hx : Writes x (.ok a) s) (hnext : Writes (next a) r' t) :
    Writes (x >>= next) r' (s ++ t) := by
  intro written
  have hlast := hnext (written ++ s)
  rw [String.append_assoc] at hlast
  rw [ExceptT.run_bind, StateT.run_bind, hx written]
  exact hlast

/-- What was written before a failure stays. -/
theorem Writes.bind_error (hx : Writes x (.error failure) s) :
    Writes (x >>= next) (.error failure) s := by
  intro written
  rw [ExceptT.run_bind, StateT.run_bind, hx written]
  rfl

/-- What goes on after a computation writes all there is. -/
theorem writes_ofExcept_ok (h : r = .ok a) (hnext : Writes (next a) r' t) :
    Writes (ofExcept r >>= next) r' t := by
  have hboth := (writes_ofExcept (.ok a)).bind hnext
  rwa [String.empty_append, ← h] at hboth

/-- After a computation that fails nothing is written. -/
theorem writes_ofExcept_error (h : r = .error failure) :
    Writes (ofExcept r >>= next) (.error failure) "" := by
  have hfirst := writes_ofExcept r
  rw [h] at hfirst ⊢
  exact hfirst.bind_error

/-- The same of what goes on after a comparison, -/
theorem writes_ofFault_ok {result : Except Fault α} (h : result = .ok a)
    (hnext : Writes (next a) r' t) : Writes (ofFault result >>= next) r' t :=
  writes_ofExcept_ok (by rw [h]; rfl) hnext

/-- and after one that breaks off. -/
theorem writes_ofFault_error {result : Except Fault α} {fault : Fault} (h : result = .error fault) :
    Writes (ofFault result >>= next) (.error (.fault fault)) "" :=
  writes_ofExcept_error (by rw [h]; rfl)

/-- Operations that write a line each write all lines. -/
theorem writes_forM {es : List α} {lines : List String} {f : α → Writing Unit}
    (h : Forall₂ (fun e line => Writes (f e) (.ok ()) (line ++ "\n")) es lines) :
    Writes (es.forM f) (.ok ()) (Report.unlines lines) := by
  induction h with
  | nil => exact writes_ofExcept _
  | @cons e line es lines he _ ih =>
      rw [Report.unlines, List.map_cons, String.join_cons]
      exact he.bind ih

end Writing

/-! ### Reports line by line -/

open Writing (Writes writes_ofExcept_ok writes_ofExcept_error writes_ofFault_ok
  writes_ofFault_error writes_writeLine writes_forM)

/-- An operation that fails, though what comes after it never does, fails at once. -/
theorem eq_error_of_bind {β γ : Type} {o : Except Fault β} {next : β → Except Fault γ}
    {fault : Fault} (h : o >>= next = .error fault)
    (hnext : ∀ y, o = .ok y → ∃ z, next y = .ok z) : o = .error fault := by
  cases o with
  | error e => exact congrArg Except.error (Except.error.inj h)
  | ok y =>
      obtain ⟨z, hz⟩ := hnext y rfl
      rw [ok_bind, hz] at h
      cases h

namespace Session

variable {s : Session} {command : Command} {colour : Bool} {c : LineComparison} {text : String}
  {fault : Fault} {failure : Failure} {old new : String} {o : LineOptions} {request : Request}

/-- A report that is complete is written line by line. -/
theorem writes_report (h : report command colour c = .ok text) :
    Writes (writeReport command colour c) (.ok ()) text := by
  cases command with
  | diff =>
      rw [report] at h
      obtain ⟨script, hscript, h⟩ := exists_of_bind_eq_ok h
      rw [Report.diff] at h
      obtain ⟨lines, hlines, h⟩ := exists_of_bind_eq_ok h
      obtain rfl := Except.ok.inj h
      have hedits := writes_forM <| (forall₂_of_mapM hlines).imp fun e line hline =>
        writes_ofFault_ok hline (writes_writeLine line)
      rw [Report.unlines_concat]
      exact writes_ofFault_ok hscript (hedits.bind (writes_writeLine _))
  | similarity =>
      rw [report] at h
      obtain ⟨similarity, hsimilarity, h⟩ := exists_of_bind_eq_ok h
      obtain rfl := Except.ok.inj h
      have hline := writes_writeLine similarity.text
      rw [← String.empty_append (s := similarity.text ++ "\n")] at hline
      rw [Report.similarity, ← List.nil_append [similarity.text], Report.unlines_concat]
      exact writes_ofFault_ok hsimilarity hline
  | common =>
      rw [report] at h
      obtain ⟨common, hcommon, h⟩ := exists_of_bind_eq_ok h
      obtain rfl := Except.ok.inj h
      have hlines := writes_forM <| List.forall₂_same.mpr fun line (_ : line ∈ common.toList) =>
        writes_writeLine line
      exact writes_ofFault_ok hcommon hlines

/-- A report that breaks off does so before its first line. -/
theorem writes_fault (h : report command colour c = .error fault) :
    Writes (writeReport command colour c) (.error (.fault fault)) "" := by
  cases command with
  | diff =>
      refine writes_ofFault_error (eq_error_of_bind h fun script hscript => ?_)
      -- a script that exists has records for all of its edits
      obtain ⟨records, hrecords⟩ := LineComparison.exists_records hscript
      rw [Report.diff, Report.mapM_editLine, hrecords]
      exact ⟨_, rfl⟩
  | similarity => exact writes_ofFault_error (eq_error_of_bind h fun _ _ => ⟨_, rfl⟩)
  | common => exact writes_ofFault_error (eq_error_of_bind h fun _ _ => ⟨_, rfl⟩)

/-! ### Steps -/

/-- What an answer adds to the output. -/
def added : Except Failure Reply → String
  | .ok (.output text) => text
  | _ => ""

/-- A comparison writes the report that it answers, or nothing. -/
theorem writes_compare (s : Session) (command : Command) (old new : String) (o : LineOptions) :
    Writes (s.writeComparison command old new o) ((s.compare command old new o).map fun _ => ())
      (added (Reply.output <$> s.compare command old new o)) := by
  rw [compare, writeComparison]
  cases ha : s.workspace.readLines old with
  | error failure => exact writes_ofExcept_error rfl
  | ok a =>
      refine writes_ofExcept_ok rfl ?_
      cases hb : s.workspace.readLines new with
      | error failure => exact writes_ofExcept_error rfl
      | ok b =>
          refine writes_ofExcept_ok rfl ?_
          simp only [bind, Except.bind]
          cases hreport : report command s.colour ⟨a, b, o⟩ with
          | error fault => exact writes_fault hreport
          | ok text => exact writes_report hreport

/-- **A step is its answer**, and what the answer adds to the output is written. -/
theorem step_eq (s : Session) (request : Request) :
    s.step request =
      (s.answer request, { s with written := s.written ++ added (s.answer request) }) := by
  -- requests that only read are answered in a step just as without one
  have hreads (hadded : added (s.answer request) = "") :
      (s.answer request, s) =
        (s.answer request, { s with written := s.written ++ added (s.answer request) }) := by
    rw [hadded, String.append_empty]
  cases request with
  | compare command old new o =>
      have hwrites := writes_compare s command old new o ""
      simp only [step, hwrites, String.empty_append, answer]
      cases s.compare command old new o <;> rfl
  | write text => rfl
  | path => exact hreads rfl
  | resolve path => exact hreads rfl
  | contents path => exact hreads (by rw [answer]; cases s.workspace.readFile path <;> rfl)
  | lines path => exact hreads (by rw [answer]; cases s.workspace.readLines path <;> rfl)

/-! ### What comes of a request -/

/-- The request prints the text. This is its answer, and a step writes the text behind all that has
been written before. -/
structure Prints (s : Session) (request : Request) (text : String) : Prop where
  answer : s.answer request = .ok (.output text)
  step : s.step request = (.ok (.output text), { s with written := s.written ++ text })

/-- The request fails. This is its answer, and a step leaves the session as it is. -/
structure Fails (s : Session) (request : Request) (failure : Failure) : Prop where
  answer : s.answer request = .error failure
  step : s.step request = (.error failure, s)

/-- A request prints what it answers. -/
theorem prints_of_answer (h : s.answer request = .ok (.output text)) : s.Prints request text :=
  ⟨h, by rw [step_eq, h, added]⟩

/-- A request fails when its answer does. -/
theorem fails_of_answer (h : s.answer request = .error failure) : s.Fails request failure := by
  have hadded : added (.error failure) = "" := rfl
  exact ⟨h, by rw [step_eq, h, hadded, String.append_empty]⟩

variable {a b : Array String}

/-- When both files can be read, a report on their lines is printed. -/
theorem prints_of_report (ha : s.workspace.readLines old = .ok a)
    (hb : s.workspace.readLines new = .ok b) (h : report command s.colour ⟨a, b, o⟩ = .ok text) :
    s.Prints (.compare command old new o) text := by
  refine prints_of_answer ?_
  simp only [answer, compare, ha, hb, bind, Except.bind, h]
  rfl

/-- The request fails with the fault of a report that breaks off. -/
theorem fails_of_fault (ha : s.workspace.readLines old = .ok a)
    (hb : s.workspace.readLines new = .ok b)
    (h : report command s.colour ⟨a, b, o⟩ = .error fault) :
    s.Fails (.compare command old new o) (.fault fault) := by
  refine fails_of_answer ?_
  simp only [answer, compare, ha, hb, bind, Except.bind, h]
  rfl

end Session

end EditGraph
