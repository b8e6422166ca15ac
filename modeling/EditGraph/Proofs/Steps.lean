import EditGraph.FileTree
import EditGraph.Proofs.SavedLines

/-!
# Steps of a session

A step writes a whole report or nothing, so a session goes on after a failure as if there had been
none. An answer depends on the workspace and the colours of the session and on nothing else, and no
step changes these. So no step has an influence on those after it.

Whether a file can be read is said of the file tree: where the path leads, and what lies there.

## Main definitions

* `FileTree.Holds`, `FileTree.Unreadable` — what can and what cannot be read.
* `FileTree.BreaksOff` — a name of a path is missing, or below something that is no directory.
* `Session.run` — steps one after the other.

## Main results

* `FileTree.holds_or_unreadable` — every path leads to a text or cannot be read.
* `Session.run_eq` — steps add what they add as the only ones.
* `Session.steps_are_whole` — steps of a session on a file tree.
-/

namespace EditGraph

open List (Forall₂)

/-! ### Files that can be read -/

namespace FileTree

variable {t : FileTree} {path text root name : String} {place : Place} {failure : Failure}
  {w : Workspace}

/-- The path leads to a file of the text in UTF-8. -/
structure Holds (t : FileTree) (path text : String) : Prop where
  length_le : path.utf8ByteSize ≤ maxPathBytes
  leads : ∃ place, t.locate path = .ok place ∧ t.entry? place = some (.file text.toUTF8)

/-- The path leads to nothing that can be read, for the given reason. -/
inductive Unreadable (t : FileTree) (path : String) : Failure → Prop
  /-- The path cannot be followed. A name is missing, or it is looked up in something that is no
  directory, or no directory can hold it. -/
  | lost {error : SystemError} : t.locate path = .error error → Unreadable t path (.notFile path)
  /-- The path is too long to be opened. -/
  | tooLong : maxPathBytes < path.utf8ByteSize → Unreadable t path (.notFile path)
  /-- The path leads to a directory. -/
  | directory {place : Place} : t.locate path = .ok place →
      t.entry? place = some .directory → Unreadable t path (.notFile path)
  /-- The path leads to a file that is no text in UTF-8. -/
  | notText {place : Place} {bytes : ByteArray} : path.utf8ByteSize ≤ maxPathBytes →
      t.locate path = .ok place → t.entry? place = some (.file bytes) →
      (∀ text : String, text.toUTF8 ≠ bytes) → Unreadable t path (.notText path)

/-- The path goes on to a name that is missing, or below something that is no directory. -/
def BreaksOff (t : FileTree) (path : String) : Prop :=
  ∃ before name after place, Path.names path = before ++ name :: after ∧
    before.foldlM t.step [] = .ok place ∧ Path.isHere name = false ∧
    (t.isDirectory place = false ∨ t.entry? (place.next name) = none)

/-- The root is an entry of every tree. -/
theorem entry?_nil_isSome (t : FileTree) : (t.entry? []).isSome = true := by
  unfold entry?
  split <;> rfl

/-- A name that can be followed leads to something. -/
theorem entry?_isSome_of_step {target : Place} (hplace : (t.entry? place).isSome = true)
    (h : t.step place name = .ok target) : (t.entry? target).isSome = true := by
  simp only [step] at h
  split at h
  · obtain rfl := Except.ok.inj h
    exact hplace
  split_ifs at h with hlength hdirectory hname hnone
  obtain rfl := Except.ok.inj h
  simpa [Option.isSome_iff_ne_none] using hnone

/-- A walk that succeeds ends at an entry. -/
theorem entry?_isSome_of_foldlM {names : List String} {target : Place}
    (hplace : (t.entry? place).isSome = true) (h : names.foldlM t.step place = .ok target) :
    (t.entry? target).isSome = true := by
  induction names generalizing place with
  | nil =>
      obtain rfl := Except.ok.inj h
      exact hplace
  | cons name names ih =>
      rw [List.foldlM_cons] at h
      cases hstep : t.step place name with
      | error error =>
          rw [hstep] at h
          cases h
      | ok next =>
          rw [hstep] at h
          exact ih (entry?_isSome_of_step hplace hstep) h

/-- A path that can be followed leads to something. -/
theorem entry?_isSome_of_locate (h : t.locate path = .ok place) :
    (t.entry? place).isSome = true := by
  rw [locate] at h
  split at h
  · cases h
  cases hfold : (Path.names path).foldlM t.step [] with
  | error error =>
      simp only [hfold, bind, Except.bind] at h
      cases h
  | ok last =>
      simp only [hfold, bind, Except.bind] at h
      split at h
      · cases h
      obtain rfl := Except.ok.inj h
      exact entry?_isSome_of_foldlM t.entry?_nil_isSome hfold

/-- Every path leads to a text or to nothing that can be read. -/
theorem holds_or_unreadable (t : FileTree) (path : String) :
    (∃ text, t.Holds path text) ∨ ∃ failure, t.Unreadable path failure := by
  by_cases hlength : path.utf8ByteSize ≤ maxPathBytes
  · cases hlocate : t.locate path with
    | error error => exact .inr ⟨_, .lost hlocate⟩
    | ok place =>
        obtain ⟨entry, hentry⟩ := Option.isSome_iff_exists.mp (entry?_isSome_of_locate hlocate)
        cases entry with
        | directory => exact .inr ⟨_, .directory hlocate hentry⟩
        | file bytes =>
            by_cases htext : ∃ text : String, text.toUTF8 = bytes
            · obtain ⟨text, rfl⟩ := htext
              exact .inl ⟨text, hlength, place, hlocate, hentry⟩
            · exact .inr ⟨_, .notText hlength hlocate hentry (not_exists.mp htext)⟩
  · exact .inr ⟨_, .tooLong (not_le.mp hlength)⟩

/-- A name is not followed where it is missing, or below something that is no directory. -/
theorem exists_step_error (hname : Path.isHere name = false)
    (h : t.isDirectory place = false ∨ t.entry? (place.next name) = none) :
    ∃ error, t.step place name = .error error := by
  simp only [step, hname, Bool.false_eq_true, if_false]
  split_ifs with hlength hdirectory hbytes hnone
  · exact ⟨_, rfl⟩
  · exact ⟨_, rfl⟩
  · exact ⟨_, rfl⟩
  · exact ⟨_, rfl⟩
  · rcases h with hplace | htarget
    · exact absurd hplace (by simpa using hdirectory)
    · exact absurd (Option.isNone_iff_eq_none.mpr htarget) hnone

/-- A path that breaks off cannot be read. -/
theorem BreaksOff.unreadable (h : t.BreaksOff path) : t.Unreadable path (.notFile path) := by
  obtain ⟨before, name, after, place, hnames, hbefore, hname, hplace⟩ := h
  obtain ⟨error, hstep⟩ := exists_step_error hname hplace
  have hfold : (Path.names path).foldlM t.step [] = .error error := by
    rw [hnames, List.foldlM_append, hbefore]
    simp only [bind, Except.bind, List.foldlM_cons, hstep]
  by_cases hzero : '\x00' ∈ path.toList
  · exact .lost (if_pos hzero)
  · have hlocate : t.locate path = .error error := by
      simp only [locate, if_neg hzero, hfold]
      rfl
    exact .lost hlocate

/-- A workspace of the tree finds what the tree has. -/
theorem find_of_workspace (h : t.workspace root = .ok w) : w.find = t.find := by
  rw [workspace] at h
  split at h
  · cases h
  split at h
  · obtain rfl := Except.ok.inj h
    rfl
  · cases h

/-- A path that holds a text leads to the file of its bytes. -/
theorem Holds.find_eq (h : t.Holds path text) : t.find path = some (.file text.toUTF8) := by
  obtain ⟨hlength, place, hlocate, hentry⟩ := h
  rw [find, if_neg (not_lt.mpr hlength), hlocate]
  exact hentry

/-- The lines of a text are read. -/
theorem Holds.readLines_eq (h : t.Holds (w.resolve path) text) (hw : t.workspace root = .ok w) :
    w.readLines path = .ok (Text.lines text).toArray := by
  refine Workspace.readLines_of_find ?_
  rw [find_of_workspace hw, h.find_eq]

/-- Bytes that are no text in UTF-8 are not read as one. -/
theorem fromUTF8?_eq_none_iff {bytes : ByteArray} :
    String.fromUTF8? bytes = none ↔ ∀ text : String, text.toUTF8 ≠ bytes := by
  refine ⟨?_, fun h => ?_⟩
  · rintro h text rfl
    rw [Workspace.fromUTF8?_toUTF8] at h
    cases h
  · rw [String.fromUTF8?]
    split
    · next hvalid => exact absurd rfl (h (String.fromUTF8 bytes hvalid))
    · rfl

/-- Reading fails for the reason that the path has. -/
theorem Unreadable.readLines_eq (h : t.Unreadable (w.resolve path) failure)
    (hw : t.workspace root = .ok w) : w.readLines path = .error failure := by
  have hfind := find_of_workspace hw
  suffices hread : w.readFile path = .error failure by
    rw [Workspace.readLines, hread]
    rfl
  generalize hresolve : w.resolve path = absolute at h
  simp only [Workspace.readFile, hfind, hresolve]
  cases h with
  | lost hlocate =>
      have hnone : t.find absolute = none := by
        rw [find, hlocate]
        exact ite_self none
      rw [hnone]
  | tooLong hlength => rw [find, if_pos hlength]
  | directory hlocate hentry =>
      by_cases hlength : maxPathBytes < absolute.utf8ByteSize
      · rw [find, if_pos hlength]
      · rw [find, if_neg hlength, hlocate]
        simp only [hentry]
  | notText hlength hlocate hentry htext =>
      rw [find, if_neg (not_lt.mpr hlength), hlocate]
      simp only [hentry, fromUTF8?_eq_none_iff.mpr htext]

end FileTree

/-! ### Steps -/

namespace Session

/-- The answer does not depend on what was written before. -/
theorem answer_eq (s : Session) (written : String) (request : Request) :
    { s with written }.answer request = s.answer request := by
  cases request <;> rfl

/-- The answers to requests, one after the other, and the session after the last one. -/
def run (s : Session) : List Request → List (Except Failure Reply) × Session
  | [] => ([], s)
  | request :: rest =>
    let later := (s.step request).2.run rest
    ((s.step request).1 :: later.1, later.2)

/-- **Steps do not influence each other**: each adds what it adds as the only one. -/
theorem run_eq (s : Session) (requests : List Request) :
    s.run requests = (requests.map s.answer,
      { s with written := s.written ++ String.join ((requests.map s.answer).map added) }) := by
  induction requests generalizing s with
  | nil =>
      rw [List.map_nil, List.map_nil, String.join_nil, String.append_empty]
      rfl
  | cons request rest ih =>
      have hanswer : { s with written := s.written ++ added (s.answer request) }.answer =
          s.answer := funext (answer_eq s _)
      simp only [run, step_eq, ih, hanswer, List.map_cons, String.join_cons, String.append_assoc]

/-- **Steps are whole, and have no influence on each other.** A session is on a file tree. Every
path leads to a text or to something that cannot be read, for one reason or another; a missing name
is such a reason, and so is a name below something that is no directory. When the old file cannot be
read, a report on two files fails for its reason, and otherwise for that of the new file if that
cannot be read; the session stays as it is. When both can be read and are not too large, the whole
report is added to the output. If they are too large, the step fails and the session stays as it is.
And the answers to any requests are the same that a new session gives to each of them as the only
one; what the answers add to the output makes up all that is written. -/
theorem steps_are_whole (t : FileTree) (root : String) (s : Session)
    (hs : t.workspace root = .ok s.workspace) :
    (∀ path, (∃ text, t.Holds path text) ∨ ∃ failure, t.Unreadable path failure) ∧
    (∀ path, t.BreaksOff path → t.Unreadable path (.notFile path)) ∧
    (∀ (command : Command) (old new : String) (o : LineOptions),
      (∀ failure, t.Unreadable (s.workspace.resolve old) failure →
        s.step (.compare command old new o) = (.error failure, s)) ∧
      (∀ text failure, t.Holds (s.workspace.resolve old) text →
        t.Unreadable (s.workspace.resolve new) failure →
        s.step (.compare command old new o) = (.error failure, s)) ∧
      ∀ text text', t.Holds (s.workspace.resolve old) text →
        t.Holds (s.workspace.resolve new) text' →
        let c : LineComparison := ⟨(Text.lines text).toArray, (Text.lines text').toArray, o⟩
        (c.Fits → ∃ output, report command s.colour c = .ok output ∧
          s.step (.compare command old new o) =
            (.ok (.output output), { s with written := s.written ++ output })) ∧
        (¬ c.Fits → s.step (.compare command old new o) = (.error (.fault .capacity), s))) ∧
    ∀ requests : List Request,
      (s.run requests).1 =
        requests.map (fun request => ((create s.workspace s.colour).step request).1) ∧
      (s.run requests).2 =
        { s with written := s.written ++ String.join ((s.run requests).1.map added) } := by
  refine ⟨t.holds_or_unreadable, fun path h => h.unreadable, fun command old new o =>
    ⟨fun failure hold => ?_, fun text failure hold hnew => ?_, fun text text' hold hnew =>
      ⟨fun hfits => ?_, fun hfits => ?_⟩⟩, fun requests => ?_⟩
  · refine (fails_of_answer ?_).step
    rw [answer, compare, hold.readLines_eq hs]
    rfl
  · refine (fails_of_answer ?_).step
    rw [answer, compare, hold.readLines_eq hs, hnew.readLines_eq hs]
    rfl
  · obtain ⟨output, hreport⟩ := exists_report hfits command s.colour
    exact ⟨output, hreport,
      (prints_of_report (hold.readLines_eq hs) (hnew.readLines_eq hs) hreport).step⟩
  · exact (fails_of_fault (hold.readLines_eq hs) (hnew.readLines_eq hs)
      (report_of_not_fits hfits command s.colour)).step
  · have hfresh (request : Request) :
        ((create s.workspace s.colour).step request).1 = s.answer request := by
      rw [step_eq]
      exact answer_eq s "" request
    simp only [run_eq, hfresh, and_self]

/-- A directory, a file that is no text, a name that is missing, and one below a file. Only the step
that reads two texts writes, and what it writes is the same after any failures. -/
theorem steps_are_whole_after_failures :
    let t : FileTree := .ofPaths "/w" [("a", .file "x\n".toUTF8), ("b", .file ⟨#[255]⟩),
      ("c", .directory)]
    let o : LineOptions := ⟨.crc32, ⟨0, false, false⟩, true⟩
    let s : Session := .create ⟨"/w", t.find⟩ false
    s.step (.compare .diff "missing" "b" o) = (.error (.notFile "/w/missing"), s) ∧
    s.step (.compare .diff "a" "b" o) = (.error (.notText "/w/b"), s) ∧
    s.step (.compare .similarity "c" "a" o) = (.error (.notFile "/w/c"), s) ∧
    s.step (.compare .common "a" "a/d" o) = (.error (.notFile "/w/a/d"), s) ∧
    (s.run [.compare .diff "missing" "b" o, .compare .common "a" "a" o]).1 =
      [.error (.notFile "/w/missing"), .ok (.output "x\n")] := by
  intro t o s
  have hs : t.workspace "/w" = .ok s.workspace := rfl
  obtain ⟨-, hbreaks, hsteps, hruns⟩ := steps_are_whole t "/w" s hs
  obtain ⟨ha, hb, hc, hmissing, hbelow⟩ : s.workspace.resolve "a" = "/w/a" ∧
      s.workspace.resolve "b" = "/w/b" ∧ s.workspace.resolve "c" = "/w/c" ∧
      s.workspace.resolve "missing" = "/w/missing" ∧ s.workspace.resolve "a/d" = "/w/a/d" := by
    decide +kernel
  have htext : t.Holds "/w/a" "x\n" := ⟨by decide +kernel, ["w", "a"], by decide +kernel, rfl⟩
  have hbytes : t.Unreadable "/w/b" (.notText "/w/b") :=
    .notText (by decide +kernel) (by decide +kernel : t.locate "/w/b" = .ok ["w", "b"]) rfl
      (FileTree.fromUTF8?_eq_none_iff.mp (by decide +kernel))
  have hdirectory : t.Unreadable "/w/c" (.notFile "/w/c") :=
    .directory (by decide +kernel : t.locate "/w/c" = .ok ["w", "c"]) rfl
  have hnone : t.Unreadable "/w/missing" (.notFile "/w/missing") :=
    hbreaks _ ⟨["", "w"], "missing", [], ["w"], by decide +kernel, by decide +kernel,
      by decide, .inr rfl⟩
  have hfile : t.Unreadable "/w/a/d" (.notFile "/w/a/d") :=
    hbreaks _ ⟨["", "w", "a"], "d", [], ["w", "a"], by decide +kernel, by decide +kernel,
      by decide, .inl rfl⟩
  have hfirst := (hsteps .diff "missing" "b" o).1 (.notFile "/w/missing") (by rwa [hmissing])
  have hsecond := (hsteps .diff "a" "b" o).2.1 "x\n" (.notText "/w/b") (by rwa [ha]) (by rwa [hb])
  have hthird := (hsteps .similarity "c" "a" o).1 (.notFile "/w/c") (by rwa [hc])
  have hfourth := (hsteps .common "a" "a/d" o).2.1 "x\n" (.notFile "/w/a/d") (by rwa [ha])
    (by rwa [hbelow])
  obtain ⟨output, hreport, hlast⟩ :=
    ((hsteps .common "a" "a" o).2.2 "x\n" "x\n" (by rwa [ha]) (by rwa [ha])).1 (by decide)
  refine ⟨hfirst, hsecond, hthird, hfourth, ?_⟩
  have houtput : report .common false ⟨#["x"], #["x"], o⟩ = .ok "x\n" := by decide +kernel
  obtain rfl := Except.ok.inj (houtput.symm.trans hreport)
  obtain ⟨hanswers, -⟩ := hruns [.compare .diff "missing" "b" o, .compare .common "a" "a" o]
  rw [hanswers, List.map_cons, List.map_singleton]
  exact congrArg₂ (fun a b => [a, b]) (congrArg Prod.fst hfirst) (congrArg Prod.fst hlast)

end Session

end EditGraph
