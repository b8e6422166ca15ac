import EditGraph.Proofs.NormalForms
import EditGraph.Proofs.Replacement

/-!
# Replaying scripts on lines

The script of two texts is made from fingerprints and replayed on the lines themselves. By a method
that goes by content a line has its fingerprint wherever it stands, so the comparison of the
fingerprints is congruent to one of the lines that calls lines with equal fingerprints the same. A
replay puts old lines in the places of new ones only where they are the same in this sense. What it
makes is therefore, fingerprint by fingerprint, the new text.

Sequences that are the same throughout have the empty script: all positions match in order, which
leaves nothing to delete or insert.

## Main definitions

* `LineComparison.Fits` — texts that are not too long for a search.
* `LineOptions.same` — lines with equal fingerprints.
* `LineComparison.byLine` — the comparison of the lines themselves.

## Main results

* `Comparison.script_of_forall₂` — the script of sequences that are the same throughout.
* `LineComparison.congruent_byLine` — lines can stand for their fingerprints.
* `LineComparison.replay_restores_fingerprints` — the replay of a script of two texts.
-/

namespace EditGraph

open List (Forall₂)

/-! ### Sequences that match throughout -/

namespace Comparison

variable {α : Type} {c : Comparison α} {l : List Match}

/-- When all positions match in order, nothing has to be deleted or inserted. -/
theorem distance_of_forall₂
    (h : Forall₂ (fun a b => c.same a b = true) c.old.toList c.new.toList) :
    c.region.grid.distance = 0 := by
  obtain ⟨l, hl, hlength⟩ := exists_isMatching_of_isCommon (isCommon_of_forall₂ h)
  have hmost := hl.distance_le
  have hsize := h.length_eq
  simp only [Array.length_toList] at hlength hsize
  omega

/-- A matching that leaves nothing over has no edits. -/
theorem IsMatching.allEdits_eq_nil (hl : c.IsMatching l) (changes : Bool)
    (hold : l.length = c.old.size) (hnew : l.length = c.new.size) :
    allEdits changes c.old.size c.new.size l = [] := by
  obtain ⟨hwidth, hheight⟩ := sides_gaps hl.rises
  have hwidths : ((allGaps c.old.size c.new.size 0 0 l).map Gap.width).sum = 0 := by omega
  have hheights : ((allGaps c.old.size c.new.size 0 0 l).map Gap.height).sum = 0 := by omega
  refine List.flatMap_eq_nil_iff.mpr fun g hg => edits_eq_nil_iff.mpr ⟨?_, ?_⟩
  · exact List.sum_eq_zero_iff_forall_eq_nat.mp hwidths _ (List.mem_map_of_mem hg)
  · exact List.sum_eq_zero_iff_forall_eq_nat.mp hheights _ (List.mem_map_of_mem hg)

/-- **Sequences that match throughout have the empty script.** -/
theorem script_of_forall₂ (h : c.Fits)
    (hall : Forall₂ (fun a b => c.same a b = true) c.old.toList c.new.toList) (changes : Bool) :
    c.script changes = .ok ⟨#[], 0, ⟨c.old.size, c.old.size + c.new.size⟩⟩ := by
  have hdistance := distance_of_forall₂ hall
  have hsize : c.old.size = c.new.size := by simpa using hall.length_eq
  obtain ⟨found, hfound, hmatching, hlength⟩ := exists_matching h
  have hcount : found.size = c.old.size := by omega
  have hedits := hmatching.allEdits_eq_nil changes (by simpa using hcount)
    (by simpa [hsize] using hcount)
  rw [script_eq_ok h hfound, hedits, hdistance, hcount]

end Comparison

/-! ### Lines and their fingerprints -/

/-- Elements of which a function makes the same can be exchanged before it is mapped. -/
theorem map_congr_of_forall₂ {α β : Type} {f : α → β} {a b : Array α}
    (h : Forall₂ (fun x y => f x = f y) a.toList b.toList) : a.map f = b.map f := by
  rw [← Array.toList_inj, Array.toList_map, Array.toList_map, ← List.forall₂_eq_eq_eq,
    List.forall₂_map_left_iff, List.forall₂_map_right_iff]
  exact h

/-- When everything counts, a line is its own normal form. -/
theorem Normalization.apply_none (line : String) : Normalization.none.apply line = line :=
  String.ofList_toList

namespace LineOptions

variable {o : LineOptions} {s t : String}

/-- The lines have the same fingerprint. -/
def same (o : LineOptions) (s t : String) : Bool := (o.hasher.hash s).1 == (o.hasher.hash t).1

/-- Lines count as the same when their fingerprints do. -/
theorem same_iff : o.same s t = true ↔ (o.hasher.hash s).1 = (o.hasher.hash t).1 := beq_iff_eq

/-- By content, the fingerprint of a line is that of its normal form. -/
theorem exists_digest_hash (h : o.method ≠ .unique) :
    ∃ digest : String → Int32, (∀ text, o.method.fingerprint? text = some (digest text)) ∧
      ∀ line, (o.hasher.hash line).1 = digest (o.normalization.apply line) := by
  obtain ⟨digest, hdigest⟩ := Method.exists_digest h
  refine ⟨digest, hdigest, fun line => ?_⟩
  have hvalue : o.hasher.method.fingerprint? (o.hasher.normalize line) =
      some (digest (o.normalization.apply line)) := hdigest _
  rw [Hasher.hash, hvalue]

/-- By content, a line has its fingerprint wherever it stands, and the hasher stays as it is. -/
theorem hashAll_eq_map (h : o.method ≠ .unique) (lines : Array String) :
    o.hasher.hashAll lines = (lines.map fun line => (o.hasher.hash line).1, o.hasher) := by
  obtain ⟨digest, hdigest, hhash⟩ := exists_digest_hash h
  have hlist := Hasher.hashList_eq_map (h := o.hasher) hdigest lines.toList
  rw [Hasher.hashAll_eq, hlist, ← List.map_toArray]
  simp only [hhash]
  rfl

/-- A method without a counter hashes every line on its own. -/
theorem fingerprints_eq_map (h : o.method ≠ .unique) (lines : Array String) :
    o.fingerprints lines = lines.map fun line => (o.hasher.hash line).1 := by
  rw [fingerprints, hashAll_eq_map h]

/-- Lines that are the same throughout have the same fingerprints. -/
theorem fingerprints_congr (h : o.method ≠ .unique) {lines lines' : Array String}
    (hall : Forall₂ (fun s t => o.same s t = true) lines.toList lines'.toList) :
    o.fingerprints lines = o.fingerprints lines' := by
  rw [fingerprints_eq_map h, fingerprints_eq_map h]
  exact map_congr_of_forall₂ (hall.imp fun s t => same_iff.mp)

/-- Without normalization the fingerprint is that of the line itself. -/
theorem fingerprint?_eq_of_same (h : o.method ≠ .unique) (hnone : o.normalization = .none)
    (hsame : o.same s t = true) : o.method.fingerprint? s = o.method.fingerprint? t := by
  obtain ⟨digest, hdigest, hhash⟩ := exists_digest_hash h
  rw [same_iff, hhash, hhash, hnone, Normalization.apply_none, Normalization.apply_none] at hsame
  rw [hdigest, hdigest, hsame]

end LineOptions

namespace LineComparison

variable {c : LineComparison}

/-- The texts have so few lines that the diagonal vectors for them fit into memory. -/
abbrev Fits (c : LineComparison) : Prop := Diagonals.Fits c.old.size c.new.size

/-- Comparing fingerprints takes the same vectors as comparing the lines. -/
theorem fits_byFingerprint_iff : c.byFingerprint.Fits ↔ c.Fits := by
  rw [Comparison.Fits, size_byFingerprint_old, size_byFingerprint_new]

/-- There is no script when the vectors cannot be made. -/
theorem script_of_not_fits (h : ¬ c.Fits) : c.script = .error .capacity :=
  Comparison.script_of_not_fits (mt fits_byFingerprint_iff.mp h) _

/-- The comparison of the lines, of which those with equal fingerprints match. -/
def byLine (c : LineComparison) : Comparison String := ⟨c.old, c.new, c.options.same⟩

/-- Comparing lines takes the same vectors with the test put in. -/
theorem fits_byLine_iff : c.byLine.Fits ↔ c.Fits := Iff.rfl

/-- **Lines can stand for their fingerprints**, by a method that goes by content. -/
theorem congruent_byLine (h : c.options.method ≠ .unique) : c.byLine.Congruent c.byFingerprint := by
  have hprint : c.byFingerprint = .ofEq (c.old.map fun line => (c.options.hasher.hash line).1)
      (c.new.map fun line => (c.options.hasher.hash line).1) := by
    simp only [byFingerprint, LineOptions.hashAll_eq_map h]
  rw [hprint]
  exact Comparison.congruent_map fun s _ t _ => rfl

/-- The script is that of the lines. -/
theorem script_eq_byLine (h : c.options.method ≠ .unique) :
    c.script = c.byLine.script c.options.changes :=
  ((congruent_byLine h).sameAnswers.script _).symm

/-- **A replay restores the fingerprints.** By a method that goes by content, the script of two
texts can be replayed on their lines. The result has as many lines as the new text; each is the new
line in its place or an old line with the same fingerprint. So the result has the fingerprints of
the new text, and the script from the result to the new text, with the same options, is empty. When
nothing is ignored and different lines have different fingerprints, the result is the new text. -/
theorem replay_restores_fingerprints (c : LineComparison) (h : c.options.method ≠ .unique) :
    (c.Fits → ∃ s r, c.script = .ok s ∧ s.apply c.old c.new = .ok r ∧ r.size = c.new.size ∧
      (∀ j < r.size, ∃ line line', r[j]? = some line ∧ c.new[j]? = some line' ∧
        (line = line' ∨ line ∈ c.old ∧ c.options.same line line' = true)) ∧
      c.options.fingerprints r = c.options.fingerprints c.new ∧
      ((⟨r, c.new, c.options⟩ : LineComparison).Fits →
        ∃ t, LineComparison.script ⟨r, c.new, c.options⟩ = .ok t ∧ t.edits = #[] ∧
          t.totalCost = 0) ∧
      (c.options.normalization = .none →
        Set.InjOn c.options.method.fingerprint? {line | line ∈ c.old ∨ line ∈ c.new} →
          r = c.new)) ∧
    (¬ c.Fits → c.script = .error .capacity) := by
  refine ⟨fun hfits => ?_, fun hfits => ?_⟩
  · rw [← fits_byLine_iff] at hfits
    obtain ⟨found, hfound, hmatching, -⟩ := Comparison.exists_matching hfits
    have hscript := Comparison.script_eq_ok hfits hfound c.options.changes
    rw [← script_eq_byLine h] at hscript
    have hsize : (merged c.old c.new 0 found.toList).size = c.new.size :=
      size_merged hmatching.rises
    have hall : Forall₂ (fun s t => c.options.same s t = true)
        (merged c.old c.new 0 found.toList).toList c.new.toList :=
      hmatching.forall₂_merged fun s => beq_self_eq_true _
    have hplaces : ∀ j < c.new.size, ∃ line line', (merged c.old c.new 0 found.toList)[j]? =
        some line ∧ c.new[j]? = some line' ∧
          (line = line' ∨ line ∈ c.old ∧ c.options.same line line' = true) :=
      fun j hj => hmatching.exists_place hj
    refine ⟨_, _, hscript, apply_eq_ok c.options.changes hfits.limits hmatching.rises rfl,
      hsize, hsize ▸ hplaces, LineOptions.fingerprints_congr h hall, fun hfits' => ?_,
      fun hnone hinj => ?_⟩
    · -- the result and the new text match throughout
      have hsame := script_eq_byLine (c := ⟨merged c.old c.new 0 found.toList, c.new, c.options⟩) h
      exact ⟨_, hsame.trans (Comparison.script_of_forall₂ (fits_byLine_iff.mpr hfits') hall _),
        rfl, rfl⟩
    · refine Array.ext_getElem? fun j => ?_
      by_cases hj : j < c.new.size
      · obtain ⟨line, line', hline, hline', hsame⟩ := hplaces j hj
        have heq : line = line' := by
          rcases hsame with heq | ⟨hmem, hsame⟩
          · exact heq
          · exact hinj (.inl hmem) (.inr (Array.mem_of_getElem? hline'))
              (LineOptions.fingerprint?_eq_of_same h hnone hsame)
        rw [hline, hline', heq]
      · rw [Array.getElem?_eq_none (by omega), Array.getElem?_eq_none (by omega)]
  · rw [← fits_byLine_iff] at hfits
    rw [script_eq_byLine h, Comparison.script_of_not_fits hfits]

/-- The replay of a script by checksums makes the new text, and nothing is left to do. -/
theorem replay_restores_fingerprints_crc32 :
    let c : LineComparison :=
      ⟨#["one", "two", "three"], #["two", "four"], ⟨.crc32, .none, true⟩⟩
    ∃ s t, c.script = .ok s ∧ s.apply c.old c.new = .ok c.new ∧
      LineComparison.script ⟨c.new, c.new, c.options⟩ = .ok t ∧ t.edits = #[] := by
  intro c
  have hinj : Set.InjOn c.options.method.fingerprint? {line | line ∈ c.old ∨ line ∈ c.new} := by
    have hlines : ∀ s ∈ c.old ++ c.new, ∀ t ∈ c.old ++ c.new,
        Method.crc32.fingerprint? s = Method.crc32.fingerprint? t → s = t := by decide +kernel
    intro s hs t ht hst
    exact hlines s (Array.mem_append.mpr hs) t (Array.mem_append.mpr ht) hst
  obtain ⟨s, r, hs, hr, -, -, -, hempty, hequal⟩ :=
    (replay_restores_fingerprints c (by decide)).1 (by decide)
  obtain rfl : r = c.new := hequal rfl hinj
  obtain ⟨t, ht, hedits, -⟩ := hempty (by decide)
  exact ⟨s, t, hs, hr, ht, hedits⟩

end LineComparison

end EditGraph
