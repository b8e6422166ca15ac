import EditGraph.LineComparison
import EditGraph.Proofs.Congruence
import EditGraph.Proofs.ShortestScript

/-!
# Fingerprints and normal forms

Texts are compared by the fingerprints of their lines' normal forms. A method that goes by content
gives equal normal forms equal fingerprints, on both sides of the comparison. So where the normal
forms match, the fingerprints do: nothing that the texts have in common is lost, and the script is
never longer than the normal forms demand. When no two of the normal forms have the same
fingerprint, the fingerprints match nowhere else, and the comparison is that of the normal forms in
every respect.

The method `unique`, which numbers the lines, is left out here.

## Main definitions

* `Comparison.Refines` — whatever matches in one comparison matches in another.
* `Hasher.hashList` — the fingerprints of lines, by recursion.
* `LineComparison.byNormalForm` — the comparison of the normal forms themselves.

## Main results

* `Hasher.hashList_eq_map` — what a hasher that goes by content makes of lines.
* `Comparison.Refines.distance_le` — more matches, no greater distance.
* `LineComparison.exists_common` — the lines at the positions of the matching.
* `LineComparison.refines_normal_forms` — the fingerprints lose nothing, and add nothing unless
  they collide.
-/

namespace EditGraph

open List (Forall₂)

/-! ### Refinement -/

namespace Comparison

variable {α β : Type} {c : Comparison α} {c' : Comparison β}

/-- The sequences are of the same lengths, and whatever matches in the first comparison matches in
the second. -/
structure Refines (c : Comparison α) (c' : Comparison β) : Prop where
  old : c.old.size = c'.old.size
  new : c.new.size = c'.new.size
  agree : ∀ i j, c.agree i j = true → c'.agree i j = true

/-- Replacing elements loses no match when those that match are replaced by such that do. -/
theorem refines_map {f g : α → β} {same : β → β → Bool}
    (h : ∀ a ∈ c.old, ∀ b ∈ c.new, c.same a b = true → same (f a) (g b) = true) :
    c.Refines ⟨c.old.map f, c.new.map g, same⟩ where
  old := (Array.size_map ..).symm
  new := (Array.size_map ..).symm
  agree i j hij := by
    obtain ⟨a, b, ha, hb, hab⟩ := agree_eq_true_iff.mp hij
    refine agree_eq_true_iff.mpr ⟨f a, g b, by simp [ha], by simp [hb], ?_⟩
    exact h a (Array.mem_of_getElem? ha) b (Array.mem_of_getElem? hb) hab

namespace Refines

variable (h : c.Refines c')
include h

/-- Comparisons of the same sizes take the same vectors. -/
theorem fits_iff : c.Fits ↔ c'.Fits := by
  rw [Fits, Fits, h.old, h.new]

/-- What the finer comparison pairs the coarser one does. -/
theorem pairs {p : Match} (hp : c.Pairs p) : c'.Pairs p :=
  ⟨h.old ▸ hp.column, h.new ▸ hp.row, h.agree _ _ hp.agree⟩

/-- A matching of the finer comparison is one of the coarser comparison. -/
theorem isMatching {l : List Match} (hl : c.IsMatching l) : c'.IsMatching l :=
  ⟨fun p hp => h.pairs (hl.pairs p hp), hl.rising⟩

/-- **More matches, no greater distance.** A longest matching of the one comparison is a matching
of the other. -/
theorem distance_le (hfits : c.Fits) :
    c'.region.grid.distance ≤ c.region.grid.distance := by
  obtain ⟨found, -, hmatching, hlength⟩ := exists_matching hfits
  have hmost := (h.isMatching hmatching).distance_le
  rw [← h.old, ← h.new, Array.length_toList] at hmost
  omega

end Refines

end Comparison

/-! ### Hashing by content -/

/-- A method other than `unique` gives every text a fingerprint. -/
theorem Method.exists_digest {method : Method} (h : method ≠ .unique) :
    ∃ digest : String → Int32, ∀ text, method.fingerprint? text = some (digest text) := by
  cases method with
  | content => exact ⟨_, fun _ => rfl⟩
  | crc32 => exact ⟨_, fun _ => rfl⟩
  | unique => exact absurd rfl h

namespace Hasher

/-- The fingerprints of lines, one after the other, and the hasher that the last one leaves. -/
def hashList (h : Hasher) : List String → List Int32 × Hasher
  | [] => ([], h)
  | line :: rest =>
    let values := (h.hash line).2.hashList rest
    ((h.hash line).1 :: values.1, values.2)

/-- The hasher goes from line to line. -/
theorem foldl_hash (lines : List String) (values : Array Int32) (h : Hasher) :
    lines.foldl (fun s line => (s.1.push (s.2.hash line).1, (s.2.hash line).2)) (values, h) =
      (values ++ (h.hashList lines).1.toArray, (h.hashList lines).2) := by
  induction lines generalizing values h with
  | nil => simp [hashList]
  | cons line lines ih =>
      rw [List.foldl_cons, ih]
      simp [hashList]

/-- Hashing the lines of an array is hashing its list. -/
theorem hashAll_eq (h : Hasher) (lines : Array String) :
    h.hashAll lines = ((h.hashList lines.toList).1.toArray, (h.hashList lines.toList).2) := by
  have hfold : h.hashAll lines =
      lines.foldl (fun s line => (s.1.push (s.2.hash line).1, (s.2.hash line).2)) (#[], h) := rfl
  rw [hfold, ← Array.foldl_toList, foldl_hash, Array.empty_append]

/-- Every line gets a fingerprint, by whatever method. -/
theorem length_hashList (h : Hasher) (lines : List String) :
    (h.hashList lines).1.length = lines.length := by
  induction lines generalizing h with
  | nil => rfl
  | cons line lines ih => rw [hashList, List.length_cons, ih, List.length_cons]

/-- Every line gets one fingerprint. -/
theorem size_hashAll (h : Hasher) (lines : Array String) :
    (h.hashAll lines).1.size = lines.size := by
  rw [hashAll_eq, List.size_toArray, length_hashList, Array.length_toList]

/-- **Hashing by content** takes the fingerprint of each normal form and leaves the hasher as it
was. -/
theorem hashList_eq_map {h : Hasher} {digest : String → Int32}
    (hdigest : ∀ text, h.method.fingerprint? text = some (digest text)) (lines : List String) :
    h.hashList lines = (lines.map fun line => digest (h.normalize line), h) := by
  have hhash (line : String) : h.hash line = (digest (h.normalize line), h) := by
    rw [hash, hdigest]
  induction lines with
  | nil => rfl
  | cons line lines ih => rw [hashList, hhash, ih, List.map_cons]

end Hasher

/-! ### Texts -/

namespace LineComparison

variable {c : LineComparison}

/-- The comparison of the normal forms of the lines. -/
def byNormalForm (c : LineComparison) : Comparison String :=
  .ofEq (c.old.map c.options.normalization.apply) (c.new.map c.options.normalization.apply)

/-- By content, the fingerprints compared are those of the normal forms. -/
theorem byFingerprint_eq {digest : String → Int32}
    (h : ∀ text, c.options.method.fingerprint? text = some (digest text)) :
    c.byFingerprint =
      .ofEq (c.byNormalForm.old.map digest) (c.byNormalForm.new.map digest) := by
  have hhash (lines : Array String) : c.options.hasher.hashAll lines =
      ((lines.map c.options.normalization.apply).map digest, c.options.hasher) := by
    rw [Hasher.hashAll_eq, Hasher.hashList_eq_map h, Array.map_map, ← List.map_toArray]
    rfl
  simp only [byFingerprint, hhash]
  rfl

/-- There are as many fingerprints as old lines. -/
theorem size_byFingerprint_old (c : LineComparison) : c.byFingerprint.old.size = c.old.size :=
  Hasher.size_hashAll ..

/-- There are as many fingerprints as new lines. -/
theorem size_byFingerprint_new (c : LineComparison) : c.byFingerprint.new.size = c.new.size :=
  Hasher.size_hashAll ..

/-- Lines with the same normal form have the same fingerprint. -/
theorem refines_byFingerprint (h : c.options.method ≠ .unique) :
    c.byNormalForm.Refines c.byFingerprint := by
  obtain ⟨digest, hdigest⟩ := Method.exists_digest h
  rw [byFingerprint_eq hdigest]
  refine Comparison.refines_map fun s _ t _ hst => ?_
  obtain rfl : s = t := eq_of_beq hst
  exact beq_self_eq_true _

/-- When no line of the one text has the fingerprint of a different line of the other, fingerprints
match just where normal forms do. -/
theorem congruent_byFingerprint (h : c.options.method ≠ .unique)
    (hinj : ∀ s ∈ c.byNormalForm.old, ∀ t ∈ c.byNormalForm.new,
      c.options.method.fingerprint? s = c.options.method.fingerprint? t → s = t) :
    c.byNormalForm.Congruent c.byFingerprint := by
  obtain ⟨digest, hdigest⟩ := Method.exists_digest h
  rw [byFingerprint_eq hdigest]
  refine Comparison.congruent_map fun s hs t ht => ?_
  have hst := hinj s hs t ht
  rw [hdigest, hdigest, Option.some_inj] at hst
  have hiff : digest s = digest t ↔ s = t := ⟨hst, congrArg digest⟩
  rw [Bool.eq_iff_iff, beq_iff_eq, hiff]
  exact beq_iff_eq.symm

/-! ### The lines in common -/

/-- Lines are found at the positions of the fingerprints. -/
theorem exists_lines {l : List Match} (h : ∀ p ∈ l, c.byFingerprint.Pairs p) :
    ∃ u, Forall₂ (HasAt c.old.toList) (l.map Match.x) u := by
  induction l with
  | nil => exact ⟨[], .nil⟩
  | cons p l ih =>
      obtain ⟨hp, hl⟩ := List.forall_mem_cons.mp h
      obtain ⟨u, hu⟩ := ih hl
      obtain ⟨hone, hlast⟩ := hp.column
      rw [size_byFingerprint_old] at hlast
      exact ⟨c.old[p.x - 1] :: u, .cons ⟨hone, by simp⟩ hu⟩

/-- The common lines are the old lines that are matched. -/
theorem common_eq {found : Array Match} (h : c.byFingerprint.matching = .ok found) :
    c.common = found.mapM fun p => (Window.full c.old).get p.x := by
  rw [common, h, ok_bind]

/-- **The lines in common** are those at the old positions of the matching. -/
theorem exists_common (h : c.byFingerprint.Fits) :
    ∃ found u, c.byFingerprint.matching = .ok found ∧ c.common = .ok u.toArray ∧
      Forall₂ (HasAt c.old.toList) (found.toList.map Match.x) u := by
  obtain ⟨found, hfound, hmatching, -⟩ := Comparison.exists_matching h
  obtain ⟨u, hu⟩ := exists_lines hmatching.pairs
  refine ⟨found, u, hfound, ?_, hu⟩
  have hmap := Comparison.mapM_get_eq_ok (c := .ofEq c.old c.new) hu
  rw [common_eq hfound, Array.mapM_eq_mapM_toList]
  exact congrArg (Functor.map List.toArray) hmap

/-- There are no common lines when the vectors cannot be made. -/
theorem common_of_not_fits (h : ¬ c.byFingerprint.Fits) : c.common = .error .capacity := by
  rw [common, Comparison.matching_of_not_fits h, error_bind]

/-! ### Fingerprints instead of normal forms -/

/-- **Fingerprints do for normal forms.** By a method that goes by content, the script of two texts
costs no more than any deletions and insertions of lines that lead from the normal forms of the one
to those of the other, and the lines in common are no fewer than those of any common subsequence of
the normal forms. If different normal forms have different fingerprints, the script, the similarity
and the positions of the lines in common are those that the comparison of the normal forms has. -/
theorem refines_normal_forms (c : LineComparison) (h : c.options.method ≠ .unique) :
    (c.byNormalForm.Fits → ∃ s common, c.script = .ok s ∧ c.common = .ok common ∧
      (∀ k, Edits k c.byNormalForm.old.toList c.byNormalForm.new.toList → s.totalCost ≤ k) ∧
      ∀ u : List String, u.Sublist c.byNormalForm.old.toList →
        u.Sublist c.byNormalForm.new.toList → u.length ≤ common.size) ∧
    (¬ c.byNormalForm.Fits → c.script = .error .capacity ∧ c.common = .error .capacity) ∧
    (Set.InjOn c.options.method.fingerprint?
        {text | text ∈ c.byNormalForm.old ∨ text ∈ c.byNormalForm.new} →
      c.script = c.byNormalForm.script c.options.changes ∧
      c.similarity = c.byNormalForm.similarity ∧
      c.byFingerprint.matching = c.byNormalForm.matching ∧
      c.common = do
        (← c.byNormalForm.matching).mapM fun p => (Window.full c.old).get p.x) := by
  have hrefines := refines_byFingerprint h
  refine ⟨fun hfits => ?_, fun hfits => ?_, fun hinj => ?_⟩
  · have hdistance := hrefines.distance_le hfits
    have hfits := hrefines.fits_iff.mp hfits
    obtain ⟨found, u, hfound, hcommon, hu⟩ := exists_common hfits
    obtain ⟨-, hlength⟩ := Comparison.isMatching_of_matching hfits hfound
    refine ⟨_, _, Comparison.script_eq_ok hfits hfound _, hcommon, ?_, ?_⟩
    · intro k hk
      exact hdistance.trans
        (Comparison.distance_le_of_edits hk (List.forall₂_same.mpr fun t _ => beq_self_eq_true t))
    · intro v hold hnew
      have hv : IsCommon c.byNormalForm.same c.byNormalForm.old.toList
          c.byNormalForm.new.toList v :=
        ⟨hold, v, hnew, List.forall₂_same.mpr fun t _ => beq_self_eq_true t⟩
      obtain ⟨l, hl, hsize⟩ := Comparison.exists_isMatching_of_isCommon hv
      have hmost := (hrefines.isMatching hl).distance_le
      have hlines : found.size = u.length := by simpa using hu.length_eq
      rw [List.size_toArray]
      omega
  · rw [hrefines.fits_iff] at hfits
    exact ⟨Comparison.script_of_not_fits hfits _, common_of_not_fits hfits⟩
  · have hsame := (congruent_byFingerprint h fun s hs t ht hst =>
      hinj (.inl hs) (.inr ht) hst).sameAnswers
    refine ⟨(hsame.script _).symm, hsame.similarity.symm, hsame.matching.symm, ?_⟩
    rw [hsame.matching, common]

/-- Two lines change places, and case does not count. One of them is found to be in common, the
other is deleted and inserted, as in the comparison of the lines in lower case. -/
theorem refines_normal_forms_ignoring_case :
    let c : LineComparison :=
      ⟨#["One", "two"], #["TWO", "one"], ⟨.crc32, ⟨0, false, true⟩, true⟩⟩
    ∃ s common, c.script = .ok s ∧ c.common = .ok common ∧ s.totalCost ≤ 2 ∧ 1 ≤ common.size ∧
      c.byNormalForm.script true = .ok s := by
  intro c
  have hold : c.byNormalForm.old = #["one", "two"] := by decide +kernel
  have hnew : c.byNormalForm.new = #["two", "one"] := by decide +kernel
  have hfits : c.byNormalForm.Fits := by decide +kernel
  have hinj : Set.InjOn c.options.method.fingerprint?
      {text | text ∈ c.byNormalForm.old ∨ text ∈ c.byNormalForm.new} := by
    have hpairs : ∀ s ∈ ["one", "two"], ∀ t ∈ ["one", "two"],
        Method.crc32.fingerprint? s = Method.crc32.fingerprint? t → s = t := by decide +kernel
    rw [hold, hnew]
    intro s hs t ht hst
    exact hpairs s (by simpa [or_comm] using hs) t (by simpa [or_comm] using ht) hst
  obtain ⟨hfit, -, hsame⟩ := refines_normal_forms c (by decide)
  obtain ⟨s, common, hs, hcommon, hcost, hlines⟩ := hfit hfits
  obtain ⟨hscript, -⟩ := hsame hinj
  rw [hold, hnew] at hcost hlines
  refine ⟨s, common, hs, hcommon, hcost 2 ?_, hlines ["one"] ?_ ?_, hscript.symm.trans hs⟩
  · exact .delete (s := []) (.insert (s := ["two"]) (.refl _))
  · simp
  · simp

end LineComparison

end EditGraph
