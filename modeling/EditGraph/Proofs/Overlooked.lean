import EditGraph.Proofs.LineReplay
import EditGraph.Proofs.SmallLetters

/-!
# What a normalization overlooks

A normalization names what does not count: the characters it skips, white space at the ends of what
is left when it trims, and the case of letters when it ignores case. Changes of these, one after the
other and in any number, leave the normal form of a line as it is. Case is changed here of the
letters A to Z only, by `Char.toLower`, which knows no others; the letters around them may be any. A
letter and its other case are cased both and not case-ignorable, so that a sigma beside them is
final or not as before.

When lines of two texts are changed in this way, each by changes of its own, every line keeps its
fingerprint. So the comparison of the fingerprints is the very same.

## Main definitions

* `Normalization.Overlooks` — lines that differ in nothing that counts.

## Main results

* `Text.trim_append_left`, `Text.trim_append_right` — white space at the ends.
* `Text.lower_map_toLower` — the case of letters.
* `Normalization.Overlooks.apply_eq` — overlooked changes leave the normal form.
* `LineComparison.overlooked_changes_leave_no_trace` — nor do they change a comparison of texts.
-/

namespace EditGraph

open List (Forall₂)

namespace Text

variable {s t : List Char}

/-! ### White space at the ends -/

/-- Blanks in front do not survive trimming. -/
theorem trim_append_left (h : ∀ c ∈ s, isBlank c = true) (t : List Char) :
    trim (s ++ t) = trim t := by
  rw [trim, trim, List.dropWhile_append_of_pos h]

/-- Blanks at the end are dropped from the end. -/
theorem rdropWhile_append_right (h : ∀ c ∈ t, isBlank c = true) (s : List Char) :
    (s ++ t).rdropWhile isBlank = s.rdropWhile isBlank := by
  have hback : ∀ c ∈ t.reverse, isBlank c = true := fun c hc => h c (List.mem_reverse.mp hc)
  rw [List.rdropWhile, List.rdropWhile, List.reverse_append, List.dropWhile_append_of_pos hback]

/-- Blanks at the end do not survive trimming. -/
theorem trim_append_right (h : ∀ c ∈ t, isBlank c = true) (s : List Char) :
    trim (s ++ t) = trim s := by
  rw [trim_eq, trim_eq, List.dropWhile_append]
  split
  · next hempty =>
      rw [List.isEmpty_iff.mp hempty, List.dropWhile_eq_nil_iff.mpr h]
  · exact rdropWhile_append_right h _

/-! ### The case of letters -/

/-- Only the letters A to Z are changed by `Char.toLower`. -/
theorem isUpper_or_toLower_eq (c : Char) : c.isUpper = true ∨ c.toLower = c := by
  by_cases h : c.val ≥ 'A'.val ∧ c.val ≤ 'Z'.val
  · exact .inl (decide_eq_true h)
  · exact .inr (dif_neg h)

/-- What holds of the letters A to Z one by one. -/
theorem forall_isUpper {P : Char → Prop} (h : ∀ n ∈ List.range' 65 26, P (Char.ofNat n)) {c : Char}
    (hc : c.isUpper = true) : P c := by
  have hletters : c.val ≥ 'A'.val ∧ c.val ≤ 'Z'.val := of_decide_eq_true hc
  have hbounds : 65 ≤ c.toNat ∧ c.toNat ≤ 90 :=
    hletters.imp UInt32.le_iff_toNat_le.mp UInt32.le_iff_toNat_le.mp
  have hmem : c.toNat ∈ List.range' 65 26 := by
    rw [List.mem_range'_1]
    omega
  have hletter := h c.toNat hmem
  rwa [Char.ofNat_toNat] at hletter

/-- What is the same of these letters and the small ones is the same of all characters. -/
theorem apply_toLower {β : Type} (f : Char → β)
    (h : ∀ n ∈ List.range' 65 26, f (Char.ofNat n).toLower = f (Char.ofNat n)) (c : Char) :
    f c.toLower = f c := by
  rcases isUpper_or_toLower_eq c with hupper | hlower
  · exact forall_isUpper (P := fun c => f c.toLower = f c) h hupper
  · rw [hlower]

/-- Making A to Z small makes no character blank, and no blank anything else. -/
theorem isBlank_toLower (c : Char) : isBlank c.toLower = isBlank c :=
  apply_toLower isBlank (by decide +kernel) c

/-- Making A to Z small does not change which characters are cased. -/
theorem isCased_toLower (c : Char) : isCased c.toLower = isCased c :=
  apply_toLower isCased (by decide +kernel) c

/-- No letter from A to Z or from a to z is passed over at the end of a word. -/
theorem isCaseIgnorable_of_letter {c : Char}
    (h : 65 ≤ c.toNat ∧ c.toNat ≤ 90 ∨ 97 ≤ c.toNat ∧ c.toNat ≤ 122) :
    isCaseIgnorable c = false := by
  have htable : ∀ span ∈ caseIgnorables,
      span.2 < 65 ∨ 90 < span.1 ∧ span.2 < 97 ∨ 122 < span.1 := by decide +kernel
  rw [Bool.eq_false_iff, ne_eq, isCaseIgnorable, inSpans_eq_true_iff]
  rintro ⟨span, hspan, hin⟩
  have hrow := htable span hspan
  omega

/-- Making A to Z small does not change which characters are passed over. -/
theorem isCaseIgnorable_toLower (c : Char) : isCaseIgnorable c.toLower = isCaseIgnorable c := by
  rcases isUpper_or_toLower_eq c with hupper | hlower
  · have hletters : (65 ≤ c.toNat ∧ c.toNat ≤ 90) ∧ 97 ≤ c.toLower.toNat ∧ c.toLower.toNat ≤ 122 :=
      forall_isUpper (P := fun c => (65 ≤ c.toNat ∧ c.toNat ≤ 90) ∧
        97 ≤ c.toLower.toNat ∧ c.toLower.toNat ≤ 122) (by decide +kernel) hupper
    rw [isCaseIgnorable_of_letter (.inl hletters.1), isCaseIgnorable_of_letter (.inr hletters.2)]
  · rw [hlower]

/-- Letters from A to Z may be made small first. -/
theorem lowerChar_toLower (c : Char) : lowerChar c.toLower = lowerChar c := by
  rcases isUpper_or_toLower_eq c with hupper | hlower
  · have hletter : c.toLower = lowerChar c :=
      forall_isUpper (P := fun c => c.toLower = lowerChar c) (by decide +kernel) hupper
    rw [hletter, lowerChar_lowerChar]
  · rw [hlower]

/-- Trimming does not look at the case of the letters A to Z. -/
theorem trim_map_toLower (s : List Char) :
    trim (s.map Char.toLower) = (trim s).map Char.toLower := by
  have hblank : isBlank ∘ Char.toLower = isBlank := funext isBlank_toLower
  simp only [trim, List.dropWhile_map, ← List.map_reverse, hblank]

/-- What a sigma meets does not depend on the case of the letters A to Z. -/
theorem meetsCased_map_toLower (s : List Char) :
    meetsCased (s.map Char.toLower) = meetsCased s := by
  have hignorable : isCaseIgnorable ∘ Char.toLower = isCaseIgnorable :=
    funext isCaseIgnorable_toLower
  rw [meetsCased, meetsCased, List.dropWhile_map, hignorable]
  cases s.dropWhile isCaseIgnorable with
  | nil => rfl
  | cons c rest => exact isCased_toLower c

/-- A letter has the same small form in either case, between letters in either case. -/
theorem lowerAt_toLower (before : List Char) (c : Char) (after : List Char) :
    lowerAt (before.map Char.toLower) c.toLower (after.map Char.toLower) =
      lowerAt before c after := by
  have hsigma : c.toLower = '\u03A3' ↔ c = '\u03A3' :=
    iff_of_eq (apply_toLower (· = '\u03A3') (by decide +kernel) c)
  have hdotted : c.toLower = '\u0130' ↔ c = '\u0130' :=
    iff_of_eq (apply_toLower (· = '\u0130') (by decide +kernel) c)
  rw [lowerAt, lowerAt, endsWord, endsWord, meetsCased_map_toLower, meetsCased_map_toLower,
    lowerChar_toLower]
  exact if_congr hsigma rfl (if_congr hdotted rfl rfl)

/-- Lower-casing does not depend on the case of the letters A to Z, before or behind. -/
theorem lowerFrom_map_toLower (before s : List Char) :
    lowerFrom (before.map Char.toLower) (s.map Char.toLower) = lowerFrom before s := by
  induction s generalizing before with
  | nil => rfl
  | cons c s ih =>
      rw [List.map_cons, lowerFrom, lowerFrom, lowerAt_toLower, ← List.map_cons, ih]

/-- **The case of letters** does not show in lower case. -/
theorem lower_map_toLower (s : List Char) : lower (s.map Char.toLower) = lower s :=
  lowerFrom_map_toLower [] s

end Text

/-! ### Lines -/

namespace Normalization

variable {n : Normalization}

/-- The lines differ in nothing that counts. -/
inductive Overlooks (n : Normalization) : String → String → Prop
  /-- The characters that are skipped may be any. -/
  | skipped {s t : String} : s.toList.drop n.skip = t.toList.drop n.skip → Overlooks n s t
  /-- White space comes in right behind the characters that are skipped. -/
  | leading (s blanks : String) : n.trim = true → (∀ c ∈ blanks.toList, Text.isBlank c = true) →
      Overlooks n s
        (.ofList (s.toList.take n.skip ++ blanks.toList ++ s.toList.drop n.skip))
  /-- White space comes in at the end. -/
  | trailing (s blanks : String) : n.trim = true → (∀ c ∈ blanks.toList, Text.isBlank c = true) →
      Overlooks n s (s ++ blanks)
  /-- Letters change their case. -/
  | letters {s t : String} : n.ignoreCase = true →
      Forall₂ (fun c d => c.toLower = d.toLower) s.toList t.toList → Overlooks n s t
  | symm {s t : String} : Overlooks n s t → Overlooks n t s
  | trans {s t u : String} : Overlooks n s t → Overlooks n t u → Overlooks n s u

/-- Only what is left after skipping counts. -/
theorem applyChars_congr {s t : List Char} (h : s.drop n.skip = t.drop n.skip) :
    n.applyChars s = n.applyChars t := by
  rw [applyChars, applyChars, h]

/-- Blanks at the end are overlooked with trimming. -/
theorem applyChars_trailing (h : n.trim = true) (s : List Char) {blanks : List Char}
    (hblanks : ∀ c ∈ blanks, Text.isBlank c = true) :
    n.applyChars (s ++ blanks) = n.applyChars s := by
  have hrest (c : Char) (hc : c ∈ blanks.drop (n.skip - s.length)) : Text.isBlank c = true :=
    hblanks c (List.mem_of_mem_drop hc)
  rw [applyChars, applyChars, List.drop_append, h, if_pos rfl, if_pos rfl,
    Text.trim_append_right hrest]

/-- White space behind the skipped characters goes with trimming. Where the line is shorter than
what is skipped, the white space is skipped with it or left alone at the end. -/
theorem applyChars_leading (h : n.trim = true) (s : List Char) {blanks : List Char}
    (hblanks : ∀ c ∈ blanks, Text.isBlank c = true) :
    n.applyChars (s.take n.skip ++ blanks ++ s.drop n.skip) = n.applyChars s := by
  by_cases hshort : s.length ≤ n.skip
  · rw [List.take_of_length_le hshort, List.drop_eq_nil_of_le hshort, List.append_nil,
      applyChars_trailing h s hblanks]
  · have hlength : (s.take n.skip).length = n.skip :=
      List.length_take_of_le (Nat.le_of_not_le hshort)
    have hdrop : (s.take n.skip ++ (blanks ++ s.drop n.skip)).drop n.skip =
        blanks ++ s.drop n.skip := by
      rw [List.drop_append, hlength, Nat.sub_self, List.drop_zero,
        List.drop_eq_nil_of_le hlength.le, List.nil_append]
    rw [applyChars, applyChars, List.append_assoc, hdrop, h, if_pos rfl, if_pos rfl,
      Text.trim_append_left hblanks]

/-- The case of the letters A to Z is overlooked when case is ignored. -/
theorem applyChars_map_toLower (h : n.ignoreCase = true) (s : List Char) :
    n.applyChars (s.map Char.toLower) = n.applyChars s := by
  rw [applyChars, applyChars, ← List.map_drop, h, if_pos rfl, if_pos rfl]
  split
  · rw [Text.trim_map_toLower, Text.lower_map_toLower]
  · rw [Text.lower_map_toLower]

/-- Letters that differ in their case only have the same small forms. -/
theorem applyChars_letters (h : n.ignoreCase = true) {s t : List Char}
    (hst : Forall₂ (fun c d => c.toLower = d.toLower) s t) : n.applyChars s = n.applyChars t := by
  have hmap : s.map Char.toLower = t.map Char.toLower := by
    rw [← List.forall₂_eq_eq_eq, List.forall₂_map_left_iff, List.forall₂_map_right_iff]
    exact hst
  rw [← applyChars_map_toLower h s, hmap, applyChars_map_toLower h]

/-- **Overlooked changes leave the normal form** of a line. -/
theorem Overlooks.apply_eq {s t : String} (h : n.Overlooks s t) : n.apply s = n.apply t := by
  induction h with
  | skipped hdrop => rw [apply, apply, applyChars_congr hdrop]
  | leading s blanks htrim hblanks =>
      rw [apply, apply, String.toList_ofList, applyChars_leading htrim _ hblanks]
  | trailing s blanks htrim hblanks =>
      rw [apply, apply, String.toList_append, applyChars_trailing htrim _ hblanks]
  | letters hcase hletters => rw [apply, apply, applyChars_letters hcase hletters]
  | symm _ ih => exact ih.symm
  | trans _ _ ih ih' => exact ih.trans ih'

/-- A line that is no longer than what is skipped has the empty normal form. -/
theorem apply_of_length_le {s : String} (h : s.length ≤ n.skip) : n.apply s = "" := by
  rw [← String.length_toList] at h
  have hempty : n.applyChars [] = [] := by
    obtain ⟨skip, trim, ignoreCase⟩ := n
    cases trim <;> cases ignoreCase <;> simp [applyChars, Text.trim, Text.lower, Text.lowerFrom]
  rw [apply, applyChars_congr (t := []) (by rw [List.drop_eq_nil_of_le h, List.drop_nil]), hempty]

end Normalization

/-! ### Texts -/

namespace LineComparison

variable {c c' : LineComparison}

/-- By a method that goes by content, texts with the same normal forms have the same
fingerprints. -/
theorem byFingerprint_congr (h : c.options.method ≠ .unique) (hoptions : c.options = c'.options)
    (hforms : c.byNormalForm = c'.byNormalForm) : c.byFingerprint = c'.byFingerprint := by
  obtain ⟨digest, hdigest⟩ := Method.exists_digest h
  rw [byFingerprint_eq hdigest, byFingerprint_eq (hoptions ▸ hdigest), hforms]

/-- Lines that differ in nothing that counts have the same fingerprint. -/
theorem same_of_overlooks {o : LineOptions} (h : o.method ≠ .unique) {s t : String}
    (hst : o.normalization.Overlooks s t) : o.same s t = true := by
  obtain ⟨digest, -, hhash⟩ := LineOptions.exists_digest_hash h
  rw [LineOptions.same_iff, hhash, hhash, hst.apply_eq]

/-- **Overlooked changes leave no trace.** Normal forms depend only on what follows the skipped
characters, and are empty where nothing does. With trimming, white space right behind the skipped
characters or at the end of a line makes no difference to its normal form; when case is ignored, nor
does the case of any letters from A to Z, whatever letters stand around them. So when the lines of
two texts are exchanged for others, each of which differs in nothing that counts, then by a method
that goes by content the fingerprints stay, and so do the script, the similarity and the positions
at which lines are found in common. -/
theorem overlooked_changes_leave_no_trace (n : Normalization) :
    (∀ s t : String, s.toList.drop n.skip = t.toList.drop n.skip → n.apply s = n.apply t) ∧
    (∀ s : String, s.length ≤ n.skip → n.apply s = "") ∧
    (n.trim = true → ∀ s blanks : String, (∀ c ∈ blanks.toList, Text.isBlank c = true) →
      n.apply (.ofList (s.toList.take n.skip ++ blanks.toList ++ s.toList.drop n.skip)) =
        n.apply s ∧
      n.apply (s ++ blanks) = n.apply s) ∧
    (n.ignoreCase = true → ∀ s t : String,
      Forall₂ (fun c d => c.toLower = d.toLower) s.toList t.toList → n.apply s = n.apply t) ∧
    ∀ (o : LineOptions) (a a' b b' : Array String),
      o.normalization = n → o.method ≠ .unique →
      Forall₂ n.Overlooks a.toList a'.toList → Forall₂ n.Overlooks b.toList b'.toList →
      o.fingerprints a = o.fingerprints a' ∧ o.fingerprints b = o.fingerprints b' ∧
      script ⟨a, b, o⟩ = script ⟨a', b', o⟩ ∧ similarity ⟨a, b, o⟩ = similarity ⟨a', b', o⟩ ∧
      (Fits ⟨a, b, o⟩ → ∃ (found : Array Match) (u u' : List String),
        (byFingerprint ⟨a, b, o⟩).matching = .ok found ∧
        (byFingerprint ⟨a', b', o⟩).matching = .ok found ∧
        common ⟨a, b, o⟩ = .ok u.toArray ∧ common ⟨a', b', o⟩ = .ok u'.toArray ∧
        Forall₂ (HasAt a.toList) (found.toList.map Match.x) u ∧
        Forall₂ (HasAt a'.toList) (found.toList.map Match.x) u') ∧
      (¬ Fits ⟨a, b, o⟩ →
        common ⟨a, b, o⟩ = .error .capacity ∧ common ⟨a', b', o⟩ = .error .capacity) := by
  refine ⟨fun s t h => (Normalization.Overlooks.skipped h).apply_eq,
    fun s h => Normalization.apply_of_length_le h, fun htrim s blanks hblanks => ⟨?_, ?_⟩,
    fun hcase s t h => (Normalization.Overlooks.letters hcase h).apply_eq, ?_⟩
  · exact (Normalization.Overlooks.leading s blanks htrim hblanks).apply_eq.symm
  · exact (Normalization.Overlooks.trailing s blanks htrim hblanks).apply_eq.symm
  rintro o a a' b b' rfl hmethod ha hb
  have hold := map_congr_of_forall₂ (ha.imp fun s t h => h.apply_eq)
  have hnew := map_congr_of_forall₂ (hb.imp fun s t h => h.apply_eq)
  have hprint : byFingerprint ⟨a, b, o⟩ = byFingerprint ⟨a', b', o⟩ :=
    byFingerprint_congr hmethod rfl (by rw [byNormalForm, byNormalForm, hold, hnew])
  refine ⟨LineOptions.fingerprints_congr hmethod (ha.imp fun s t => same_of_overlooks hmethod),
    LineOptions.fingerprints_congr hmethod (hb.imp fun s t => same_of_overlooks hmethod),
    ?_, ?_, fun hfits => ?_, fun hfits => ?_⟩
  · rw [script, script, hprint]
  · rw [similarity, similarity, hprint]
  · rw [← fits_byFingerprint_iff] at hfits
    obtain ⟨found, u, hfound, hcommon, hu⟩ := exists_common hfits
    obtain ⟨found', u', hfound', hcommon', hu'⟩ := exists_common (hprint ▸ hfits)
    rw [← hprint] at hfound'
    obtain rfl := Except.ok.inj (hfound.symm.trans hfound')
    exact ⟨found, u, u', hfound, hprint ▸ hfound, hcommon, hcommon', hu, hu'⟩
  · rw [← fits_byFingerprint_iff] at hfits
    exact ⟨common_of_not_fits hfits, common_of_not_fits (hprint ▸ hfits)⟩

/-- Two characters are skipped. A capital sigma stays a final one when the letter before it changes
its case; white space comes in around both, and the skipped characters change. -/
theorem overlooked_changes_leave_no_trace_sigma :
    let n : Normalization := ⟨2, true, true⟩
    let o : LineOptions := ⟨.crc32, n, true⟩
    n.apply "1:" = "" ∧ n.apply "7:\ta\u03A3\t" = n.apply "1:A\u03A3" ∧
      o.fingerprints #["1:A\u03A3"] = o.fingerprints #["7:\ta\u03A3\t"] ∧
      ∃ u u' : List String, common ⟨#["1:A\u03A3"], #["2:", "3:a\u03C2"], o⟩ = .ok u.toArray ∧
        common ⟨#["7:\ta\u03A3\t"], #["2:", "3:a\u03C2"], o⟩ = .ok u'.toArray ∧
        Forall₂ (HasAt ["1:A\u03A3"]) [1] u ∧ Forall₂ (HasAt ["7:\ta\u03A3\t"]) [1] u' := by
  intro n o
  obtain ⟨hskip, hempty, hblank, hcase, htexts⟩ := overlooked_changes_leave_no_trace n
  have hblanks : ∀ c ∈ "\t".toList, Text.isBlank c = true := List.forall_mem_singleton.mpr rfl
  have hdrop : "1:A\u03A3".toList.drop n.skip = "7:A\u03A3".toList.drop n.skip := by
    decide +kernel
  have hletters : Forall₂ (fun c d : Char => c.toLower = d.toLower) "7:A\u03A3".toList
      "7:a\u03A3".toList := .cons rfl (.cons rfl (.cons rfl (.cons rfl .nil)))
  have hmoved : String.ofList ("7:a\u03A3".toList.take n.skip ++ "\t".toList ++
      "7:a\u03A3".toList.drop n.skip) = "7:\ta\u03A3" := by decide +kernel
  obtain ⟨hleading, -⟩ := hblank rfl "7:a\u03A3" "\t" hblanks
  obtain ⟨-, htrailing⟩ := hblank rfl "7:\ta\u03A3" "\t" hblanks
  have hline : n.Overlooks "1:A\u03A3" "7:\ta\u03A3\t" := by
    have hcome := Normalization.Overlooks.leading (n := n) "7:a\u03A3" "\t" rfl hblanks
    rw [hmoved] at hcome
    exact .trans (.skipped hdrop)
      (.trans (.letters rfl hletters) (.trans hcome (.trailing _ "\t" rfl hblanks)))
  have hsame (line : String) : n.Overlooks line line := .skipped rfl
  obtain ⟨hprints, -, -, -, hcommon, -⟩ := htexts o #["1:A\u03A3"] #["7:\ta\u03A3\t"]
    #["2:", "3:a\u03C2"] #["2:", "3:a\u03C2"] rfl (by decide) (.cons hline .nil)
    (.cons (hsame _) (.cons (hsame _) .nil))
  have hmatching : (byFingerprint ⟨#["1:A\u03A3"], #["2:", "3:a\u03C2"], o⟩).matching =
      .ok #[⟨1, 2⟩] := by decide +kernel
  obtain ⟨found, u, u', hfound, -, hu, hu', hat, hat'⟩ := hcommon (by decide)
  obtain rfl := Except.ok.inj (hmatching.symm.trans hfound)
  refine ⟨hempty "1:" (by decide), ?_, hprints, u, u', hu, hu', hat, hat'⟩
  calc n.apply "7:\ta\u03A3\t" = n.apply "7:\ta\u03A3" := htrailing
    _ = n.apply "7:a\u03A3" := hmoved ▸ hleading
    _ = n.apply "7:A\u03A3" := (hcase rfl _ _ hletters).symm
    _ = n.apply "1:A\u03A3" := (hskip _ _ hdrop).symm

end LineComparison

end EditGraph
