import EditGraph.Proofs.LineReplay
import EditGraph.Proofs.SmallLetters

/-!
# Normal forms of normal forms

When no leading characters are skipped, a normal form is its own normal form. Skipping is left out
for a reason: a second normalization would skip characters again.

Trimming and lower case are each done for good, so the point is their order. Lower case comes second
and might undo the trimming, but it makes no white space. A text in lower case is mapped to itself
although a sigma is looked at in its context, as there is no capital sigma left.

A line and its normal form therefore have the same fingerprint by a method that goes by content, and
a text is the same throughout as the text of its normal forms.

## Main results

* `Normalization.apply_apply` — the normal form of a normal form.
* `LineOptions.same_apply` — a line has the fingerprint of its normal form.
* `LineOptions.normal_forms_stay` — a text whose lines are replaced by their normal forms.
-/

namespace EditGraph

open List (Forall₂)

namespace Normalization

variable {n : Normalization}

/-- **The normal form of a normal form** is the same, unless characters are skipped. -/
theorem applyChars_applyChars (h : n.skip = 0) (s : List Char) :
    n.applyChars (n.applyChars s) = n.applyChars s := by
  obtain ⟨skip, trim, ignoreCase⟩ := n
  obtain rfl : skip = 0 := h
  have htrim := (Text.trimmed_trim s).trim_eq_self
  have hlower := (Text.trimmed_trim s).lower.trim_eq_self
  cases trim with
  | false =>
      cases ignoreCase with
      | false => rfl
      | true => exact Text.lower_lower s
  | true =>
      cases ignoreCase with
      | false => exact htrim
      | true => exact (congrArg Text.lower hlower).trans (Text.lower_lower _)

/-- Normalising without skipping does nothing more the second time. -/
theorem apply_apply (h : n.skip = 0) (line : String) : n.apply (n.apply line) = n.apply line := by
  rw [apply, apply, String.toList_ofList, applyChars_applyChars h]

end Normalization

namespace LineComparison

variable {c : LineComparison}

/-- Texts that are the same throughout have the empty script, by a method that goes by content. -/
theorem script_of_forall₂_same (h : c.options.method ≠ .unique) (hfits : c.Fits)
    (hall : Forall₂ (fun s t => c.options.same s t = true) c.old.toList c.new.toList) :
    ∃ s, c.script = .ok s ∧ s.edits = #[] ∧ s.totalCost = 0 := by
  have hscript := Comparison.script_of_forall₂ (fits_byLine_iff.mpr hfits) hall c.options.changes
  exact ⟨_, (script_eq_byLine h).trans hscript, rfl, rfl⟩

end LineComparison

namespace LineOptions

variable {o : LineOptions}

/-- By content, a line has the fingerprint of its normal form. -/
theorem same_apply (hskip : o.normalization.skip = 0) (h : o.method ≠ .unique) (line : String) :
    o.same line (o.normalization.apply line) = true := by
  obtain ⟨digest, -, hhash⟩ := exists_digest_hash h
  rw [same_iff, hhash, hhash, Normalization.apply_apply hskip]

/-- The test of lines does not care which of them is the old one. -/
theorem same_comm (s t : String) : o.same s t = o.same t s := Bool.beq_comm

/-- **Normal forms stay.** When no leading characters are skipped, normalizing twice is the same as
normalizing once: lower case brings no white space to the ends of a trimmed text, and leaves a text
in lower case as it is. By a method that goes by content, a text whose lines are replaced by their
normal forms has the same fingerprints, and the scripts between both texts are empty. -/
theorem normal_forms_stay (o : LineOptions) (hskip : o.normalization.skip = 0) :
    (∀ line, o.normalization.apply (o.normalization.apply line) = o.normalization.apply line) ∧
    (∀ s, Text.trim (Text.lower (Text.trim s)) = Text.lower (Text.trim s)) ∧
    (∀ s, Text.lower (Text.lower s) = Text.lower s) ∧
    (o.method ≠ .unique → ∀ lines forms : Array String, forms = lines.map o.normalization.apply →
      o.fingerprints forms = o.fingerprints lines ∧
      (LineComparison.Fits ⟨lines, forms, o⟩ →
        (∃ s, LineComparison.script ⟨lines, forms, o⟩ = .ok s ∧ s.edits = #[] ∧ s.totalCost = 0) ∧
        ∃ s, LineComparison.script ⟨forms, lines, o⟩ = .ok s ∧ s.edits = #[] ∧ s.totalCost = 0) ∧
      (¬ LineComparison.Fits ⟨lines, forms, o⟩ →
        LineComparison.script ⟨lines, forms, o⟩ = .error .capacity ∧
        LineComparison.script ⟨forms, lines, o⟩ = .error .capacity)) := by
  refine ⟨Normalization.apply_apply hskip, fun s => (Text.trimmed_trim s).lower.trim_eq_self,
    Text.lower_lower, fun h lines forms hforms => ?_⟩
  have hall : Forall₂ (fun s t => o.same s t = true) lines.toList forms.toList := by
    rw [hforms, Array.toList_map, List.forall₂_map_right_iff, List.forall₂_same]
    exact fun line _ => same_apply hskip h line
  have hback : Forall₂ (fun s t => o.same s t = true) forms.toList lines.toList := by
    refine (List.Forall₂.flip hall).imp fun s t hts => ?_
    rw [same_comm]
    exact hts
  have hfits : LineComparison.Fits ⟨forms, lines, o⟩ ↔ LineComparison.Fits ⟨lines, forms, o⟩ := by
    simp only [LineComparison.Fits, Diagonals.Fits, Nat.add_comm]
  refine ⟨fingerprints_congr h hback, fun hfit => ⟨?_, ?_⟩, fun hfit => ⟨?_, ?_⟩⟩
  · exact LineComparison.script_of_forall₂_same h hfit hall
  · exact LineComparison.script_of_forall₂_same h (hfits.mpr hfit) hback
  · exact LineComparison.script_of_not_fits hfit
  · exact LineComparison.script_of_not_fits (mt hfits.mp hfit)

/-- A word that ends in a sigma, with white space around it, and the dotted capital I, which becomes
two characters. -/
theorem normal_forms_stay_sigma :
    let o : LineOptions := ⟨.crc32, ⟨0, true, true⟩, true⟩
    let lines := #[" ΟΔΟΣ\t", "İ"]
    let forms := #["οδος", "i\u0307"]
    o.normalization.apply "οδος" = "οδος" ∧ o.fingerprints forms = o.fingerprints lines ∧
      ∃ s, LineComparison.script ⟨lines, forms, o⟩ = .ok s ∧ s.edits = #[] := by
  intro o lines forms
  have hforms : forms = lines.map o.normalization.apply := by decide +kernel
  have hfirst : o.normalization.apply " ΟΔΟΣ\t" = "οδος" := by decide +kernel
  obtain ⟨htwice, -, -, htexts⟩ := normal_forms_stay o rfl
  obtain ⟨hprints, hfit, -⟩ := htexts (by decide) lines forms hforms
  obtain ⟨⟨s, hs, hedits, -⟩, -⟩ := hfit (by decide)
  exact ⟨hfirst ▸ htwice " ΟΔΟΣ\t", hprints, s, hs, hedits⟩

end LineOptions

end EditGraph
