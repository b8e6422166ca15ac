import EditGraph.Fingerprint
import Mathlib.Data.List.DropRight

/-!
# Small letters

What the mapping to lower case makes is in lower case already: a second mapping changes nothing, in
whatever context. And it makes no white space, so a text without white space at its ends still has
none there afterwards.

Both rest on the table of runs. Its runs come in order and do not overlap. The small letters of a
run either lie apart from every run of capitals, or between the capitals of a run that has every
second code point. This is checked by one pass over the table for each run, which stops where the
runs begin behind the small letters. The two characters that are mapped outside of the table are
looked at on their own, the sigma with both of its forms.

## Main definitions

* `CaseRun.Misses` — the small letters of a run are not capitals of another one.
* `Small` — a character that lower case leaves as it is, wherever it stands.
* `Trimmed` — a text without white space at its ends.

## Main results

* `small_of_mem_lowerAt`, `isBlank_of_mem_lowerAt` — what becomes of a character in lower case.
* `lower_lower` — a text in lower case stays as it is.
* `Trimmed.trim_eq_self`, `trimmed_trim` — what trimming does.
* `Trimmed.lower` — lower case brings no white space to the ends of a text.
-/

namespace EditGraph.Text

variable {c d : Char} {s t before after : List Char}

/-! ### The table of runs -/

namespace CaseRun

variable {r q : CaseRun} {n : ℕ}

/-- The small letter of the first capital. -/
def smallFirst (r : CaseRun) : ℕ := (r.first + r.shift).toNat

/-- The small letter of the last capital. -/
def smallLast (r : CaseRun) : ℕ := (r.last + r.shift).toNat

/-- The small letters lie two code points apart, unless there is but one. -/
def spaced (r : CaseRun) : Bool := r.step == 2 || r.first == r.last

/-- Spaced small letters stand between the capitals of `q`. -/
def interleaves (first : ℕ) (spaced : Bool) (q : CaseRun) : Bool :=
  Nat.beq q.step 2 && spaced && Nat.beq ((first + q.first) % 2) 1

/-- No small letter from `first` to `last` is a capital of one of the runs. The runs are in order,
so that none behind `last` has to be looked at. -/
def missed (first last : ℕ) (spaced : Bool) : List CaseRun → Bool
  | [] => true
  | q :: rest =>
    Nat.blt last q.first ||
      (Nat.blt q.last first || interleaves first spaced q) && missed first last spaced rest

/-- The small letters of `r` are not capitals of `q`. -/
def Misses (r q : CaseRun) : Prop :=
  r.smallLast < q.first ∨ q.last < r.smallFirst ∨ interleaves r.smallFirst r.spaced q = true

/-- A run covers the numbers between its ends, in its steps. -/
theorem covers_iff :
    r.covers n = true ↔ r.first ≤ n ∧ n ≤ r.last ∧ (n - r.first) % r.step = 0 := by
  simp [covers, and_assoc]

/-- A pass over runs in order looks at all that matters. -/
theorem misses_of_missed {runs : List CaseRun}
    (hsorted : runs.Pairwise fun q q' => q.first < q'.first)
    (h : missed r.smallFirst r.smallLast r.spaced runs = true) (hq : q ∈ runs) : r.Misses q := by
  induction runs with
  | nil => exact absurd hq List.not_mem_nil
  | cons q' rest ih =>
      obtain ⟨hfirst, hrest⟩ := List.pairwise_cons.mp hsorted
      simp only [missed, Bool.or_eq_true, Bool.and_eq_true, Nat.blt_eq] at h
      rcases List.mem_cons.mp hq with rfl | hmem
      · rcases h with hlast | ⟨hfirst | hbetween, -⟩
        · exact .inl hlast
        · exact .inr (.inl hfirst)
        · exact .inr (.inr hbetween)
      · rcases h with hlast | ⟨-, h⟩
        · exact .inl (hlast.trans (hfirst q hmem))
        · exact ih hrest h hmem

/-- A run that is missed has none of the small letters. -/
theorem Misses.covers_eq_false (h : r.Misses q) (hpos : 0 ≤ r.first + r.shift)
    (hr : r.covers n = true) {m : ℕ} (hm : (m : ℤ) = n + r.shift) : q.covers m = false := by
  rw [Bool.eq_false_iff, ne_eq, covers_iff]
  rw [covers_iff] at hr
  rintro ⟨hfirst, hlast, hstep⟩
  simp only [Misses, smallFirst, smallLast, interleaves, spaced, Bool.and_eq_true,
    Bool.or_eq_true, beq_iff_eq, Nat.beq_eq] at h
  rcases h with h | h | ⟨⟨htwo, hspaced⟩, hodd⟩
  · omega
  · omega
  · rw [htwo] at hstep
    rcases hspaced with hspaced | hsingle
    · rw [hspaced] at hr
      omega
    · omega

end CaseRun

/-- **The table of runs is checked.** Its runs are in order, and no small letter of one is a capital
of another. All small letters are characters, and neither the dotted capital I nor white space is
among them. -/
theorem caseRuns_checked :
    (caseRuns.IsChain fun q q' => q.first < q'.first) ∧
      caseRuns.all (fun r => CaseRun.missed r.smallFirst r.smallLast r.spaced caseRuns) = true ∧
      ∀ r ∈ caseRuns, 0 ≤ r.first + r.shift ∧
        (r.last + r.shift < 0xD800 ∨
          0xDFFF < r.first + r.shift ∧ r.last + r.shift < 0x110000) ∧
        (r.last + r.shift < 0x130 ∨ 0x130 < r.first + r.shift) ∧
        ∀ span ∈ blanks, r.last + r.shift < span.1 ∨ span.2 < r.first + r.shift := by
  decide +kernel

/-- What the two characters are mapped to that are mapped outside of the table. -/
def outsideForms : List Char := ['\u03C2', '\u03C3', 'i', '\u0307']

/-- The sigma is a capital of the table, though it is not mapped by it, and the forms from outside
of the table stay as they are. -/
theorem outsideForms_checked :
    (∃ q ∈ caseRuns, q.covers '\u03A3'.toNat = true) ∧
      outsideForms.all (fun c => lowerChar c == c) = true := by
  decide +kernel

/-- The runs stand in rising order. -/
theorem pairwise_caseRuns : caseRuns.Pairwise fun q q' => q.first < q'.first :=
  caseRuns_checked.1.pairwise

/-- No run is shifted below zero. -/
theorem first_add_shift_nonneg : ∀ r ∈ caseRuns, 0 ≤ r.first + r.shift :=
  fun r hr => (caseRuns_checked.2.2 r hr).1

/-- Code point `n` is a capital, and `m` its small letter, by one of the runs. -/
def Lowers (n m : ℕ) : Prop := ∃ r ∈ caseRuns, r.covers n = true ∧ (m : ℤ) = n + r.shift

namespace Lowers

variable {n m : ℕ} (h : Lowers n m)
include h

/-- Small letters are characters. -/
theorem isValidChar : m.isValidChar := by
  obtain ⟨r, hr, hn, hm⟩ := h
  obtain ⟨-, hvalid, -, -⟩ := caseRuns_checked.2.2 r hr
  rw [CaseRun.covers_iff] at hn
  unfold Nat.isValidChar
  omega

/-- **Small letters are not capitals.** -/
theorem covers_eq_false {q : CaseRun} (hq : q ∈ caseRuns) : q.covers m = false := by
  obtain ⟨r, hr, hn, hm⟩ := h
  have hmissed := List.all_eq_true.mp caseRuns_checked.2.1 r hr
  exact (CaseRun.misses_of_missed pairwise_caseRuns hmissed hq).covers_eq_false
    (first_add_shift_nonneg r hr) hn hm

/-- The dotted capital I is not a small letter. -/
theorem ne_dotted : m ≠ 0x130 := by
  obtain ⟨r, hr, hn, hm⟩ := h
  obtain ⟨-, -, hdotted, -⟩ := caseRuns_checked.2.2 r hr
  rw [CaseRun.covers_iff] at hn
  omega

/-- Small letters are no white space. -/
theorem not_mem_blanks {span : ℕ × ℕ} (hspan : span ∈ blanks) : ¬ (span.1 ≤ m ∧ m ≤ span.2) := by
  obtain ⟨r, hr, hn, hm⟩ := h
  obtain ⟨-, -, -, hblank⟩ := caseRuns_checked.2.2 r hr
  have hrow := hblank span hspan
  rw [CaseRun.covers_iff] at hn
  omega

end Lowers

/-! ### Single characters -/

/-- A character stands for itself or has a small letter by one of the runs. -/
theorem lowerChar_cases (c : Char) :
    lowerChar c = c ∨ Lowers c.toNat (lowerChar c).toNat := by
  cases hfind : caseRuns.find? fun r => r.covers c.toNat with
  | none => exact .inl (by rw [lowerChar, hfind])
  | some r =>
      have hr := List.mem_of_find?_eq_some hfind
      have hcovers := List.find?_some hfind
      have hfirst := first_add_shift_nonneg r hr
      have hmoved : ((c.toNat + r.shift).toNat : ℤ) = c.toNat + r.shift := by
        rw [CaseRun.covers_iff] at hcovers
        omega
      have hlowers : Lowers c.toNat (c.toNat + r.shift).toNat := ⟨r, hr, hcovers, hmoved⟩
      rw [lowerChar, hfind]
      simp only
      rw [Char.ofNat, dif_pos hlowers.isValidChar]
      exact .inr hlowers

/-- A small letter has no other one. -/
theorem lowerChar_lowerChar (c : Char) : lowerChar (lowerChar c) = lowerChar c := by
  rcases lowerChar_cases c with heq | hlowers
  · rw [heq, heq]
  · have hnone : caseRuns.find? (fun r => r.covers (lowerChar c).toNat) = none :=
      List.find?_eq_none.mpr fun q hq => by simp [hlowers.covers_eq_false hq]
    rw [lowerChar, hnone]

/-- Only the two characters that are not mapped by the runs have to be told apart from others. -/
theorem lowerChar_ne (hd : d = '\u03A3' ∨ d = '\u0130') (hc : c ≠ d) : lowerChar c ≠ d := by
  rintro rfl
  rcases lowerChar_cases c with heq | hlowers
  · exact hc heq.symm
  · rcases hd with hsigma | hdotted
    · rw [hsigma] at hlowers
      obtain ⟨q, hq, hcovers⟩ := outsideForms_checked.1
      rw [hlowers.covers_eq_false hq] at hcovers
      cases hcovers
    · rw [hdotted] at hlowers
      exact hlowers.ne_dotted rfl

/-- The character is the same in lower case, wherever it stands. -/
def Small (c : Char) : Prop := ∀ before after, lowerAt before c after = [c]

/-- A character that is its own small form is small. -/
theorem small_of_lowerChar (hsigma : c ≠ '\u03A3') (hdotted : c ≠ '\u0130')
    (h : lowerChar c = c) : Small c := by
  intro before after
  rw [lowerAt, if_neg hsigma, if_neg hdotted, h]

/-- The forms outside the runs are small. -/
theorem small_of_mem_outsideForms (h : c ∈ outsideForms) : Small c := by
  have hsame := List.all_eq_true.mp outsideForms_checked.2 c h
  exact small_of_lowerChar (ne_of_mem_of_not_mem h (by decide))
    (ne_of_mem_of_not_mem h (by decide)) (beq_iff_eq.mp hsame)

/-- **Lower case is small**, whatever it comes from. -/
theorem small_of_mem_lowerAt (h : d ∈ lowerAt before c after) : Small d := by
  rw [lowerAt] at h
  split at h
  · refine small_of_mem_outsideForms ?_
    rw [List.mem_singleton.mp h]
    split <;> decide
  · next hsigma =>
    split at h
    · refine small_of_mem_outsideForms ?_
      rcases List.mem_pair.mp h with rfl | rfl <;> decide
    · next hdotted =>
      obtain rfl := List.mem_singleton.mp h
      exact small_of_lowerChar (lowerChar_ne (.inl rfl) hsigma) (lowerChar_ne (.inr rfl) hdotted)
        (lowerChar_lowerChar c)

/-- **Lower case makes no white space** of other characters. -/
theorem isBlank_of_mem_lowerAt (hc : isBlank c = false) (h : d ∈ lowerAt before c after) :
    isBlank d = false := by
  rw [lowerAt] at h
  split at h
  · rw [List.mem_singleton] at h
    split at h
    · exact h ▸ by decide
    · exact h ▸ by decide
  · split at h
    · rcases List.mem_pair.mp h with rfl | rfl
      · decide
      · decide
    · obtain rfl := List.mem_singleton.mp h
      rcases lowerChar_cases c with heq | hlowers
      · rw [heq, hc]
      · rw [Bool.eq_false_iff, ne_eq, isBlank, inSpans_eq_true_iff]
        rintro ⟨span, hspan, hin⟩
        exact hlowers.not_mem_blanks hspan hin

/-! ### Texts in lower case -/

/-- No character is lost in lower-casing. -/
theorem lowerAt_ne_nil (before : List Char) (c : Char) (after : List Char) :
    lowerAt before c after ≠ [] := by
  rw [lowerAt]
  split
  · exact List.cons_ne_nil _ _
  · split <;> exact List.cons_ne_nil _ _

/-- Every character of a text in lower case comes from one of the text. -/
theorem exists_of_mem_lowerFrom (h : d ∈ lowerFrom before s) :
    ∃ c ∈ s, ∃ before after, d ∈ lowerAt before c after := by
  induction s generalizing before with
  | nil => exact absurd h List.not_mem_nil
  | cons c s ih =>
      rcases List.mem_append.mp h with h | h
      · exact ⟨c, List.mem_cons_self, _, _, h⟩
      · obtain ⟨c', hc', hd⟩ := ih h
        exact ⟨c', List.mem_cons_of_mem c hc', hd⟩

/-- The first character of a text in lower case comes from the first one of the text. -/
theorem exists_of_head?_lowerFrom (h : (lowerFrom before s).head? = some d) :
    ∃ c, s.head? = some c ∧ ∃ before after, d ∈ lowerAt before c after := by
  cases s with
  | nil => cases h
  | cons c s =>
      rw [lowerFrom, List.head?_append_of_ne_nil _ (lowerAt_ne_nil _ _ _)] at h
      exact ⟨c, rfl, _, _, List.mem_of_head? h⟩

/-- No text is lost in lower-casing. -/
theorem lowerFrom_ne_nil (h : s ≠ []) (before : List Char) : lowerFrom before s ≠ [] := by
  cases s with
  | nil => exact absurd rfl h
  | cons c s => exact List.append_ne_nil_of_left_ne_nil (lowerAt_ne_nil _ _ _) _

/-- The last character comes from the last one. -/
theorem exists_of_getLast?_lowerFrom (h : (lowerFrom before s).getLast? = some d) :
    ∃ c, s.getLast? = some c ∧ ∃ before after, d ∈ lowerAt before c after := by
  induction s generalizing before with
  | nil => cases h
  | cons c s ih =>
      rw [lowerFrom] at h
      by_cases hs : s = []
      · rw [hs, lowerFrom, List.append_nil] at h
        exact ⟨c, by rw [hs, List.getLast?_singleton], _, _, List.mem_of_getLast? h⟩
      · rw [List.getLast?_append_of_ne_nil _ (lowerFrom_ne_nil hs _)] at h
        rw [List.getLast?_cons_of_ne_nil hs]
        exact ih h

/-- Small characters stay as they are. -/
theorem lowerFrom_of_small (h : ∀ c ∈ s, Small c) (before : List Char) :
    lowerFrom before s = s := by
  induction s generalizing before with
  | nil => rfl
  | cons c s ih =>
      obtain ⟨hc, hs⟩ := List.forall_mem_cons.mp h
      rw [lowerFrom, hc, ih hs, List.singleton_append]

/-- **A text in lower case stays as it is.** -/
theorem lower_lower (s : List Char) : lower (lower s) = lower s := by
  refine lowerFrom_of_small (fun d hd => ?_) []
  obtain ⟨c, -, before, after, h⟩ := exists_of_mem_lowerFrom hd
  exact small_of_mem_lowerAt h

/-! ### Trimming -/

/-- The text has no white space at its ends. -/
structure Trimmed (s : List Char) : Prop where
  head : ∀ c, s.head? = some c → isBlank c = false
  last : ∀ c, s.getLast? = some c → isBlank c = false

/-- Trimming drops blanks from the front and then from the end. -/
theorem trim_eq (s : List Char) : trim s = (s.dropWhile isBlank).rdropWhile isBlank := rfl

/-- What has no white space at its ends stays as it is. -/
theorem Trimmed.trim_eq_self (h : Trimmed s) : trim s = s := by
  have hfront : s.dropWhile isBlank = s := by
    rw [List.dropWhile_eq_self_iff]
    intro hpos
    rw [h.head s[0] (List.head?_eq_getElem? ▸ List.getElem?_eq_getElem hpos)]
    exact Bool.false_ne_true
  rw [trim_eq, hfront, List.rdropWhile_eq_self_iff]
  intro hne
  rw [h.last _ (List.getLast?_eq_getLast_of_ne_nil hne)]
  exact Bool.false_ne_true

/-- **A trimmed text** has no white space at its ends. -/
theorem trimmed_trim (s : List Char) : Trimmed (trim s) := by
  refine ⟨fun c hc => ?_, fun c hc => ?_⟩
  · obtain ⟨rest, hrest⟩ : trim s <+: s.dropWhile isBlank := List.rdropWhile_prefix isBlank _
    have hfront := List.head?_dropWhile_not isBlank s
    rw [← hrest, List.head?_append, hc] at hfront
    exact hfront
  · obtain ⟨front, hfront⟩ := List.getLast?_eq_some_iff.mp hc
    have hne : trim s ≠ [] := hfront ▸ List.append_ne_nil_of_right_ne_nil _ (List.cons_ne_nil _ _)
    have hlast := List.rdropWhile_last_not isBlank (s.dropWhile isBlank) hne
    rw [List.getLast?_eq_some_getLast hne, Option.some_inj] at hc
    exact hc ▸ Bool.eq_false_iff.mpr hlast

/-- **Lower case brings no white space to the ends** of a text. -/
theorem Trimmed.lower (h : Trimmed s) : Trimmed (lower s) := by
  refine ⟨fun d hd => ?_, fun d hd => ?_⟩
  · obtain ⟨c, hc, _, _, hmem⟩ := exists_of_head?_lowerFrom hd
    exact isBlank_of_mem_lowerAt (h.head c hc) hmem
  · obtain ⟨c, hc, _, _, hmem⟩ := exists_of_getLast?_lowerFrom hd
    exact isBlank_of_mem_lowerAt (h.last c hc) hmem

end EditGraph.Text
