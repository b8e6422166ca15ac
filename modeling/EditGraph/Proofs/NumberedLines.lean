import EditGraph.Proofs.Alignment
import EditGraph.Proofs.NormalForms
import Mathlib.Data.Nat.ModEq

/-!
# Numbered lines

The method `unique` numbers lines in the order they are hashed, whatever they are and whatever is
ignored. The numbers are signed 32-bit quantities, so they repeat after `2 ^ 32` lines and not
before. One hasher serves both texts of a comparison and goes on counting at the new one; with
hashers of their own the texts would share their first numbers.

So no line of texts with `2 ^ 32` lines or fewer matches another one. A comparison without any
match has an empty matching, which leaves one gap over: all lines of both texts. The script has the
edits of that gap.

## Main results

* `Hasher.hashList_unique` — the numbers that lines get.
* `ofNat_eq_ofNat_iff` — which numbers are equal as 32-bit quantities.
* `Comparison.NothingMatches.matching`, `Comparison.NothingMatches.script` — what a comparison
  without any match answers.
* `LineComparison.nothingMatches_byFingerprint` — numbered lines do not match.
* `LineComparison.unique_replaces_everything` — the comparison of numbered lines.
-/

namespace EditGraph

/-! ### Numbers -/

/-- **Numbers repeat after `2 ^ 32` lines**, and not before. -/
theorem ofNat_eq_ofNat_iff {i j : ℕ} : Int32.ofNat i = Int32.ofNat j ↔ i ≡ j [MOD 2 ^ 32] := by
  rw [← Int32.toInt_inj, Int32.toInt_ofNat', Int32.toInt_ofNat',
    Int.bmod_eq_bmod_iff_bmod_sub_eq_zero, ← Int.dvd_iff_bmod_eq_zero, Nat.ModEq.comm,
    Nat.modEq_iff_dvd]
  rfl

/-- A hasher of the method `unique` counts on from its next number, one for each line. -/
theorem Hasher.hashList_unique {h : Hasher} (hmethod : h.method = .unique) (lines : List String) :
    h.hashList lines =
      ((List.range lines.length).map fun i => h.next + Int32.ofNat i,
        { h with next := h.next + Int32.ofNat lines.length }) := by
  -- for every hasher, as the first line leaves one behind with another next number
  induction lines generalizing h with
  | nil => simp [hashList]
  | cons line lines ih =>
      have hhash : h.hash line = (h.next, { h with next := h.next + 1 }) := by
        rw [hash, hmethod]
        rfl
      have hnext (i : ℕ) : h.next + 1 + Int32.ofNat i = h.next + Int32.ofNat (i + 1) := by
        rw [Nat.add_comm i 1, Int32.ofNat_add, Int32.add_assoc]
        rfl
      rw [hashList, hhash, ih (h := { h with next := h.next + 1 }) hmethod]
      simp only [hnext, List.length_cons, List.range_succ_eq_map, List.map_cons, List.map_map]
      simp [Function.comp_def]

/-- Every line gets one fingerprint. -/
theorem size_fingerprints (o : LineOptions) (lines : Array String) :
    (o.fingerprints lines).size = lines.size := Hasher.size_hashAll ..

/-- The lines hashed by a new hasher have the numbers from zero on. -/
theorem eq_ofNat_of_fingerprints {o : LineOptions} (h : o.method = .unique) {lines : Array String}
    {i : ℕ} {value : Int32} (hvalue : (o.fingerprints lines)[i]? = some value) :
    value = Int32.ofNat i := by
  have hstart : o.hasher.next = 0 := rfl
  have hlist := Hasher.hashList_unique (h := o.hasher) h lines.toList
  simp only [LineOptions.fingerprints, Hasher.hashAll_eq, hlist, hstart, List.getElem?_toArray,
    List.getElem?_map, Option.map_eq_some_iff, List.getElem?_eq_some_iff] at hvalue
  obtain ⟨_, ⟨hi, rfl⟩, rfl⟩ := hvalue
  rw [List.getElem_range, Int32.zero_add]

/-! ### Comparisons without matches -/

/-- Without pairs everything lies in one gap. -/
theorem allEdits_nil (changes : Bool) (n m : ℕ) :
    allEdits changes n m [] = Gap.edits changes ⟨0, 0, n, m⟩ := by
  rw [allEdits, allGaps_nil, List.flatMap_cons, List.flatMap_nil, List.append_nil, Nat.sub_zero,
    Nat.sub_zero]

namespace Comparison

variable {α : Type} {c : Comparison α}

/-- No old element matches a new one. -/
def NothingMatches (c : Comparison α) : Prop := ∀ i j, c.agree i j = false

namespace NothingMatches

variable (h : c.NothingMatches) (hfits : c.Fits)
include h

/-- There are no pairs. -/
theorem eq_nil {l : List Match} (hl : c.IsMatching l) : l = [] := by
  cases l with
  | nil => rfl
  | cons p l =>
      have hpair := (hl.pairs p List.mem_cons_self).agree
      rw [h] at hpair
      cases hpair

include hfits

/-- Everything is left over. -/
theorem matching :
    c.matching = .ok #[] ∧ c.region.grid.distance = c.old.size + c.new.size := by
  obtain ⟨found, hfound, hmatching, hlength⟩ := exists_matching hfits
  obtain rfl : found = #[] := Array.toList_eq_nil_iff.mp (h.eq_nil hmatching)
  rw [Array.size_empty] at hlength
  exact ⟨hfound, by omega⟩

/-- With no line hashed like another one nothing is in common. -/
theorem similarity : c.similarity = .ok ⟨0, c.old.size + c.new.size⟩ :=
  similarity_eq_ok hfits (h.matching hfits).1

/-- **The script replaces everything** in a single gap. -/
theorem script (changes : Bool) :
    c.script changes =
      .ok ⟨(Gap.edits changes ⟨0, 0, c.old.size, c.new.size⟩).toArray,
        c.old.size + c.new.size, ⟨0, c.old.size + c.new.size⟩⟩ := by
  obtain ⟨hfound, hdistance⟩ := h.matching hfits
  rw [script_eq_ok hfits hfound changes, hdistance, ← allEdits_nil]
  rfl

end NothingMatches

end Comparison

/-- Nothing in common is a similarity of zero, unless there is nothing at all. -/
theorem Similarity.value_nothing (total : ℕ) :
    (⟨0, total⟩ : Similarity).value = if total = 0 then .ofNat 1 else .zero := by
  by_cases h : total = 0
  · rw [value, if_pos h, if_pos h]
  · rw [value, if_neg h, if_neg h]
    simp [Binary64.ofNat, Binary64.ofQuotient, Binary64.div, Binary64.quotient, Binary64.zero,
      Binary64.scaled]

/-! ### Texts -/

namespace LineComparison

variable {c : LineComparison}

/-- The old lines have the numbers from zero on, the new ones those behind them. -/
theorem byFingerprint_unique (h : c.options.method = .unique) :
    c.byFingerprint =
      .ofEq ((List.range c.old.size).map Int32.ofNat).toArray
        ((List.range c.new.size).map fun j => Int32.ofNat (c.old.size + j)).toArray := by
  have hold := Hasher.hashList_unique (h := c.options.hasher) h c.old.toList
  -- the hasher that the new lines get has counted the old ones
  have hnew := Hasher.hashList_unique
    (h := { c.options.hasher with next := c.options.hasher.next + Int32.ofNat c.old.toList.length })
    h c.new.toList
  have hstart : c.options.hasher.next = 0 := rfl
  simp only [byFingerprint, Hasher.hashAll_eq, hold, hnew]
  simp [hstart, Int32.ofNat_add]

/-- **Numbered lines do not match**, as long as the numbers do not repeat. -/
theorem nothingMatches_byFingerprint (h : c.options.method = .unique)
    (hsize : c.old.size + c.new.size ≤ 2 ^ 32) : c.byFingerprint.NothingMatches := by
  intro i j
  rw [Bool.eq_false_iff]
  intro hagree
  obtain ⟨a, b, ha, hb, hab⟩ := Comparison.agree_eq_true_iff.mp hagree
  rw [byFingerprint_unique h] at ha hb hab
  simp only [Comparison.ofEq, List.getElem?_toArray, List.getElem?_map, Option.map_eq_some_iff,
    List.getElem?_eq_some_iff] at ha hb
  obtain ⟨_, ⟨hi, rfl⟩, rfl⟩ := ha
  obtain ⟨_, ⟨hj, rfl⟩, rfl⟩ := hb
  have hmod := ofNat_eq_ofNat_iff.mp (eq_of_beq hab)
  rw [List.length_range] at hi hj
  rw [List.getElem_range, List.getElem_range, Nat.ModEq, Nat.mod_eq_of_lt (by omega),
    Nat.mod_eq_of_lt (by omega)] at hmod
  omega

/-- **Numbered lines are replaced altogether.** By the method `unique` the line that is hashed as
the `i`-th one, from zero, gets `i` as a signed 32-bit quantity, so that two lines have the same
number just when they are a multiple of `2 ^ 32` lines apart. Two texts of at most so many lines
together have no line in common, and their similarity is zero unless both are empty. The script has
the edits of a single gap: all old lines are deleted and all new ones inserted or, with changes, as
many as both texts have are changed. Replayed, it makes the new text. -/
theorem unique_replaces_everything (c : LineComparison) (h : c.options.method = .unique) :
    (∀ lines : Array String, (c.options.fingerprints lines).size = lines.size ∧
      ∀ (i j : ℕ) v w, (c.options.fingerprints lines)[i]? = some v →
        (c.options.fingerprints lines)[j]? = some w →
          v.toInt = (i : ℤ).bmod (2 ^ 32) ∧ (v = w ↔ i ≡ j [MOD 2 ^ 32])) ∧
    (c.old.size + c.new.size ≤ 2 ^ 32 →
      ∃ s similarity, c.script = .ok s ∧ c.common = .ok #[] ∧ c.similarity = .ok similarity ∧
        s.similarity = similarity ∧
        similarity.value = (if c.old = #[] ∧ c.new = #[] then .ofNat 1 else .zero) ∧
        s.totalCost = c.old.size + c.new.size ∧ s.apply c.old c.new = .ok c.new ∧
        s.edits.toList =
          if c.options.changes then Gap.paired ⟨0, 0, c.old.size, c.new.size⟩
          else Gap.separate ⟨0, 0, c.old.size, c.new.size⟩) := by
  refine ⟨fun lines => ⟨size_fingerprints _ _, fun i j v w hv hw => ?_⟩, fun hsize => ?_⟩
  · obtain rfl := eq_ofNat_of_fingerprints h hv
    obtain rfl := eq_ofNat_of_fingerprints h hw
    exact ⟨Int32.toInt_ofNat', ofNat_eq_ofNat_iff⟩
  · have hnothing := nothingMatches_byFingerprint h hsize
    have hold := size_byFingerprint_old c
    have hnew := size_byFingerprint_new c
    have hfits : c.byFingerprint.Fits := by
      rw [Comparison.Fits, Diagonals.Fits, Diagonals.memoryLimit, hold, hnew]
      omega
    have hscript := hnothing.script hfits c.options.changes
    have hsimilarity := hnothing.similarity hfits
    rw [hold, hnew] at hscript hsimilarity
    refine ⟨_, _, hscript, ?_, hsimilarity, rfl, ?_, rfl, ?_, ?_⟩
    · rw [common_eq (hnothing.matching hfits).1, Array.mapM_empty]
      rfl
    · rw [Similarity.value_nothing]
      simp only [Nat.add_eq_zero_iff, Array.size_eq_zero_iff]
    · have hlimit : c.old.size < Word.limit ∧ c.new.size < Word.limit := by
        rw [Word.limit]
        omega
      have hrises : Rises c.old.size c.new.size 0 0 [] := ⟨Nat.zero_le _, Nat.zero_le _⟩
      rw [apply_eq_ok c.options.changes hlimit hrises (by rw [allEdits_nil]), merged,
        Array.extract_size]
    · cases c.options.changes with
      | false => exact edits_false _
      | true => exact edits_true _

/-- A text compared with itself: both lines are deleted and inserted again. -/
theorem unique_replaces_everything_same :
    let c : LineComparison := ⟨#["same", "same"], #["same", "same"], ⟨.unique, .none, false⟩⟩
    ∃ s, c.script = .ok s ∧ c.common = .ok #[] ∧ s.totalCost = 4 ∧
      s.edits.toList = [⟨.delete, 0, 0, 2⟩, ⟨.insert, 2, 0, 2⟩] := by
  intro c
  obtain ⟨s, -, hs, hcommon, -, -, -, hcost, -, hedits⟩ :=
    (unique_replaces_everything c rfl).2 (by decide)
  exact ⟨s, hs, hcommon, hcost, hedits⟩

end LineComparison

end EditGraph
