import EditGraph.Proofs.LineReplay
import Mathlib.Algebra.Order.Field.Rat
import Mathlib.Tactic.Positivity

/-!
# The similarity as a ratio

The similarity of two sequences is worked out in two places. A script gets it from the number of
pairs that it was made from, and the comparison itself from the distance, which is searched for in
another way. Both come to the same two counts, since the pairs are as many as the distance leaves
room for, and therefore to the same floating point number, bit by bit.

Before it is rounded, twice the number of pairs over the number of all elements is a number from
zero to one. It is one only for sequences that match from the first element to the last, which are
those whose script is empty; no such script hides a difference. It is zero only for sequences of
which no element matches any of the other; a search that missed such a match would make it zero as
well. Two empty sequences have the ratio one, and so they are no exception to the first statement,
but one to the second.

## Main definitions

* `Similarity.ratio` — the exact ratio of the two counts.

## Main results

* `distance_eq_zero_iff` — what it takes to be at distance zero.
* `IsMatching.allEdits_eq_nil_iff` — what it takes to have no edits.
* `IsMatching.length_eq_zero_iff` — what it takes to have no pairs.
* `similarity_is_a_ratio` — the similarity of a comparison, and its extreme values.
-/

namespace EditGraph

open List (Forall₂)

/-! ### Exact ratios -/

namespace Similarity

variable {s : Similarity}

/-- `2 * common / total` as an exact number. -/
def ratio (s : Similarity) : ℚ := if s.total = 0 then 1 else 2 * s.common / s.total

/-- With elements to count, the ratio is the share of those in common. -/
theorem ratio_of_pos (h : 0 < s.total) : s.ratio = 2 * s.common / s.total := if_neg h.ne'

/-- No ratio is negative. -/
theorem ratio_nonneg (s : Similarity) : 0 ≤ s.ratio := by
  unfold ratio
  split <;> positivity

/-- The pairs take no more elements than there are. -/
theorem ratio_le_one (h : 2 * s.common ≤ s.total) : s.ratio ≤ 1 := by
  rcases Nat.eq_zero_or_pos s.total with hzero | hpos
  · rw [ratio, if_pos hzero]
  · rw [ratio_of_pos hpos]
    exact div_le_one_of_le₀ (by exact_mod_cast h) (Nat.cast_nonneg _)

/-- The ratio is one when the pairs take all elements. -/
theorem ratio_eq_one_iff (h : 2 * s.common ≤ s.total) : s.ratio = 1 ↔ 2 * s.common = s.total := by
  rcases Nat.eq_zero_or_pos s.total with hzero | hpos
  · have hboth : 2 * s.common = s.total := by omega
    simp [ratio, hzero, hboth]
  · rw [ratio_of_pos hpos, div_eq_one_iff_eq (by exact_mod_cast hpos.ne')]
    norm_cast

/-- The ratio of some elements is zero when there are no pairs. -/
theorem ratio_eq_zero_iff (h : 0 < s.total) : s.ratio = 0 ↔ s.common = 0 := by
  have htotal : (s.total : ℚ) ≠ 0 := by exact_mod_cast h.ne'
  rw [ratio_of_pos h, div_eq_zero_iff, or_iff_left htotal]
  norm_num

end Similarity

namespace Comparison

variable {α : Type} {c : Comparison α} {l : List Match}

/-! ### Nothing left over, and nothing matched -/

/-- Sequences that agree position by position match throughout. -/
theorem forall₂_of_agree (hsize : c.old.size = c.new.size)
    (hagree : ∀ i < c.old.size, c.agree i i = true) :
    Forall₂ (fun a b => c.same a b = true) c.old.toList c.new.toList := by
  refine List.forall₂_iff_get.mpr ⟨by simpa using hsize, fun i hi hi' => ?_⟩
  obtain ⟨a, b, ha, hb, hab⟩ := agree_eq_true_iff.mp (hagree i (by simpa using hi))
  obtain ⟨_, rfl⟩ := Array.getElem?_eq_some_iff.mp ha
  obtain ⟨_, rfl⟩ := Array.getElem?_eq_some_iff.mp hb
  simpa using hab

/-- **Distance zero is agreement at every position.** -/
theorem distance_eq_zero_iff (c : Comparison α) :
    c.region.grid.distance = 0 ↔
      c.old.size = c.new.size ∧ ∀ i < c.old.size, c.agree i i = true := by
  constructor
  · intro h
    obtain ⟨hsize, hchain⟩ := Region.isChain_of_distance_zero h
    refine ⟨hsize, fun i hi => ?_⟩
    have hmem : (⟨i + 1, i + 1⟩ : Match) ∈ c.region.run 0 0 c.old.size :=
      List.mem_map.mpr ⟨i, List.mem_range.mpr hi, by simp [region, Window.full]⟩
    exact pairs_succ_iff.mp ((isChain_region_iff.mp hchain).pairs _ hmem)
  · rintro ⟨hsize, hagree⟩
    exact distance_of_forall₂ (forall₂_of_agree hsize hagree)

/-- **A matching has no edits** when it leaves nothing over. -/
theorem IsMatching.allEdits_eq_nil_iff (hl : c.IsMatching l) (changes : Bool) :
    allEdits changes c.old.size c.new.size l = [] ↔
      2 * l.length = c.old.size + c.new.size := by
  obtain ⟨hold, hnew⟩ := hl.lengthOf_allEdits changes
  constructor
  · intro h
    simp only [h, lengthOf_nil] at hold hnew
    omega
  · intro h
    exact hl.allEdits_eq_nil changes (by omega) (by omega)

/-- **A longest matching has no pairs** when no elements match. -/
theorem IsMatching.length_eq_zero_iff (hl : c.IsMatching l)
    (hlongest : ∀ l', c.IsMatching l' → l'.length ≤ l.length) :
    l.length = 0 ↔ ∀ a ∈ c.old, ∀ b ∈ c.new, c.same a b = false := by
  constructor
  · intro h a ha b hb
    obtain ⟨i, hi, rfl⟩ := Array.mem_iff_getElem.mp ha
    obtain ⟨j, hj, rfl⟩ := Array.mem_iff_getElem.mp hb
    by_contra hsame
    have hagree : c.agree i j = true :=
      agree_eq_true_iff.mpr ⟨_, _, Array.getElem?_eq_getElem hi, Array.getElem?_eq_getElem hj,
        by simpa using hsame⟩
    have hsingle := hlongest [⟨i + 1, j + 1⟩]
      ⟨by simpa using pairs_succ_iff.mpr hagree, List.pairwise_singleton _ _⟩
    rw [h] at hsingle
    exact absurd hsingle (by simp)
  · intro h
    by_contra hne
    obtain ⟨p, hp⟩ := List.exists_mem_of_length_pos (Nat.pos_of_ne_zero hne)
    obtain ⟨a, b, ha, hb, hab⟩ := agree_eq_true_iff.mp (hl.pairs p hp).agree
    have hnone := h a (Array.mem_of_getElem? ha) b (Array.mem_of_getElem? hb)
    rw [hab] at hnone
    cases hnone

/-! ### The similarity of a comparison -/

/-- **The similarity is a ratio.** Whenever the diagonal vectors fit into memory, a script, with
changes or without, has the similarity that the comparison has, and so the same floating point
number. It is the number of pairs of a longest matching, over all elements. The exact ratio lies
between zero and one. It is one for sequences of one length whose elements match position by
position, and for no others, and just these have the empty script; where there are elements at
all, it is zero when no old element matches a new one, and only then. -/
theorem similarity_is_a_ratio (c : Comparison α) (changes : Bool) :
    (c.Fits →
      ∃ s w, c.script changes = .ok s ∧ c.similarity = .ok w ∧ s.similarity = w ∧
        s.similarity.value.bits = w.value.bits ∧
        IsGreatest {k | ∃ l, c.IsMatching l ∧ l.length = k} w.common ∧
        w.total = c.old.size + c.new.size ∧ 0 ≤ w.ratio ∧ w.ratio ≤ 1 ∧
        (w.ratio = 1 ↔
          c.old.size = c.new.size ∧ ∀ i < c.old.size, c.agree i i = true) ∧
        (w.ratio = 1 ↔ s.edits = #[]) ∧
        (0 < c.old.size + c.new.size →
          (w.ratio = 0 ↔ ∀ a ∈ c.old, ∀ b ∈ c.new, c.same a b = false))) ∧
    (¬ c.Fits → c.script changes = .error .capacity ∧ c.similarity = .error .capacity) := by
  refine ⟨fun h => ?_, fun h => ⟨script_of_not_fits h changes, similarity_of_not_fits h⟩⟩
  obtain ⟨found, hfound, hmatching, hlength⟩ := exists_matching h
  have hlongest (l : List Match) (hl : c.IsMatching l) : l.length ≤ found.toList.length := by
    have := hl.distance_le
    have hle : l.length ≤ found.size := by omega
    exact hle
  have hmost : 2 * found.size ≤ c.old.size + c.new.size := by omega
  have hone : (⟨found.size, c.old.size + c.new.size⟩ : Similarity).ratio = 1 ↔
      2 * found.size = c.old.size + c.new.size := Similarity.ratio_eq_one_iff hmost
  refine ⟨_, _, script_eq_ok h hfound changes, similarity_eq_ok h hfound, rfl, rfl,
    ⟨⟨_, hmatching, Array.length_toList⟩, ?_⟩, rfl, Similarity.ratio_nonneg _,
    Similarity.ratio_le_one hmost, ?_, ?_, fun hpos => ?_⟩
  · rintro k ⟨l, hl, rfl⟩
    simpa using hlongest l hl
  · rw [hone, ← distance_eq_zero_iff]
    omega
  · have hedits := hmatching.allEdits_eq_nil_iff changes
    rw [Array.length_toList] at hedits
    rw [hone, List.toArray_eq_iff, hedits]
  · have hnone := hmatching.length_eq_zero_iff hlongest
    rw [Array.length_toList] at hnone
    exact (Similarity.ratio_eq_zero_iff hpos).trans hnone

/-- Two words that have some letters in common, but not all. -/
theorem similarity_is_a_ratio_ab :
    (ofEq #['a', 'b'] #['b', 'c']).Fits ∧
      ∃ s w, (ofEq #['a', 'b'] #['b', 'c']).script true = .ok s ∧
        (ofEq #['a', 'b'] #['b', 'c']).similarity = .ok w ∧ s.edits ≠ #[] ∧
        0 < w.ratio ∧ w.ratio < 1 := by
  have hfits : (ofEq #['a', 'b'] #['b', 'c']).Fits := by decide
  obtain ⟨s, w, hs, hw, -, -, -, -, hnonneg, hle, hsame, hempty, hnone⟩ :=
    (similarity_is_a_ratio (ofEq #['a', 'b'] #['b', 'c']) true).1 hfits
  have hone : w.ratio ≠ 1 := by
    intro h
    exact absurd ((hsame.mp h).2 0 (by decide)) (by decide)
  have hzero : w.ratio ≠ 0 := by
    intro h
    exact absurd ((hnone (by decide)).mp h 'b' (by simp [ofEq]) 'b' (by simp [ofEq])) (by decide)
  exact ⟨hfits, s, w, hs, hw, fun h => hone (hempty.mpr h), lt_of_le_of_ne hnonneg hzero.symm,
    lt_of_le_of_ne hle hone⟩

end Comparison

end EditGraph
