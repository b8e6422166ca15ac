import EditGraph.Proofs.EditDistance
import Mathlib.Algebra.GroupWithZero.Nat

/-!
# Scripts of matchings

The script of a matching has the edits of its gaps. The gaps and the pairs of a matching share
out the elements of both sequences: a gap has the elements between two pairs, and a pair has
one of either side. So the edits cost what the matching leaves over, which for the matching of
a comparison is the distance, and both checks of `Comparison.script` succeed.

## Main definitions

* `allEdits` — the edits of all gaps of a matching.

## Main results

* `sides_gaps` — what gaps and pairs have together.
* `sum_edits` — what the edits of gaps remove and insert together.
* `ofMatching_eq_ok` — the script of pairs that rise, and its cost.
* `script_eq_ok`, `similarity_eq_ok` — the script and the similarity of a comparison.
-/

namespace EditGraph

variable {n m x y : ℕ} {l : List Match}

/-! ### Pairs and gaps -/

/-- Pairs that rise from a point lie behind it. -/
theorem Rises.lt_of_mem {p : Match} (h : Rises n m x y l) (hp : p ∈ l) : x < p.x ∧ y < p.y := by
  induction l generalizing x y with
  | nil => exact nomatch hp
  | cons q l ih =>
      obtain ⟨hx, hy, hl⟩ := h
      rcases List.mem_cons.mp hp with rfl | hp
      · exact ⟨hx, hy⟩
      · have := ih hl hp
        omega

/-- Pairs in rising order inside the grid are a rising list. -/
theorem rises_of_pairwise (hl : l.Pairwise fun p q => p.x < q.x ∧ p.y < q.y)
    (hwithin : ∀ p ∈ l, (x < p.x ∧ p.x ≤ n) ∧ (y < p.y ∧ p.y ≤ m)) (hx : x ≤ n) (hy : y ≤ m) :
    Rises n m x y l := by
  induction l generalizing x y with
  | nil => exact ⟨hx, hy⟩
  | cons p l ih =>
      obtain ⟨hlt, hl⟩ := List.pairwise_cons.mp hl
      obtain ⟨hp, hwithin⟩ := List.forall_mem_cons.mp hwithin
      refine ⟨hp.1.1, hp.2.1, ih hl ?_ hp.1.2 hp.2.2⟩
      intro q hq
      have := hlt q hq
      have := hwithin q hq
      omega

/-- A matching rises from the beginnings of both sequences to their ends. -/
theorem Comparison.IsMatching.rises {α : Type} {c : Comparison α} (h : c.IsMatching l) :
    Rises c.old.size c.new.size 0 0 l := by
  refine rises_of_pairwise h.rising ?_ (Nat.zero_le _) (Nat.zero_le _)
  intro p hp
  obtain ⟨hcolumn, hrow, -⟩ := h.pairs p hp
  omega

/-- The gaps of a matching, that behind its last pair among them. -/
def allGaps (n m x y : ℕ) (l : List Match) : List Gap := gaps x y (l ++ [⟨n + 1, m + 1⟩])

/-- With nothing matched the rest is one gap. -/
theorem allGaps_nil : allGaps n m x y [] = [⟨x, y, n - x, m - y⟩] := rfl

/-- The first gap ends before the first pair, and the others start behind it. -/
theorem allGaps_cons (p : Match) :
    allGaps n m x y (p :: l) = ⟨x, y, p.x - 1 - x, p.y - 1 - y⟩ :: allGaps n m p.x p.y l := rfl

/-- **Gaps and pairs share out the elements** of both sequences. -/
theorem sides_gaps (h : Rises n m x y l) :
    ((allGaps n m x y l).map Gap.width).sum + l.length + x = n ∧
      ((allGaps n m x y l).map Gap.height).sum + l.length + y = m := by
  induction l generalizing x y with
  | nil =>
      obtain ⟨hx, hy⟩ := h
      simp only [allGaps_nil, List.map_cons, List.map_nil, List.sum_cons, List.sum_nil,
        List.length_nil]
      omega
  | cons p l ih =>
      obtain ⟨hx, hy, hl⟩ := h
      obtain ⟨hwidth, hheight⟩ := ih hl
      simp only [allGaps_cons, List.map_cons, List.sum_cons, List.length_cons]
      omega

/-! ### The cost of the edits -/

/-- The edits of all gaps of a matching. -/
def allEdits (changes : Bool) (n m : ℕ) (l : List Match) : List Edit :=
  (allGaps n m 0 0 l).flatMap (Gap.edits changes)

/-- What the edits of each gap add up to, those of all gaps add up to together. -/
theorem sum_edits {changes : Bool} {size : Edit → ℕ} {side : Gap → ℕ}
    (hgap : ∀ g : Gap, (g.edits changes).foldr (fun e n => size e + n) 0 = side g)
    (gs : List Gap) :
    ((gs.flatMap (Gap.edits changes)).map size).sum = (gs.map side).sum := by
  induction gs with
  | nil => rfl
  | cons g gs ih =>
      have hsum : ((g.edits changes).map size).sum = side g := by
        rw [List.sum_eq_foldr, List.foldr_map]
        exact hgap g
      rw [List.flatMap_cons, List.map_append, List.sum_append, hsum, ih, List.map_cons,
        List.sum_cons]

/-- **Adding edits adds their costs**, as long as the sum is a 64-bit quantity. -/
theorem foldlM_add {es : List Edit} {s : EditScript}
    (h : s.totalCost + (es.map Edit.removed).sum + (es.map Edit.inserted).sum < Word.limit) :
    es.foldlM EditScript.add s =
      .ok ⟨s.edits ++ es.toArray,
        s.totalCost + (es.map Edit.removed).sum + (es.map Edit.inserted).sum, s.similarity⟩ := by
  induction es generalizing s with
  | nil => simp [pure, Except.pure]
  | cons e es ih =>
      simp only [List.map_cons, List.sum_cons] at h ⊢
      have hcost : e.cost = .ok (e.removed + e.inserted) := Word.fit_of_lt (by omega)
      have hadd : EditScript.add s e =
          .ok ⟨s.edits.push e, s.totalCost + (e.removed + e.inserted), s.similarity⟩ := by
        rw [EditScript.add, hcost, ok_bind, Word.fit_of_lt (by omega)]
        rfl
      rw [List.foldlM_cons, hadd, ok_bind, ih (by simp only; omega)]
      congr 2
      · simp
      · simp only
        omega

/-- **The script of pairs that rise** costs the elements beside them. -/
theorem ofMatching_eq_ok (changes : Bool) (h : Rises n m 0 0 l)
    (hlimit : n + m + 2 < Word.limit) :
    EditScript.ofMatching changes n m l =
      .ok ⟨(allEdits changes n m l).toArray, n + m - 2 * l.length, ⟨l.length, n + m⟩⟩ := by
  obtain ⟨hwidth, hheight⟩ := sides_gaps h
  have hremoved := sum_edits (foldr_removed_edits changes) (allGaps n m 0 0 l)
  have hinserted := sum_edits (foldr_inserted_edits changes) (allGaps n m 0 0 l)
  have hcost : ((allEdits changes n m l).map Edit.removed).sum +
      ((allEdits changes n m l).map Edit.inserted).sum = n + m - 2 * l.length := by
    rw [allEdits, hremoved, hinserted]
    omega
  have hfold : EditScript.ofMatching changes n m l =
      (allEdits changes n m l).foldlM EditScript.add ⟨#[], 0, ⟨l.length, n + m⟩⟩ :=
    EditScript.ofMatching_eq changes h hlimit (by omega)
  rw [hfold, foldlM_add (by simp only; omega), Nat.zero_add, hcost, Array.empty_append]

/-! ### The script of a comparison -/

namespace Comparison

variable {α : Type} {c : Comparison α} {found : Array Match}

/-- **The script of a comparison** has the edits of its matching and passes both checks. -/
theorem script_eq_ok (h : c.Fits) (hfound : c.matching = .ok found) (changes : Bool) :
    c.script changes =
      .ok ⟨(allEdits changes c.old.size c.new.size found.toList).toArray,
        c.region.grid.distance, ⟨found.size, c.old.size + c.new.size⟩⟩ := by
  obtain ⟨hmatching, hlength⟩ := isMatching_of_matching h hfound
  have hcount := commonLength_eq_ok h (l := found.size) (by omega)
  have hscript := ofMatching_eq_ok changes hmatching.rises h.sum_lt
  have hcost : c.old.size + c.new.size - 2 * found.toList.length = c.region.grid.distance := by
    rw [Array.length_toList]
    omega
  rw [hcost, Array.length_toList] at hscript
  simp only [script, hfound, hcount, hscript, distance_eq_ok h, ok_bind, ne_eq,
    not_true_eq_false, if_false]
  rfl

/-- **The similarity of a comparison** counts the pairs of its matching. -/
theorem similarity_eq_ok (h : c.Fits) (hfound : c.matching = .ok found) :
    c.similarity = .ok ⟨found.size, c.old.size + c.new.size⟩ := by
  obtain ⟨-, hlength⟩ := isMatching_of_matching h hfound
  rw [similarity, commonLength_eq_ok h (l := found.size) (by omega), ok_bind]
  exact Similarity.create_eq_ok (by have := h.sum_lt; omega) (by omega)

/-- Without the memory for diagonal vectors there is no script. -/
theorem script_of_not_fits (h : ¬ c.Fits) (changes : Bool) :
    c.script changes = .error .capacity := by
  rw [script, matching_of_not_fits h, error_bind]

/-- There is no similarity either. -/
theorem similarity_of_not_fits (h : ¬ c.Fits) : c.similarity = .error .capacity := by
  rw [similarity, commonLength_of_not_fits h, error_bind]

end Comparison

end EditGraph
