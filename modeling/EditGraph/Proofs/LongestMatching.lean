import EditGraph.Comparison
import EditGraph.Proofs.Division
import Mathlib.Data.List.Forall2

/-!
# Longest matchings

The matching of a comparison is a longest one. What it is compared with does not mention a
search: all lists of pairs of matching elements that rise on both sides, the table of lengths
that dynamic programming fills in, and all common subsequences.

## Main definitions

* `Comparison.Pairs`, `Comparison.IsMatching` — pairs of elements that match, and matchings.
* `Comparison.table` — the table of lengths, by its recurrence.
* `IsCommon` — common subsequences.
* `Comparison.Fits` — the comparisons whose diagonal vectors fit into memory.

## Main results

* `IsMatching.length_le_table`, `exists_isMatching_table` — the table has the greatest lengths.
* `IsMatching.exists_isCommon`, `exists_isMatching_of_isCommon` — matchings and common subsequences
  come to the same.
* `exists_matching` — the matching of a comparison, and its length.
* `matching_is_longest` — neither a matching nor a common subsequence is longer.
-/

namespace EditGraph

open List (Forall₂)

namespace Comparison

variable {α : Type} {c : Comparison α}

/-! ### Matchings -/

/-- Whether the elements at positions `i` and `j` match, counted from zero. -/
def agree (c : Comparison α) (i j : ℕ) : Bool :=
  match c.old[i]?, c.new[j]? with
  | some a, some b => c.same a b
  | _, _ => false

/-- A pair of positions, counted from one, with elements that match. -/
structure Pairs (c : Comparison α) (p : Match) : Prop where
  column : 1 ≤ p.x ∧ p.x ≤ c.old.size
  row : 1 ≤ p.y ∧ p.y ≤ c.new.size
  agree : c.agree (p.x - 1) (p.y - 1) = true

/-- A list of pairs of elements that match, strictly increasing on both sides. -/
structure IsMatching (c : Comparison α) (l : List Match) : Prop where
  pairs : ∀ p ∈ l, c.Pairs p
  rising : l.Pairwise fun p q => p.x < q.x ∧ p.y < q.y

/-- Two positions agree when both have an element and the test accepts the two. -/
theorem agree_eq_true_iff {i j : ℕ} :
    c.agree i j = true ↔
      ∃ a b, c.old[i]? = some a ∧ c.new[j]? = some b ∧ c.same a b = true := by
  unfold agree
  cases c.old[i]? <;> cases c.new[j]? <;> simp

/-- Positions at which elements match are positions of the sequences. -/
theorem lt_of_agree {i j : ℕ} (h : c.agree i j = true) : i < c.old.size ∧ j < c.new.size := by
  obtain ⟨a, b, ha, hb, -⟩ := agree_eq_true_iff.mp h
  exact ⟨(Array.getElem?_eq_some_iff.mp ha).1, (Array.getElem?_eq_some_iff.mp hb).1⟩

/-- Positions counted from one are paired when the ones before them, counted from zero, agree. -/
theorem pairs_succ_iff {i j : ℕ} : c.Pairs ⟨i + 1, j + 1⟩ ↔ c.agree i j = true := by
  constructor
  · exact fun h => h.agree
  · intro h
    have := lt_of_agree h
    exact ⟨by simp only; omega, by simp only; omega, h⟩

/-- A matching without its last pair lies before that pair. -/
theorem isMatching_concat_iff {l : List Match} {p : Match} :
    c.IsMatching (l ++ [p]) ↔
      c.IsMatching l ∧ c.Pairs p ∧ ∀ q ∈ l, q.x < p.x ∧ q.y < p.y := by
  constructor
  · rintro ⟨hpairs, hrising⟩
    obtain ⟨hl, hp⟩ := List.forall_mem_append.mp hpairs
    obtain ⟨hl', -, hlt⟩ := List.pairwise_append.mp hrising
    exact ⟨⟨hl, hl'⟩, hp p List.mem_cons_self, fun q hq => hlt q hq p List.mem_cons_self⟩
  · rintro ⟨hl, hp, hlt⟩
    refine ⟨List.forall_mem_append.mpr ⟨hl.pairs, by simpa using hp⟩,
      List.pairwise_append.mpr ⟨hl.rising, List.pairwise_singleton _ _, ?_⟩⟩
    simpa using hlt

/-! ### The table of lengths -/

/-- A row of the table, from the row above it. -/
def tableRow (agree : ℕ → Bool) (above : ℕ → ℕ) : ℕ → ℕ
  | 0 => 0
  | j + 1 => if agree j then above j + 1 else max (above (j + 1)) (tableRow agree above j)

/-- The length of a longest common subsequence of the first `i` old and the first `j` new
elements, as dynamic programming computes it. -/
def table (c : Comparison α) : ℕ → ℕ → ℕ
  | 0 => fun _ => 0
  | i + 1 => tableRow (c.agree i) (c.table i)

/-- With no old elements nothing can be matched. -/
@[simp] theorem table_zero (c : Comparison α) (j : ℕ) : c.table 0 j = 0 := rfl

/-- With no new elements nothing can be matched. -/
@[simp] theorem table_succ_zero (c : Comparison α) (i : ℕ) : c.table (i + 1) 0 = 0 := rfl

/-- The two last elements are matched if they agree, and one of them is left out if not. -/
theorem table_succ_succ (c : Comparison α) (i j : ℕ) :
    c.table (i + 1) (j + 1) =
      if c.agree i j then c.table i j + 1 else max (c.table i (j + 1)) (c.table (i + 1) j) := rfl

/-- Without columns or without rows there are no pairs. -/
theorem IsMatching.eq_nil {l : List Match} (hl : c.IsMatching l)
    (hwithin : ∀ p ∈ l, p.x = 0 ∨ p.y = 0) : l = [] := by
  cases l with
  | nil => rfl
  | cons p l =>
      have hp := hl.pairs p List.mem_cons_self
      have hcolumn := hp.column
      have hrow := hp.row
      rcases hwithin p List.mem_cons_self with hx | hy
      · omega
      · omega

/-- **No matching is longer than the table says.** -/
theorem IsMatching.length_le_table {l : List Match} {i j : ℕ} (hl : c.IsMatching l)
    (hwithin : ∀ p ∈ l, p.x ≤ i ∧ p.y ≤ j) : l.length ≤ c.table i j := by
  induction i generalizing j l with
  | zero =>
      have hnone := hl.eq_nil (by
        intro p hp
        have := hwithin p hp
        omega)
      simp [hnone]
  | succ i ihi =>
      induction j generalizing l with
      | zero =>
          have hnone := hl.eq_nil (by
            intro p hp
            have := hwithin p hp
            omega)
          simp [hnone]
      | succ j ihj =>
          rcases List.eq_nil_or_concat' l with rfl | ⟨l, p, rfl⟩
          · simp
          obtain ⟨hl', hp, hlt⟩ := isMatching_concat_iff.mp hl
          have hpij := hwithin p (by simp)
          have hle (q : Match) (hq : q ∈ l ++ [p]) : q.x ≤ p.x ∧ q.y ≤ p.y := by
            rcases List.mem_append.mp hq with hq | hq
            · have := hlt q hq
              omega
            · obtain rfl : q = p := by simpa using hq
              exact ⟨le_rfl, le_rfl⟩
          rw [table_succ_succ]
          by_cases hagree : c.agree i j = true
          · -- whatever the last pair is, all others lie before the place of this one
            have hbound := ihi (j := j) hl' (by
              intro q hq
              have := hlt q hq
              omega)
            rw [if_pos hagree, List.length_append, List.length_singleton]
            omega
          · rw [if_neg hagree]
            by_cases hpx : p.x = i + 1
            · have hpy : p.y ≠ j + 1 := by
                intro hpy
                have := hp.agree
                rw [hpx, hpy] at this
                exact hagree this
              have hbound := ihj hl (by
                intro q hq
                have := hle q hq
                omega)
              omega
            · have hbound := ihi (j := j + 1) hl (by
                intro q hq
                have := hle q hq
                omega)
              omega

/-- In particular none is longer than the last entry of the table. -/
theorem IsMatching.length_le {l : List Match} (hl : c.IsMatching l) :
    l.length ≤ c.table c.old.size c.new.size :=
  hl.length_le_table fun p hp => ⟨(hl.pairs p hp).column.2, (hl.pairs p hp).row.2⟩

/-- **The table's lengths are those of matchings.** -/
theorem exists_isMatching_table (c : Comparison α) (i j : ℕ) :
    ∃ l, c.IsMatching l ∧ (∀ p ∈ l, p.x ≤ i ∧ p.y ≤ j) ∧ l.length = c.table i j := by
  induction i generalizing j with
  | zero => exact ⟨[], ⟨nofun, .nil⟩, nofun, rfl⟩
  | succ i ihi =>
      induction j with
      | zero => exact ⟨[], ⟨nofun, .nil⟩, nofun, rfl⟩
      | succ j ihj =>
          rw [table_succ_succ]
          by_cases hagree : c.agree i j = true
          · obtain ⟨l, hl, hwithin, hlength⟩ := ihi j
            refine ⟨l ++ [⟨i + 1, j + 1⟩], isMatching_concat_iff.mpr
              ⟨hl, pairs_succ_iff.mpr hagree, ?_⟩, ?_, ?_⟩
            · intro q hq
              have := hwithin q hq
              exact ⟨by simp only; omega, by simp only; omega⟩
            · refine List.forall_mem_append.mpr ⟨?_, by simp⟩
              intro q hq
              have := hwithin q hq
              omega
            · rw [if_pos hagree, List.length_append, hlength, List.length_singleton]
          · rw [if_neg hagree]
            rcases le_total (c.table i (j + 1)) (c.table (i + 1) j) with hle | hle
            · obtain ⟨l, hl, hwithin, hlength⟩ := ihj
              refine ⟨l, hl, ?_, by omega⟩
              intro q hq
              have := hwithin q hq
              omega
            · obtain ⟨l, hl, hwithin, hlength⟩ := ihi (j + 1)
              refine ⟨l, hl, ?_, by omega⟩
              intro q hq
              have := hwithin q hq
              omega

end Comparison

/-! ### Common subsequences -/

section Common

variable {α : Type} {same : α → α → Bool} {s t u : List α}

/-- A subsequence of the first list that matches a subsequence of the second, element by
element. -/
def IsCommon (same : α → α → Bool) (s t u : List α) : Prop :=
  u.Sublist s ∧ ∃ v : List α, v.Sublist t ∧ Forall₂ (fun a b => same a b = true) u v

/-- Position `x`, counted from one, has the element `a`. -/
def HasAt (s : List α) (x : ℕ) (a : α) : Prop := 1 ≤ x ∧ s[x - 1]? = some a

/-- **A subsequence is what is found at rising positions.** -/
theorem sublist_iff_hasAt :
    u.Sublist s ↔ ∃ xs : List ℕ, xs.Pairwise (· < ·) ∧ Forall₂ (HasAt s) xs u := by
  constructor
  · intro h
    obtain ⟨is, rfl, his⟩ := List.sublist_eq_map_getElem h
    refine ⟨is.map fun i => i.val + 1, ?_, ?_⟩
    · exact List.pairwise_map.mpr (his.imp fun hij => Nat.succ_lt_succ hij)
    · rw [List.forall₂_map_left_iff, List.forall₂_map_right_iff, List.forall₂_same]
      intro i _
      exact ⟨Nat.succ_pos _, by simp⟩
  · rintro ⟨xs, hxs, hall⟩
    have hpositions : ∃ is : List (Fin s.length),
        is.map (fun i => i.val + 1) = xs ∧ is.map (fun i => s[i]) = u := by
      clear hxs
      induction hall with
      | nil => exact ⟨[], rfl, rfl⟩
      | @cons x a xs u hx _ ih =>
          obtain ⟨is, rfl, rfl⟩ := ih
          obtain ⟨hone, hget⟩ := hx
          obtain ⟨hlt, rfl⟩ := List.getElem?_eq_some_iff.mp hget
          refine ⟨⟨x - 1, hlt⟩ :: is, ?_, rfl⟩
          rw [List.map_cons, Nat.sub_add_cancel hone]
    obtain ⟨is, rfl, rfl⟩ := hpositions
    refine List.map_getElem_sublist ((List.pairwise_map.mp hxs).imp ?_)
    intro i j hij
    exact Nat.lt_of_succ_lt_succ hij

end Common

namespace Comparison

variable {α : Type} {c : Comparison α}

/-- Pairs have elements on both sides, and these match. -/
theorem Pairs.exists_hasAt {p : Match} (h : c.Pairs p) :
    ∃ a b, HasAt c.old.toList p.x a ∧ HasAt c.new.toList p.y b ∧ c.same a b = true := by
  obtain ⟨a, b, ha, hb, hsame⟩ := agree_eq_true_iff.mp h.agree
  exact ⟨a, b, ⟨h.column.1, by simpa using ha⟩, ⟨h.row.1, by simpa using hb⟩, hsame⟩

/-- Elements that the test accepts make a pair of their positions. -/
theorem pairs_of_hasAt {p : Match} {a b : α} (ha : HasAt c.old.toList p.x a)
    (hb : HasAt c.new.toList p.y b) (hsame : c.same a b = true) : c.Pairs p := by
  obtain ⟨hx, ha⟩ := ha
  obtain ⟨hy, hb⟩ := hb
  rw [Array.getElem?_toList] at ha hb
  have hagree : c.agree (p.x - 1) (p.y - 1) = true := agree_eq_true_iff.mpr ⟨a, b, ha, hb, hsame⟩
  have := lt_of_agree hagree
  exact ⟨by omega, by omega, hagree⟩

/-- The elements of a list of pairs, on either side. -/
theorem exists_elements {l : List Match} (h : ∀ p ∈ l, c.Pairs p) :
    ∃ u v, Forall₂ (HasAt c.old.toList) (l.map Match.x) u ∧
      Forall₂ (HasAt c.new.toList) (l.map Match.y) v ∧
      Forall₂ (fun a b => c.same a b = true) u v := by
  induction l with
  | nil => exact ⟨[], [], .nil, .nil, .nil⟩
  | cons p l ih =>
      obtain ⟨hp, hl⟩ := List.forall_mem_cons.mp h
      obtain ⟨a, b, ha, hb, hsame⟩ := hp.exists_hasAt
      obtain ⟨u, v, hu, hv, huv⟩ := ih hl
      exact ⟨a :: u, b :: v, .cons ha hu, .cons hb hv, .cons hsame huv⟩

/-- **The old elements of a matching are a common subsequence.** -/
theorem IsMatching.exists_isCommon {l : List Match} (h : c.IsMatching l) :
    ∃ u, Forall₂ (HasAt c.old.toList) (l.map Match.x) u ∧
      IsCommon c.same c.old.toList c.new.toList u := by
  obtain ⟨u, v, hu, hv, huv⟩ := exists_elements h.pairs
  refine ⟨u, hu, sublist_iff_hasAt.mpr ⟨_, ?_, hu⟩, v, sublist_iff_hasAt.mpr ⟨_, ?_, hv⟩, huv⟩
  · exact List.pairwise_map.mpr (h.rising.imp And.left)
  · exact List.pairwise_map.mpr (h.rising.imp And.right)

/-- Positions of matching elements can be paired up. -/
theorem exists_pairs {u v : List α} (huv : Forall₂ (fun a b => c.same a b = true) u v)
    {xs ys : List ℕ} (hu : Forall₂ (HasAt c.old.toList) xs u)
    (hv : Forall₂ (HasAt c.new.toList) ys v) :
    ∃ l : List Match, l.map Match.x = xs ∧ l.map Match.y = ys ∧ ∀ p ∈ l, c.Pairs p := by
  induction huv generalizing xs ys with
  | nil =>
      cases hu
      cases hv
      exact ⟨[], rfl, rfl, nofun⟩
  | cons hsame _ ih =>
      cases hu with
      | @cons x _ xs _ ha hu =>
          cases hv with
          | @cons y _ ys _ hb hv =>
              obtain ⟨l, rfl, rfl, hl⟩ := ih hu hv
              exact ⟨⟨x, y⟩ :: l, rfl, rfl,
                List.forall_mem_cons.mpr ⟨pairs_of_hasAt ha hb hsame, hl⟩⟩

/-- **A common subsequence is that of a matching.** -/
theorem exists_isMatching_of_isCommon {u : List α}
    (h : IsCommon c.same c.old.toList c.new.toList u) :
    ∃ l, c.IsMatching l ∧ l.length = u.length := by
  obtain ⟨hu, v, hv, huv⟩ := h
  obtain ⟨xs, hxs, hxu⟩ := sublist_iff_hasAt.mp hu
  obtain ⟨ys, hys, hyv⟩ := sublist_iff_hasAt.mp hv
  obtain ⟨l, rfl, rfl, hl⟩ := exists_pairs huv hxu hyv
  refine ⟨l, ⟨hl, ?_⟩, by simpa using hxu.length_eq⟩
  exact (List.pairwise_map.mp hxs).and (List.pairwise_map.mp hys)

/-! ### The matching of a comparison -/

/-- The diagonal vectors of the comparison fit into memory. -/
abbrev Fits (c : Comparison α) : Prop := Diagonals.Fits c.old.size c.new.size

/-- They are those of the whole region. -/
theorem fits_iff : c.Fits ↔ c.region.Fits := Iff.rfl

/-- The lengths of both sequences are 64-bit quantities, -/
theorem Fits.limits (h : c.Fits) : c.old.size < Word.limit ∧ c.new.size < Word.limit := by
  have := h.sum_lt
  omega

/-- and so are all positions, those one past the end among them. -/
theorem Fits.addressable (h : c.Fits) : c.region.Addressable := by
  have := h.sum_lt
  have hold : c.region.old.backing.size = c.old.size := rfl
  have hnew : c.region.new.backing.size = c.new.size := rfl
  rw [Region.Addressable, hold, hnew]
  omega

/-- Without the memory for diagonal vectors no search begins. -/
theorem create_of_not_fits (h : ¬ c.Fits) :
    Diagonals.create c.old.size c.new.size = .error .capacity := Diagonals.create_eq_error h

/-- So there is nothing to divide regions with, -/
theorem solve_of_not_fits (h : ¬ c.Fits) : c.region.solve = .error .capacity := by
  have hcreate := create_of_not_fits h
  simp only [Region.solve, Frontiers.create, region, Window.length_full, hcreate, error_bind]

/-- no matching, -/
theorem matching_of_not_fits (h : ¬ c.Fits) : c.matching = .error .capacity := by
  rw [matching, solve_of_not_fits h, error_bind]

/-- no common subsequence, -/
theorem common_of_not_fits (h : ¬ c.Fits) : c.common = .error .capacity := by
  rw [common, matching_of_not_fits h, error_bind]

/-- and no distance. -/
theorem distance_of_not_fits (h : ¬ c.Fits) : c.distance = .error .capacity := by
  have hcreate := create_of_not_fits h
  simp only [distance, Region.distance, region, Window.length_full, hcreate, error_bind]

/-- The pairs of the whole region are those of the comparison. -/
theorem hasMatch_region_iff {p : Match} : c.region.HasMatch p ↔ c.Pairs p := by
  have hx : ((p.x : ℤ) - c.region.old.offset) = p.x := Int.sub_zero _
  have hy : ((p.y : ℤ) - c.region.new.offset) = p.y := Int.sub_zero _
  have hxplace : (((0 : ℕ) : ℤ) + p.x - 1).toNat = p.x - 1 := by omega
  have hyplace : (((0 : ℕ) : ℤ) + p.y - 1).toNat = p.y - 1 := by omega
  rw [Region.HasMatch, hx, hy, Region.grid_agree_iff, Region.agree_eq_ok_iff]
  simp only [Window.entry_eq_ok_iff, region, Window.full, hxplace, hyplace]
  constructor
  · rintro ⟨a, b, ⟨hx, hx', ha⟩, ⟨hy, hy', hb⟩, hsame⟩
    exact ⟨by omega, by omega, agree_eq_true_iff.mpr ⟨a, b, ha, hb, hsame⟩⟩
  · rintro ⟨hx, hy, hagree⟩
    obtain ⟨a, b, ha, hb, hsame⟩ := agree_eq_true_iff.mp hagree
    exact ⟨a, b, ⟨by omega, by omega, ha⟩, ⟨by omega, by omega, hb⟩, hsame⟩

/-- The chains of the whole region are the matchings. -/
theorem isChain_region_iff {l : List Match} : c.region.IsChain l ↔ c.IsMatching l := by
  constructor
  · rintro ⟨hmatched, hrising⟩
    exact ⟨fun p hp => hasMatch_region_iff.mp (hmatched p hp), hrising⟩
  · rintro ⟨hpairs, hrising⟩
    exact ⟨fun p hp => hasMatch_region_iff.mpr (hpairs p hp), hrising⟩

/-- **No matching is longer than the distance allows.** -/
theorem IsMatching.distance_le {l : List Match} (h : c.IsMatching l) :
    c.region.grid.distance + 2 * l.length ≤ c.old.size + c.new.size :=
  (isChain_region_iff.mpr h).distance_le

/-- **The matching of a comparison** is a matching, and leaves as many elements over as the
distance says. -/
theorem exists_matching (h : c.Fits) :
    ∃ found, c.matching = .ok found ∧ c.IsMatching found.toList ∧
      2 * found.size + c.region.grid.distance = c.old.size + c.new.size := by
  obtain ⟨w, hw, hchain, hlength⟩ := Region.exists_solve (fits_iff.mp h) h.addressable
  refine ⟨w.found, ?_, isChain_region_iff.mp hchain, hlength⟩
  rw [matching, hw]
  rfl

/-- What a search for the matching has found is a matching, and a longest one. -/
theorem isMatching_of_matching {found : Array Match} (h : c.Fits)
    (hfound : c.matching = .ok found) :
    c.IsMatching found.toList ∧
      2 * found.size + c.region.grid.distance = c.old.size + c.new.size := by
  obtain ⟨found', hfound', hmatching, hlength⟩ := exists_matching h
  rw [hfound] at hfound'
  obtain rfl := Except.ok.inj hfound'
  exact ⟨hmatching, hlength⟩

/-- A matching that leaves as few elements over as possible has the length in the table. -/
theorem IsMatching.length_eq_table {l : List Match} (h : c.IsMatching l)
    (hlength : 2 * l.length + c.region.grid.distance = c.old.size + c.new.size) :
    l.length = c.table c.old.size c.new.size := by
  obtain ⟨l', hl', -, htable⟩ := c.exists_isMatching_table c.old.size c.new.size
  have hbound := h.length_le
  have hdistance := hl'.distance_le
  omega

/-- The elements at the old positions of pairs can be looked up. -/
theorem mapM_get_eq_ok {l : List Match} {u : List α}
    (h : Forall₂ (HasAt c.old.toList) (l.map Match.x) u) :
    l.mapM (fun p => (Window.full c.old).get p.x) = .ok u := by
  induction l generalizing u with
  | nil =>
      cases h
      rfl
  | cons p l ih =>
      cases h with
      | @cons _ a _ u ha hu =>
          have hget : (Window.full c.old).get p.x = .ok a := by
            obtain ⟨hone, ha⟩ := ha
            rw [Array.getElem?_toList] at ha
            have hlt := (Array.getElem?_eq_some_iff.mp ha).1
            refine Window.get_eq_ok_iff.mpr ⟨hone, by rw [Window.length_full]; omega, ?_⟩
            simpa [Window.full] using ha
          rw [List.mapM_cons, hget, ok_bind, ih hu]
          rfl

/-- The old elements of the matching. -/
theorem common_eq_ok {found : Array Match} (hfound : c.matching = .ok found) {u : List α}
    (h : Forall₂ (HasAt c.old.toList) (found.toList.map Match.x) u) :
    c.common = .ok u.toArray := by
  have hmap := mapM_get_eq_ok h
  rw [common, hfound, ok_bind, Array.mapM_eq_mapM_toList, hmap]
  rfl

/-- **The matching is a longest one.** Whenever the diagonal vectors fit into memory, the
search returns pairs of positions of matching elements that rise on both sides; no such list
is longer, and their number is the one that dynamic programming computes. Their old elements
are a longest common subsequence. Without the memory neither of them is made. -/
theorem matching_is_longest (c : Comparison α) :
    (c.Fits →
      ∃ found, c.matching = .ok found ∧
        (∀ p ∈ found, (1 ≤ p.x ∧ p.x ≤ c.old.size) ∧ (1 ≤ p.y ∧ p.y ≤ c.new.size)) ∧
        c.IsMatching found.toList ∧ (∀ l, c.IsMatching l → l.length ≤ found.size) ∧
        found.size = c.table c.old.size c.new.size ∧
        ∃ common, c.common = .ok common ∧ common.size = found.size ∧
          IsCommon c.same c.old.toList c.new.toList common.toList ∧
          ∀ u, IsCommon c.same c.old.toList c.new.toList u → u.length ≤ common.size) ∧
    (¬ c.Fits → c.matching = .error .capacity ∧ c.common = .error .capacity) := by
  refine ⟨fun h => ?_, fun h => ⟨matching_of_not_fits h, common_of_not_fits h⟩⟩
  obtain ⟨found, hfound, hmatching, hlength⟩ := exists_matching h
  have hlongest (l : List Match) (hl : c.IsMatching l) : l.length ≤ found.size := by
    have := hl.distance_le
    omega
  refine ⟨found, hfound, ?_, hmatching, hlongest, hmatching.length_eq_table hlength, ?_⟩
  · intro p hp
    have hpair := hmatching.pairs p (Array.mem_toList_iff.mpr hp)
    exact ⟨hpair.column, hpair.row⟩
  · obtain ⟨u, hu, hcommon⟩ := hmatching.exists_isCommon
    have hsize : u.length = found.size := by simpa using hu.length_eq.symm
    refine ⟨u.toArray, common_eq_ok hfound hu, hsize, hcommon, ?_⟩
    intro u' hu'
    obtain ⟨l, hl, hl'⟩ := exists_isMatching_of_isCommon hu'
    have := hlongest l hl
    rw [List.size_toArray]
    omega

/-- A comparison whose longest matchings have four pairs. -/
theorem matching_is_longest_abcabba :
    ∃ found, (ofEq #['a', 'b', 'c', 'a', 'b', 'b', 'a'] #['c', 'b', 'a', 'b', 'a', 'c']).matching =
      .ok found ∧ found.size = 4 := by
  obtain ⟨found, hfound, -, -, -, htable, -⟩ := (matching_is_longest
    (ofEq #['a', 'b', 'c', 'a', 'b', 'b', 'a'] #['c', 'b', 'a', 'b', 'a', 'c'])).1 (by decide)
  exact ⟨found, hfound, htable.trans (by decide)⟩

end Comparison

end EditGraph
