import EditGraph.Proofs.Replay
import Mathlib.Algebra.Order.BigOperators.Group.List

/-!
# Scripts are shortest

The script of a comparison costs what the distance is, edit by edit and in total: its edits
delete the old elements without a partner and insert the new ones. Replaying it is making as
many single deletions and insertions, and fewer of them do not lead to the new sequence.

## Main definitions

* `lengthOf` — the length of the edits of some kinds together.

## Main results

* `sum_removed`, `sum_inserted`, `sum_cost` — what edits cost, by kinds.
* `exists_edits_merged` — single deletions and insertions that come to the replayed sequence.
* `script_is_shortest` — the script of a comparison.
-/

namespace EditGraph

open List (Forall₂)

/-! ### What edits cost -/

/-- How long the edits of the given kinds are together. -/
def lengthOf (kinds : List EditKind) (es : List Edit) : ℕ :=
  ((es.filter fun e => e.kind ∈ kinds).map Edit.length).sum

/-- No edits have no length. -/
@[simp] theorem lengthOf_nil (kinds : List EditKind) : lengthOf kinds [] = 0 := rfl

/-- The length of edits of some kinds adds up edit by edit. -/
@[simp] theorem lengthOf_cons (kinds : List EditKind) (e : Edit) (es : List Edit) :
    lengthOf kinds (e :: es) = (if e.kind ∈ kinds then e.length else 0) + lengthOf kinds es := by
  by_cases h : e.kind ∈ kinds <;> simp [lengthOf, h]

/-- Deletions and changes remove elements. -/
theorem sum_removed (es : List Edit) :
    (es.map Edit.removed).sum = lengthOf [.delete, .change] es := by
  induction es with
  | nil => rfl
  | cons e es ih =>
      rw [List.map_cons, List.sum_cons, ih, lengthOf_cons]
      cases hkind : e.kind <;> simp [Edit.removed, hkind]

/-- Insertions and changes bring elements in. -/
theorem sum_inserted (es : List Edit) :
    (es.map Edit.inserted).sum = lengthOf [.insert, .change] es := by
  induction es with
  | nil => rfl
  | cons e es ih =>
      rw [List.map_cons, List.sum_cons, ih, lengthOf_cons]
      cases hkind : e.kind <;> simp [Edit.inserted, hkind]

/-- **Changes cost twice their length**, deletions and insertions once. -/
theorem sum_cost (es : List Edit) :
    (es.map fun e => e.removed + e.inserted).sum =
      lengthOf [.delete, .insert] es + 2 * lengthOf [.change] es := by
  induction es with
  | nil => rfl
  | cons e es ih =>
      rw [List.map_cons, List.sum_cons, ih, lengthOf_cons, lengthOf_cons]
      cases hkind : e.kind <;> simp [Edit.removed, Edit.inserted, hkind] <;> omega

/-- Each edit has a cost when their sum is a 64-bit quantity. -/
theorem mapM_cost_eq_ok {es : List Edit}
    (h : (es.map fun e => e.removed + e.inserted).sum < Word.limit) :
    es.mapM Edit.cost = .ok (es.map fun e => e.removed + e.inserted) := by
  induction es with
  | nil => rfl
  | cons e es ih =>
      rw [List.map_cons, List.sum_cons] at h
      have hcost : e.cost = .ok (e.removed + e.inserted) := Word.fit_of_lt (by omega)
      rw [List.mapM_cons, hcost, ok_bind, ih (by omega)]
      rfl

namespace Comparison

variable {α : Type} {c : Comparison α} {l : List Match}

/-! ### The replay as deletions and insertions -/

/-- The old elements of pairs stand at the new positions of the replayed sequence. -/
theorem IsMatching.hasAt_merged (hl : c.IsMatching l) {u : List α}
    (hu : Forall₂ (HasAt c.old.toList) (l.map Match.x) u) :
    Forall₂ (HasAt (merged c.old c.new 0 l).toList) (l.map Match.y) u := by
  rw [List.forall₂_map_left_iff] at hu ⊢
  refine List.forall₂_iff_zip.mpr ⟨hu.length_eq, ?_⟩
  intro p a hpa
  have hp := (List.of_mem_zip hpa).1
  obtain ⟨-, ha⟩ := (List.forall₂_iff_zip.mp hu).2 hpa
  refine ⟨(hl.pairs p hp).row.1, ?_⟩
  have hplace := getElem?_merged_of_mem (b := c.new) hl.rises hp
  rw [Array.getElem?_toList] at ha ⊢
  exact hplace.trans ha

/-- **Deleting and inserting what a matching leaves over** makes the replayed sequence out of
the old one. -/
theorem IsMatching.exists_edits_merged (hl : c.IsMatching l) :
    ∃ k, Edits k c.old.toList (merged c.old c.new 0 l).toList ∧
      k + 2 * l.length = c.old.size + c.new.size := by
  classical
  obtain ⟨u, hu, hcommon⟩ := hl.exists_isCommon
  have hnew := hl.hasAt_merged hu
  have hsublist : u.Sublist (merged c.old c.new 0 l).toList :=
    sublist_iff_hasAt.mpr ⟨_, List.pairwise_map.mpr (hl.rising.imp And.right), hnew⟩
  -- both sequences have these very elements, so here only equal elements count as matching
  have hself : IsCommon (fun a b => decide (a = b)) c.old.toList
      (merged c.old c.new 0 l).toList u :=
    ⟨hcommon.1, u, hsublist, by simp [List.forall₂_same]⟩
  obtain ⟨k, t, hk, ht, hlength⟩ := hself.exists_edits (by simp)
  obtain rfl : t = (merged c.old c.new 0 l).toList := by simpa using ht
  refine ⟨k, hk, ?_⟩
  have hsize : (merged c.old c.new 0 l).size = c.new.size := size_merged hl.rises
  have hcount : l.length = u.length := by simpa using hu.length_eq
  simp only [Array.length_toList, hsize] at hlength
  omega

/-! ### The script of a comparison -/

/-- The edits of a matching remove and bring in the elements beside its pairs. -/
theorem IsMatching.lengthOf_allEdits (hl : c.IsMatching l) (changes : Bool) :
    lengthOf [.delete, .change] (allEdits changes c.old.size c.new.size l) + l.length =
        c.old.size ∧
      lengthOf [.insert, .change] (allEdits changes c.old.size c.new.size l) + l.length =
        c.new.size := by
  obtain ⟨hwidth, hheight⟩ := sides_gaps hl.rises
  have hremoved := sum_edits (foldr_removed_edits changes) (allGaps c.old.size c.new.size 0 0 l)
  have hinserted := sum_edits (foldr_inserted_edits changes) (allGaps c.old.size c.new.size 0 0 l)
  rw [← sum_removed, ← sum_inserted, allEdits, hremoved, hinserted]
  exact ⟨hwidth, hheight⟩

/-- **The script is a shortest one**, with or without changes, whenever the diagonal vectors fit
into memory. Its total is the sum of the costs of its edits, of which changes count twice, and
is the distance. Deletions and changes are as long as the old elements without a partner in the
matching are many, insertions and changes as the new ones. Its replay makes as many single
deletions and insertions; no other way to the new sequence has fewer. -/
theorem script_is_shortest (c : Comparison α) (changes : Bool) :
    (c.Fits →
      ∃ found s d, c.matching = .ok found ∧ c.script changes = .ok s ∧ c.distance = .ok d ∧
        (∃ costs, s.edits.toList.mapM Edit.cost = .ok costs ∧ s.totalCost = costs.sum) ∧
        s.totalCost = lengthOf [.delete, .insert] s.edits.toList +
          2 * lengthOf [.change] s.edits.toList ∧
        s.totalCost = d ∧
        lengthOf [.delete, .change] s.edits.toList + found.size = c.old.size ∧
        lengthOf [.insert, .change] s.edits.toList + found.size = c.new.size ∧
        (∃ r, s.apply c.old c.new = .ok r ∧ Edits s.totalCost c.old.toList r.toList ∧
          ((∀ a, c.same a a = true) →
            Forall₂ (fun a b => c.same a b = true) r.toList c.new.toList)) ∧
        ∀ k t, Edits k c.old.toList t → Forall₂ (fun a b => c.same a b = true) t c.new.toList →
          s.totalCost ≤ k) ∧
    (¬ c.Fits → c.script changes = .error .capacity ∧ c.distance = .error .capacity) := by
  refine ⟨fun h => ?_, fun h => ⟨script_of_not_fits h changes, distance_of_not_fits h⟩⟩
  obtain ⟨found, hfound, hmatching, hlength⟩ := exists_matching h
  obtain ⟨hold, hnew⟩ := hmatching.lengthOf_allEdits changes
  obtain ⟨k, hedits, hk⟩ := hmatching.exists_edits_merged
  rw [Array.length_toList] at hold hnew hk
  obtain rfl : k = c.region.grid.distance := by omega
  have happly := apply_eq_ok changes h.limits hmatching.rises
    (s := ⟨(allEdits changes c.old.size c.new.size found.toList).toArray,
      c.region.grid.distance, ⟨found.size, c.old.size + c.new.size⟩⟩) rfl
  have hcost : ((allEdits changes c.old.size c.new.size found.toList).map
      fun e => e.removed + e.inserted).sum = c.region.grid.distance := by
    rw [List.sum_map_add, sum_removed, sum_inserted]
    omega
  have hlimit : c.region.grid.distance < Word.limit := by
    have := h.sum_lt
    omega
  refine ⟨found, _, _, hfound, script_eq_ok h hfound changes, distance_eq_ok h,
    ⟨_, mapM_cost_eq_ok (hcost ▸ hlimit), hcost.symm⟩, ?_, rfl, hold, hnew,
    ⟨_, happly, hedits, hmatching.forall₂_merged⟩, fun k t => distance_le_of_edits⟩
  rw [← sum_cost, hcost]

/-- The script between two words deletes three letters and inserts two. -/
theorem script_is_shortest_abcabba :
    ∃ s, (ofEq #['a', 'b', 'c', 'a', 'b', 'b', 'a'] #['c', 'b', 'a', 'b', 'a', 'c']).script true =
        .ok s ∧
      lengthOf [.delete, .change] s.edits.toList = 3 ∧
      lengthOf [.insert, .change] s.edits.toList = 2 := by
  have hfits : (ofEq #['a', 'b', 'c', 'a', 'b', 'b', 'a']
      #['c', 'b', 'a', 'b', 'a', 'c']).Fits := by decide
  obtain ⟨found, s, d, hfound, hs, -, -, -, -, hold, hnew, -⟩ :=
    (script_is_shortest (ofEq #['a', 'b', 'c', 'a', 'b', 'b', 'a']
      #['c', 'b', 'a', 'b', 'a', 'c']) true).1 hfits
  obtain ⟨hmatching, hlength⟩ := isMatching_of_matching hfits hfound
  have hcount : found.size = 4 := (hmatching.length_eq_table hlength).trans (by decide)
  have hold : _ + found.size = 7 := hold
  have hnew : _ + found.size = 6 := hnew
  exact ⟨s, hs, by omega, by omega⟩

end Comparison

end EditGraph
