import EditGraph.Proofs.LongestMatching
import Mathlib.Order.Bounds.Basic

/-!
# The edit distance

The distance of a comparison is the least number of single elements to delete and insert, at
any places and in any order, on the way from the old sequence to one that matches the new
sequence element by element. It is what a longest matching leaves over: one deletion or
insertion makes a longest common subsequence shorter by an element or longer by one, and moves
the length of the sequence by as much.

## Main definitions

* `Edits` — a number of single deletions and insertions, one after the other.

## Main results

* `Edits.exists_isCommon` — what deletions and insertions leave of a common subsequence.
* `IsCommon.exists_edits` — deletions and insertions that keep a common subsequence.
* `distance_is_least` — the distance is the least number of them, and the number of elements
  that no matching covers.
* `distanceBackward_eq_distance` — the search from the ends returns the same number.
-/

namespace EditGraph

open List (Forall₂)

variable {α : Type} {same : α → α → Bool} {s t u v w : List α} {k l : ℕ}

/-! ### Deletions and insertions -/

/-- `k` single elements are deleted or inserted, at any places, and lead from the one list to
the other. -/
inductive Edits : ℕ → List α → List α → Prop
  | refl (s : List α) : Edits 0 s s
  | delete {k : ℕ} {s t u : List α} {a : α} : Edits k (s ++ t) u → Edits (k + 1) (s ++ a :: t) u
  | insert {k : ℕ} {s t u : List α} {a : α} : Edits k (s ++ a :: t) u → Edits (k + 1) (s ++ t) u

/-- Edits can be made after edits. -/
theorem Edits.trans (h : Edits k s t) (h' : Edits l t u) : Edits (k + l) s u := by
  induction h with
  | refl s => rwa [Nat.zero_add]
  | delete _ ih =>
      rw [Nat.add_right_comm]
      exact (ih h').delete
  | insert _ ih =>
      rw [Nat.add_right_comm]
      exact (ih h').insert

/-- Edits can be made behind an element. -/
theorem Edits.cons (a : α) (h : Edits k s t) : Edits k (a :: s) (a :: t) := by
  induction h with
  | refl s => exact .refl _
  | @delete k s t u b _ ih => exact Edits.delete (s := a :: s) ih
  | @insert k s t u b _ ih => exact Edits.insert (s := a :: s) ih

/-- Deleting everything else leaves a subsequence. -/
theorem exists_edits_of_sublist (h : u.Sublist s) : ∃ k, Edits k s u ∧ k + u.length = s.length := by
  induction h with
  | slnil => exact ⟨0, .refl _, rfl⟩
  | @cons u s a _ ih =>
      obtain ⟨k, hk, hlength⟩ := ih
      exact ⟨k + 1, Edits.delete (s := []) hk, by simp only [List.length_cons]; omega⟩
  | @cons_cons u s a _ ih =>
      obtain ⟨k, hk, hlength⟩ := ih
      exact ⟨k, hk.cons a, by simp only [List.length_cons]; omega⟩

/-- Inserting what is missing makes a list match one that has a matching subsequence. -/
theorem exists_edits_of_forall₂ (hsame : ∀ a, same a a = true) (h : v.Sublist w)
    (huv : Forall₂ (fun a b => same a b = true) u v) :
    ∃ k t, Edits k u t ∧ Forall₂ (fun a b => same a b = true) t w ∧
      k + u.length = w.length := by
  induction h generalizing u with
  | slnil =>
      cases huv
      exact ⟨0, [], .refl _, .nil, rfl⟩
  | @cons v w b _ ih =>
      obtain ⟨k, t, hk, ht, hlength⟩ := ih huv
      refine ⟨k + 1, b :: t, Edits.insert (s := []) (hk.cons b), .cons (hsame b) ht, ?_⟩
      simp only [List.length_cons]
      omega
  | @cons_cons v w b _ ih =>
      cases huv with
      | @cons a _ u _ hab huv =>
          obtain ⟨k, t, hk, ht, hlength⟩ := ih huv
          refine ⟨k, a :: t, hk.cons a, .cons hab ht, ?_⟩
          simp only [List.length_cons]
          omega

/-- **Edits that keep a common subsequence** delete the elements beside it and insert those of
the other list. -/
theorem IsCommon.exists_edits (hsame : ∀ a, same a a = true) (h : IsCommon same s w u) :
    ∃ k t, Edits k s t ∧ Forall₂ (fun a b => same a b = true) t w ∧
      k + 2 * u.length = s.length + w.length := by
  obtain ⟨hu, v, hv, huv⟩ := h
  obtain ⟨k, hk, hlength⟩ := exists_edits_of_sublist hu
  obtain ⟨l, t, hl, ht, hlength'⟩ := exists_edits_of_forall₂ hsame hv huv
  exact ⟨k + l, t, hk.trans hl, ht, by omega⟩

/-! ### What edits leave of a common subsequence -/

/-- Elements left out on one side can be left out on the other. -/
theorem exists_forall₂_of_sublist {R : α → α → Prop} (h : Forall₂ R u v) (hs : s.Sublist u) :
    ∃ t : List α, t.Sublist v ∧ Forall₂ R s t := by
  induction h generalizing s with
  | nil =>
      rw [List.sublist_nil] at hs
      subst hs
      exact ⟨[], .slnil, .nil⟩
  | @cons a b u v hab _ ih =>
      rcases List.sublist_cons_iff.mp hs with hs' | ⟨s, rfl, hs'⟩
      · obtain ⟨t, ht, hst⟩ := ih hs'
        exact ⟨t, ht.cons b, hst⟩
      · obtain ⟨t, ht, hst⟩ := ih hs'
        exact ⟨b :: t, ht.cons_cons b, .cons hab hst⟩

/-- Less of a common subsequence is a common subsequence of every list that has it. -/
theorem IsCommon.sublist (h : IsCommon same s w u) (hu : v.Sublist u) (ht : v.Sublist t) :
    IsCommon same t w v := by
  obtain ⟨-, w', hw, huw⟩ := h
  obtain ⟨v', hv, hvv⟩ := exists_forall₂_of_sublist huw hu
  exact ⟨ht, v', hv.trans hw, hvv⟩

/-- Without one of its elements a list keeps a common subsequence, but for one element. -/
theorem exists_sublist_of_insert {a : α} (h : u.Sublist (s ++ a :: t)) :
    ∃ v : List α, v.Sublist (s ++ t) ∧ v.Sublist u ∧ u.length ≤ v.length + 1 := by
  obtain ⟨u₁, u₂, rfl, h₁, h₂⟩ := List.sublist_append_iff.mp h
  rcases List.sublist_cons_iff.mp h₂ with hskip | ⟨u₂, rfl, htake⟩
  · exact ⟨u₁ ++ u₂, h₁.append hskip, .refl _, by omega⟩
  · refine ⟨u₁ ++ u₂, h₁.append htake,
      (List.Sublist.refl u₁).append (List.sublist_cons_self a u₂), ?_⟩
    simp only [List.length_append, List.length_cons]
    omega

/-- **What edits leave of a common subsequence.** Each of them changes its length and that of
the list by one at most. -/
theorem Edits.exists_isCommon (h : Edits k s t) (hu : IsCommon same t w u) :
    ∃ v, IsCommon same s w v ∧ s.length + 2 * u.length ≤ k + t.length + 2 * v.length := by
  induction h with
  | refl s => exact ⟨u, hu, by omega⟩
  | @delete k s t _ a _ ih =>
      obtain ⟨v, hv, hlength⟩ := ih hu
      have hkept : v.Sublist (s ++ a :: t) :=
        hv.1.trans ((List.Sublist.refl s).append (List.sublist_cons_self a t))
      refine ⟨v, hv.sublist (.refl v) hkept, ?_⟩
      simp only [List.length_append, List.length_cons] at hlength ⊢
      omega
  | @insert k s t _ a _ ih =>
      obtain ⟨v, hv, hlength⟩ := ih hu
      obtain ⟨v', hkept, hless, hone⟩ := exists_sublist_of_insert hv.1
      refine ⟨v', hv.sublist hless hkept, ?_⟩
      simp only [List.length_append, List.length_cons] at hlength ⊢
      omega

/-- A list that matches another, element by element, is a common subsequence of both. -/
theorem isCommon_of_forall₂ (h : Forall₂ (fun a b => same a b = true) t w) :
    IsCommon same t w t := ⟨.refl t, w, .refl w, h⟩

/-! ### The distance of a comparison -/

namespace Comparison

variable {c : Comparison α}

/-- The forward search gives the distance of the grid. -/
theorem distance_eq_ok (h : c.Fits) : c.distance = .ok c.region.grid.distance :=
  Region.distance_eq_grid_distance (fits_iff.mp h)

/-- Half of what is left over is the number of pairs. -/
theorem commonLength_eq_ok (h : c.Fits) {l : ℕ}
    (hl : c.region.grid.distance + 2 * l = c.old.size + c.new.size) :
    c.commonLength = .ok l := by
  have hhalf : (c.old.size + c.new.size - c.region.grid.distance) / 2 = l := by omega
  have hsum := h.sum_lt
  rw [commonLength, distance_eq_ok h, ok_bind, Word.fit_of_lt (by omega), ok_bind,
    Word.difference_of_le (by omega), ok_bind, hhalf]
  rfl

/-- Without the memory for diagonal vectors there is no such number. -/
theorem commonLength_of_not_fits (h : ¬ c.Fits) : c.commonLength = .error .capacity := by
  rw [commonLength, distance_of_not_fits h, error_bind]

/-- **Fewer edits do not lead to the new sequence.** -/
theorem distance_le_of_edits {t : List α} (h : Edits k c.old.toList t)
    (ht : Forall₂ (fun a b => c.same a b = true) t c.new.toList) :
    c.region.grid.distance ≤ k := by
  obtain ⟨v, hv, hlength⟩ := h.exists_isCommon (isCommon_of_forall₂ ht)
  obtain ⟨l, hl, hl'⟩ := exists_isMatching_of_isCommon hv
  have hmost := hl.distance_le
  have hsize := ht.length_eq
  simp only [Array.length_toList] at hlength hsize
  omega

/-- **The distance is the least number of deletions and insertions.** The search returns it
whenever the diagonal vectors fit into memory. It is what a longest matching, the length of
which is the one that dynamic programming computes, leaves over of both sequences; half of the
rest is that length, with no remainder. No path that has all elements behind it, on the grid or
off it, has fewer steps, and none ends off the grid with as many. Without the memory neither
number is found. -/
theorem distance_is_least (c : Comparison α) :
    (c.Fits →
      ∃ d common, c.distance = .ok d ∧ c.commonLength = .ok common ∧
        d + 2 * common = c.old.size + c.new.size ∧
        IsGreatest {k | ∃ l, c.IsMatching l ∧ l.length = k} common ∧
        common = c.table c.old.size c.new.size ∧
        (∀ k t, Edits k c.old.toList t → Forall₂ (fun a b => c.same a b = true) t c.new.toList →
          d ≤ k) ∧
        ((∀ a, c.same a a = true) →
          ∃ t, Edits d c.old.toList t ∧ Forall₂ (fun a b => c.same a b = true) t c.new.toList) ∧
        ∀ e p, c.region.grid.Route Grid.origin p e → c.old.size ≤ p.x → c.new.size ≤ p.y →
          d ≤ e ∧ (e = d → p = ⟨c.old.size, c.new.size⟩)) ∧
    (¬ c.Fits → c.distance = .error .capacity ∧ c.commonLength = .error .capacity) := by
  refine ⟨fun h => ?_, fun h => ⟨distance_of_not_fits h, commonLength_of_not_fits h⟩⟩
  obtain ⟨found, hfound, hmatching, hlength⟩ := exists_matching h
  refine ⟨c.region.grid.distance, found.size, distance_eq_ok h, commonLength_eq_ok h (by omega),
    by omega, ⟨⟨_, hmatching, rfl⟩, ?_⟩, hmatching.length_eq_table hlength, ?_, ?_, ?_⟩
  · rintro k ⟨l, hl, rfl⟩
    have := hl.distance_le
    omega
  · intro k t hk ht
    exact distance_le_of_edits hk ht
  · intro hsame
    obtain ⟨u, hu, hcommon⟩ := hmatching.exists_isCommon
    obtain ⟨k, t, hk, ht, hcost⟩ := hcommon.exists_edits hsame
    have hsize : found.size = u.length := by simpa using hu.length_eq
    simp only [Array.length_toList] at hcost
    obtain rfl : k = c.region.grid.distance := by omega
    exact ⟨t, hk, ht⟩
  · rintro e ⟨x, y⟩ hroute hx hy
    obtain ⟨e', hcorner, he'⟩ := hroute.complete (by simp [Grid.origin]) (by simp [Grid.origin])
    have hleast := hcorner.distance_le
    have hwidth : c.region.grid.width = c.old.size := rfl
    have hheight : c.region.grid.height = c.new.size := rfl
    rw [hwidth, hheight] at he'
    simp only at he' hx hy
    refine ⟨by omega, ?_⟩
    intro he
    rw [Point.mk.injEq]
    omega

/-- Three deletions and two insertions, and no fewer. -/
theorem distance_is_least_abcabba :
    (ofEq #['a', 'b', 'c', 'a', 'b', 'b', 'a'] #['c', 'b', 'a', 'b', 'a', 'c']).distance =
      .ok 5 := by
  obtain ⟨d, common, hd, -, hsides, -, htable, -⟩ := (distance_is_least
    (ofEq #['a', 'b', 'c', 'a', 'b', 'b', 'a'] #['c', 'b', 'a', 'b', 'a', 'c'])).1 (by decide)
  have hcommon : common = 4 := htable.trans (by decide)
  have hsize : d + 2 * common = 13 := hsides
  obtain rfl : d = 5 := by omega
  exact hd

/-! ### Searching from the ends -/

/-- The backward search gives the distance of the grid. -/
theorem distanceBackward_eq_ok (h : c.Fits) :
    c.distanceBackward = .ok c.region.grid.distance :=
  Region.distanceBackward_eq_grid_distance (fits_iff.mp h)

/-- The backward search fails when its vector cannot be made. -/
theorem distanceBackward_of_not_fits (h : ¬ c.Fits) :
    c.distanceBackward = .error .capacity := by
  have hcreate := create_of_not_fits h
  simp only [distanceBackward, Region.distanceBackward, region, Window.length_full, hcreate,
    error_bind]

/-- **Both searches return the same number**, for all sequences, and return one just when the
diagonal vectors fit into memory. It is the length of a route from the origin to the corner. No
backward path that has no elements before it, on the grid or left of it or above it, has fewer
steps, and none ends off the grid with as many. -/
theorem distanceBackward_eq_distance (c : Comparison α) :
    c.distanceBackward = c.distance ∧ ((∃ d, c.distanceBackward = .ok d) ↔ c.Fits) ∧
      ∀ d, c.distanceBackward = .ok d →
        c.region.grid.Route Grid.origin c.region.grid.corner d ∧
        ∀ e p, c.region.grid.Route p c.region.grid.corner e → p.x ≤ 0 → p.y ≤ 0 →
          d ≤ e ∧ (e = d → p = Grid.origin) := by
  by_cases h : c.Fits
  · have hbackward := distanceBackward_eq_ok h
    refine ⟨hbackward.trans (distance_eq_ok h).symm, ⟨fun _ => h, fun _ => ⟨_, hbackward⟩⟩, ?_⟩
    intro d hd
    rw [hbackward] at hd
    obtain rfl := Except.ok.inj hd
    refine ⟨c.region.grid.route_distance, ?_⟩
    rintro e ⟨x, y⟩ hroute hx hy
    obtain ⟨e', hcorner, he'⟩ := hroute.complete_from
    have hleast := hcorner.distance_le
    simp only at he' hx hy
    refine ⟨by omega, ?_⟩
    intro he
    rw [Grid.origin, Point.mk.injEq]
    omega
  · have hbackward := distanceBackward_of_not_fits h
    refine ⟨hbackward.trans (distance_of_not_fits h).symm, ⟨?_, fun hfits => absurd hfits h⟩, ?_⟩
    · rintro ⟨d, hd⟩
      rw [hbackward] at hd
      cases hd
    · intro d hd
      rw [hbackward] at hd
      cases hd

end Comparison

end EditGraph
