import EditGraph.Proofs.EditDistance
import EditGraph.Proofs.TwoRuns

/-!
# Parts of a comparison

The regions that a comparison is divided into are windows on its sequences. Cut out of them,
each is a comparison of its own, with the same edit graph; so what is known of comparisons holds
of the parts of one. A region's distance is said here of its windows alone: the fewest elements
that a matching of them leaves over.

## Main definitions

* `Comparison.part` — stretches of both sequences.
* `Region.cut` — the windows of a region as sequences of their own.
* `Comparison.IsDistance` — the fewest elements that a matching leaves over.

## Main results

* `congruent_cut` — a region and its windows, cut out, look alike to a search.
* `PartOf.cut` — parts of a region are parts of its windows.
* `isDistance_cut` — the distance of a region is that of its windows.
-/

namespace EditGraph

variable {α : Type}

/-! ### Windows cut out -/

namespace Window

/-- The elements of a window, as a sequence of their own, are looked up as in the window. -/
theorem entry_full_items (w : Window α) (x : ℤ) : (full w.items).entry x = w.entry x := by
  cases x with
  | negSucc i => rfl
  | ofNat i =>
      have hlength : (full w.items).length = w.length := w.size_items
      by_cases h : 1 ≤ i ∧ i ≤ w.length
      · have h' : 1 ≤ i ∧ i ≤ (full w.items).length := by rwa [hlength]
        simp only [entry, get, dif_pos h, dif_pos h']
        simp [full, items]
      · simp only [entry, get, hlength, dif_neg h]

end Window

namespace Comparison

/-- The comparison of `width` old elements behind the first `x` with `height` new elements behind
the first `y`. -/
def part (c : Comparison α) (x y width height : ℕ) : Comparison α :=
  ⟨c.old.extract x (x + width), c.new.extract y (y + height), c.same⟩

end Comparison

namespace Region

variable {r part : Region α}

/-- The windows of a region as sequences of their own. -/
def cut (r : Region α) : Comparison α := ⟨r.old.items, r.new.items, r.same⟩

/-- Cut out, the old window is a sequence of its own length. -/
@[simp] theorem size_cut_old (r : Region α) : r.cut.old.size = r.old.length := r.old.size_items

/-- Cut out, the new window is a sequence of its own length. -/
@[simp] theorem size_cut_new (r : Region α) : r.cut.new.size = r.new.length := r.new.size_items

/-- **Cutting a region out** changes nothing that its searches notice. -/
theorem congruent_cut (r : Region α) : r.Congruent r.cut.region where
  old := r.size_cut_old.symm
  new := r.size_cut_new.symm
  agree x y := by
    simp only [agree, Comparison.region, cut, Window.entry_full_items]

/-- The windows of a whole comparison are its sequences. -/
@[simp] theorem cut_region (c : Comparison α) : c.region.cut = c := by
  simp [cut, Comparison.region, Window.full, Window.items]

/-- **A part of a region, cut out,** is a part of the region cut out. -/
theorem PartOf.cut {dx dy : ℕ} (h : part.PartOf r dx dy) :
    part.cut = r.cut.part dx dy part.old.length part.new.length := by
  have hold := h.oldLength
  have hnew := h.newLength
  have hitems (w w' : Window α) (d : ℕ) (hb : w'.backing = w.backing)
      (ho : w'.offset = w.offset + d) (hl : d + w'.length ≤ w.length) :
      w'.items = w.items.extract d (d + w'.length) := by
    rw [Window.items, Window.items, Array.extract_extract, hb, ho, Nat.min_eq_left (by omega),
      Nat.add_assoc]
  rw [Region.cut, Comparison.part, h.same, Region.cut,
    hitems r.old part.old dx h.oldBacking h.oldOffset hold,
    hitems r.new part.new dy h.newBacking h.newOffset hnew]

/-- Vectors can be made for what is cut out of a region that they can be made for. -/
theorem fits_cut (h : r.Fits) : r.cut.Fits := by
  rw [Comparison.fits_iff, Fits, ← r.congruent_cut.old, ← r.congruent_cut.new]
  exact h

end Region

/-! ### The distance of a comparison -/

namespace Comparison

variable {c : Comparison α} {d : ℕ}

/-- `d` is the least number of elements that a matching leaves over on both sides. -/
def IsDistance (c : Comparison α) (d : ℕ) : Prop :=
  IsLeast {k | ∃ l, c.IsMatching l ∧ k + 2 * l.length = c.old.size + c.new.size} d

/-- The distance is what the greatest length in the table leaves over. -/
theorem IsDistance.add_table (h : c.IsDistance d) :
    d + 2 * c.table c.old.size c.new.size = c.old.size + c.new.size := by
  obtain ⟨⟨l, hl, hd⟩, hleast⟩ := h
  obtain ⟨l', hl', -, htable⟩ := c.exists_isMatching_table c.old.size c.new.size
  have hlongest := hl.length_le
  have hsides := hl'.distance_le
  have hle := hleast ⟨l', hl', Nat.sub_add_cancel (by omega)⟩
  omega

/-- **The slides of a route are a matching**, and its steps off the diagonal are what the matching
leaves over. -/
theorem exists_isMatching_of_route {q : Point} (h : c.region.grid.Route Grid.origin q d) :
    ∃ l, c.IsMatching l ∧ (∀ p ∈ l, (p.x : ℤ) ≤ q.x ∧ (p.y : ℤ) ≤ q.y) ∧
      (d : ℤ) + 2 * l.length = q.x + q.y := by
  induction h with
  | refl => exact ⟨[], ⟨nofun, .nil⟩, nofun, rfl⟩
  | right _ ih | down _ ih =>
      obtain ⟨l, hl, hwithin, hlength⟩ := ih
      simp only at hwithin hlength ⊢
      refine ⟨l, hl, fun p hp => ?_, by omega⟩
      have := hwithin p hp
      omega
  | @slide x y d _ hagree ih =>
      obtain ⟨l, hl, hwithin, hlength⟩ := ih
      simp only at hwithin hlength ⊢
      obtain ⟨hx, -, hy, -⟩ := c.region.grid.inside hagree
      obtain ⟨i, rfl⟩ : ∃ i : ℕ, x = i := ⟨x.toNat, by omega⟩
      obtain ⟨j, rfl⟩ : ∃ j : ℕ, y = j := ⟨y.toNat, by omega⟩
      have hpair : c.Pairs ⟨i + 1, j + 1⟩ := by
        refine hasMatch_region_iff.mp ?_
        simpa [Region.HasMatch, region, Window.full] using hagree
      refine ⟨l ++ [⟨i + 1, j + 1⟩], isMatching_concat_iff.mpr ⟨hl, hpair, fun p hp => ?_⟩,
        List.forall_mem_append.mpr ⟨fun p hp => ?_, by simp⟩, ?_⟩
      · have := hwithin p hp
        simp only
        omega
      · have := hwithin p hp
        omega
      · rw [List.length_append, List.length_singleton]
        omega

/-- The distance of the edit graph is that of the sequences. -/
theorem isDistance_grid (c : Comparison α) : c.IsDistance c.region.grid.distance := by
  obtain ⟨l, hl, -, hlength⟩ := exists_isMatching_of_route c.region.grid.route_distance
  have hwidth : c.region.grid.width = c.old.size := rfl
  have hheight : c.region.grid.height = c.new.size := rfl
  simp only [Grid.corner, hwidth, hheight] at hlength
  refine ⟨⟨l, hl, by omega⟩, ?_⟩
  rintro k ⟨l', hl', hk⟩
  have := hl'.distance_le
  omega

end Comparison

/-- **The distance of a region** is that of its windows. -/
theorem Region.isDistance_cut (r : Region α) : r.cut.IsDistance r.grid.distance := by
  rw [r.congruent_cut.grid]
  exact r.cut.isDistance_grid

end EditGraph
