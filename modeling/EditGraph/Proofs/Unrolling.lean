import EditGraph.Proofs.Outcome

/-!
# The recursion unrolled

The work list does what the recursion says. The task of solving a region, with those that it gives
rise to, adds the solution of the region's windows, moved by their offsets, to what has been found
and recorded, and leaves the tasks below it alone. The induction is on the distance of the region:
its parts are solved by the tasks of the division, the part before the snake first, and the
offsets of windows in windows add up to what the recursion moves its solutions by, call by call.

## Main results

* `exists_steps_recursive` — the tasks of a region add the solution of its windows.
* `matching_eq_recursive` — the matching and the record of a comparison are those of the recursion.
-/

namespace EditGraph

/-! ### Moving solutions -/

/-- A pair that is moved twice is moved by the sum. -/
theorem Match.moved_moved (p : Match) (dx dy ex ey : ℕ) :
    (p.moved ex ey).moved dx dy = p.moved (dx + ex) (dy + ey) := by
  simp [moved, Nat.add_assoc]

/-- A split that is moved twice is moved by the sum. -/
theorem Split.moved_moved (s : Split) (dx dy ex ey : ℕ) :
    (s.moved ex ey).moved dx dy = s.moved (dx + ex) (dy + ey) := by
  simp [moved, Nat.add_assoc]

/-- Moves add up. -/
theorem Solution.moved_moved (s : Solution) (dx dy ex ey : ℕ) :
    (s.moved ex ey).moved dx dy = s.moved (dx + ex) (dy + ey) := by
  simp [moved, Match.moved_moved, Split.moved_moved]

/-- Moving by nothing changes nothing. -/
@[simp] theorem Solution.moved_zero (s : Solution) : s.moved 0 0 = s := by
  simp [moved, Match.moved, Split.moved]

variable {α : Type} {r : Region α} {b c : ℕ}

namespace Region

/-- The record of a region is that of its windows, cut out, moved by their offsets. -/
theorem split_eq_moved (r : Region α) (d : ℕ) :
    r.split d = (r.cut.region.split d).moved r.old.offset r.new.offset := by
  simp [split, Split.moved, Comparison.region, Window.full]

/-- What is cut out of a region has an empty side when the region has. -/
theorem isEmpty_cut (r : Region α) :
    (r.cut.old.isEmpty || r.cut.new.isEmpty) = (r.old.isEmpty || r.new.isEmpty) := by
  simp [Array.isEmpty, Window.isEmpty, beq_eq_decide]

end Region

/-! ### The tasks of a region -/

namespace Worklist

variable {f : Frontiers}

/-- **The tasks of a region** add the solution of its windows. -/
theorem exists_steps_recursive (hs : Suits r b c) (hfits : r.Fits) (hf : f.Serve b c)
    (pending : List (Task α)) (found : Array Match) (splits : Array Split) :
    ∃ s n g, r.cut.recursive = .ok s ∧ g.Serve b c ∧
      Steps n ⟨.solve r :: pending, found, splits, f⟩
        ⟨pending, found ++ (s.moved r.old.offset r.new.offset).pairs.toArray,
          splits ++ (s.moved r.old.offset r.new.offset).splits.toArray, g⟩ := by
  induction hd : r.grid.distance using Nat.strong_induction_on
    generalizing r pending found splits f with
  | _ d ih =>
    obtain ⟨next, hnext, ho⟩ := exists_outcome (w := ⟨pending, found, splits, f⟩) hs hfits
      (.solve (Region.partOf_self r)) hf
    have hfirst := Steps.single hnext
    cases ho with
    | empty hempty =>
        rw [← r.isEmpty_cut] at hempty
        exact ⟨_, 1, f, Comparison.recursive_of_isEmpty hempty, hf,
          by simpa [Solution.moved] using hfirst⟩
    | @solved _ m g hempty hmiddle hfresh hsmall hserve =>
        rw [← r.isEmpty_cut] at hempty
        refine ⟨_, 1, g, Comparison.recursive_direct hempty hfresh hsmall, hserve, ?_⟩
        rw [r.split_eq_moved] at hfirst
        simpa [Solution.moved] using hfirst
    | @divided _ left right m g hempty hmiddle hfresh hlarge hparts hserve =>
        rw [← r.isEmpty_cut] at hempty
        have hdistance := hmiddle.distance
        have hl := hparts.leftDistance
        have hr := hparts.rightDistance
        -- the tasks of the part before, the snake, the tasks of the part after
        obtain ⟨s, n, g, hleft, hg, hsteps⟩ := ih _ (by omega) (hs.part hparts.leftPart)
          (hparts.leftPart.fits hfits) hserve (.emit r m.snake :: .solve right :: pending) found
          (splits.push (r.split m.distance)) rfl
        obtain ⟨s', n', g', hright, hg', hsteps'⟩ := ih _ (by omega) (hs.part hparts.rightPart)
          (hparts.rightPart.fits hfits) hg pending _ _ rfl
        have hall := hfirst.trans
          (hsteps.trans ((Steps.single (perform_emit hs.addressable hmiddle)).trans hsteps'))
        rw [hparts.leftCut] at hleft
        rw [hparts.rightCut] at hright
        refine ⟨_, 1 + (n + (1 + n')), g',
          Comparison.recursive_divide hempty hfresh hlarge hleft hright, hg', ?_⟩
        rw [r.split_eq_moved, r.run_eq_diagonal, hparts.leftPart.oldOffset,
          hparts.leftPart.newOffset, Nat.add_zero, Nat.add_zero, hparts.rightPart.oldOffset,
          hparts.rightPart.newOffset, ← Solution.moved_moved] at hall
        simpa [Solution.moved] using hall

end Worklist

/-! ### The work list of a comparison -/

namespace Comparison

/-- **The work list does what the recursion says.** Whenever the diagonal vectors fit into memory,
the recursion has a solution; the pairs of the matching are its pairs, and the searches are
recorded as in it, each before those of the parts that it leads to. -/
theorem matching_eq_recursive (c : Comparison α) :
    (c.Fits → ∃ s, c.recursive = .ok s ∧ c.matching = .ok s.pairs.toArray ∧
      c.splits = .ok s.splits.toArray) ∧
    (¬ c.Fits → c.matching = .error .capacity ∧ c.splits = .error .capacity) := by
  refine ⟨fun h => ?_, fun h => ⟨matching_of_not_fits h, by rw [splits, solve_of_not_fits h]; rfl⟩⟩
  have hfits := fits_iff.mp h
  obtain ⟨f, n, w, -, hserve, hsteps, hdone, hsolve, -⟩ := Region.exists_run hfits h.addressable
  obtain ⟨s, k, g, hrecursive, -, hsteps'⟩ := Worklist.exists_steps_recursive
    ⟨h.addressable, le_rfl, le_rfl⟩ hfits hserve [] #[] #[]
  have hmoved : s.moved c.region.old.offset c.region.new.offset = s := s.moved_zero
  rw [hmoved, Array.empty_append, Array.empty_append] at hsteps'
  rw [Region.cut_region] at hrecursive
  rw [hsteps.unique hsteps' hdone rfl] at hsolve
  refine ⟨s, hrecursive, ?_, ?_⟩
  · rw [matching, hsolve]
    rfl
  · rw [splits, hsolve]
    rfl

/-- The recursion finds four pairs of two words, and so does the work list. -/
theorem matching_eq_recursive_abcabba :
    ∃ s, (ofEq #['a', 'b', 'c', 'a', 'b', 'b', 'a']
        #['c', 'b', 'a', 'b', 'a', 'c']).recursive = .ok s ∧
      (ofEq #['a', 'b', 'c', 'a', 'b', 'b', 'a'] #['c', 'b', 'a', 'b', 'a', 'c']).matching =
        .ok s.pairs.toArray ∧ s.pairs.length = 4 := by
  have hfits : (ofEq #['a', 'b', 'c', 'a', 'b', 'b', 'a']
      #['c', 'b', 'a', 'b', 'a', 'c']).Fits := by decide
  obtain ⟨s, hs, hmatching, -⟩ := (matching_eq_recursive (ofEq #['a', 'b', 'c', 'a', 'b', 'b', 'a']
    #['c', 'b', 'a', 'b', 'a', 'c'])).1 hfits
  obtain ⟨hpairs, hlength⟩ := isMatching_of_matching hfits hmatching
  exact ⟨s, hs, hmatching, (hpairs.length_eq_table hlength).trans (by decide)⟩

end Comparison

end EditGraph
