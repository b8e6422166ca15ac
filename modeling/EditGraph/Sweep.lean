import EditGraph.Fault

/-!
# Sweeps

Searches of the edit graph visit distances in rising order, and at each distance a row of
diagonals, until one visit finds what is sought. Both loops are sweeps: a walk along a list
that carries a state and ends early with a result.

## Main definitions

* `Visit` — how a visit ends: the walk goes on, or its result is found.
* `sweep` — the walk.
* `Visit.goOn` — one sweep after another.
* `Visit.result` — the result of a sweep that has to find one.
* `diagonalRow` — the diagonals of distance `d`.

## Main results

* `sweep_settles`, `sweep_range_settles` — what every visit keeps, the sweep keeps.
* `sweep_append` — a sweep of two lists is a sweep of the first, gone on with the second.
* `mem_diagonalRow` — a row has the diagonals within `±d` of the parity of `d`.
-/

namespace EditGraph

/-- The end of one visit, or of a whole sweep. -/
inductive Visit (σ : Type) (ρ : Type) where
  /-- Nothing found so far; `state` is what the next visit starts from. -/
  | passed (state : σ)
  /-- The result was found. -/
  | found (result : ρ)

/-- Visits the indices in order, handing the state on, until a visit finds a result. -/
@[specialize]
def sweep {ι : Type} {σ : Type} {ρ : Type} (visit : ι → σ → Except Fault (Visit σ ρ)) :
    List ι → σ → Except Fault (Visit σ ρ)
  | [], state => .ok (.passed state)
  | i :: rest, state =>
    match visit i state with
    | .error fault => .error fault
    | .ok (.found result) => .ok (.found result)
    | .ok (.passed next) => sweep visit rest next

/-- A result found stays; where nothing was found, the next sweep goes on. -/
@[specialize]
def Visit.goOn {σ ρ : Type} (next : σ → Except Fault (Visit σ ρ)) :
    Visit σ ρ → Except Fault (Visit σ ρ)
  | .found result => .ok (.found result)
  | .passed state => next state

/-- The result of a sweep that has to find one before its indices end. -/
def Visit.result {σ ρ : Type} : Visit σ ρ → Except Fault ρ
  | .found result => .ok result
  | .passed _ => .error .searchExhausted

/-! ### Reductions -/

section Reductions

variable {ι σ ρ : Type} (visit : ι → σ → Except Fault (Visit σ ρ))

/-- Without indices there is nothing to find. -/
@[simp] theorem sweep_nil (state : σ) : sweep visit [] state = .ok (.passed state) := rfl

/-- A sweep that breaks off in its first part, or finds its result there, never gets to the
second part; otherwise the second part starts where the first one has ended. -/
theorem sweep_append (is js : List ι) (state : σ) :
    sweep visit (is ++ js) state =
      match sweep visit is state with
      | .ok (.passed next) => sweep visit js next
      | ended => ended := by
  induction is generalizing state with
  | nil => rfl
  | cons i is ih =>
    simp only [List.cons_append, sweep]
    cases visit i state with
    | error fault => rfl
    | ok ended =>
      cases ended with
      | found result => rfl
      | passed next => exact ih next

/-- A visit or sweep goes well: it hands on a state with `P`, or finds a result with `Q`. -/
def Settles (P : σ → Prop) (Q : ρ → Prop) : Except Fault (Visit σ ρ) → Prop
  | .error _ => False
  | .ok (.passed state) => P state
  | .ok (.found result) => Q result

/-- Going well for a reason is going well for each of its consequences. -/
theorem Settles.imp {P P' : σ → Prop} {Q Q' : ρ → Prop} {ended : Except Fault (Visit σ ρ)}
    (h : Settles P Q ended) (hP : ∀ state, P state → P' state)
    (hQ : ∀ result, Q result → Q' result) : Settles P' Q' ended := by
  match ended, h with
  | .ok (.passed state), h => exact hP state h
  | .ok (.found result), h => exact hQ result h

/-- A sweep that goes well and cannot end without a result has one. -/
theorem Settles.exists_found {Q : ρ → Prop} {ended : Except Fault (Visit σ ρ)}
    (h : Settles (fun _ => False) Q ended) : ∃ result, ended = .ok (.found result) ∧ Q result := by
  match ended, h with
  | .ok (.found result), h => exact ⟨result, rfl, h⟩

variable {visit} {P : List ι → σ → Prop} {Q : ρ → Prop}

/-- **Sweeps keep invariants.** If each visit goes well after what the visits before it have
made true, so does the sweep. -/
theorem sweep_settles {is : List ι} {state : σ}
    (hvisit : ∀ done i rest, is = done ++ i :: rest → ∀ s, P done s →
      Settles (P (done ++ [i])) Q (visit i s))
    (h : P [] state) : Settles (P is) Q (sweep visit is state) := by
  suffices key : ∀ rest done s, is = done ++ rest → P done s →
      Settles (P is) Q (sweep visit rest s) from key is [] state rfl h
  intro rest
  induction rest with
  | nil =>
      intro done s his hs
      rw [List.append_nil] at his
      rw [his]
      exact hs
  | cons i rest ih =>
      intro done s his hs
      have hi := hvisit done i rest his s hs
      rw [sweep]
      revert hi
      cases visit i s with
      | error fault => exact id
      | ok ended =>
          cases ended with
          | found result => exact id
          | passed next => exact ih (done ++ [i]) next (by simp [his])

/-- In the list of the numbers below `n`, each stands behind as many others as it says. -/
theorem eq_length_of_range_eq {n i : Nat} {done rest : List Nat}
    (h : List.range n = done ++ i :: rest) : i = done.length ∧ done.length < n := by
  have hlength : done.length < n := by
    have := congrArg List.length h
    simp only [List.length_range, List.length_append, List.length_cons] at this
    omega
  have hi := congrArg (fun l => l[done.length]?) h
  exact ⟨by simpa [hlength] using hi.symm, hlength⟩

/-- A sweep of the numbers below `n` keeps what a visit of each makes true for the next. -/
theorem sweep_range_settles {visit : Nat → σ → Except Fault (Visit σ ρ)} {P : Nat → σ → Prop}
    {n : Nat} {state : σ}
    (hvisit : ∀ i, i < n → ∀ s, P i s → Settles (P (i + 1)) Q (visit i s)) (h : P 0 state) :
    Settles (P n) Q (sweep visit (List.range n) state) := by
  have key : Settles (fun s => P (List.range n).length s) Q (sweep visit (List.range n) state) := by
    refine sweep_settles (P := fun done s => P done.length s) (fun done i rest his s hs => ?_) h
    obtain ⟨rfl, hlength⟩ := eq_length_of_range_eq his
    rw [List.length_append, List.length_singleton]
    exact hvisit done.length hlength s hs
  rwa [List.length_range] at key

end Reductions

/-! ### Rows of diagonals -/

/-- The diagonals that paths with `d` steps off the diagonal can end on: every other one
from `-d` to `d`. -/
def diagonalRow (d : Nat) : List Int :=
  (List.range (d + 1)).map fun (j : Nat) => 2 * (j : Int) - (d : Int)

/-- Row `d` has as many diagonals as there are from `-d` to `d` in steps of two. -/
@[simp] theorem length_diagonalRow (d : Nat) : (diagonalRow d).length = d + 1 := by
  simp [diagonalRow]

/-- The diagonals of row `d` are those of the same parity, up to `d` in size. -/
theorem mem_diagonalRow {d : Nat} {k : Int} :
    k ∈ diagonalRow d ↔ k.natAbs ≤ d ∧ (k + d) % 2 = 0 := by
  simp only [diagonalRow, List.mem_map, List.mem_range]
  constructor
  · rintro ⟨j, hj, rfl⟩
    omega
  · rintro ⟨hk, hparity⟩
    exact ⟨((k + d) / 2).toNat, by omega, by omega⟩

end EditGraph
