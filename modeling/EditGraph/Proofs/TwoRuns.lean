import EditGraph.Proofs.MiddleSnake
import Mathlib.Data.Set.Function

/-!
# Two searches side by side

The search for the middle snake learns two things about its region: the lengths of the windows
and which columns and rows agree. It learns nothing from the vectors it is lent, of which it
reads only diagonals that it has written before, or the seeds. Two searches of regions with the
same sides and the same agreements therefore take the same turns, whatever elements the regions
have and whatever their vectors hold at first, and find the same middle snake.

The proof runs both searches at once. `Alike R` says that two operations end in the same way,
with results that `R` relates or with the same fault. Each part of the search is shown to end
alike in congruent regions, whatever the stores are that it reads and writes, as long as a relation
of their states is kept: one that allows the reads of a row, and that writes and the step to the
next row preserve. Vectors that agree where the rows have written are one such relation.

## Main definitions

* `Alike`, `Visit.Rel` — operations and visits that end in the same way.
* `Region.Congruent` — regions with the same sides and the same agreements.
* `Region.forwardReads`, `Region.backwardReads` — the diagonals that a row may read.
* `Region.RowsAlike`, `Region.RoundsAlike` — relations that searches keep.

## Main results

* `Alike.bind`, `sweep_alike` — what goes on alike after ending alike, ends alike.
* `Congruent.advanceIn_alike`, `Congruent.retreatIn_alike` — one path prolonged in either region.
* `Congruent.searchForwardIn_alike`, `Congruent.searchBackwardIn_alike`,
  `Congruent.middleSnakeIn_alike` — searches end alike, in any stores that do.
* `Congruent.middleSnake_alike` — in diagonal vectors they find the same middle snake.
-/

namespace EditGraph

/-! ### Operations that end alike -/

section Alike

variable {α β γ δ : Type}

/-- Both operations succeed, with results that `R` relates, or break off for the same reason. -/
def Alike (R : α → β → Prop) : Except Fault α → Except Fault β → Prop
  | .ok a, .ok b => R a b
  | .error fault, .error fault' => fault = fault'
  | _, _ => False

/-- Operations that go on alike after ending alike end alike. -/
theorem Alike.bind {R : α → β → Prop} {S : γ → δ → Prop} {x : Except Fault α}
    {y : Except Fault β} {f : α → Except Fault γ} {g : β → Except Fault δ} (h : Alike R x y)
    (hnext : ∀ a b, R a b → Alike S (f a) (g b)) : Alike S (x >>= f) (y >>= g) := by
  match x, y, h with
  | .ok a, .ok b, h => exact hnext a b h
  | .error fault, .error fault', h => exact h

/-- An operation ends like itself. -/
theorem alike_self (x : Except Fault α) : Alike Eq x x := by
  cases x <;> rfl

/-- Operations that end alike with equal results are equal. -/
theorem Alike.eq {x y : Except Fault α} (h : Alike Eq x y) : x = y := by
  match x, y, h with
  | .ok a, .ok b, h => exact congrArg Except.ok h
  | .error fault, .error fault', h => exact congrArg Except.error h

/-- Operations that go on alike with an integer that has to be a signed quantity. -/
theorem alike_signed {R : α → β → Prop} {x : ℤ} {f : ℤ → Except Fault α} {g : ℤ → Except Fault β}
    (h : Alike R (f x) (g x)) : Alike R (Word.signed x >>= f) (Word.signed x >>= g) := by
  cases hx : Word.signed x with
  | error fault => rfl
  | ok y =>
      obtain rfl := (Word.signed_delivers (p := False) nofun).right y hx
      exact h

/-- Related results are results that a weaker relation relates. -/
theorem Alike.imp {R S : α → β → Prop} {x : Except Fault α} {y : Except Fault β}
    (h : Alike R x y) (hRS : ∀ a b, R a b → S a b) : Alike S x y := by
  match x, y, h with
  | .ok a, .ok b, h => exact hRS a b h
  | .error fault, .error fault', h => exact h

/-- Operations that end alike, the first of them with a result. -/
theorem Alike.exists_of_ok {R : α → β → Prop} {a : α} {y : Except Fault β}
    (h : Alike R (.ok a) y) : ∃ b, y = .ok b ∧ R a b := by
  match y, h with
  | .ok b, h => exact ⟨b, rfl, h⟩

end Alike

/-! ### Sweeps that end alike -/

section Sweeps

variable {ι σ σ' ρ ρ' : Type}

/-- Both visits hand on states that `P` relates, or both find results that `Q` relates. -/
def Visit.Rel (P : σ → σ' → Prop) (Q : ρ → ρ' → Prop) : Visit σ ρ → Visit σ' ρ' → Prop
  | .passed s, .passed s' => P s s'
  | .found m, .found m' => Q m m'
  | _, _ => False

/-- Visits that end alike end alike for weaker relations, too. -/
theorem Visit.Rel.imp {P P' : σ → σ' → Prop} {Q Q' : ρ → ρ' → Prop} {a : Visit σ ρ}
    {b : Visit σ' ρ'} (h : Visit.Rel P Q a b) (hP : ∀ s s', P s s' → P' s s')
    (hQ : ∀ m m', Q m m' → Q' m m') : Visit.Rel P' Q' a b := by
  match a, b, h with
  | .passed s, .passed s', h => exact hP s s' h
  | .found m, .found m', h => exact hQ m m' h

/-- Visits that end alike with equal states or equal results are equal. -/
theorem Visit.Rel.eq {a b : Visit σ ρ} (h : Visit.Rel Eq Eq a b) : a = b := by
  match a, b, h with
  | .passed s, .passed s', h => exact congrArg Visit.passed h
  | .found m, .found m', h => exact congrArg Visit.found h

/-- Visits that end alike go on alike. -/
theorem Visit.Rel.goOn {P P' : σ → σ' → Prop} {Q : ρ → ρ' → Prop} {a : Visit σ ρ}
    {b : Visit σ' ρ'} {next : σ → Except Fault (Visit σ ρ)}
    {next' : σ' → Except Fault (Visit σ' ρ')} (h : Visit.Rel P Q a b)
    (hnext : ∀ s s', P s s' → Alike (Visit.Rel P' Q) (next s) (next' s')) :
    Alike (Visit.Rel P' Q) (a.goOn next) (b.goOn next') := by
  match a, b, h with
  | .passed s, .passed s', h => exact hnext s s' h
  | .found m, .found m', h => exact h

/-- Visits that end alike give alike results. -/
theorem Visit.Rel.result {P : σ → σ' → Prop} {Q : ρ → ρ' → Prop} {a : Visit σ ρ}
    {b : Visit σ' ρ'} (h : Visit.Rel P Q a b) : Alike Q a.result b.result := by
  match a, b, h with
  | .passed s, .passed s', _ => rfl
  | .found m, .found m', h => exact h

variable {visit : ι → σ → Except Fault (Visit σ ρ)} {visit' : ι → σ' → Except Fault (Visit σ' ρ')}
  {Q : ρ → ρ' → Prop}

/-- **Sweeps end alike** when each of their visits does, after visits that have. -/
theorem sweep_alike {P : List ι → σ → σ' → Prop} (is : List ι) {state : σ} {state' : σ'}
    (hvisit : ∀ done i rest, is = done ++ i :: rest → ∀ s s', P done s s' →
      Alike (Visit.Rel (P (done ++ [i])) Q) (visit i s) (visit' i s'))
    (h : P [] state state') :
    Alike (Visit.Rel (P is) Q) (sweep visit is state) (sweep visit' is state') := by
  suffices key : ∀ rest done s s', is = done ++ rest → P done s s' →
      Alike (Visit.Rel (P is) Q) (sweep visit rest s) (sweep visit' rest s') from
    key is [] state state' rfl h
  intro rest
  induction rest with
  | nil =>
      intro done s s' his hs
      rw [List.append_nil] at his
      rw [his]
      exact hs
  | cons i rest ih =>
      intro done s s' his hs
      have hi := hvisit done i rest his s s' hs
      rw [sweep, sweep]
      generalize visit i s = a, visit' i s' = a' at hi ⊢
      rcases a with fault | next | m <;> rcases a' with fault' | next' | m'
      · exact hi
      · exact hi.elim
      · exact hi.elim
      · exact hi.elim
      · exact ih (done ++ [i]) next next' (by simp [his]) hi
      · exact hi.elim
      · exact hi.elim
      · exact hi.elim
      · exact hi

/-- Sweeps of the numbers below `n` end alike when a visit of each leaves the states alike for
the next. -/
theorem sweep_range_alike {visit : ℕ → σ → Except Fault (Visit σ ρ)}
    {visit' : ℕ → σ' → Except Fault (Visit σ' ρ')} {P : ℕ → σ → σ' → Prop} {n : ℕ} {state : σ}
    {state' : σ'}
    (hvisit : ∀ i, i < n → ∀ s s', P i s s' →
      Alike (Visit.Rel (P (i + 1)) Q) (visit i s) (visit' i s'))
    (h : P 0 state state') :
    Alike (Visit.Rel (P n) Q) (sweep visit (List.range n) state)
      (sweep visit' (List.range n) state') := by
  have key : Alike (Visit.Rel (P (List.range n).length) Q) (sweep visit (List.range n) state)
      (sweep visit' (List.range n) state') := by
    refine sweep_alike (P := fun done => P done.length) _ (fun done i rest his s s' hs => ?_) h
    obtain ⟨rfl, hlength⟩ := eq_length_of_range_eq his
    rw [List.length_append, List.length_singleton]
    exact hvisit done.length hlength s s' hs
  rwa [List.length_range] at key

end Sweeps

/-! ### Vectors that are alike -/

namespace Diagonals

/-- The vectors serve the diagonals up to `b` and up to `b'`, and have the same values on the
diagonals `s`. -/
structure SameOn (s : Set ℤ) (b b' : ℕ) (v v' : Diagonals) : Prop where
  serves : v.Serves b
  serves' : v'.Serves b'
  eqOn : Set.EqOn v.get v'.get s

variable {s t : Set ℤ} {b b' : ℕ} {v v' : Diagonals} {k : ℤ}

/-- Vectors that agree on some diagonals agree on fewer. -/
theorem SameOn.mono (h : SameOn s b b' v v') (hst : t ⊆ s) : SameOn t b b' v v' :=
  ⟨h.serves, h.serves', h.eqOn.mono hst⟩

/-- **Writing the same** on one diagonal of both vectors makes them alike there, too. -/
theorem SameOn.set_alike (h : SameOn s b b' v v') (hk : k.natAbs ≤ b) (hk' : k.natAbs ≤ b')
    (x : ℤ) : Alike (SameOn (insert k s) b b') (v.set k x) (v'.set k x) := by
  obtain ⟨hin, hleast⟩ := h.serves.within hk
  obtain ⟨hin', -⟩ := h.serves'.within hk'
  obtain ⟨w, hw⟩ := exists_set x hin hleast
  obtain ⟨w', hw'⟩ := exists_set x hin' hleast
  rw [hw, hw']
  refine ⟨h.serves.set hw, h.serves'.set hw', ?_⟩
  intro j hj
  by_cases hjk : j = k
  · rw [hjk, get_set_self hw, get_set_self hw']
  · rw [get_set_of_ne hw hjk, get_set_of_ne hw' hjk]
    exact h.eqOn (hj.resolve_left hjk)

end Diagonals

namespace Region

variable {α β : Type} {r : Region α} {r' : Region β} {d : ℕ} {k : ℤ}

/-! ### Congruent regions -/

/-- Two regions, perhaps of different kinds of elements, with the same sides, whose tests of
a column and a row always end the same. -/
structure Congruent (r : Region α) (r' : Region β) : Prop where
  old : r.old.length = r'.old.length
  new : r.new.length = r'.new.length
  agree (x y : ℤ) : r.agree x y = r'.agree x y

/-- A region is congruent to itself. -/
theorem congruent_self (r : Region α) : r.Congruent r := ⟨rfl, rfl, fun _ _ => rfl⟩

namespace Congruent

variable (h : r.Congruent r')
include h

/-- Congruent regions have as many columns, -/
theorem width : r.width = r'.width := congrArg Int.ofNat h.old

/-- as many rows, -/
theorem height : r.height = r'.height := congrArg Int.ofNat h.new

/-- their corners on the same diagonal, -/
theorem delta : r.delta = r'.delta := by rw [Region.delta, Region.delta, h.width, h.height]

/-- and sides of the same parity. -/
theorem isOdd : r.isOdd = r'.isOdd := by rw [Region.isOdd, Region.isOdd, h.delta]

/-- Their forward searches use the same diagonals, -/
theorem forwardSpan : r.forwardSpan = r'.forwardSpan := by
  rw [Region.forwardSpan, Region.forwardSpan, h.old, h.new]

/-- and so do their backward searches. -/
theorem backwardSpan : r.backwardSpan = r'.backwardSpan := by
  rw [Region.backwardSpan, Region.backwardSpan, h.delta, h.old, h.new]

/-- They can have the same distances. -/
theorem distances : r.distances = r'.distances := by
  rw [Region.distances, Region.distances, h.old, h.new]

/-- Congruent regions have the same edit graph. -/
theorem grid : r.grid = r'.grid := by
  simp only [Region.grid, h.old, h.new, h.agree]

/-- Forward slides end at the same points in congruent regions. -/
theorem slideForward (p : Point) : r.slideForward p = r'.slideForward p := by
  fun_induction Region.slideForward r p with
  | case1 p hin fault hfault =>
      rw [h.agree] at hfault
      rw [Region.slideForward, if_pos (by rwa [← h.width, ← h.height]), hfault]
  | case2 p hin hagree hsigned ih =>
      rw [h.agree] at hagree
      rw [ih, Region.slideForward.eq_def r' p, if_pos (by rwa [← h.width, ← h.height]), hagree]
      exact (if_pos hsigned).symm
  | case3 p hin hagree hsigned =>
      rw [h.agree] at hagree
      rw [Region.slideForward, if_pos (by rwa [← h.width, ← h.height]), hagree]
      exact (if_neg hsigned).symm
  | case4 p hin hagree =>
      rw [h.agree] at hagree
      rw [Region.slideForward, if_pos (by rwa [← h.width, ← h.height]), hagree]
  | case5 p hout => rw [Region.slideForward, if_neg (by rwa [← h.width, ← h.height])]

/-- So do backward slides. -/
theorem slideBackward (p : Point) : r.slideBackward p = r'.slideBackward p := by
  fun_induction Region.slideBackward r p with
  | case1 p hin fault hfault =>
      rw [h.agree] at hfault
      rw [Region.slideBackward, if_pos hin, hfault]
  | case2 p hin hagree hsigned ih =>
      rw [h.agree] at hagree
      rw [ih, Region.slideBackward.eq_def r' p, if_pos hin, hagree]
      exact (if_pos hsigned).symm
  | case3 p hin hagree hsigned =>
      rw [h.agree] at hagree
      rw [Region.slideBackward, if_pos hin, hagree]
      exact (if_neg hsigned).symm
  | case4 p hin hagree =>
      rw [h.agree] at hagree
      rw [Region.slideBackward, if_pos hin, hagree]
  | case5 p hout => rw [Region.slideBackward, if_neg hout]

end Congruent

/-! ### What a row reads -/

/-- The diagonals that the forward row of distance `d` may read of what earlier rows have
written: the seed, or the row before. -/
def forwardReads : ℕ → Set ℤ
  | 0 => {1}
  | d + 1 => {k | k ∈ diagonalRow d}

/-- The same of the backward row, for the diagonal `delta` of the corner. -/
def backwardReads (delta : ℤ) : ℕ → Set ℤ
  | 0 => {delta - 1}
  | d + 1 => {k | k - delta ∈ diagonalRow d}

/-- The launch of a forward path is read from these diagonals. -/
theorem launchForward_eq_of_eqOn {read read' : ℤ → Except Fault ℤ} (hk : k ∈ diagonalRow d)
    (h : Set.EqOn read read' (forwardReads d)) :
    launchForward d k read = launchForward d k read' := by
  rw [mem_diagonalRow] at hk
  unfold launchForward
  cases d with
  | zero =>
      obtain rfl : k = 0 := by omega
      exact h rfl
  | succ d =>
      have habove : k < d + 1 → read (k + 1) = read' (k + 1) := fun hlt =>
        h (mem_diagonalRow.mpr ⟨by omega, by omega⟩)
      have hbelow : -(d + 1 : ℤ) < k → read (k - 1) = read' (k - 1) := fun hlt =>
        h (mem_diagonalRow.mpr ⟨by omega, by omega⟩)
      by_cases hbottom : k = -((d + 1 : ℕ) : ℤ)
      · rw [if_pos hbottom, if_pos hbottom]
        exact Word.signed_bind_congr (habove (by omega))
      · rw [if_neg hbottom, if_neg hbottom]
        refine Word.signed_bind_congr ?_
        rw [hbelow (by omega)]
        refine congrArg _ (funext fun below => ?_)
        by_cases htop : k = ((d + 1 : ℕ) : ℤ)
        · rw [if_pos htop, if_pos htop]
        · rw [if_neg htop, if_neg htop]
          exact Word.signed_bind_congr (by rw [habove (by omega)])

/-- The launch of a backward path is read from these. -/
theorem launchBackward_eq_of_eqOn {delta : ℤ} {read read' : ℤ → Except Fault ℤ}
    (hk : k ∈ diagonalRow d) (h : Set.EqOn read read' (backwardReads delta d)) :
    launchBackward delta d k read = launchBackward delta d k read' := by
  rw [mem_diagonalRow] at hk
  unfold launchBackward
  cases d with
  | zero =>
      obtain rfl : k = 0 := by omega
      rw [if_pos (by simp), if_pos (by simp), Int.zero_add]
      exact Word.signed_bind_congr (h rfl)
  | succ d =>
      have habove : k < d + 1 → read (k + delta + 1) = read' (k + delta + 1) := fun hlt =>
        h (mem_diagonalRow.mpr ⟨by omega, by omega⟩)
      have hbelow : -(d + 1 : ℤ) < k → read (k + delta - 1) = read' (k + delta - 1) := fun hlt =>
        h (mem_diagonalRow.mpr ⟨by omega, by omega⟩)
      by_cases htop : k = ((d + 1 : ℕ) : ℤ)
      · rw [if_pos htop, if_pos htop]
        exact Word.signed_bind_congr (hbelow (by omega))
      · rw [if_neg htop, if_neg htop]
        by_cases hbottom : k = -((d + 1 : ℕ) : ℤ)
        · rw [if_pos hbottom, if_pos hbottom]
          exact Word.signed_bind_congr (by rw [habove (by omega)])
        · rw [if_neg hbottom, if_neg hbottom]
          refine Word.signed_bind_congr ?_
          rw [hbelow (by omega)]
          refine congrArg _ (funext fun below => ?_)
          exact Word.signed_bind_congr (by rw [habove (by omega)])

/-- Where a forward path looks for a backward one, the backward row before has written. -/
theorem mem_backwardReads_of_faces (hk : k ∈ diagonalRow d) (h : r.facesBackward d k = .ok true) :
    k ∈ backwardReads r.delta d := by
  rw [mem_diagonalRow] at hk
  unfold facesBackward at h
  split at h
  case isFalse => exact nomatch h
  case isTrue hodd =>
      obtain ⟨n, hn, hnear⟩ := exists_of_bind_eq_ok h
      obtain rfl := (Word.magnitude_delivers (p := False) nofun).right n hn
      have hnear : (k - r.delta).natAbs < d := of_decide_eq_true (Except.ok.inj hnear)
      rw [isOdd_iff] at hodd
      cases d with
      | zero => omega
      | succ d => exact mem_diagonalRow.mpr ⟨by omega, by omega⟩

/-- Where a backward path looks for a forward one, the forward row of this distance has
written. -/
theorem mem_diagonalRow_of_faces (hk : k ∈ diagonalRow d) (h : r.facesForward d k = .ok true) :
    k + r.delta ∈ diagonalRow d := by
  rw [mem_diagonalRow] at hk
  unfold facesForward at h
  split at h
  case isTrue => exact nomatch h
  case isFalse heven =>
      obtain ⟨n, hn, hnear⟩ := exists_of_bind_eq_ok h
      obtain rfl := (Word.magnitude_delivers (p := False) nofun).right n hn
      have hnear : (k + r.delta).natAbs ≤ d := of_decide_eq_true (Except.ok.inj hnear)
      rw [isOdd_iff] at heven
      exact mem_diagonalRow.mpr ⟨hnear, by omega⟩

/-! ### The searches side by side -/

section Stores

variable {σ τ : Type} {a : Store σ} {b : Store τ} {v : σ} {w : τ} {F B : σ → τ → Prop}

/-- Both paths start and stop at the same points, and are recorded in states that `F` relates. -/
structure SameReach (F : σ → τ → Prop) (reach : ReachIn σ) (reach' : ReachIn τ) : Prop where
  start : reach.start = reach'.start
  stop : reach.stop = reach'.stop
  record : F reach.record reach'.record

/-- Paths recorded in equal states are equal. -/
theorem SameReach.eq {reach reach' : ReachIn σ} (h : SameReach Eq reach reach') :
    reach = reach' := by
  obtain ⟨start, stop, record⟩ := reach
  obtain ⟨_, _, _⟩ := reach'
  obtain ⟨rfl, rfl, rfl⟩ := h
  rfl

/-- **One forward path prolonged** in congruent regions: it slides between the same points. -/
theorem Congruent.advanceIn_alike (h : r.Congruent r') (hk : k ∈ diagonalRow d)
    (hread : Set.EqOn (a.get v) (b.get w) (forwardReads d))
    (hwrite : ∀ x, Alike F (a.set v k x) (b.set w k x)) :
    Alike (SameReach F) (r.advanceIn a d k v) (r'.advanceIn b d k w) := by
  rw [advanceIn, advanceIn, launchForward_eq_of_eqOn hk hread]
  refine (alike_self _).bind ?_
  rintro x _ rfl
  refine alike_signed ?_
  simp only [h.slideForward]
  refine (alike_self _).bind ?_
  rintro stop _ rfl
  exact (hwrite stop.x).bind fun _ _ hrecord => ⟨rfl, rfl, hrecord⟩

/-- **One backward path prolonged.** -/
theorem Congruent.retreatIn_alike (h : r.Congruent r') (hk : k ∈ diagonalRow d)
    (hread : Set.EqOn (a.get v) (b.get w) (backwardReads r.delta d))
    (hwrite : ∀ x, Alike F (a.set v (k + r.delta) x) (b.set w (k + r.delta) x)) :
    Alike (SameReach F) (r.retreatIn a d k v) (r'.retreatIn b d k w) := by
  rw [retreatIn, retreatIn, ← h.delta, launchBackward_eq_of_eqOn hk hread]
  refine alike_signed ((alike_self _).bind ?_)
  rintro x _ rfl
  refine alike_signed ?_
  simp only [h.slideBackward]
  refine (alike_self _).bind ?_
  rintro stop _ rfl
  exact (hwrite stop.x).bind fun _ _ hrecord => ⟨rfl, rfl, hrecord⟩

/-- The forward states are related, and so are the backward states. -/
structure BothAlike (F B : σ → τ → Prop) (f : FrontiersIn σ) (g : FrontiersIn τ) : Prop where
  forward : F f.forward g.forward
  backward : B f.backward g.backward

/-- Equal forward and backward states are equal. -/
theorem BothAlike.eq {f g : FrontiersIn σ} (h : BothAlike Eq Eq f g) : f = g := by
  obtain ⟨forward, backward⟩ := f
  obtain ⟨_, _⟩ := g
  obtain ⟨rfl, rfl⟩ := h
  rfl

/-- The searches have found the same middle snake, and leave related states. -/
structure SameMeeting (F B : σ → τ → Prop) (m : MeetingIn σ) (m' : MeetingIn τ) : Prop where
  middle : m.middle = m'.middle
  frontiers : BothAlike F B m.frontiers m'.frontiers

/-- Forward paths look for a backward path on the same diagonals in congruent regions. -/
theorem Congruent.facesBackward (h : r.Congruent r') (d : ℕ) (k : ℤ) :
    r.facesBackward d k = r'.facesBackward d k := by
  rw [Region.facesBackward, Region.facesBackward, h.isOdd, h.delta]

/-- So do backward paths. -/
theorem Congruent.facesForward (h : r.Congruent r') (d : ℕ) (k : ℤ) :
    r.facesForward d k = r'.facesForward d k := by
  rw [Region.facesForward, Region.facesForward, h.isOdd, h.delta]

/-- **Looking for a backward path**, the searches find the same value. -/
theorem Congruent.lookBackward_alike (h : r.Congruent r') {reach : ReachIn σ} {reach' : ReachIn τ}
    (hreach : SameReach F reach reach') (hw : B v w) (hk : k ∈ diagonalRow d)
    (hread : Set.EqOn (a.get v) (b.get w) (backwardReads r.delta d)) :
    Alike (Visit.Rel (BothAlike F B) (SameMeeting F B)) (r.lookBackward a d k reach v)
      (r'.lookBackward b d k reach' w) := by
  obtain ⟨start, stop, record⟩ := reach
  obtain ⟨_, _, record'⟩ := reach'
  obtain ⟨rfl, rfl, hrecord⟩ := hreach
  rw [lookBackward, lookBackward, ← h.facesBackward]
  cases hfaces : r.facesBackward d k with
  | error fault => rfl
  | ok near =>
      cases near with
      | false => exact ⟨hrecord, hw⟩
      | true =>
          simp only [ok_bind, if_true, hread (mem_backwardReads_of_faces hk hfaces)]
          refine (alike_self _).bind ?_
          rintro opposite _ rfl
          split
          · refine alike_signed ((alike_self _).bind ?_)
            rintro distance _ rfl
            refine (alike_self _).bind ?_
            rintro snake _ rfl
            exact ⟨rfl, hrecord, hw⟩
          · exact ⟨hrecord, hw⟩

/-- **Looking for a forward path** likewise. -/
theorem Congruent.lookForward_alike (h : r.Congruent r') {reach : ReachIn σ} {reach' : ReachIn τ}
    (hreach : SameReach B reach reach') (hw : F v w) (hk : k ∈ diagonalRow d)
    (hread : Set.EqOn (a.get v) (b.get w) {j | j ∈ diagonalRow d}) :
    Alike (Visit.Rel (BothAlike F B) (SameMeeting F B)) (r.lookForward a d k reach v)
      (r'.lookForward b d k reach' w) := by
  obtain ⟨start, stop, record⟩ := reach
  obtain ⟨_, _, record'⟩ := reach'
  obtain ⟨rfl, rfl, hrecord⟩ := hreach
  rw [lookForward, lookForward, ← h.facesForward, ← h.delta]
  cases hfaces : r.facesForward d k with
  | error fault => rfl
  | ok near =>
      cases near with
      | false => exact ⟨hw, hrecord⟩
      | true =>
          simp only [ok_bind, if_true, hread (mem_diagonalRow_of_faces hk hfaces)]
          refine (alike_self _).bind ?_
          rintro opposite _ rfl
          split
          · refine (alike_self _).bind ?_
            rintro distance _ rfl
            refine (alike_self _).bind ?_
            rintro snake _ rfl
            exact ⟨rfl, hw, hrecord⟩
          · exact ⟨hw, hrecord⟩

end Stores

/-! ### Runs side by side -/

section Rows

variable {σ τ : Type}

/-- What keeps the states of two searches related from row to row: `R d done` relates them when the
diagonals `done` of the row of distance `d` have been visited. The row reads the same values on the
diagonals `reads d`, and a value that it writes for diagonal `k` goes to diagonal `place k`. -/
structure RowsAlike (last : ℕ) (reads : ℕ → Set ℤ) (place : ℤ → ℤ) (a : ℕ → Store σ)
    (b : ℕ → Store τ) (R : ℕ → List ℤ → σ → τ → Prop) : Prop where
  get (d : ℕ) (done : List ℤ) (v : σ) (w : τ) :
    d ≤ last → R d done v w → Set.EqOn ((a d).get v) ((b d).get w) (reads d)
  set (d : ℕ) (done : List ℤ) (v : σ) (w : τ) (k x : ℤ) :
    d ≤ last → k ∈ diagonalRow d → R d done v w →
      Alike (R d (done ++ [k])) ((a d).set v (place k) x) ((b d).set w (place k) x)
  next (d : ℕ) (v : σ) (w : τ) : R d (diagonalRow d) v w → R (d + 1) [] v w

/-- A store is like itself. -/
theorem rowsAlike_refl (last : ℕ) (reads : ℕ → Set ℤ) (place : ℤ → ℤ) (a : ℕ → Store σ) :
    RowsAlike last reads place a a fun _ _ => Eq where
  get := by
    rintro d done v _ - rfl
    exact Set.eqOn_refl _ _
  set := by
    rintro d done v _ k x - - rfl
    exact alike_self _
  next _ _ _ h := h

/-- **Searches that sweep rows end alike** when their visits do. -/
theorem sweep_rows_alike {ρ ρ' : Type} {visit : ℕ → ℤ → σ → Except Fault (Visit σ ρ)}
    {visit' : ℕ → ℤ → τ → Except Fault (Visit τ ρ')} {R : ℕ → List ℤ → σ → τ → Prop}
    {Q : ρ → ρ' → Prop} {last : ℕ} {v : σ} {w : τ}
    (hvisit : ∀ d ≤ last, ∀ k ∈ diagonalRow d, ∀ done s t, R d done s t →
      Alike (Visit.Rel (R d (done ++ [k])) Q) (visit d k s) (visit' d k t))
    (hnext : ∀ d s t, R d (diagonalRow d) s t → R (d + 1) [] s t) (h : R 0 [] v w) :
    Alike (Visit.Rel (R (last + 1) []) Q)
      (sweep (fun d => sweep (visit d) (diagonalRow d)) (List.range (last + 1)) v)
      (sweep (fun d => sweep (visit' d) (diagonalRow d)) (List.range (last + 1)) w) := by
  refine sweep_range_alike (P := fun d => R d []) (fun d hd s t hst => ?_) h
  have hrow := sweep_alike (P := R d) (diagonalRow d)
    (fun done k rest his s t => hvisit d (Nat.le_of_lt_succ hd) k (by simp [his]) done s t) hst
  exact hrow.imp fun _ _ hrel => hrel.imp (hnext d) fun _ _ => id

variable {v : σ} {w : τ}

/-- **Two searches from the origin** for the distance of congruent regions end alike. -/
theorem Congruent.searchForwardIn_alike (h : r.Congruent r') {a : Store σ} {b : Store τ}
    {R : ℕ → List ℤ → σ → τ → Prop}
    (hR : RowsAlike (r.old.length + r.new.length) forwardReads (fun k => k) (fun _ => a)
      (fun _ => b) R)
    (hseed : Alike (R 0 []) (a.set v 1 0) (b.set w 1 0)) :
    Alike Eq (r.searchForwardIn a v) (r'.searchForwardIn b w) := by
  have hvisit (d : ℕ) (hd : d ≤ r.old.length + r.new.length) (k : ℤ) (hk : k ∈ diagonalRow d)
      (done : List ℤ) (s : σ) (t : τ) (hst : R d done s t) :
      Alike (Visit.Rel (R d (done ++ [k])) Eq) (r.visitForwardIn a d k s)
        (r'.visitForwardIn b d k t) := by
    rw [visitForwardIn, visitForwardIn, ← h.width, ← h.height]
    refine (h.advanceIn_alike hk (hR.get d done s t hd hst)
      fun x => hR.set d done s t k x hd hk hst).bind ?_
    rintro ⟨start, stop, record⟩ ⟨_, _, record'⟩ ⟨rfl, rfl, hrecord⟩
    split
    · rfl
    · exact hrecord
  rw [searchForwardIn, searchForwardIn, ← h.width, ← h.height, ← h.distances]
  refine hseed.bind fun v' w' hseeded => alike_signed ?_
  exact (sweep_rows_alike hvisit hR.next hseeded).bind fun _ _ hended => hended.result

/-- **Two searches from the far corner** do so, too. -/
theorem Congruent.searchBackwardIn_alike (h : r.Congruent r') {a : Store σ} {b : Store τ}
    {R : ℕ → List ℤ → σ → τ → Prop}
    (hR : RowsAlike (r.old.length + r.new.length) (backwardReads r.delta) (· + r.delta)
      (fun _ => a) (fun _ => b) R)
    (hseed : Alike (R 0 []) (a.set v (r.delta - 1) r.width) (b.set w (r.delta - 1) r.width)) :
    Alike Eq (r.searchBackwardIn a v) (r'.searchBackwardIn b w) := by
  have hvisit (d : ℕ) (hd : d ≤ r.old.length + r.new.length) (k : ℤ) (hk : k ∈ diagonalRow d)
      (done : List ℤ) (s : σ) (t : τ) (hst : R d done s t) :
      Alike (Visit.Rel (R d (done ++ [k])) Eq) (r.visitBackwardIn a d k s)
        (r'.visitBackwardIn b d k t) := by
    rw [visitBackwardIn, visitBackwardIn]
    refine (h.retreatIn_alike hk (hR.get d done s t hd hst)
      fun x => hR.set d done s t k x hd hk hst).bind ?_
    rintro ⟨start, stop, record⟩ ⟨_, _, record'⟩ ⟨rfl, rfl, hrecord⟩
    split
    · rfl
    · exact hrecord
  rw [searchBackwardIn, searchBackwardIn, ← h.delta, ← h.width, ← h.height, ← h.distances]
  refine alike_signed (alike_signed ?_)
  refine hseed.bind fun v' w' hseeded => alike_signed ?_
  exact (sweep_rows_alike hvisit hR.next hseeded).bind fun _ _ hended => hended.result

variable {a : ℕ → Stores σ} {b : ℕ → Stores τ} {F B : ℕ → List ℤ → σ → τ → Prop}
  {f : FrontiersIn σ} {g : FrontiersIn τ}

/-- What keeps the states of two searches in lock step related from round to round: the forward
states by `F`, the backward states by `B`. A forward row that is complete is read by backward
paths. -/
structure RoundsAlike (r : Region α) (a : ℕ → Stores σ) (b : ℕ → Stores τ)
    (F B : ℕ → List ℤ → σ → τ → Prop) : Prop where
  forward : RowsAlike (r.old.length + r.new.length) forwardReads (fun k => k)
    (fun d => (a d).forward) (fun d => (b d).forward) F
  backward : RowsAlike (r.old.length + r.new.length) (backwardReads r.delta) (· + r.delta)
    (fun d => (a d).backward) (fun d => (b d).backward) B
  complete (d : ℕ) (v : σ) (w : τ) : d ≤ r.old.length + r.new.length → F d (diagonalRow d) v w →
    Set.EqOn ((a d).forward.get v) ((b d).forward.get w) {j | j ∈ diagonalRow d}

/-- Stores are like themselves. -/
theorem roundsAlike_refl (r : Region α) (a : ℕ → Stores σ) :
    RoundsAlike r a a (fun _ _ => Eq) (fun _ _ => Eq) where
  forward := rowsAlike_refl _ _ _ _
  backward := rowsAlike_refl _ _ _ _
  complete := by
    rintro d v _ - rfl
    exact Set.eqOn_refl _ _

/-- The searches have found the same middle snake, and leave related states. -/
structure SameEnd (F B : ℕ → List ℤ → σ → τ → Prop) (m : MeetingIn σ) (m' : MeetingIn τ) :
    Prop where
  middle : m.middle = m'.middle
  frontiers : ∃ d done done', BothAlike (F d done) (B d done') m.frontiers m'.frontiers

/-- What searches that keep equal states have found is equal. -/
theorem SameEnd.eq {m m' : MeetingIn σ} (h : SameEnd (fun _ _ => Eq) (fun _ _ => Eq) m m') :
    m = m' := by
  obtain ⟨middle, f⟩ := m
  obtain ⟨_, g⟩ := m'
  obtain ⟨rfl, -, -, -, hf⟩ := h
  exact congrArg (MeetingIn.mk middle) hf.eq

/-- **A visit of the forward row** ends alike in both searches. -/
theorem Congruent.meetForwardIn_alike (h : r.Congruent r') (hrounds : RoundsAlike r a b F B)
    (done : List ℤ) (hd : d ≤ r.old.length + r.new.length) (hk : k ∈ diagonalRow d)
    (hf : BothAlike (F d done) (B d []) f g) :
    Alike (Visit.Rel (BothAlike (F d (done ++ [k])) (B d [])) (SameEnd F B))
      (r.meetForwardIn (a d) d k f) (r'.meetForwardIn (b d) d k g) := by
  refine (h.advanceIn_alike hk (hrounds.forward.get d done _ _ hd hf.forward)
    fun x => hrounds.forward.set d done _ _ k x hd hk hf.forward).bind fun _ _ hreach => ?_
  refine (h.lookBackward_alike hreach hf.backward hk
    (hrounds.backward.get d [] _ _ hd hf.backward)).imp fun _ _ hrel => ?_
  exact hrel.imp (fun _ _ => id) fun m m' hm => ⟨hm.middle, d, _, _, hm.frontiers⟩

/-- **A visit of the backward row** ends alike, too. -/
theorem Congruent.meetBackwardIn_alike (h : r.Congruent r') (hrounds : RoundsAlike r a b F B)
    (done : List ℤ) (hd : d ≤ r.old.length + r.new.length) (hk : k ∈ diagonalRow d)
    (hf : BothAlike (F d (diagonalRow d)) (B d done) f g) :
    Alike (Visit.Rel (BothAlike (F d (diagonalRow d)) (B d (done ++ [k]))) (SameEnd F B))
      (r.meetBackwardIn (a d) d k f) (r'.meetBackwardIn (b d) d k g) := by
  refine (h.retreatIn_alike hk (hrounds.backward.get d done _ _ hd hf.backward)
    fun x => hrounds.backward.set d done _ _ k x hd hk hf.backward).bind fun _ _ hreach => ?_
  refine (h.lookForward_alike hreach hf.forward hk
    (hrounds.complete d _ _ hd hf.forward)).imp fun _ _ hrel => ?_
  exact hrel.imp (fun _ _ => id) fun m m' hm => ⟨hm.middle, d, _, _, hm.frontiers⟩

/-- **A round** ends alike in both searches. -/
theorem Congruent.meetAtIn_alike (h : r.Congruent r') (hrounds : RoundsAlike r a b F B)
    (hd : d ≤ r.old.length + r.new.length) (hf : BothAlike (F d []) (B d []) f g) :
    Alike (Visit.Rel (BothAlike (F (d + 1) []) (B (d + 1) [])) (SameEnd F B))
      (r.meetAtIn (a d) d f) (r'.meetAtIn (b d) d g) := by
  have hforward := sweep_alike (P := fun done => BothAlike (F d done) (B d [])) (diagonalRow d)
    (fun done k rest his s t hst => h.meetForwardIn_alike hrounds done hd (by simp [his]) hst) hf
  refine hforward.bind fun _ _ hvisit => hvisit.goOn fun s t hst => ?_
  have hbackward := sweep_alike (P := fun done => BothAlike (F d (diagonalRow d)) (B d done))
    (diagonalRow d)
    (fun done k rest his s t hst => h.meetBackwardIn_alike hrounds done hd (by simp [his]) hst) hst
  refine hbackward.imp fun _ _ hrel => hrel.imp (fun s t hst => ?_) fun _ _ => id
  exact ⟨hrounds.forward.next d _ _ hst.forward, hrounds.backward.next d _ _ hst.backward⟩

/-- **Two searches for the middle snake** of congruent regions end alike. -/
theorem Congruent.middleSnakeIn_alike (h : r.Congruent r') (hrounds : RoundsAlike r a b F B)
    (seeds : Stores σ) (seeds' : Stores τ)
    (hforward : Alike (F 0 []) (seeds.forward.set f.forward 1 0)
      (seeds'.forward.set g.forward 1 0))
    (hbackward : Alike (B 0 []) (seeds.backward.set f.backward (r.delta - 1) r.width)
      (seeds'.backward.set g.backward (r.delta - 1) r.width)) :
    Alike (SameEnd F B) (r.middleSnakeIn seeds a f) (r'.middleSnakeIn seeds' b g) := by
  rw [middleSnakeIn, middleSnakeIn, ← h.delta, ← h.width, ← h.height, ← h.old, ← h.new]
  refine alike_signed (hforward.bind fun v v' hv => alike_signed ?_)
  refine hbackward.bind fun w w' hw => alike_signed ?_
  have hseeded : BothAlike (F 0 []) (B 0 []) ⟨v, w⟩ ⟨v', w'⟩ := ⟨hv, hw⟩
  have hall := sweep_range_alike (P := fun d => BothAlike (F d []) (B d [])) (Q := SameEnd F B)
    (n := (r.old.length + r.new.length + 1) / 2 + 1)
    (fun d hd s t hst => h.meetAtIn_alike hrounds (by omega) hst) hseeded
  exact hall.bind fun _ _ hended => hended.result

end Rows

/-! ### Two searches in diagonal vectors -/

section Vectors

variable {b b' c c' : ℕ} {f f' : Frontiers}

/-- The searches have found the same middle snake. -/
def SameMiddle (m m' : Meeting) : Prop := m.middle = m'.middle

/-- The diagonal just written is one of those visited. -/
theorem union_visited_subset (t : Set ℤ) (done : List ℤ) (delta : ℤ) :
    t ∪ {j | j - delta ∈ done ++ [k]} ⊆ insert (k + delta) (t ∪ {j | j - delta ∈ done}) := by
  rintro j (hj | hj)
  · exact .inr (.inl hj)
  · rcases List.mem_append.mp hj with hj | hj
    · exact .inr (.inr hj)
    · have := List.mem_singleton.mp hj
      exact .inl (by omega)

/-- Vectors with the same values where a row reads, and where it has written, are alike for it. A
value for diagonal `k` is written `delta` diagonals above. -/
theorem rowsAlike_sameOn (last : ℕ) (reads : ℕ → Set ℤ) (delta : ℤ)
    (hreads : ∀ d, reads (d + 1) ⊆ {j | j - delta ∈ diagonalRow d})
    (hb : last + delta.natAbs ≤ b) (hb' : last + delta.natAbs ≤ b') :
    RowsAlike last reads (· + delta) (fun _ => Diagonals.store) (fun _ => Diagonals.store)
      fun d done => Diagonals.SameOn (reads d ∪ {j | j - delta ∈ done}) b b' where
  get _ _ _ _ _ h := h.eqOn.mono Set.subset_union_left
  set d done v w k x hd hk h := by
    have hrow := (mem_diagonalRow.mp hk).1
    refine (h.set_alike (k := k + delta) (by omega) (by omega) x).imp fun _ _ hset => ?_
    exact hset.mono (union_visited_subset _ done delta)
  next d _ _ h := h.mono fun j hj => .inr (by simpa using hreads d (by simpa using hj))

/-- **Both searches find the same middle snake**, whatever their vectors hold at first. -/
theorem Congruent.middleSnake_alike (h : r.Congruent r') (hf : f.Serve b c)
    (hf' : f'.Serve b' c') (hb : r.forwardSpan ≤ b) (hb' : r.forwardSpan ≤ b')
    (hc : r.backwardSpan ≤ c) (hc' : r.backwardSpan ≤ c') :
    Alike SameMiddle (r.middleSnake f) (r'.middleSnake f') := by
  rw [Region.forwardSpan] at hb hb'
  rw [Region.backwardSpan] at hc hc'
  have hforward : Diagonals.SameOn ∅ b b' f.forward f'.forward :=
    ⟨hf.forward, hf'.forward, Set.eqOn_empty _ _⟩
  have hbackward : Diagonals.SameOn ∅ c c' f.backward f'.backward :=
    ⟨hf.backward, hf'.backward, Set.eqOn_empty _ _⟩
  have hrounds : RoundsAlike r (fun _ => Diagonals.stores) (fun _ => Diagonals.stores)
      (fun d done => Diagonals.SameOn (forwardReads d ∪ {j | j - 0 ∈ done}) b b')
      (fun d done => Diagonals.SameOn (backwardReads r.delta d ∪ {j | j - r.delta ∈ done}) c c') :=
    { forward := by
        have hkept := rowsAlike_sameOn (r.old.length + r.new.length) forwardReads 0
          (fun d j hj => by simpa [forwardReads] using hj) (Nat.le_of_succ_le hb)
          (Nat.le_of_succ_le hb')
        simpa only [add_zero, Diagonals.stores] using hkept
      backward := rowsAlike_sameOn _ _ _ (fun d j hj => hj) (by omega) (by omega)
      complete := fun d v w _ hrow => hrow.eqOn.mono fun j hj => .inr (by simpa using hj) }
  have hall := h.middleSnakeIn_alike hrounds Diagonals.stores Diagonals.stores (f := f) (g := f')
    ((hforward.set_alike (by omega) (by omega) 0).imp fun _ _ hset =>
      hset.mono (by simp [forwardReads]))
    ((hbackward.set_alike (by omega) (by omega) r.width).imp fun _ _ hset =>
      hset.mono (by simp [backwardReads]))
  exact hall.imp fun _ _ hend => hend.middle

end Vectors

end Region

end EditGraph
