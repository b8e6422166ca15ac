/-!
# Faults

Every way in which an operation of this library can break off, in one type. A fault is
never a result about the data: it says that a caller asked for something outside of a
window, a vector or the range of 64-bit quantities, or that an internal consistency check
failed. Operations that can break off return in `Except Fault`.

## Main definitions

* `Fault` — the causes.
* `Fault.message` — the wording of the causes that have one.
* `Word.fit`, `Word.difference` — unsigned 64-bit arithmetic on `Nat`, with leaving the
  range as a fault instead of wrapping.
* `Word.signed`, `Word.magnitude` — the same of signed 64-bit arithmetic on `Int`.
* `Delivers` — an operation is right, and does not break off under a condition.
-/

namespace EditGraph

/-- Why an operation broke off. -/
inductive Fault where
  /-- A quantity left the range of 64-bit integers. -/
  | overflow
  /-- A diagonal vector would not fit into the address space. -/
  | capacity
  /-- A range does not lie within its sequence, or ends before it starts. -/
  | sliceRange
  /-- A window was narrowed to positions it does not have. -/
  | windowRange
  /-- A window was narrowed from position zero, though its positions start at one. -/
  | windowOrigin
  /-- A window of the given length has no element at the given position. -/
  | windowIndex (length index : Nat)
  /-- A diagonal vector with the given bias does not hold diagonal `k`. -/
  | diagonal (k : Int) (bias : Nat)
  /-- A snake has an end outside of the grid. -/
  | snakeOutside
  /-- The ends of a snake lie on different diagonals. -/
  | snakeBent
  /-- A search went through all its distances without reaching its goal. -/
  | searchExhausted
  /-- The work list still held tasks when its step bound was used up. -/
  | unfinished
  /-- The matches found are not as many as the distance demands. -/
  | matchCount
  /-- An edit script is longer or shorter than the distance. -/
  | scriptLength
  deriving DecidableEq, Repr

/-- The text of a fault; those about plain arithmetic and ranges carry none. -/
def Fault.message : Fault → Option String
  | .windowOrigin => some "sub array offsets are 1-based"
  | .windowIndex length index =>
    some s!"sub array index out of bounds: the len is {length} but the index is {index}"
  | .diagonal k bias => some s!"diagonal {k} outside of ±{bias}"
  | _ => none

/-- An operation goes on with the result of the one before it. -/
@[simp] theorem ok_bind {α β : Type} (a : α) (next : α → Except Fault β) :
    (Except.ok a >>= next) = next a := rfl

/-- Nothing comes after a fault. -/
@[simp] theorem error_bind {α β : Type} (fault : Fault) (next : α → Except Fault β) :
    (Except.error fault >>= next) = .error fault := rfl

/-- An operation that goes on after another succeeds when both do. -/
theorem exists_of_bind_eq_ok {α β : Type} {o : Except Fault α} {next : α → Except Fault β} {b : β}
    (h : o >>= next = .ok b) : ∃ a, o = .ok a ∧ next a = .ok b := by
  cases o with
  | error fault => exact nomatch h
  | ok a => exact ⟨a, rfl, h⟩

/-- Whatever the operation returns has `Q`, and it does return something if `p`. -/
structure Delivers {α : Type} (p : Prop) (o : Except Fault α) (Q : α → Prop) : Prop where
  returns : p → ∃ a, o = .ok a
  right (a : α) : o = .ok a → Q a

/-- An operation that has a result anyway. -/
theorem delivers_of_eq {α : Type} {p : Prop} {o : Except Fault α} {Q : α → Prop} {a : α}
    (h : o = .ok a) (ha : Q a) : Delivers p o Q where
  returns _ := ⟨a, h⟩
  right b hb := by
    obtain rfl := Except.ok.inj (h.symm.trans hb)
    exact ha

/-- If `p`, there is a result, and it has `Q`. -/
theorem Delivers.exists_ok {α : Type} {p : Prop} {o : Except Fault α} {Q : α → Prop}
    (h : Delivers p o Q) (hp : p) : ∃ a, o = .ok a ∧ Q a := by
  obtain ⟨a, ha⟩ := h.returns hp
  exact ⟨a, ha, h.right a ha⟩

/-- A stronger reason, and a weaker result. -/
theorem Delivers.imp {α : Type} {p p' : Prop} {o : Except Fault α} {Q Q' : α → Prop}
    (h : Delivers p o Q) (hp : p' → p) (hQ : ∀ a, Q a → Q' a) : Delivers p' o Q' where
  returns hp' := h.returns (hp hp')
  right a ha := hQ a (h.right a ha)

/-- One operation after another. -/
theorem Delivers.bind {α β : Type} {p : Prop} {o : Except Fault α} {next : α → Except Fault β}
    {Q : α → Prop} {R : β → Prop} (h : Delivers p o Q) (hnext : ∀ a, Q a → Delivers p (next a) R) :
    Delivers p (o >>= next) R where
  returns hp := by
    obtain ⟨a, rfl, ha⟩ := h.exists_ok hp
    exact (hnext a ha).returns hp
  right b hb := by
    obtain ⟨a, ha, hb⟩ := exists_of_bind_eq_ok hb
    exact (hnext a (h.right a ha)).right b hb

/-! ### Unsigned 64-bit quantities -/

namespace Word

/-- The first natural number that is no unsigned 64-bit quantity, `2 ^ 64`. -/
def limit : Nat := 18446744073709551616

/-- A natural number as a 64-bit quantity; one that does not fit is an overflow. -/
def fit (n : Nat) : Except Fault Nat :=
  if n < limit then .ok n else .error .overflow

/-- The difference of two quantities; taking away more than there is is an overflow. -/
def difference (a b : Nat) : Except Fault Nat :=
  if b ≤ a then .ok (a - b) else .error .overflow

/-- A quantity below the limit fits. -/
theorem fit_of_lt {n : Nat} (h : n < limit) : fit n = .ok n := if_pos h

/-- As much as there is, or less, can be taken away. -/
theorem difference_of_le {a b : Nat} (h : b ≤ a) : difference a b = .ok (a - b) := if_pos h

/-- What fits is below the limit, and stays what it is. -/
theorem fit_eq_ok_iff {n m : Nat} : fit n = .ok m ↔ n < limit ∧ n = m := by
  by_cases h : n < limit
  · simp [fit_of_lt h, h]
  · simp [fit, h]

/-! ### Signed 64-bit quantities -/

/-- The first natural number that is no signed 64-bit quantity, `2 ^ 63`. -/
def signedLimit : Nat := 9223372036854775808

/-- `x` is a signed 64-bit quantity. -/
def IsSigned (x : Int) : Prop := -signedLimit ≤ x ∧ x < signedLimit

/-- Natural numbers are signed quantities below the limit. -/
theorem isSigned_ofNat_iff {n : Nat} : n < signedLimit ↔ IsSigned (.ofNat n) := by
  simp only [IsSigned, Int.ofNat_eq_natCast]
  omega

/-- The number `n` steps below `-1` is a signed quantity when `n` is below the limit. -/
theorem isSigned_negSucc_iff {n : Nat} : n < signedLimit ↔ IsSigned (.negSucc n) := by
  simp only [IsSigned]
  omega

/-- The test goes by the magnitude, so nothing counts up to the limit when it is evaluated. -/
instance : DecidablePred IsSigned
  | .ofNat _ => decidable_of_iff _ isSigned_ofNat_iff
  | .negSucc _ => decidable_of_iff _ isSigned_negSucc_iff

/-- An integer as a signed 64-bit quantity; one that does not fit is an overflow. -/
def signed (x : Int) : Except Fault Int :=
  if IsSigned x then .ok x else .error .overflow

/-- The magnitude of an integer, which has to be a signed 64-bit quantity as well. That of the
least one is an overflow. -/
def magnitude (x : Int) : Except Fault Nat :=
  if x.natAbs < signedLimit then .ok x.natAbs else .error .overflow

/-- Integers of a magnitude below the limit are signed quantities. -/
theorem isSigned_of_natAbs_lt {x : Int} (h : x.natAbs < signedLimit) : IsSigned x :=
  ⟨by omega, by omega⟩

/-- Such integers fit. -/
theorem signed_of_natAbs_lt {x : Int} (h : x.natAbs < signedLimit) : signed x = .ok x :=
  if_pos (isSigned_of_natAbs_lt h)

/-- Such integers have a magnitude. -/
theorem magnitude_of_natAbs_lt {x : Int} (h : x.natAbs < signedLimit) :
    magnitude x = .ok x.natAbs := if_pos h

/-- What goes on with an integer that fits, goes on with that integer only. -/
theorem signed_bind_congr {α : Type} {x : Int} {next next' : Int → Except Fault α}
    (h : next x = next' x) : (signed x >>= next) = (signed x >>= next') := by
  unfold signed
  split
  · exact h
  · rfl

/-- What fits stays what it is, and integers of a magnitude below the limit fit. -/
theorem signed_delivers {p : Prop} {x : Int} (h : p → x.natAbs < signedLimit) :
    Delivers p (signed x) (· = x) where
  returns hp := ⟨x, signed_of_natAbs_lt (h hp)⟩
  right y hy := by
    unfold signed at hy
    split at hy
    · exact (Except.ok.inj hy).symm
    · exact nomatch hy

/-- The same of magnitudes. -/
theorem magnitude_delivers {p : Prop} {x : Int} (h : p → x.natAbs < signedLimit) :
    Delivers p (magnitude x) (· = x.natAbs) where
  returns hp := ⟨x.natAbs, magnitude_of_natAbs_lt (h hp)⟩
  right n hn := by
    unfold magnitude at hn
    split at hn
    · exact (Except.ok.inj hn).symm
    · exact nomatch hn

end Word

end EditGraph
