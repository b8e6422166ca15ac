import EditGraph.Fault

/-!
# Diagonal vectors

A search of the edit graph keeps one number per diagonal, the column that its furthest path
there has reached. Diagonals are signed, so a diagonal vector stores the values of
`-bias, …, bias` in one array, shifted by the bias. It is sized once, from the lengths of
the two sequences, and never grows.

Forward searches stay within `±(n + m + 1)`. Backward searches are shifted by the diagonal
`n - m` of the far corner on top of that, so a bias of `2 * (n + m) + 2` serves both.

## Main definitions

* `Diagonals` — the vector, of the size its bias demands by construction.
* `Diagonals.create` — the vector for two lengths, zero on every diagonal.
* `Diagonals.get`, `Diagonals.set` — the value on a diagonal, and its replacement.
* `Store`, `Diagonals.store` — how a search reads and writes, and the vectors as they are.
* `Diagonals.Fits` — the vectors for two lengths fit into memory.

## Main results

* `Diagonals.get_set_self`, `Diagonals.get_set_of_ne` — a write changes one diagonal.
-/

namespace EditGraph

/-- One value for every diagonal from `-bias` to `bias`. -/
structure Diagonals where
  /-- The outermost diagonal. -/
  bias : Nat
  /-- The values, that of diagonal `-bias` first. -/
  values : Array Int
  /-- There is a value for each diagonal. -/
  sizeEq : values.size = 2 * bias + 1

namespace Diagonals

/-- The bias that serves every search on sequences of lengths `n` and `m`. -/
def biasFor (n m : Nat) : Nat := 2 * (n + m) + 2

/-- The bytes that the values of a vector with the given bias take. -/
def bytes (bias : Nat) : Nat := 8 * (2 * bias + 1)

/-- The first number of bytes that no block of memory has, `2 ^ 63`. -/
def memoryLimit : Nat := 9223372036854775808

/-- The vector for sequences of lengths `n` and `m`, zero everywhere. When its values fit into
memory, every smaller quantity on the way to their size fits into 64 bits as well, so this is
the only test. -/
def create (n m : Nat) : Except Fault Diagonals :=
  if bytes (biasFor n m) < memoryLimit then
    .ok {
      bias := biasFor n m
      values := Array.replicate (2 * biasFor n m + 1) 0
      sizeEq := by simp }
  else .error .capacity

/-- The least signed 64-bit number, `-2 ^ 63`. -/
def leastDiagonal : Int := -9223372036854775808

/-- Where diagonal `k` is stored. The magnitude of the least number has no place among the
signed ones, so for it the test against the bias overflows. -/
def slot (v : Diagonals) (k : Int) : Except Fault (Fin v.values.size) :=
  if k = leastDiagonal then .error .overflow
  else if h : k.natAbs ≤ v.bias then
    .ok ⟨(k + v.bias).toNat, by have := v.sizeEq; omega⟩
  else .error (.diagonal k v.bias)

/-- The value on diagonal `k`. -/
def get (v : Diagonals) (k : Int) : Except Fault Int := do
  let i ← v.slot k
  return v.values[i]

/-- The vector with `x` as the value on diagonal `k`. -/
def set (v : Diagonals) (k x : Int) : Except Fault Diagonals := do
  let i ← v.slot k
  return { bias := v.bias, values := v.values.set i x, sizeEq := by simp [v.sizeEq] }

end Diagonals

/-- How a search reads the values on diagonals that it is given, and how it writes them. -/
structure Store (σ : Type) where
  /-- The value on a diagonal. -/
  get : σ → Int → Except Fault Int
  /-- What there is after a value was put on a diagonal. -/
  set : σ → Int → Int → Except Fault σ

namespace Diagonals

/-- A vector is read and written as a store. -/
def store : Store Diagonals := ⟨get, set⟩

/-! ### Vectors that fit into memory -/

/-- The vectors for sequences of lengths `n` and `m` fit into memory: their `4 * (n + m) + 5`
values of eight bytes each have a size that a block of memory can have. -/
def Fits (n m : Nat) : Prop := 8 * (4 * (n + m) + 5) < memoryLimit

instance (n m : Nat) : Decidable (Fits n m) := inferInstanceAs (Decidable (_ < _))

/-- The bound is the test that making a vector does. -/
theorem fits_iff {n m : Nat} : Fits n m ↔ bytes (biasFor n m) < memoryLimit := by
  simp only [Fits, bytes, biasFor, memoryLimit]
  omega

/-- The vector for lengths whose values fit into memory. -/
theorem exists_create {n m : Nat} (h : Fits n m) :
    ∃ v, create n m = .ok v ∧ v.bias = biasFor n m := ⟨_, if_pos (fits_iff.mp h), rfl⟩

/-- No vector is made for other lengths. -/
theorem create_eq_error {n m : Nat} (h : ¬ Fits n m) : create n m = .error .capacity :=
  if_neg (mt fits_iff.mpr h)

/-- Vectors are made for such lengths only. -/
theorem fits_of_create {n m : Nat} {v : Diagonals} (h : create n m = .ok v) : Fits n m := by
  by_cases hfits : Fits n m
  · exact hfits
  · rw [create_eq_error hfits] at h
    exact nomatch h

/-- Vectors for fewer elements in all fit, too. -/
theorem Fits.mono {n m n' m' : Nat} (h : Fits n m) (hle : n' + m' ≤ n + m) : Fits n' m' := by
  simp only [Fits] at h ⊢
  omega

/-- The lengths of such sequences are far from the end of the 64-bit range. -/
theorem Fits.sum_lt {n m : Nat} (h : Fits n m) : n + m + 2 < Word.limit := by
  rw [Fits, memoryLimit] at h
  rw [Word.limit]
  omega

/-! ### Reading what was written -/

/-- The vector has a value for every diagonal from `-b` to `b`. -/
def Serves (v : Diagonals) (b : Nat) : Prop := b ≤ v.bias ∧ b < memoryLimit

/-- Serving diagonals is serving those between them. -/
theorem Serves.mono {v : Diagonals} {b c : Nat} (h : v.Serves c) (hle : b ≤ c) : v.Serves b :=
  ⟨Nat.le_trans hle h.1, Nat.lt_of_le_of_lt hle h.2⟩

/-- A diagonal that is served is within the bias and not the least number. -/
theorem Serves.within {v : Diagonals} {b : Nat} {k : Int} (h : v.Serves b) (hk : k.natAbs ≤ b) :
    k.natAbs ≤ v.bias ∧ k ≠ leastDiagonal := by
  obtain ⟨hbias, hlimit⟩ := h
  simp only [memoryLimit, leastDiagonal] at *
  omega

/-- Integers no further from zero than the diagonals that are served are signed quantities. -/
theorem Serves.natAbs_lt {v : Diagonals} {b : Nat} {x : Int} (h : v.Serves b)
    (hx : x.natAbs ≤ b) : x.natAbs < Word.signedLimit := Nat.lt_of_le_of_lt hx h.2

/-- A diagonal within the bias has a place, unless it is the least number. -/
theorem slot_of_le {v : Diagonals} {k : Int} (hk : k.natAbs ≤ v.bias)
    (hleast : k ≠ leastDiagonal) :
    v.slot k = .ok ⟨(k + v.bias).toNat, by have := v.sizeEq; omega⟩ := by
  rw [slot, if_neg hleast, dif_pos hk]

/-- Every diagonal within the bias can be written. -/
theorem exists_set {v : Diagonals} {k : Int} (x : Int) (hk : k.natAbs ≤ v.bias)
    (hleast : k ≠ leastDiagonal) : ∃ w, v.set k x = .ok w := by
  rw [set, slot_of_le hk hleast]
  exact ⟨_, rfl⟩

/-- Every diagonal that is served can be written. -/
theorem set_delivers {p : Prop} {v : Diagonals} {b : Nat} {k : Int} (x : Int)
    (h : p → v.Serves b ∧ k.natAbs ≤ b) : Delivers p (v.set k x) fun w => v.set k x = .ok w where
  returns hp := by
    obtain ⟨hin, hleast⟩ := (h hp).1.within (h hp).2
    exact exists_set x hin hleast
  right _ hw := hw

/-- What a successful write has done. -/
theorem set_eq_ok {v w : Diagonals} {k x : Int} (h : v.set k x = .ok w) :
    k ≠ leastDiagonal ∧ k.natAbs ≤ v.bias ∧ w.bias = v.bias ∧
      w.values = v.values.setIfInBounds (k + v.bias).toNat x := by
  by_cases hleast : k = leastDiagonal
  · rw [set, slot, if_pos hleast] at h
    exact nomatch h
  by_cases hk : k.natAbs ≤ v.bias
  · rw [set, slot_of_le hk hleast] at h
    obtain rfl := Except.ok.inj h
    have hin : (k + v.bias).toNat < v.values.size := by have := v.sizeEq; omega
    exact ⟨hleast, hk, rfl, by simp [Array.setIfInBounds, hin]⟩
  · rw [set, slot, if_neg hleast, dif_neg hk] at h
    exact nomatch h

/-- A write leaves the bias alone. -/
theorem bias_set {v w : Diagonals} {k x : Int} (h : v.set k x = .ok w) : w.bias = v.bias :=
  (set_eq_ok h).2.2.1

/-- A write leaves alone which diagonals are served. -/
theorem Serves.set {v w : Diagonals} {b : Nat} {k x : Int} (h : v.Serves b)
    (hset : v.set k x = .ok w) : w.Serves b := by
  rw [Serves, bias_set hset]
  exact h

/-- The value written is read again. -/
theorem get_set_self {v w : Diagonals} {k x : Int} (h : v.set k x = .ok w) :
    w.get k = .ok x := by
  obtain ⟨hleast, hk, hbias, hvalues⟩ := set_eq_ok h
  have hin : (k + v.bias).toNat < v.values.size := by have := v.sizeEq; omega
  rw [get, slot_of_le (by rwa [hbias]) hleast]
  simp [hbias, hvalues, pure, Except.pure]

/-- A write leaves all other diagonals alone. -/
theorem get_set_of_ne {v w : Diagonals} {j k x : Int} (h : v.set k x = .ok w) (hj : j ≠ k) :
    w.get j = v.get j := by
  obtain ⟨-, hk, hbias, hvalues⟩ := set_eq_ok h
  by_cases hleast : j = leastDiagonal
  · rw [get, get, slot, slot, if_pos hleast, if_pos hleast]
    rfl
  by_cases hin : j.natAbs ≤ v.bias
  · rw [get, get, slot_of_le (by rwa [hbias]) hleast, slot_of_le hin hleast]
    have hplace : (k + v.bias).toNat ≠ (j + v.bias).toNat := by omega
    simp only [ok_bind, pure, Except.pure, Fin.getElem_fin, hbias, hvalues]
    rw [Array.getElem_setIfInBounds_ne _ hplace]
  · rw [get, get, slot, slot, if_neg hleast, if_neg hleast, dif_neg hin, dif_neg (by rwa [hbias]),
      hbias]
    rfl

end Diagonals

end EditGraph
