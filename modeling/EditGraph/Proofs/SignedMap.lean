import EditGraph.Proofs.TwoRuns
import Mathlib.Logic.Function.Basic

/-!
# Diagonal vectors are maps

The array behind a diagonal vector and the shift by the bias never show. To whoever reads it and
writes it, keeps copies of it and goes back to them, a vector is a map from the diagonals within
its bias to their values, at first zero everywhere, that turns down all other diagonals. Both are
given the same operations here, in any order and any number, and give the same answers.

Operations that break off change nothing, and those behind them are answered, too. Copies are kept
under numbers; under a number that nothing has been saved under there is the vector as it was made.

A vector is made when its values fit into memory. The sizes on the way there are quantities of
their own, each of which could leave the 64-bit range; that none does, and that no sum of a
diagonal and the bias does, follows from this one test.

## Main definitions

* `Operation`, `Store.serve` — what is asked of a store of values on diagonals, and its answers.
* `Diagonals.mapStore` — a map as such a store.
* `Diagonals.checkedSize` — the size of a vector's array, with a test of each quantity.
* `Diagonals.Tells` — the vector has the values of a map.

## Main results

* `Store.Simulates.serve` — stores that read and write alike answer alike.
* `Tells.get_eq`, `Tells.set_alike` — a vector is read and written like its map.
* `vectors_are_maps` — a vector and its map, from their making on.
-/

namespace EditGraph

/-! ### Stores -/

/-- What can be asked of a store of values on diagonals. -/
inductive Operation where
  | read (k : ℤ)
  | write (k x : ℤ)
  | save (name : ℕ)
  | restore (name : ℕ)

/-- The state of a store, and the copies that have been made of it. -/
structure Versions (σ : Type) where
  current : σ
  copies : ℕ → σ

/-- A store just made, and nothing else to go back to. -/
def Versions.fresh {σ : Type} (x : σ) : Versions σ := ⟨x, fun _ => x⟩

namespace Store

variable {σ τ : Type}

/-- The answer to an operation, and the versions after it. Only a read answers with a value. -/
def answer (a : Store σ) (s : Versions σ) : Operation → Except Fault (Option ℤ) × Versions σ
  | .read k => (some <$> a.get s.current k, s)
  | .write k x =>
    match a.set s.current k x with
    | .ok next => (.ok none, { s with current := next })
    | .error fault => (.error fault, s)
  | .save name => (.ok none, { s with copies := Function.update s.copies name s.current })
  | .restore name => (.ok none, { s with current := s.copies name })

/-- The answers to operations, one after the other, and the versions after all of them. -/
def serve (a : Store σ) (s : Versions σ) :
    List Operation → List (Except Fault (Option ℤ)) × Versions σ
  | [] => ([], s)
  | operation :: rest =>
    let served := a.serve (a.answer s operation).2 rest
    ((a.answer s operation).1 :: served.1, served.2)

variable {a : Store σ} {b : Store τ} {s : Versions σ} {t : Versions τ}

/-- Serving operations and then more is serving them all. -/
theorem serve_append (l l' : List Operation) :
    (a.serve s (l ++ l')).2 = (a.serve (a.serve s l).2 l').2 := by
  induction l generalizing s with
  | nil => rfl
  | cons operation rest ih => exact ih

/-- A copy stays until another one is saved under its number. -/
theorem copies_serve {name : ℕ} {l : List Operation} (hl : .save name ∉ l) :
    (a.serve s l).2.copies name = s.copies name := by
  induction l generalizing s with
  | nil => rfl
  | cons operation rest ih =>
      rw [List.mem_cons, not_or] at hl
      refine (ih hl.2).trans ?_
      cases operation with
      | read k => rfl
      | write k x =>
          rw [answer]
          cases a.set s.current k x <;> rfl
      | save other =>
          have hne : name ≠ other := fun h => hl.1 (by rw [h])
          exact Function.update_of_ne hne _ _
      | restore other => rfl

/-- **Going back to a copy** brings back the whole state that was saved. -/
theorem current_serve_restore {name : ℕ} {l : List Operation} (hl : .save name ∉ l) :
    (a.serve s (.save name :: l ++ [.restore name])).2.current = s.current := by
  rw [List.cons_append, serve, serve_append]
  exact (copies_serve hl).trans (Function.update_self _ _ _)

/-- Both states are related, and so are all copies. -/
structure Related (R : σ → τ → Prop) (s : Versions σ) (t : Versions τ) : Prop where
  current : R s.current t.current
  copies (name : ℕ) : R (s.copies name) (t.copies name)

/-- Two first versions are related when what they hold is. -/
theorem Related.fresh {R : σ → τ → Prop} {x : σ} {y : τ} (h : R x y) :
    Related R (.fresh x) (.fresh y) := ⟨h, fun _ => h⟩

/-- The stores are read alike in related states, and written alike. -/
structure Simulates (R : σ → τ → Prop) (a : Store σ) (b : Store τ) : Prop where
  get {x : σ} {y : τ} (k : ℤ) : R x y → a.get x k = b.get y k
  set {x : σ} {y : τ} (k z : ℤ) : R x y → Alike R (a.set x k z) (b.set y k z)

/-- **One operation** gets the same answer from both stores and leaves them related. -/
theorem Simulates.answer {R : σ → τ → Prop} (h : Simulates R a b) (hs : Related R s t)
    (operation : Operation) :
    (a.answer s operation).1 = (b.answer t operation).1 ∧
      Related R (a.answer s operation).2 (b.answer t operation).2 := by
  cases operation with
  | read k => exact ⟨congrArg (some <$> ·) (h.get k hs.current), hs⟩
  | write k x =>
      have hset := h.set k x hs.current
      rw [Store.answer, Store.answer]
      generalize a.set s.current k x = next, b.set t.current k x = next' at hset
      match next, next', hset with
      | .ok u, .ok v, hset => exact ⟨rfl, hset, hs.copies⟩
      | .error fault, .error _, rfl => exact ⟨rfl, hs⟩
  | save name =>
      refine ⟨rfl, hs.current, fun other => ?_⟩
      by_cases hname : other = name
      · subst hname
        simp only [Store.answer, Function.update_self]
        exact hs.current
      · simp only [Store.answer, Function.update_of_ne hname]
        exact hs.copies other
  | restore name => exact ⟨rfl, hs.copies name, hs.copies⟩

/-- **All operations** get the same answers. -/
theorem Simulates.serve {R : σ → τ → Prop} (h : Simulates R a b) (hs : Related R s t)
    (l : List Operation) :
    (a.serve s l).1 = (b.serve t l).1 ∧ Related R (a.serve s l).2 (b.serve t l).2 := by
  induction l generalizing s t with
  | nil => exact ⟨rfl, hs⟩
  | cons operation rest ih =>
      obtain ⟨hanswer, hnext⟩ := h.answer hs operation
      obtain ⟨hanswers, hlast⟩ := ih hnext
      exact ⟨congrArg₂ List.cons hanswer hanswers, hlast⟩

end Store

/-! ### Vectors and maps -/

namespace Diagonals

/-- A map can only be read and written on the diagonals within the bias. -/
def accept (bias : ℕ) (k : ℤ) : Except Fault Unit :=
  if k = leastDiagonal then .error .overflow
  else if k.natAbs ≤ bias then .ok ()
  else .error (.diagonal k bias)

/-- A map from diagonals to values as a store. -/
def mapStore (bias : ℕ) : Store (ℤ → ℤ) where
  get f k := do
    accept bias k
    return f k
  set f k x := do
    accept bias k
    return Function.update f k x

/-- The size of the array for lengths `n` and `m`, one 64-bit quantity after the other. -/
def checkedSize (n m : ℕ) : Except Fault ℕ := do
  let sum ← Word.fit (n + m)
  let double ← Word.fit (2 * sum)
  let bias ← Word.fit (double + 2)
  let width ← Word.fit (2 * bias)
  let size ← Word.fit (width + 1)
  if 8 * size < memoryLimit then return size else throw .capacity

variable {n m bias : ℕ} {k x : ℤ} {v w : Diagonals} {f : ℤ → ℤ}

/-- The vector has the values of the map, on the diagonals within the bias. -/
structure Tells (bias : ℕ) (v : Diagonals) (f : ℤ → ℤ) : Prop where
  bias_eq : v.bias = bias
  get (k : ℤ) : k ≠ leastDiagonal → k.natAbs ≤ bias → v.get k = .ok (f k)

/-- A diagonal inside the bias is accepted. -/
theorem accept_eq_ok (hleast : k ≠ leastDiagonal) (hk : k.natAbs ≤ bias) :
    accept bias k = .ok () := by
  rw [accept, if_neg hleast, if_pos hk]

/-- **A vector turns down the diagonals beyond its bias**, for the reason for which a map does. -/
theorem exists_refusal (h : v.bias < k.natAbs ∨ k = leastDiagonal) :
    ∃ fault, accept v.bias k = .error fault ∧ v.get k = .error fault ∧
      ∀ x, v.set k x = .error fault := by
  -- the least number has a fault of its own, whatever the bias is
  by_cases hleast : k = leastDiagonal
  · have hslot : v.slot k = .error .overflow := if_pos hleast
    refine ⟨.overflow, if_pos hleast, ?_, fun x => ?_⟩
    · rw [Diagonals.get, hslot, error_bind]
    · rw [Diagonals.set, hslot, error_bind]
  · have hk : ¬ k.natAbs ≤ v.bias := by omega
    have hslot : v.slot k = .error (.diagonal k v.bias) := by
      rw [slot, if_neg hleast, dif_neg hk]
    refine ⟨.diagonal k v.bias, ?_, ?_, fun x => ?_⟩
    · rw [accept, if_neg hleast, if_neg hk]
    · rw [Diagonals.get, hslot, error_bind]
    · rw [Diagonals.set, hslot, error_bind]

/-- **A vector is read like its map.** -/
theorem Tells.get_eq (h : Tells bias v f) (k : ℤ) : v.get k = (mapStore bias).get f k := by
  obtain ⟨rfl, hget⟩ := h
  simp only [mapStore]
  by_cases hout : v.bias < k.natAbs ∨ k = leastDiagonal
  · obtain ⟨fault, haccept, hread, -⟩ := exists_refusal hout
    rw [haccept, hread, error_bind]
  · rw [not_or, not_lt] at hout
    rw [hget k hout.2 hout.1, accept_eq_ok hout.2 hout.1]
    rfl

/-- **A vector is written like its map.** -/
theorem Tells.set_alike (h : Tells bias v f) (k x : ℤ) :
    Alike (Tells bias) (v.set k x) ((mapStore bias).set f k x) := by
  obtain ⟨rfl, hget⟩ := h
  simp only [mapStore]
  by_cases hout : v.bias < k.natAbs ∨ k = leastDiagonal
  · obtain ⟨fault, haccept, -, hwrite⟩ := exists_refusal hout
    rw [haccept, hwrite, error_bind]
    rfl
  · rw [not_or, not_lt] at hout
    obtain ⟨w, hw⟩ := exists_set x hout.1 hout.2
    rw [hw, accept_eq_ok hout.2 hout.1]
    refine ⟨bias_set hw, fun j hj hjb => ?_⟩
    by_cases hjk : j = k
    · rw [hjk, get_set_self hw, Function.update_self]
    · rw [get_set_of_ne hw hjk, Function.update_of_ne hjk, hget j hj hjb]

/-- **The vector does what the map does**, operation by operation. -/
theorem simulates_store : Store.Simulates (Tells bias) store (mapStore bias) where
  get k h := h.get_eq k
  set k x h := h.set_alike k x

/-! ### New vectors -/

/-- A new vector is zero everywhere. -/
theorem tells_create (h : create n m = .ok v) : Tells (biasFor n m) v fun _ => 0 := by
  rw [create, if_pos (fits_iff.mp (fits_of_create h))] at h
  obtain rfl := Except.ok.inj h
  refine ⟨rfl, fun k hleast hk => ?_⟩
  rw [Diagonals.get, slot_of_le hk hleast]
  simp [pure, Except.pure]

/-- **When the values fit into memory**, so does every quantity on the way to their size. -/
theorem checkedSize_eq_ok (h : Fits n m) : checkedSize n m = .ok (2 * biasFor n m + 1) := by
  have h := fits_iff.mp h
  simp only [bytes, biasFor, memoryLimit] at h
  have hfit (q : ℕ) (hq : q ≤ 4 * (n + m) + 5) : Word.fit q = .ok q :=
    Word.fit_of_lt (by rw [Word.limit]; omega)
  unfold checkedSize
  rw [hfit _ (by omega), ok_bind, hfit _ (by omega), ok_bind, hfit _ (by omega), ok_bind,
    hfit _ (by omega), ok_bind, hfit _ (by omega), ok_bind, if_pos (by rw [memoryLimit]; omega)]
  rfl

/-- A size that passes all tests is that of values that fit into memory. -/
theorem fits_of_checkedSize {size : ℕ} (h : checkedSize n m = .ok size) : Fits n m := by
  obtain ⟨_, hsum, h⟩ := exists_of_bind_eq_ok h
  obtain ⟨_, hdouble, h⟩ := exists_of_bind_eq_ok h
  obtain ⟨_, hbias, h⟩ := exists_of_bind_eq_ok h
  obtain ⟨_, hwidth, h⟩ := exists_of_bind_eq_ok h
  obtain ⟨_, hsize, h⟩ := exists_of_bind_eq_ok h
  obtain ⟨-, rfl⟩ := Word.fit_eq_ok_iff.mp hsum
  obtain ⟨-, rfl⟩ := Word.fit_eq_ok_iff.mp hdouble
  obtain ⟨-, rfl⟩ := Word.fit_eq_ok_iff.mp hbias
  obtain ⟨-, rfl⟩ := Word.fit_eq_ok_iff.mp hwidth
  obtain ⟨-, rfl⟩ := Word.fit_eq_ok_iff.mp hsize
  split at h
  · next hbytes => exact fits_iff.mpr hbytes
  · exact nomatch h

/-- What can be done with a vector at any moment, and what a write does to it. -/
structure Accessible (bias : ℕ) (v : Diagonals) : Prop where
  read (k : ℤ) : (∃ fault, v.get k = .error fault) ↔ bias < k.natAbs ∨ k = leastDiagonal
  write (k x : ℤ) : (∃ fault, v.set k x = .error fault) ↔ bias < k.natAbs ∨ k = leastDiagonal
  written (k x : ℤ) (w : Diagonals) :
    v.set k x = .ok w → w.get k = .ok x ∧ ∀ j, j ≠ k → w.get j = v.get j

/-- Every vector has its diagonals, and no others. -/
theorem accessible (v : Diagonals) : Accessible v.bias v where
  read k := by
    constructor
    · rintro ⟨fault, hfault⟩
      by_contra hin
      rw [not_or, not_lt] at hin
      rw [Diagonals.get, slot_of_le hin.1 hin.2] at hfault
      cases hfault
    · intro hout
      obtain ⟨fault, -, hread, -⟩ := exists_refusal hout
      exact ⟨fault, hread⟩
  write k x := by
    constructor
    · rintro ⟨fault, hfault⟩
      by_contra hin
      rw [not_or, not_lt] at hin
      obtain ⟨w, hw⟩ := exists_set x hin.1 hin.2
      rw [hw] at hfault
      cases hfault
    · intro hout
      obtain ⟨fault, -, -, hwrite⟩ := exists_refusal hout
      exact ⟨fault, hwrite x⟩
  written k x w hw := ⟨get_set_self hw, fun j hj => get_set_of_ne hw hj⟩

/-- **A diagonal vector is a map** from the diagonals within its bias to their values. It is made
just when none of the quantities on the way to its size leaves the 64-bit range and its values fit
into memory. The bias is a signed 64-bit quantity, and so is its sum with any diagonal within the
bias, for which there is a place and, at first, the value zero.

Reads, writes, saved copies and returns to them are answered as by the map, whatever came before.
At every moment an access breaks off just on the diagonals beyond the bias, of which the least
64-bit number is one; a write changes the value on its diagonal and on no other; and going back to
a copy brings back the vector as it was when the copy was saved. -/
theorem vectors_are_maps (n m : ℕ) :
    ((∃ v, create n m = .ok v) ↔ ∃ size, checkedSize n m = .ok size) ∧
      ∀ v, create n m = .ok v →
        v.bias = 2 * (n + m) + 2 ∧ v.bias < memoryLimit ∧ checkedSize n m = .ok v.values.size ∧
        (∀ k : ℤ, k.natAbs ≤ v.bias → k ≠ leastDiagonal ∧ 0 ≤ k + v.bias ∧
          k + v.bias < memoryLimit ∧ (k + v.bias).toNat < v.values.size ∧ v.get k = .ok 0) ∧
        ∀ l : List Operation,
          (store.serve (.fresh v) l).1 = ((mapStore v.bias).serve (.fresh fun _ => 0) l).1 ∧
          Accessible v.bias (store.serve (.fresh v) l).2.current ∧
          ∀ name l', .save name ∉ l' →
            (store.serve (.fresh v) (l ++ (.save name :: l' ++ [.restore name]))).2.current =
              (store.serve (.fresh v) l).2.current := by
  refine ⟨⟨fun ⟨v, hv⟩ => ?_, fun ⟨size, hsize⟩ => ?_⟩, fun v hv => ?_⟩
  · exact ⟨_, checkedSize_eq_ok (fits_of_create hv)⟩
  · obtain ⟨v, hv, -⟩ := exists_create (fits_of_checkedSize hsize)
    exact ⟨v, hv⟩
  have htells := tells_create hv
  have hbias := htells.bias_eq
  have hfits := fits_of_create hv
  have hlimit : 2 * v.bias < memoryLimit := by
    have hbytes := fits_iff.mp hfits
    simp only [hbias, bytes, memoryLimit] at hbytes ⊢
    omega
  have hsize := v.sizeEq
  refine ⟨hbias, by omega, ?_, fun k hk => ?_, fun l => ?_⟩
  · rw [hsize, hbias]
    exact checkedSize_eq_ok hfits
  · have hleast : k ≠ leastDiagonal := by
      simp only [leastDiagonal, memoryLimit] at hlimit ⊢
      omega
    exact ⟨hleast, by omega, by omega, by omega, htells.get k hleast (by rwa [← hbias])⟩
  · rw [← hbias] at htells
    obtain ⟨hanswers, hlast⟩ := simulates_store.serve (.fresh htells) l
    refine ⟨hanswers, ?_, fun name l' hl' => ?_⟩
    · have haccess := accessible (store.serve (.fresh v) l).2.current
      rwa [hlast.current.bias_eq] at haccess
    · rw [Store.serve_append, Store.current_serve_restore hl']

/-- The outermost diagonal is written, saved and written again; the one behind it is not read. -/
theorem vectors_are_maps_outermost :
    ∃ v, create 2 1 = .ok v ∧
      (store.serve (.fresh v)
          [.write 8 7, .save 0, .write 8 5, .read 9, .restore 0, .read 8, .read (-8)]).1 =
        [.ok none, .ok none, .ok none, .error (.diagonal 9 8), .ok none, .ok (some 7),
          .ok (some 0)] := by
  obtain ⟨hmade, hmap⟩ := vectors_are_maps 2 1
  obtain ⟨v, hv⟩ := hmade.mpr ⟨_, checkedSize_eq_ok (by decide)⟩
  obtain ⟨hbias, -, -, -, hserve⟩ := hmap v hv
  refine ⟨v, hv, ?_⟩
  rw [(hserve _).1, hbias]
  rfl

end Diagonals

end EditGraph
