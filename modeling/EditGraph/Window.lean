import EditGraph.Fault

/-!
# Windows

A window is a stretch of a backing sequence, given by its offset and length, so that
narrowing one copies no elements. Positions in a window count from one, as the rows and
columns of an edit graph do: position `i` of a window is position `offset + i` of the
backing sequence.

## Main definitions

* `Window` — the stretch, which lies inside its backing sequence by construction.
* `Window.narrow` — a window inside a window.
* `Window.get` — the element at a position.
* `Window.absolute` — a position counted in the backing sequence.
* `Window.items` — the elements, in order.

## Main results

* `Window.get_eq_ok_iff`, `Window.entry_eq_ok_iff` — which positions have an element.
* `Window.exists_narrow`, `Window.narrow_eq_ok_iff` — which windows a window contains.
-/

namespace EditGraph

/-- `length` consecutive elements of `backing`, the first `offset` of it left out. -/
@[ext]
structure Window (α : Type) where
  /-- The sequence looked at. -/
  backing : Array α
  /-- How many elements of `backing` precede the window. -/
  offset : Nat
  /-- How many elements the window has. -/
  length : Nat
  /-- The window ends no later than its backing sequence. -/
  inBounds : offset + length ≤ backing.size

namespace Window

variable {α : Type}

/-- The window over a whole sequence. -/
def full (backing : Array α) : Window α where
  backing
  offset := 0
  length := backing.size
  inBounds := by omega

/-- The window on the `count` elements from position `start` on. A window on no elements
may start one past the end. The position where it starts, counted in the backing sequence from
one, has to be a 64-bit quantity, too. -/
def narrow (w : Window α) (start count : Nat) : Except Fault (Window α) :=
  if start = 0 then .error .windowOrigin
  else if Word.limit ≤ start - 1 + count then .error .overflow
  else if h : start - 1 + count ≤ w.length then
    if Word.limit ≤ w.offset + start then .error .overflow
    else .ok {
      backing := w.backing
      offset := w.offset + (start - 1)
      length := count
      inBounds := by have := w.inBounds; omega }
  else .error .windowRange

/-- The element at position `i`, the first one being at position one. -/
def get (w : Window α) (i : Nat) : Except Fault α :=
  if h : 1 ≤ i ∧ i ≤ w.length then
    have within : w.offset + (i - 1) < w.backing.size := by have := w.inBounds; omega
    .ok w.backing[w.offset + (i - 1)]
  else .error (.windowIndex w.length i)

/-- The element at a signed position, of which only the positive ones exist. -/
def entry (w : Window α) : Int → Except Fault α
  | .ofNat i => w.get i
  | .negSucc _ => .error .overflow

/-- Position `i` of the window, counted in the backing sequence from one. -/
def absolute (w : Window α) (i : Nat) : Except Fault Nat :=
  Word.fit (w.offset + i)

/-- The elements of the window. -/
def items (w : Window α) : Array α :=
  w.backing.extract w.offset (w.offset + w.length)

/-- A window on no elements. -/
def isEmpty (w : Window α) : Bool := w.length == 0

/-- The window over a whole sequence is as long as the sequence. -/
@[simp] theorem length_full (backing : Array α) : (full backing).length = backing.size := rfl

/-- A window has as many elements as it says. -/
@[simp] theorem size_items (w : Window α) : w.items.size = w.length := by
  have := w.inBounds
  simp only [items, Array.size_extract]
  omega

/-! ### What can be looked up and narrowed -/

/-- An element is found at the positions of the window, and is that of the backing sequence. -/
theorem get_eq_ok_iff {w : Window α} {i : Nat} {a : α} :
    w.get i = .ok a ↔ 1 ≤ i ∧ i ≤ w.length ∧ w.backing[w.offset + i - 1]? = some a := by
  by_cases h : 1 ≤ i ∧ i ≤ w.length
  · have within : w.offset + i - 1 < w.backing.size := by have := w.inBounds; omega
    have place : w.offset + (i - 1) = w.offset + i - 1 := by omega
    simp [get, h, within, place]
  · rw [get, dif_neg h]
    constructor
    · exact nofun
    · rintro ⟨h1, h2, -⟩
      exact absurd ⟨h1, h2⟩ h

/-- The same of a signed position. -/
theorem entry_eq_ok_iff {w : Window α} {x : Int} {a : α} :
    w.entry x = .ok a ↔
      1 ≤ x ∧ x ≤ w.length ∧ w.backing[(w.offset + x - 1).toNat]? = some a := by
  cases x with
  | ofNat i =>
      have place : ((w.offset : Int) + Int.ofNat i - 1).toNat = w.offset + i - 1 := by
        simp only [Int.ofNat_eq_natCast]
        omega
      have h1 : 1 ≤ Int.ofNat i ↔ 1 ≤ i := by simp only [Int.ofNat_eq_natCast]; omega
      have h2 : Int.ofNat i ≤ w.length ↔ i ≤ w.length := by
        simp only [Int.ofNat_eq_natCast]; omega
      rw [place, h1, h2]
      exact get_eq_ok_iff
  | negSucc i =>
      constructor
      · exact nofun
      · rintro ⟨h, -, -⟩
        omega

/-- Every position of the window has an element. -/
theorem exists_entry {w : Window α} {x : Int} (h1 : 1 ≤ x) (h2 : x ≤ w.length) :
    ∃ a, w.entry x = .ok a := by
  have within : (w.offset + x - 1).toNat < w.backing.size := by have := w.inBounds; omega
  exact ⟨w.backing[(w.offset + x - 1).toNat], entry_eq_ok_iff.mpr ⟨h1, h2, by simp⟩⟩

/-- A window can be narrowed to any positions it has, if the first of them is a 64-bit quantity in
the backing sequence. -/
theorem exists_narrow (w : Window α) (start count : Nat) (h1 : 1 ≤ start)
    (h2 : start - 1 + count ≤ w.length) (hsize : w.backing.size < Word.limit)
    (hplace : w.offset + start < Word.limit) :
    ∃ w', w.narrow start count = .ok w' ∧ w'.backing = w.backing ∧
      w'.offset = w.offset + (start - 1) ∧ w'.length = count := by
  have := w.inBounds
  rw [narrow, if_neg (by omega), if_neg (by omega), dif_pos h2, if_neg (by omega)]
  exact ⟨_, rfl, rfl, rfl, rfl⟩

/-- **Which narrowings succeed**, and what with. The positions asked for are among those of the
window, and the two sums that narrowing makes are 64-bit quantities. -/
theorem narrow_eq_ok_iff {w w' : Window α} {start count : Nat} :
    w.narrow start count = .ok w' ↔
      (1 ≤ start ∧ start - 1 + count ≤ w.length) ∧
        (start - 1 + count < Word.limit ∧ w.offset + start < Word.limit) ∧
        w'.backing = w.backing ∧ w'.offset = w.offset + (start - 1) ∧ w'.length = count := by
  by_cases hstart : start = 0
  · rw [narrow, if_pos hstart]
    exact ⟨nofun, fun h => by omega⟩
  by_cases hsum : Word.limit ≤ start - 1 + count
  · rw [narrow, if_neg hstart, if_pos hsum]
    exact ⟨nofun, fun h => by omega⟩
  by_cases hcount : start - 1 + count ≤ w.length
  · by_cases hoffset : Word.limit ≤ w.offset + start
    · rw [narrow, if_neg hstart, if_neg hsum, dif_pos hcount, if_pos hoffset]
      exact ⟨nofun, fun h => by omega⟩
    · rw [narrow, if_neg hstart, if_neg hsum, dif_pos hcount, if_neg hoffset]
      constructor
      · intro h
        obtain rfl := Except.ok.inj h
        exact ⟨⟨by omega, hcount⟩, ⟨by omega, by omega⟩, rfl, rfl, rfl⟩
      · rintro ⟨-, -, hbacking, hplace, hlength⟩
        exact congrArg _ (Window.ext hbacking.symm hplace.symm hlength.symm)
  · rw [narrow, if_neg hstart, if_neg hsum, dif_neg hcount]
    exact ⟨nofun, fun h => absurd h.1.2 hcount⟩

end Window

end EditGraph
