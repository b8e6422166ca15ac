import EditGraph.Proofs.Replay

/-!
# Windows inside windows

Dividing a region narrows windows that have been narrowed before. Whatever chain of narrowings
a window comes from, it is a stretch of the sequence that the first window of the chain was made
over, and it could have been cut out of that sequence at once.

Two conditions on the numbers asked for decide whether a chain succeeds. Each link has to fit into
the length that the link before it has asked for, and the position where it starts, counted in the
backing sequence from one, has to be a 64-bit quantity. The second one follows from the first when
the backing sequence has fewer than `2 ^ 64 - 1` elements, since the position past its end is a
64-bit quantity then. Behind `2 ^ 64 - 1` elements, which a sequence of elements without a size can
have, that position is out of range: the empty window that may start there otherwise is turned
down. Numbers that no window could have are turned down also when their sum leaves the range.

## Main definitions

* `Window.narrowAll` — a chain of narrowings.
* `Window.Nested` — each link of a chain fits into the one before it.
* `Window.Placed` — each link of a chain starts at a 64-bit position.
* `Window.IsView` — what can be done with a window over a sequence.

## Main results

* `narrow_narrow` — a window inside a window is a window.
* `exists_narrowAll_iff`, `narrowAll_eq_ok` — which chains succeed, and with which window.
* `narrow_of_far` — which window a window has a place for, and cannot be narrowed to.
* `nested_windows_are_stretches` — what holds at the end of every chain.
* `narrow_overflows_past_longest` — a window that fits is turned down.
-/

namespace EditGraph

open EditScript (stretch)

namespace Window

variable {α : Type} {w w' u v : Window α} {start count : ℕ}

/-! ### Chains -/

/-- Narrows a window, then the window inside it, and so on. Each link of the chain is a start and
a count. -/
def narrowAll (w : Window α) (chain : List (ℕ × ℕ)) : Except Fault (Window α) :=
  chain.foldlM (fun w link => w.narrow link.1 link.2) w

/-- Each link of the chain, the first one in a window of the given length, begins at a position
and ends at one, or has no elements and begins one past the end. -/
def Nested : ℕ → List (ℕ × ℕ) → Prop
  | _, [] => True
  | length, link :: rest => (1 ≤ link.1 ∧ link.1 - 1 + link.2 ≤ length) ∧ Nested link.2 rest

/-- Each link of the chain, the first one in a window with `offset` elements left out before it,
starts at a position that is a 64-bit quantity when counted in the backing sequence. -/
def Placed : ℕ → List (ℕ × ℕ) → Prop
  | _, [] => True
  | offset, link :: rest => offset + link.1 < Word.limit ∧ Placed (offset + (link.1 - 1)) rest

/-- A chain of narrowings is its first link, and then the rest of it. -/
theorem narrowAll_cons (w : Window α) (link : ℕ × ℕ) (rest : List (ℕ × ℕ)) :
    w.narrowAll (link :: rest) = w.narrow link.1 link.2 >>= fun v => v.narrowAll rest :=
  List.foldlM_cons

/-- Links that fit into a window are placed when the position past its end is a 64-bit quantity. -/
theorem Nested.placed {chain : List (ℕ × ℕ)} {offset length : ℕ} (h : Nested length chain)
    (hend : offset + length + 1 < Word.limit) : Placed offset chain := by
  induction chain generalizing offset length with
  | nil => trivial
  | cons link rest ih =>
      obtain ⟨⟨hstart, hcount⟩, hrest⟩ := h
      exact ⟨by omega, ih hrest (by omega)⟩

/-- **A window has the windows at its positions**, and no others, as far as those positions are
64-bit quantities in the backing sequence. -/
theorem exists_narrow_iff (hsize : w.backing.size < Word.limit) :
    (∃ v, w.narrow start count = .ok v) ↔
      (1 ≤ start ∧ start - 1 + count ≤ w.length) ∧ w.offset + start < Word.limit := by
  have hinside := w.inBounds
  constructor
  · rintro ⟨v, hv⟩
    obtain ⟨hfits, ⟨-, hplace⟩, -⟩ := narrow_eq_ok_iff.mp hv
    exact ⟨hfits, hplace⟩
  · rintro ⟨⟨hstart, hcount⟩, hplace⟩
    obtain ⟨v, hv, -⟩ := w.exists_narrow start count hstart hcount hsize hplace
    exact ⟨v, hv⟩

/-- **The one window out of reach.** A window that fits and starts beyond the 64-bit range has no
elements, and starts behind the last of `2 ^ 64 - 1` elements. -/
theorem narrow_of_far (hsize : w.backing.size < Word.limit) (hstart : 1 ≤ start)
    (hcount : start - 1 + count ≤ w.length) (hfar : Word.limit ≤ w.offset + start) :
    w.narrow start count = .error .overflow ∧ count = 0 ∧ start = w.length + 1 ∧
      w.offset + w.length = w.backing.size ∧ w.backing.size + 1 = Word.limit := by
  have hinside := w.inBounds
  refine ⟨?_, by omega, by omega, by omega, by omega⟩
  rw [Window.narrow, if_neg (by omega), if_neg (by omega), dif_pos hcount, if_pos hfar]

/-- **A window inside a window is a window.** -/
theorem narrow_narrow {start' count' : ℕ} (h : w.narrow start count = .ok v)
    (h' : v.narrow start' count' = .ok u) : w.narrow (start + start' - 1) count' = .ok u := by
  obtain ⟨⟨hstart, hcount⟩, ⟨hsum, -⟩, hbacking, hoffset, hlength⟩ := narrow_eq_ok_iff.mp h
  obtain ⟨⟨hstart', hcount'⟩, ⟨-, hplace⟩, hbacking', hoffset', hlength'⟩ :=
    narrow_eq_ok_iff.mp h'
  -- what narrowing at once adds up is no more than what the two of them have added up
  refine narrow_eq_ok_iff.mpr ⟨⟨by omega, by omega⟩, ⟨by omega, by omega⟩,
    hbacking'.trans hbacking, by omega, hlength'⟩

/-- **Where a chain leads.** The window begins behind all that the links leave out, and has as many
elements as the last link has asked for. It ends no later than the first one. -/
theorem narrowAll_eq_ok {chain : List (ℕ × ℕ)} (h : w.narrowAll chain = .ok v) :
    v.backing = w.backing ∧ v.offset = w.offset + (chain.map fun link => link.1 - 1).sum ∧
      v.length = (chain.map Prod.snd).getLastD w.length ∧
      v.offset + v.length ≤ w.offset + w.length := by
  induction chain generalizing w with
  | nil =>
      obtain rfl := Except.ok.inj h
      exact ⟨rfl, rfl, rfl, le_rfl⟩
  | cons link rest ih =>
      rw [narrowAll_cons] at h
      obtain ⟨u, hu, hrest⟩ := exists_of_bind_eq_ok h
      obtain ⟨⟨-, hcount⟩, -, hbacking, hoffset, hlength⟩ := narrow_eq_ok_iff.mp hu
      obtain ⟨hbacking', hoffset', hlength', hend⟩ := ih hrest
      refine ⟨hbacking'.trans hbacking, ?_, ?_, by omega⟩
      · rw [hoffset', hoffset, List.map_cons, List.sum_cons, Nat.add_assoc]
      · rw [hlength', hlength, List.map_cons, List.getLastD_cons]

/-- **Which chains succeed**: those whose links are nested and placed. -/
theorem exists_narrowAll_iff {chain : List (ℕ × ℕ)} (hsize : w.backing.size < Word.limit) :
    (∃ v, w.narrowAll chain = .ok v) ↔ Nested w.length chain ∧ Placed w.offset chain := by
  induction chain generalizing w with
  | nil => exact ⟨fun _ => ⟨trivial, trivial⟩, fun _ => ⟨w, rfl⟩⟩
  | cons link rest ih =>
      rw [narrowAll_cons, Nested, Placed, and_and_and_comm, ← exists_narrow_iff hsize]
      cases hu : w.narrow link.1 link.2 with
      | error fault => exact ⟨nofun, nofun⟩
      | ok u =>
          obtain ⟨-, -, hbacking, hoffset, hlength⟩ := narrow_eq_ok_iff.mp hu
          rw [ok_bind, ih (by rwa [hbacking]), hlength, hoffset]
          exact ⟨fun hrest => ⟨⟨u, rfl⟩, hrest⟩, fun hall => hall.2⟩

/-- The window that a chain ends with begins at a 64-bit position if the first one does. -/
theorem offset_lt_of_narrowAll {chain : List (ℕ × ℕ)} (h : w.narrowAll chain = .ok v)
    (hplace : w.offset + 1 < Word.limit) : v.offset + 1 < Word.limit := by
  induction chain generalizing w with
  | nil =>
      obtain rfl := Except.ok.inj h
      exact hplace
  | cons link rest ih =>
      rw [narrowAll_cons] at h
      obtain ⟨u, hu, hrest⟩ := exists_of_bind_eq_ok h
      obtain ⟨⟨hstart, -⟩, ⟨-, hlink⟩, -, hoffset, -⟩ := narrow_eq_ok_iff.mp hu
      exact ih hrest (by omega)

/-- A chain that succeeds is no more than one narrowing. -/
theorem narrow_of_narrowAll {chain : List (ℕ × ℕ)} (hsize : w.backing.size < Word.limit)
    (hplace : w.offset + 1 < Word.limit) (h : w.narrowAll chain = .ok v) :
    w.narrow (v.offset - w.offset + 1) v.length = .ok v := by
  have hinside := w.inBounds
  have hoffset := offset_lt_of_narrowAll h hplace
  obtain ⟨hbacking, hsum, -, hend⟩ := narrowAll_eq_ok h
  exact narrow_eq_ok_iff.mpr
    ⟨⟨by omega, by omega⟩, ⟨by omega, by omega⟩, hbacking, by omega, rfl⟩

/-! ### What can be done with a window -/

/-- The window is a stretch of `backing`, and its positions are those that something can be done
with: elements are found there, and windows can be cut out there. -/
structure IsView (backing : Array α) (w : Window α) : Prop where
  backing_eq : w.backing = backing
  inside : w.offset + w.length ≤ backing.size
  /-- The elements are a range that the backing sequence has. -/
  range : stretch backing w.offset (w.offset + w.length) = .ok w.items
  items (i : ℕ) : i < w.length → w.items[i]? = backing[w.offset + i]?
  get (i : ℕ) : (∃ a, w.get i = .ok a) ↔ 1 ≤ i ∧ i ≤ w.length
  /-- An element is found at its absolute position in the backing sequence, too. -/
  absolute (i : ℕ) (a : α) :
    w.get i = .ok a → ∃ p, w.absolute i = .ok p ∧ (full backing).get p = .ok a
  narrow (start count : ℕ) :
    (∃ v, w.narrow start count = .ok v) ↔
      (1 ≤ start ∧ start - 1 + count ≤ w.length) ∧ w.offset + start < Word.limit
  /-- What fits and cannot be cut out is empty, and lies behind `2 ^ 64 - 1` elements. -/
  far (start count : ℕ) : 1 ≤ start → start - 1 + count ≤ w.length →
    Word.limit ≤ w.offset + start →
      w.narrow start count = .error .overflow ∧ count = 0 ∧ start = w.length + 1 ∧
        w.offset + w.length = backing.size ∧ backing.size + 1 = Word.limit
  overflow (start count : ℕ) : 1 ≤ start → Word.limit ≤ start - 1 + count →
    w.narrow start count = .error .overflow
  compose (start count start' count' : ℕ) (u : Window α) :
    (w.narrow start count >>= fun v => v.narrow start' count') = .ok u →
      w.narrow (start + start' - 1) count' = .ok u

/-- Every position of a window has an element. -/
theorem exists_get_iff {i : ℕ} : (∃ a, w.get i = .ok a) ↔ 1 ≤ i ∧ i ≤ w.length := by
  constructor
  · rintro ⟨a, ha⟩
    obtain ⟨h1, h2, -⟩ := get_eq_ok_iff.mp ha
    exact ⟨h1, h2⟩
  · rintro ⟨h1, h2⟩
    have hinside := w.inBounds
    have hplace : w.offset + i - 1 < w.backing.size := by omega
    exact ⟨w.backing[w.offset + i - 1],
      get_eq_ok_iff.mpr ⟨h1, h2, Array.getElem?_eq_getElem hplace⟩⟩

/-- **A window is a view of its backing sequence**, of which all positions are 64-bit
quantities. -/
theorem isView (w : Window α) (hsize : w.backing.size < Word.limit) :
    IsView w.backing w where
  backing_eq := rfl
  inside := w.inBounds
  range := stretch_eq_ok (Nat.le_add_right _ _) w.inBounds
  items i hi := by
    have hinside := w.inBounds
    rw [Window.items, Array.getElem?_extract, if_pos (by omega)]
  get i := exists_get_iff
  absolute i a ha := by
    have hinside := w.inBounds
    obtain ⟨h1, h2, hget⟩ := get_eq_ok_iff.mp ha
    refine ⟨w.offset + i, Word.fit_of_lt (by omega), get_eq_ok_iff.mpr ⟨by omega, ?_, ?_⟩⟩
    · rw [length_full]
      omega
    · rwa [full, Nat.zero_add]
  narrow start count := exists_narrow_iff hsize
  far start count := narrow_of_far hsize
  overflow start count hstart hsum := by
    rw [Window.narrow, if_neg (by omega), if_pos hsum]
  compose start count start' count' u h := by
    obtain ⟨v, hv, hu⟩ := exists_of_bind_eq_ok h
    exact narrow_narrow hv hu

/-- **Nested windows are stretches of the sequence they come from**, of which all positions are
64-bit quantities. A chain of narrowings of the whole sequence succeeds just when each of its links
lies within the length asked for by the one before it and starts at a 64-bit position, which is no
condition of its own unless there are `2 ^ 64 - 1` elements. The window it ends with has left out
what the links leave out and has the length of the last one, so it lies inside the sequence; one
narrowing of the whole would have given it. It has an element at each of its positions, the
sequence's own, and windows wherever its positions allow. -/
theorem nested_windows_are_stretches (backing : Array α) (hsize : backing.size < Word.limit)
    (chain : List (ℕ × ℕ)) :
    ((∃ w, (full backing).narrowAll chain = .ok w) ↔
        Nested backing.size chain ∧ Placed 0 chain) ∧
      (backing.size + 1 < Word.limit → Nested backing.size chain → Placed 0 chain) ∧
      ∀ w, (full backing).narrowAll chain = .ok w →
        IsView backing w ∧ w.offset = (chain.map fun link => link.1 - 1).sum ∧
          w.length = (chain.map Prod.snd).getLastD backing.size ∧
          (full backing).narrow (w.offset + 1) w.length = .ok w := by
  refine ⟨exists_narrowAll_iff hsize, fun hshort h => h.placed (by omega), fun w hw => ?_⟩
  obtain ⟨hbacking, hoffset, hlength, -⟩ := narrowAll_eq_ok hw
  have hbacking : w.backing = backing := hbacking
  have hview := w.isView (by rwa [hbacking])
  rw [hbacking] at hview
  have hplace : 0 + 1 < Word.limit := by decide
  exact ⟨hview, hoffset.trans (Nat.zero_add _), hlength, narrow_of_narrowAll hsize hplace hw⟩

/-- Two letters out of five out of seven. -/
theorem nested_windows_are_stretches_cd :
    #['a', 'b', 'c', 'd', 'e', 'f', 'g'].size < Word.limit ∧
      ∃ w, (full #['a', 'b', 'c', 'd', 'e', 'f', 'g']).narrowAll [(2, 5), (2, 2)] = .ok w ∧
        w.offset = 2 ∧ w.length = 2 ∧ w.get 1 = .ok 'c' ∧ ∀ a, w.get 3 ≠ .ok a := by
  have hsize : #['a', 'b', 'c', 'd', 'e', 'f', 'g'].size < Word.limit := by decide
  obtain ⟨hchain, hplaced, hends⟩ := nested_windows_are_stretches _ hsize [(2, 5), (2, 2)]
  have hnested : Nested 7 [(2, 5), (2, 2)] := by simp [Nested]
  obtain ⟨w, hw⟩ := hchain.mpr ⟨hnested, hplaced (by decide) hnested⟩
  obtain ⟨hview, hoffset, hlength, -⟩ := hends w hw
  have hoffset : w.offset = 2 := hoffset
  have hlength : w.length = 2 := hlength
  obtain ⟨a, ha⟩ := (hview.get 1).mpr ⟨le_rfl, by omega⟩
  obtain ⟨p, hp, hget⟩ := hview.absolute 1 a ha
  obtain rfl : 3 = p := by
    rw [absolute, hoffset] at hp
    exact Except.ok.inj hp
  obtain rfl : 'c' = a := Except.ok.inj hget
  refine ⟨hsize, w, hw, hoffset, hlength, ha, fun a' ha' => ?_⟩
  have := (hview.get 3).mp ⟨a', ha'⟩
  omega

/-- **A window that fits is turned down.** Out of `2 ^ 64 - 1` elements without a size, all but the
first are looked at. The empty window past the end of these fits, and starts at position `2 ^ 64`
of the backing sequence. -/
theorem narrow_overflows_past_longest :
    ∃ v, (full (Array.replicate (Word.limit - 1) ())).narrow 2 (Word.limit - 2) = .ok v ∧
      (1 ≤ Word.limit - 1 ∧ Word.limit - 1 - 1 + 0 ≤ v.length) ∧
      v.narrow (Word.limit - 1) 0 = .error .overflow := by
  generalize hlong : Array.replicate (Word.limit - 1) () = backing
  have hsize : backing.size = Word.limit - 1 := by rw [← hlong, Array.size_replicate]
  have hlimit : 2 < Word.limit := by decide
  have hlength : (full backing).length = Word.limit - 1 := hsize
  have hoffset : (full backing).offset = 0 := rfl
  have hbacking : (full backing).backing.size < Word.limit := by
    rw [show (full backing).backing = backing from rfl]
    omega
  obtain ⟨v, hv⟩ : ∃ v, (full backing).narrow 2 (Word.limit - 2) = .ok v :=
    (exists_narrow_iff hbacking).mpr ⟨⟨by omega, by omega⟩, by omega⟩
  obtain ⟨-, -, hsame, hoffset', hlength'⟩ := narrow_eq_ok_iff.mp hv
  have hfits : 1 ≤ Word.limit - 1 ∧ Word.limit - 1 - 1 + 0 ≤ v.length := by omega
  exact ⟨v, hv, hfits, (narrow_of_far (by rwa [hsame]) hfits.1 hfits.2 (by omega)).1⟩

end Window

end EditGraph
