import EditGraph.Proofs.Scripts

/-!
# Replaying the script of a matching

A replay copies the old elements before an edit only when it comes to that edit. What it has
made of the first `x` old elements is therefore its output and the elements that are still to
be copied, `Replay.upTo`. Each gap adds its new elements to that, and each pair its old one,
whatever the edits of the gap are.

## Main definitions

* `Replay.upTo` — what a replay has made of the elements up to a position.
* `merged` — the new elements, with the old ones of the pairs in place of their partners.

## Main results

* `exists_step`, `exists_replay_gap`, `exists_replay` — one edit, the edits of a gap and those
  of all gaps.
* `getElem?_merged_of_mem`, `getElem?_merged_of_forall_ne` — where the elements come from.
* `apply_script` — the script of a comparison turns the old into the new sequence.
-/

namespace EditGraph

open List (Forall₂)
open EditScript (Replay stretch)

variable {α : Type} {a b : Array α} {r : Replay α}

/-! ### One edit -/

/-- What the replay has made of the old elements up to position `x`, those that it has not
copied yet among them. -/
def Replay.upTo (a : Array α) (r : Replay α) (x : ℕ) : Array α := r.output ++ a.extract r.cursor x

/-- Elements between edits are copied. -/
theorem upTo_append {x z : ℕ} (hcursor : r.cursor ≤ x) (hle : x ≤ z) :
    Replay.upTo a r z = Replay.upTo a r x ++ a.extract x z := by
  have hextract : a.extract r.cursor x ++ a.extract x z = a.extract r.cursor z := by
    rw [Array.extract_append_extract, Nat.min_eq_left hcursor, Nat.max_eq_right hle]
  rw [Replay.upTo, Replay.upTo, Array.append_assoc, hextract]

/-- From a place to itself there is nothing to cut out. -/
@[simp] theorem extract_self (i : ℕ) : a.extract i i = #[] :=
  Array.extract_empty_of_stop_le_start le_rfl

/-- A range that the sequence has is cut out of it. -/
theorem stretch_eq_ok {i j : ℕ} (hle : i ≤ j) (hsize : j ≤ a.size) :
    stretch a i j = .ok (a.extract i j) := if_pos ⟨hle, hsize⟩

/-- The edit is about elements that the sequences have. -/
structure Within (a b : Array α) (e : Edit) : Prop where
  old : e.x + e.removed ≤ a.size
  new : e.y + e.inserted ≤ b.size
  limit : a.size < Word.limit ∧ b.size < Word.limit

/-- After the replay of `e` the elements that it removes are gone and those that it inserts
have been added. -/
structure Replayed (a b : Array α) (e : Edit) (r r' : Replay α) : Prop where
  cursor : r'.cursor ≤ e.x + e.removed
  upTo : Replay.upTo a r' (e.x + e.removed) =
    Replay.upTo a r e.x ++ b.extract e.y (e.y + e.inserted)

/-- **One edit is replayed.** -/
theorem exists_step {e : Edit} (he : Within a b e) (hcursor : r.cursor ≤ e.x) :
    ∃ r', Replay.step a b r e = .ok r' ∧ Replayed a b e r r' := by
  obtain ⟨hold, hnew, hlimit⟩ := he
  have hkept : stretch a r.cursor e.x = .ok (a.extract r.cursor e.x) :=
    stretch_eq_ok hcursor (by omega)
  have hend : e.oldEnd = .ok (e.x + e.removed) := Word.fit_of_lt (by omega)
  have hend' : e.newEnd = .ok (e.y + e.inserted) := Word.fit_of_lt (by omega)
  have hstretch : stretch b e.y (e.y + e.inserted) = .ok (b.extract e.y (e.y + e.inserted)) :=
    stretch_eq_ok (by omega) hnew
  refine ⟨⟨e.x + e.removed, Replay.upTo a r e.x ++ b.extract e.y (e.y + e.inserted)⟩, ?_,
    ⟨le_rfl, ?_⟩⟩
  · simp only [Replay.step, hkept, hend, ok_bind]
    cases hkind : e.kind with
    | delete =>
        have hnone : e.inserted = 0 := by simp only [Edit.inserted, hkind]
        rw [hnone, Nat.add_zero, extract_self]
        rfl
    | insert =>
        simp only [hend', hstretch, ok_bind]
        rfl
    | change =>
        simp only [hend', hstretch, ok_bind]
        rfl
  · rw [Replay.upTo, extract_self, Array.append_empty]

/-- An edit of no elements can be left out. -/
theorem exists_replay_filter {e : Edit} (he : Within a b e) (hcursor : r.cursor ≤ e.x) :
    ∃ r', ([e].filter fun e => 0 < e.length).foldlM (Replay.step a b) r = .ok r' ∧
      Replayed a b e r r' := by
  by_cases hlength : 0 < e.length
  · obtain ⟨r', hstep, hr'⟩ := exists_step he hcursor
    refine ⟨r', ?_, hr'⟩
    have hkeep : ([e].filter fun e => 0 < e.length) = [e] := by simp [hlength]
    rw [hkeep, List.foldlM_cons, hstep]
    rfl
  · have hremoved : e.removed = 0 := by
      unfold Edit.removed
      split <;> omega
    have hinserted : e.inserted = 0 := by
      unfold Edit.inserted
      split <;> omega
    have hskip : ([e].filter fun e => 0 < e.length) = [] := by simp [hlength]
    refine ⟨r, by rw [hskip]; rfl, by rw [hremoved]; exact hcursor, ?_⟩
    rw [hremoved, hinserted, Nat.add_zero, Nat.add_zero, extract_self, Array.append_empty]

/-! ### The edits of a gap -/

/-- **The edits of a gap are replayed**: its old elements make room for its new ones. -/
theorem exists_replay_gap (changes : Bool) {g : Gap} (hold : g.x + g.width ≤ a.size)
    (hnew : g.y + g.height ≤ b.size) (hlimit : a.size < Word.limit ∧ b.size < Word.limit)
    (hcursor : r.cursor ≤ g.x) :
    ∃ r', (g.edits changes).foldlM (Replay.step a b) r = .ok r' ∧
      r'.cursor ≤ g.x + g.width ∧
      Replay.upTo a r' (g.x + g.width) =
        Replay.upTo a r g.x ++ b.extract g.y (g.y + g.height) := by
  obtain ⟨shared, hshared, hw, hh⟩ : ∃ shared,
      (if changes then min g.width g.height else 0) = shared ∧ shared ≤ g.width ∧
        shared ≤ g.height := ⟨_, rfl, by split <;> omega, by split <;> omega⟩
  have hedits : g.edits changes =
      ([⟨.change, g.x, g.y, shared⟩].filter fun e => 0 < e.length) ++
      (([⟨.delete, g.x + shared, g.y + shared, g.width - shared⟩].filter fun e => 0 < e.length) ++
      ([⟨.insert, g.x + g.width, g.y + shared, g.height - shared⟩].filter
        fun e => 0 < e.length)) := by
    rw [Gap.edits, hshared, ← List.filter_append, ← List.filter_append]
    rfl
  obtain ⟨r₁, hr₁, hcursor₁, hupTo₁⟩ := exists_replay_filter (a := a) (b := b) (r := r)
    (e := ⟨.change, g.x, g.y, shared⟩)
    ⟨by simp only [Edit.removed]; omega, by simp only [Edit.inserted]; omega, hlimit⟩ hcursor
  simp only [Edit.removed, Edit.inserted] at hcursor₁ hupTo₁
  obtain ⟨r₂, hr₂, hcursor₂, hupTo₂⟩ := exists_replay_filter (a := a) (b := b) (r := r₁)
    (e := ⟨.delete, g.x + shared, g.y + shared, g.width - shared⟩)
    ⟨by simp only [Edit.removed]; omega, by simp only [Edit.inserted]; omega, hlimit⟩ hcursor₁
  have hwidth : g.x + shared + (g.width - shared) = g.x + g.width := by omega
  simp only [Edit.removed, Edit.inserted, hwidth] at hcursor₂ hupTo₂
  obtain ⟨r₃, hr₃, hcursor₃, hupTo₃⟩ := exists_replay_filter (a := a) (b := b) (r := r₂)
    (e := ⟨.insert, g.x + g.width, g.y + shared, g.height - shared⟩)
    ⟨by simp only [Edit.removed]; omega, by simp only [Edit.inserted]; omega, hlimit⟩ hcursor₂
  have hheight : g.y + shared + (g.height - shared) = g.y + g.height := by omega
  simp only [Edit.removed, Edit.inserted, hheight, Nat.add_zero] at hcursor₃ hupTo₃
  refine ⟨r₃, ?_, hcursor₃, ?_⟩
  · rw [hedits, List.foldlM_append, hr₁, ok_bind, List.foldlM_append, hr₂, ok_bind, hr₃]
  · have hnothing : b.extract (g.y + shared) (g.y + shared + 0) = #[] := by simp
    have hinserted : b.extract g.y (g.y + shared) ++ b.extract (g.y + shared) (g.y + g.height) =
        b.extract g.y (g.y + g.height) := by
      rw [Array.extract_append_extract, Nat.min_eq_left (by omega), Nat.max_eq_right (by omega)]
    rw [hupTo₃, hupTo₂, hnothing, Array.append_empty, hupTo₁, Array.append_assoc, hinserted]

/-! ### The edits of a matching -/

/-- The elements of `b` from position `y` on, with the elements of `a` in place of those that
the pairs give them to. -/
def merged (a b : Array α) (y : ℕ) : List Match → Array α
  | [] => b.extract y b.size
  | p :: l => b.extract y (p.y - 1) ++ a.extract (p.x - 1) p.x ++ merged a b p.y l

/-- **The edits of a matching are replayed**, gap by gap. -/
theorem exists_replay (changes : Bool) {x y : ℕ} {l : List Match}
    (hlimit : a.size < Word.limit ∧ b.size < Word.limit) (hl : Rises a.size b.size x y l)
    (hcursor : r.cursor ≤ x) :
    ∃ r', ((allGaps a.size b.size x y l).flatMap (Gap.edits changes)).foldlM
        (Replay.step a b) r = .ok r' ∧ r'.cursor ≤ a.size ∧
      Replay.upTo a r' a.size = Replay.upTo a r x ++ merged a b y l := by
  induction l generalizing x y r with
  | nil =>
      obtain ⟨hx, hy⟩ := hl
      obtain ⟨r', hr', hcursor', hupTo⟩ := exists_replay_gap (a := a) (b := b) changes
        (g := ⟨x, y, a.size - x, b.size - y⟩) (by simp only; omega) (by simp only; omega) hlimit
        hcursor
      simp only [Nat.add_sub_cancel' hx, Nat.add_sub_cancel' hy] at hcursor' hupTo
      refine ⟨r', ?_, hcursor', hupTo⟩
      rw [allGaps_nil, List.flatMap_cons, List.flatMap_nil, List.append_nil, hr']
  | cons p l ih =>
      obtain ⟨hx, hy, hl⟩ := hl
      have hle := hl.le
      have hwidth : x + (p.x - 1 - x) = p.x - 1 := by omega
      have hheight : y + (p.y - 1 - y) = p.y - 1 := by omega
      obtain ⟨r₁, hr₁, hcursor₁, hupTo₁⟩ := exists_replay_gap (a := a) (b := b) changes
        (g := ⟨x, y, p.x - 1 - x, p.y - 1 - y⟩) (by simp only; omega) (by simp only; omega) hlimit
        hcursor
      simp only [hwidth, hheight] at hcursor₁ hupTo₁
      obtain ⟨r₂, hr₂, hcursor₂, hupTo₂⟩ := ih hl (show r₁.cursor ≤ p.x by omega)
      refine ⟨r₂, ?_, hcursor₂, ?_⟩
      · rw [allGaps_cons, List.flatMap_cons, List.foldlM_append, hr₁, ok_bind, hr₂]
      · -- the pair's old element is still to be copied after the gap before it
        have hpair := upTo_append (a := a) hcursor₁ (show p.x - 1 ≤ p.x by omega)
        rw [hupTo₂, hpair, hupTo₁, merged]
        simp only [Array.append_assoc]

/-! ### Where the elements come from -/

/-- The merged sequence is as long as the new one. -/
theorem size_merged {x y : ℕ} {l : List Match} (hl : Rises a.size b.size x y l) :
    (merged a b y l).size + y = b.size := by
  induction l generalizing x y with
  | nil =>
      have := hl.2
      simp only [merged, Array.size_extract]
      omega
  | cons p l ih =>
      obtain ⟨hx, hy, hl⟩ := hl
      have := hl.le
      have := ih hl
      simp only [merged, Array.size_append, Array.size_extract]
      omega

/-- The elements of the pairs behind the first one. -/
theorem getElem?_merged_cons {x y j : ℕ} {p : Match} {l : List Match}
    (hl : Rises a.size b.size x y (p :: l)) (hj : p.y ≤ j) :
    (merged a b y (p :: l))[j - y]? = (merged a b p.y l)[j - p.y]? := by
  obtain ⟨hx, hy, hl⟩ := hl
  have := hl.le
  have hsize : (b.extract y (p.y - 1) ++ a.extract (p.x - 1) p.x).size = p.y - y := by
    simp only [Array.size_append, Array.size_extract]
    omega
  rw [merged, Array.getElem?_append_right (by omega), hsize]
  congr 1
  omega

/-- **In place of a pair's new element stands its old one.** -/
theorem getElem?_merged_of_mem {x y : ℕ} {p : Match} {l : List Match}
    (hl : Rises a.size b.size x y l) (hp : p ∈ l) :
    (merged a b y l)[p.y - 1 - y]? = a[p.x - 1]? := by
  induction l generalizing x y with
  | nil => exact nomatch hp
  | cons q l ih =>
      have hrest := hl.2.2
      rcases List.mem_cons.mp hp with rfl | hp
      · obtain ⟨hx, hy, -⟩ := hl
        have := hrest.le
        have hsize : (b.extract y (p.y - 1)).size = p.y - 1 - y := by
          rw [Array.size_extract]
          omega
        have hsize' : (a.extract (p.x - 1) p.x).size = 1 := by
          rw [Array.size_extract]
          omega
        rw [merged, Array.append_assoc, Array.getElem?_append_right (by omega), hsize,
          Nat.sub_self, Array.getElem?_append_left (by omega), Array.getElem?_extract,
          if_pos (by omega), Nat.add_zero]
      · have hlt := (hrest.lt_of_mem hp).2
        rw [getElem?_merged_cons hl (by omega), ih hrest hp]

/-- **Elsewhere stand the new elements.** -/
theorem getElem?_merged_of_forall_ne {x y j : ℕ} {l : List Match}
    (hl : Rises a.size b.size x y l) (hj : y ≤ j) (hne : ∀ p ∈ l, p.y ≠ j + 1) :
    (merged a b y l)[j - y]? = b[j]? := by
  induction l generalizing x y with
  | nil =>
      rw [merged, Array.getElem?_extract]
      by_cases hlt : j < b.size
      · rw [if_pos (by omega), Nat.add_sub_cancel' hj]
      · rw [if_neg (by omega), Array.getElem?_eq_none (by omega)]
  | cons p l ih =>
      obtain ⟨hp, hne⟩ := List.forall_mem_cons.mp hne
      by_cases hbehind : p.y ≤ j
      · rw [getElem?_merged_cons hl hbehind]
        exact ih hl.2.2 hbehind hne
      · have := hl.2.2.le
        have hsize : (b.extract y (p.y - 1)).size = p.y - 1 - y := by
          rw [Array.size_extract]
          omega
        rw [merged, Array.append_assoc, Array.getElem?_append_left (by omega),
          Array.getElem?_extract, if_pos (by omega), Nat.add_sub_cancel' hj]

/-! ### The script of a comparison -/

/-- **The edits of a matching are a script** that makes the merged elements out of the old. -/
theorem apply_eq_ok (changes : Bool) {s : EditScript} {l : List Match}
    (hlimit : a.size < Word.limit ∧ b.size < Word.limit) (hl : Rises a.size b.size 0 0 l)
    (hs : s.edits = (allEdits changes a.size b.size l).toArray) :
    s.apply a b = .ok (merged a b 0 l) := by
  obtain ⟨r, hr, hcursor, hupTo⟩ := exists_replay (r := ⟨0, #[]⟩) changes hlimit hl le_rfl
  have hfold : s.edits.foldlM (Replay.step a b) ⟨0, #[]⟩ = .ok r := by
    rw [hs, List.foldlM_toArray, allEdits, hr]
  have hstart : Replay.upTo a ⟨0, #[]⟩ 0 = (#[] : Array α) := by
    rw [Replay.upTo, extract_self, Array.append_empty]
  rw [hstart, Array.empty_append, Replay.upTo] at hupTo
  rw [EditScript.apply, hfold, ok_bind]
  simp only [stretch_eq_ok hcursor le_rfl, ok_bind, hupTo]
  rfl

namespace Comparison

variable {c : Comparison α}

/-- An element of the merged sequence is the new one in its place, or an old one that matches it. -/
theorem IsMatching.exists_place {l : List Match} (hl : c.IsMatching l) {j : ℕ}
    (hj : j < c.new.size) :
    ∃ e e', (merged c.old c.new 0 l)[j]? = some e ∧ c.new[j]? = some e' ∧
      (e = e' ∨ e ∈ c.old ∧ c.same e e' = true) := by
  by_cases hpaired : ∃ p ∈ l, p.y = j + 1
  · obtain ⟨p, hp, hpj⟩ := hpaired
    obtain ⟨e, e', he, he', hsame⟩ := agree_eq_true_iff.mp (hl.pairs p hp).agree
    have hplace := getElem?_merged_of_mem (b := c.new) hl.rises hp
    rw [hpj, Nat.add_sub_cancel] at he' hplace
    exact ⟨e, e', hplace.trans he, he', .inr ⟨Array.mem_of_getElem? he, hsame⟩⟩
  · have hplace := getElem?_merged_of_forall_ne hl.rises (Nat.zero_le j) (by
      intro p hp hpj
      exact hpaired ⟨p, hp, hpj⟩)
    have hnew : c.new[j]? = some c.new[j] := Array.getElem?_eq_getElem hj
    exact ⟨c.new[j], c.new[j], hplace.trans hnew, hnew, .inl rfl⟩

/-- Each place of the merged sequence has the new element, or an old one that it was matched with.
-/
theorem exists_of_merged {l : List Match} (hl : c.IsMatching l) {j : ℕ} (hj : j < c.new.size) :
    ∃ e e', (merged c.old c.new 0 l)[j]? = some e ∧ c.new[j]? = some e' ∧
      (e = e' ∨ c.same e e' = true) := by
  obtain ⟨e, e', he, he', hsame⟩ := hl.exists_place hj
  exact ⟨e, e', he, he', hsame.imp_right And.right⟩

/-- Where elements match themselves, the merged sequence matches the new one throughout. -/
theorem IsMatching.forall₂_merged {l : List Match} (hl : c.IsMatching l)
    (hrefl : ∀ e, c.same e e = true) :
    Forall₂ (fun e e' => c.same e e' = true) (merged c.old c.new 0 l).toList c.new.toList := by
  have hsize : (merged c.old c.new 0 l).size = c.new.size := size_merged hl.rises
  refine List.forall₂_iff_get.mpr ⟨by simpa using hsize, ?_⟩
  intro j hj hj'
  rw [Array.length_toList] at hj hj'
  obtain ⟨e, e', he, he', hsame⟩ := exists_of_merged hl hj'
  obtain ⟨hlt, rfl⟩ := Array.getElem?_eq_some_iff.mp he
  obtain ⟨hlt', rfl⟩ := Array.getElem?_eq_some_iff.mp he'
  rw [List.get_eq_getElem, List.get_eq_getElem, Array.getElem_toList, Array.getElem_toList]
  rcases hsame with heq | hsame
  · rw [heq]
    exact hrefl _
  · exact hsame

/-- **The script replays exactly.** Whenever the diagonal vectors fit into memory, the script
turns the old sequence into one as long as the new one, with or without changes. Where the
matching has a pair, the element is the old one of the pair, and elsewhere it is the new
sequence's own. So all elements match those of the new sequence, if elements match themselves;
and where only equal elements match, the result is the new sequence. Without the memory there is
no script to replay. -/
theorem apply_script (c : Comparison α) (changes : Bool) :
    (c.Fits →
      ∃ found s r, c.matching = .ok found ∧ c.script changes = .ok s ∧
        s.apply c.old c.new = .ok r ∧ r.size = c.new.size ∧
        (∀ x j, 1 ≤ j → j ≤ r.size → ⟨x, j⟩ ∈ found →
          ∃ e, r[j - 1]? = some e ∧ c.old[x - 1]? = some e) ∧
        (∀ j, 1 ≤ j → j ≤ r.size → (∀ x, ⟨x, j⟩ ∉ found) →
          ∃ e, r[j - 1]? = some e ∧ c.new[j - 1]? = some e) ∧
        ((∀ e, c.same e e = true) →
          Forall₂ (fun e e' => c.same e e' = true) r.toList c.new.toList) ∧
        ((∀ e e', c.same e e' = true → e = e') → r = c.new)) ∧
    (¬ c.Fits → c.matching = .error .capacity ∧ c.script changes = .error .capacity) := by
  refine ⟨fun h => ?_, fun h => ⟨matching_of_not_fits h, script_of_not_fits h changes⟩⟩
  obtain ⟨found, hfound, hmatching, -⟩ := exists_matching h
  have hrises := hmatching.rises
  have hsize : (merged c.old c.new 0 found.toList).size = c.new.size := size_merged hrises
  refine ⟨found, _, merged c.old c.new 0 found.toList, hfound, script_eq_ok h hfound changes,
    apply_eq_ok changes h.limits hrises rfl, hsize, ?_, ?_, ?_, ?_⟩
  · intro x j hj hj' hp
    rw [← Array.mem_toList_iff] at hp
    have hcolumn : 1 ≤ x ∧ x ≤ c.old.size := (hmatching.pairs _ hp).column
    have hold : c.old[x - 1]? = some c.old[x - 1] := Array.getElem?_eq_getElem (by omega)
    exact ⟨_, (getElem?_merged_of_mem hrises hp).trans hold, hold⟩
  · intro j hj hj' hnone
    have hplace := getElem?_merged_of_forall_ne hrises (Nat.zero_le (j - 1)) (by
      rintro ⟨x, y⟩ hp rfl
      rw [Nat.sub_add_cancel hj] at hp
      exact hnone x (Array.mem_toList_iff.mp hp))
    have hnew : c.new[j - 1]? = some c.new[j - 1] := Array.getElem?_eq_getElem (by omega)
    exact ⟨_, hplace.trans hnew, hnew⟩
  · exact hmatching.forall₂_merged
  · intro heq
    refine Array.ext_getElem? ?_
    intro j
    by_cases hj : j < c.new.size
    · obtain ⟨e, e', he, he', hsame⟩ := exists_of_merged hmatching hj
      have : e = e' := by
        rcases hsame with hsame | hsame
        · exact hsame
        · exact heq e e' hsame
      rw [he, he', this]
    · rw [Array.getElem?_eq_none (by omega), Array.getElem?_eq_none (by omega)]

/-- The script that turns one word into another does so, with changes. -/
theorem apply_script_abcabba :
    ∃ s, (ofEq #['a', 'b', 'c', 'a', 'b', 'b', 'a'] #['c', 'b', 'a', 'b', 'a', 'c']).script true =
        .ok s ∧
      s.apply #['a', 'b', 'c', 'a', 'b', 'b', 'a'] #['c', 'b', 'a', 'b', 'a', 'c'] =
        .ok #['c', 'b', 'a', 'b', 'a', 'c'] := by
  obtain ⟨found, s, r, -, hs, hr, -, -, -, -, heq⟩ := (apply_script
    (ofEq #['a', 'b', 'c', 'a', 'b', 'b', 'a'] #['c', 'b', 'a', 'b', 'a', 'c']) true).1 (by decide)
  obtain rfl := heq (fun e e' h => eq_of_beq h)
  exact ⟨s, hs, hr⟩

end Comparison

end EditGraph
