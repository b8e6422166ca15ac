import EditGraph.Proofs.Recursion
import EditGraph.Proofs.ShortestScript
import Mathlib.Data.List.Chain

/-!
# Scripts as alignments

The edits of a script and the elements that they leave alone make one path through the edit graph,
from the origin to the far corner. Between the end of an edit and the beginning of the next one
the same number of elements is left alone on both sides, and these match, position by position.
The pairs on these stretches are the matching, so a script tells which matching it was made from.

The path is laid gap by gap. The edits of a gap lead across it without leaving any element alone,
`Spans`, and behind a gap comes a pair. Stretches of several pairs come from gaps without edits.

## Main definitions

* `Gap.separate`, `Gap.paired` — the edits of a gap, with and without changes.
* `Spans` — edits that lead from one point to another and touch.
* `Leaves` — the gaps that pairs leave over.
* `gapKinds` — the kinds of the edits at one place.
* `Comparison.Aligns` — edits and the pairs between them.

## Main results

* `spans_edits` — the edits of a gap lead across it.
* `map_kind_mem_gapKinds` — edits that touch are those of one gap.
* `aligns_of_leaves` — the edits of all gaps, and the pairs that left them.
* `Aligns.unique` — the edits determine the pairs.
* `script_is_alignment` — the script of a comparison.
-/

namespace EditGraph

variable {n m x y x' y' x'' y'' : ℕ} {es es' : List Edit} {l : List Match} {gs : List Gap}
  {changes : Bool}

/-! ### The edits of a gap -/

/-- The edit, unless it is about no elements. -/
def Edit.unlessEmpty (e : Edit) : List Edit := if 0 < e.length then [e] else []

/-- The number of elements that a gap changes. -/
def Gap.shared (changes : Bool) (g : Gap) : ℕ := if changes then min g.width g.height else 0

/-- What a gap turns into changes is on both of its sides. -/
theorem shared_le (changes : Bool) (g : Gap) :
    g.shared changes ≤ g.width ∧ g.shared changes ≤ g.height := by
  unfold Gap.shared
  split <;> omega

/-- A gap gives a change for what it shares, and a deletion and an insertion for what is left of its
sides. -/
theorem edits_eq (changes : Bool) (g : Gap) :
    g.edits changes =
      Edit.unlessEmpty ⟨.change, g.x, g.y, g.shared changes⟩ ++
      (Edit.unlessEmpty ⟨.delete, g.x + g.shared changes, g.y + g.shared changes,
        g.width - g.shared changes⟩ ++
      Edit.unlessEmpty ⟨.insert, g.x + g.width, g.y + g.shared changes,
        g.height - g.shared changes⟩) := by
  have hlist (e : Edit) : e.unlessEmpty = [e].filter fun e => 0 < e.length := by
    by_cases h : 0 < e.length <;> simp [Edit.unlessEmpty, h]
  rw [hlist, hlist, hlist, ← List.filter_append, ← List.filter_append]
  rfl

/-- The edits of a gap without changes: its old elements are deleted, then its new ones are
inserted. -/
def Gap.separate (g : Gap) : List Edit :=
  (if 0 < g.width then [⟨.delete, g.x, g.y, g.width⟩] else []) ++
    if 0 < g.height then [⟨.insert, g.x + g.width, g.y, g.height⟩] else []

/-- The edits of a gap with changes: as many elements as there are on both sides are changed, then
the rest of the longer side is deleted or inserted. -/
def Gap.paired (g : Gap) : List Edit :=
  let shared := min g.width g.height
  (if 0 < shared then [⟨.change, g.x, g.y, shared⟩] else []) ++
    if shared < g.width then [⟨.delete, g.x + shared, g.y + shared, g.width - shared⟩]
    else if shared < g.height then [⟨.insert, g.x + shared, g.y + shared, g.height - shared⟩]
    else []

/-- Without changes a gap gives its deletion and its insertion. -/
theorem edits_false (g : Gap) : g.edits false = g.separate := edits_eq false g

/-- With changes a gap gives its change and the rest of the longer side. -/
theorem edits_true (g : Gap) : g.edits true = g.paired := by
  rw [edits_eq, Gap.paired, Gap.shared, if_pos rfl]
  simp only [Edit.unlessEmpty, Nat.sub_pos_iff_lt]
  rcases Nat.le_total g.width g.height with hle | hle
  · simp [Nat.min_eq_left hle]
  · simp [Nat.min_eq_right hle]

/-! ### Edits that lead across a gap -/

/-- The edits lead from the point `(x, y)` to `(x', y')`. Each begins where the one before it has
ended, and each is about some elements. -/
def Spans (x' y' : ℕ) : ℕ → ℕ → List Edit → Prop
  | x, y, [] => x = x' ∧ y = y'
  | x, y, e :: es =>
    e.x = x ∧ e.y = y ∧ 0 < e.length ∧ Spans x' y' (x + e.removed) (y + e.inserted) es

/-- Edits that go on where others stop go with them from the first corner to the last. -/
theorem Spans.append (h : Spans x' y' x y es) (h' : Spans x'' y'' x' y' es') :
    Spans x'' y'' x y (es ++ es') := by
  induction es generalizing x y with
  | nil =>
      obtain ⟨rfl, rfl⟩ := h
      exact h'
  | cons e es ih =>
      obtain ⟨hx, hy, hlength, hes⟩ := h
      exact ⟨hx, hy, hlength, ih hes⟩

/-- No edit goes backwards. -/
theorem Spans.le (h : Spans x' y' x y es) : x ≤ x' ∧ y ≤ y' := by
  induction es generalizing x y with
  | nil =>
      obtain ⟨rfl, rfl⟩ := h
      exact ⟨le_rfl, le_rfl⟩
  | cons e es ih =>
      have := ih h.2.2.2
      omega

/-- None of the edits begins before the first point or ends behind the last one. -/
theorem Spans.within {e : Edit} (h : Spans x' y' x y es) (he : e ∈ es) :
    x ≤ e.x ∧ e.x + e.removed ≤ x' := by
  induction es generalizing x y with
  | nil => exact nomatch he
  | cons e' es ih =>
      obtain ⟨hx, -, -, hes⟩ := h
      have := hes.le
      rcases List.mem_cons.mp he with rfl | he
      · omega
      · have := ih hes he
        omega

/-- An edit goes as far as what it removes and inserts, also when it is left out for being empty. -/
theorem spans_unlessEmpty (e : Edit) :
    Spans (e.x + e.removed) (e.y + e.inserted) e.x e.y e.unlessEmpty := by
  by_cases hlength : 0 < e.length
  · rw [Edit.unlessEmpty, if_pos hlength]
    exact ⟨rfl, rfl, hlength, rfl, rfl⟩
  · have hzero : e.length = 0 := by omega
    rw [Edit.unlessEmpty, if_neg hlength]
    cases hkind : e.kind <;> simp [Spans, Edit.removed, Edit.inserted, hkind, hzero]

/-- **The edits of a gap lead across it**, from its first elements to what lies behind it. -/
theorem spans_edits (changes : Bool) (g : Gap) :
    Spans (g.x + g.width) (g.y + g.height) g.x g.y (g.edits changes) := by
  obtain ⟨hwidth, hheight⟩ := shared_le changes g
  rw [edits_eq]
  generalize g.shared changes = shared at hwidth hheight ⊢
  have hchange := spans_unlessEmpty ⟨.change, g.x, g.y, shared⟩
  have hdelete := spans_unlessEmpty ⟨.delete, g.x + shared, g.y + shared, g.width - shared⟩
  have hinsert := spans_unlessEmpty ⟨.insert, g.x + g.width, g.y + shared, g.height - shared⟩
  simp only [Edit.removed, Edit.inserted, Nat.add_zero, Nat.add_assoc, Nat.add_sub_cancel' hwidth,
    Nat.add_sub_cancel' hheight] at hchange hdelete hinsert
  exact hchange.append (hdelete.append hinsert)

/-! ### The gaps of a matching -/

/-- The gaps that pairs leave over between the point `(x, y)` and the far corner `(n, m)`: one
before each pair and one behind the last. -/
inductive Leaves (n m : ℕ) : ℕ → ℕ → List Match → List Gap → Prop
  | last {x y width height : ℕ} (hx : x + width = n) (hy : y + height = m) :
      Leaves n m x y [] [⟨x, y, width, height⟩]
  | pair {x y width height : ℕ} {l : List Match} {gs : List Gap}
      (h : Leaves n m (x + width + 1) (y + height + 1) l gs) :
      Leaves n m x y (⟨x + width + 1, y + height + 1⟩ :: l) (⟨x, y, width, height⟩ :: gs)

/-- The gaps of a rising list are those that it leaves. -/
theorem leaves_allGaps (h : Rises n m x y l) : Leaves n m x y l (allGaps n m x y l) := by
  induction l generalizing x y with
  | nil =>
      obtain ⟨hx, hy⟩ := h
      rw [allGaps_nil]
      exact .last (Nat.add_sub_cancel' hx) (Nat.add_sub_cancel' hy)
  | cons p l ih =>
      obtain ⟨px, py⟩ := p
      obtain ⟨hx, hy, hl⟩ := h
      obtain ⟨width, rfl⟩ := Nat.exists_eq_add_of_lt hx
      obtain ⟨height, rfl⟩ := Nat.exists_eq_add_of_lt hy
      rw [allGaps_cons]
      simp only [Nat.add_sub_cancel, Nat.add_sub_cancel_left]
      exact .pair (ih hl)

/-- Gaps are left only from a corner inside the grid. -/
theorem Leaves.le (h : Leaves n m x y l gs) : x ≤ n ∧ y ≤ m := by
  induction h with
  | last hx hy => omega
  | pair _ ih => omega

/-- The edits of gaps lie behind the point that the gaps begin at. -/
theorem Leaves.le_of_mem {e : Edit} (h : Leaves n m x y l gs)
    (he : e ∈ gs.flatMap (Gap.edits changes)) : x ≤ e.x := by
  induction h with
  | last _ _ =>
      rw [List.flatMap_cons, List.flatMap_nil, List.append_nil] at he
      exact ((spans_edits changes _).within he).1
  | pair _ ih =>
      rw [List.flatMap_cons] at he
      rcases List.mem_append.mp he with he | he
      · exact ((spans_edits changes _).within he).1
      · have := ih he
        omega

/-! ### Edits that touch -/

/-- The second edit begins where the first one ends. -/
def Edit.Touches (e e' : Edit) : Prop := e.oldEnd = .ok e'.x ∧ e.newEnd = .ok e'.y

/-- The kinds that the edits of one gap can have, in order. Without changes old elements are
deleted before new ones are inserted. With changes one side at most is longer, so a change is
followed by a deletion or by an insertion, and either of these stands alone where the other side
has no elements. -/
def gapKinds : Bool → List (List EditKind)
  | false => [[.delete], [.insert], [.delete, .insert]]
  | true => [[.change], [.delete], [.insert], [.change, .delete], [.change, .insert]]

/-- If the second edit touches the first, they can be edits of one gap. -/
def Edit.Follows (changes : Bool) (e e' : Edit) : Prop :=
  e.Touches e' → [e.kind, e'.kind] ∈ gapKinds changes

/-- The edits of one gap are of the kinds that a gap can have, in that order. -/
theorem kinds_edits (changes : Bool) (g : Gap) :
    g.edits changes = [] ∨ (g.edits changes).map Edit.kind ∈ gapKinds changes := by
  cases changes with
  | false =>
      rw [edits_false, Gap.separate]
      split <;> split <;> simp [gapKinds]
  | true =>
      rw [edits_true, Gap.paired]
      split <;> split <;> try split
      all_goals simp [gapKinds]

/-- Every edit of a gap can stand alone. -/
theorem kind_mem_gapKinds {e : Edit} {g : Gap} (he : e ∈ g.edits changes) :
    [e.kind] ∈ gapKinds changes := by
  have halone : ∀ kinds ∈ gapKinds changes, ∀ kind ∈ kinds, [kind] ∈ gapKinds changes := by
    cases changes <;> decide
  rcases kinds_edits changes g with hnil | hkinds
  · rw [hnil] at he
    exact nomatch he
  · exact halone _ hkinds _ (List.mem_map_of_mem he)

/-- Each edit of a gap may follow the one before it. -/
theorem isChain_edits (changes : Bool) (g : Gap) :
    (g.edits changes).IsChain (Edit.Follows changes) := by
  have hchain : ∀ kinds ∈ gapKinds changes,
      kinds.IsChain fun kind kind' => [kind, kind'] ∈ gapKinds changes := by
    cases changes <;> decide
  rcases kinds_edits changes g with hnil | hkinds
  · rw [hnil]
    exact .nil
  · exact ((List.isChain_map _).mp (hchain _ hkinds)).imp fun e e' h _ => h

/-- Edits of different gaps do not touch, since a pair lies between them. -/
theorem Leaves.isChain (h : Leaves n m x y l gs) :
    (gs.flatMap (Gap.edits changes)).IsChain (Edit.Follows changes) := by
  induction h with
  | last _ _ =>
      rw [List.flatMap_cons, List.flatMap_nil, List.append_nil]
      exact isChain_edits changes _
  | @pair x y width height l gs hrest ih =>
      rw [List.flatMap_cons]
      refine (isChain_edits changes _).append ih ?_
      intro e he e' he' htouch
      have hend : e.x + e.removed ≤ x + width :=
        ((spans_edits changes _).within (List.mem_of_getLast? he)).2
      have hstart := hrest.le_of_mem (List.mem_of_head? he')
      have := (Word.fit_eq_ok_iff.mp htouch.1).2
      omega

/-- **Edits that touch are those of one gap**, by their kinds. A third edit cannot touch the second
one: no kind comes first in one gap and second in another. -/
theorem map_kind_mem_gapKinds (hne : es ≠ []) (hkind : ∀ e ∈ es, [e.kind] ∈ gapKinds changes)
    (hfollows : es.IsChain (Edit.Follows changes)) (htouch : es.IsChain Edit.Touches) :
    es.map Edit.kind ∈ gapKinds changes := by
  have hlast (k k' k'' : EditKind) (h : [k, k'] ∈ gapKinds changes) :
      [k', k''] ∉ gapKinds changes := by
    cases changes <;> cases k <;> cases k' <;> simp [gapKinds] at h ⊢
  match es with
  | [] => exact absurd rfl hne
  | [e] => exact hkind e List.mem_cons_self
  | [e, e'] =>
      exact (List.isChain_cons_cons.mp hfollows).1 (List.isChain_cons_cons.mp htouch).1
  | e :: e' :: e'' :: es =>
      obtain ⟨hfirst, hfollows⟩ := List.isChain_cons_cons.mp hfollows
      obtain ⟨htouch', htouch⟩ := List.isChain_cons_cons.mp htouch
      have hsecond := (List.isChain_cons_cons.mp hfollows).1 (List.isChain_cons_cons.mp htouch).1
      exact absurd hsecond (hlast _ _ _ (hfirst htouch'))

/-! ### Alignments -/

namespace Comparison

variable {α β : Type} {c : Comparison α} {c' : Comparison β}

/-- The edits lead from the point `(x, y)` to the far corner, and leave the elements of the pairs
alone. Before each edit, and behind the last, `k` elements are left alone on either side; they
match, position by position. -/
inductive Aligns (c : Comparison α) : ℕ → ℕ → List Edit → List Match → Prop
  | last {x y k : ℕ} (hold : x + k = c.old.size) (hnew : y + k = c.new.size)
      (hagree : ∀ i < k, c.agree (x + i) (y + i) = true) :
      Aligns c x y [] (diagonal x y k)
  | edit {x y k ex ey : ℕ} {e : Edit} {es : List Edit} {l : List Match}
      (hx : e.x = x + k) (hy : e.y = y + k)
      (hagree : ∀ i < k, c.agree (x + i) (y + i) = true) (hlength : 0 < e.length)
      (hold : e.oldEnd = .ok ex) (hnew : e.newEnd = .ok ey) (hrest : Aligns c ex ey es l) :
      Aligns c x y (e :: es) (diagonal x y k ++ l)

/-- A pair prolongs the stretch behind it. -/
theorem Aligns.pair (h : c.Aligns (x + 1) (y + 1) es l) (hpair : c.agree x y = true) :
    c.Aligns x y es (⟨x + 1, y + 1⟩ :: l) := by
  have hprolong {k : ℕ} (hagree : ∀ i < k, c.agree (x + 1 + i) (y + 1 + i) = true) :
      ∀ i < k + 1, c.agree (x + i) (y + i) = true := by
    intro i hi
    cases i with
    | zero => exact hpair
    | succ i =>
        have := hagree i (by omega)
        rwa [Nat.add_right_comm x, Nat.add_right_comm y] at this
  cases h with
  | last hold hnew hagree =>
      rw [← diagonal_succ]
      exact .last (by omega) (by omega) (hprolong hagree)
  | edit hx hy hagree hlength hold hnew hrest =>
      rw [← List.cons_append, ← diagonal_succ]
      exact .edit (by omega) (by omega) (hprolong hagree) hlength hold hnew hrest

/-- Edits that touch come before others with no elements left alone. -/
theorem Aligns.spans (h : c.Aligns x' y' es' l) (hes : Spans x' y' x y es)
    (hx : x' < Word.limit) (hy : y' < Word.limit) : c.Aligns x y (es ++ es') l := by
  induction es generalizing x y with
  | nil =>
      obtain ⟨rfl, rfl⟩ := hes
      exact h
  | cons e es ih =>
      obtain ⟨rfl, rfl, hlength, hes⟩ := hes
      have hle := hes.le
      exact .edit (k := 0) rfl rfl nofun hlength (Word.fit_of_lt (by omega))
        (Word.fit_of_lt (by omega)) (ih hes)

/-- **The edits of gaps and the pairs that left them** are an alignment. -/
theorem aligns_of_leaves (h : Leaves c.old.size c.new.size x y l gs)
    (hlimit : c.old.size < Word.limit ∧ c.new.size < Word.limit)
    (hl : ∀ p ∈ l, c.agree (p.x - 1) (p.y - 1) = true) :
    c.Aligns x y (gs.flatMap (Gap.edits changes)) l := by
  induction h with
  | @last x y width height hx hy =>
      rw [List.flatMap_cons, List.flatMap_nil]
      have hend : c.Aligns (x + width) (y + height) [] [] := .last (k := 0) hx hy nofun
      exact hend.spans (spans_edits changes ⟨x, y, width, height⟩) (by omega) (by omega)
  | @pair x y width height l gs hrest ih =>
      have hle := hrest.le
      obtain ⟨hp, hl⟩ := List.forall_mem_cons.mp hl
      rw [List.flatMap_cons]
      exact ((ih hl).pair hp).spans (spans_edits changes ⟨x, y, width, height⟩) (by omega)
        (by omega)

/-- **The edits determine the pairs**, whatever the elements are. -/
theorem Aligns.unique {l' : List Match} (h : c.Aligns x y es l) (h' : c'.Aligns x y es l')
    (hsize : c.old.size = c'.old.size) : l = l' := by
  induction h generalizing l' with
  | @last x y k hold _ _ =>
      cases h' with
      | @last _ _ k' hold' _ _ =>
          obtain rfl : k = k' := by omega
          rfl
  | @edit x y k ex ey e es l hx _ _ _ hold hnew _ ih =>
      cases h' with
      | @edit _ _ k' ex' ey' _ _ l' hx' _ _ _ hold' hnew' hrest' =>
          obtain rfl : k = k' := by omega
          obtain rfl : ex = ex' := Except.ok.inj (hold.symm.trans hold')
          obtain rfl : ey = ey' := Except.ok.inj (hnew.symm.trans hnew')
          rw [ih hrest']

/-! ### The script of a comparison -/

/-- The pairs of the matching are what the script leaves alone. -/
theorem exists_script_aligns (h : c.Fits) (changes : Bool) :
    ∃ found s, c.matching = .ok found ∧ c.script changes = .ok s ∧
      c.Aligns 0 0 s.edits.toList found.toList ∧
      s.edits.toList = (allGaps c.old.size c.new.size 0 0 found.toList).flatMap
        (Gap.edits changes) := by
  obtain ⟨found, hfound, hmatching, -⟩ := exists_matching h
  exact ⟨found, _, hfound, script_eq_ok h hfound changes,
    aligns_of_leaves (leaves_allGaps hmatching.rises) h.limits
      fun p hp => (hmatching.pairs p hp).agree, rfl⟩

/-- **A script is one path from the origin to the far corner**, with or without changes. Its edits
are not empty; between the end of one and the beginning of the next, as before the first and behind
the last, equally many elements are left alone on either side, and they match; the pairs on these
stretches are the matching. So no other matching has these edits. Edits with no elements between
them are two at most, a deletion and an insertion or, with changes, a change and one of these. -/
theorem script_is_alignment (c : Comparison α) (changes : Bool) :
    (c.Fits →
      ∃ found s, c.matching = .ok found ∧ c.script changes = .ok s ∧
        c.Aligns 0 0 s.edits.toList found.toList ∧
        (∀ (β : Type) (c' : Comparison β) (changes' : Bool) (s' : EditScript),
          c'.script changes' = .ok s' → s'.edits = s.edits → c'.old.size = c.old.size →
            c'.matching = .ok found) ∧
        ∀ es, es ≠ [] → es <:+: s.edits.toList → es.IsChain Edit.Touches →
          es.map Edit.kind ∈ gapKinds changes) ∧
    (¬ c.Fits → c.script changes = .error .capacity) := by
  refine ⟨fun h => ?_, fun h => script_of_not_fits h changes⟩
  obtain ⟨found, s, hfound, hs, haligns, hedits⟩ := exists_script_aligns h changes
  have hleaves := leaves_allGaps (isMatching_of_matching h hfound).1.rises
  refine ⟨found, s, hfound, hs, haligns, ?_, ?_⟩
  · intro β c' changes' s' hs' hsame hsize
    by_cases h' : c'.Fits
    · obtain ⟨found', t, hfound', ht, haligns', -⟩ := exists_script_aligns h' changes'
      obtain rfl : t = s' := Except.ok.inj (ht.symm.trans hs')
      rw [hsame] at haligns'
      rw [hfound', Array.toList_inj.mp (haligns'.unique haligns hsize)]
    · rw [script_of_not_fits h'] at hs'
      cases hs'
  · intro es hne hpart htouch
    rw [hedits] at hpart
    have hfollows := List.IsChain.infix hleaves.isChain hpart
    refine map_kind_mem_gapKinds hne ?_ hfollows htouch
    intro e he
    obtain ⟨g, -, heg⟩ := List.mem_flatMap.mp (hpart.subset he)
    exact kind_mem_gapKinds heg

/-- The script between two words, with the four pairs that it leaves alone. -/
theorem script_is_alignment_abcabba :
    (ofEq #['a', 'b', 'c', 'a', 'b', 'b', 'a'] #['c', 'b', 'a', 'b', 'a', 'c']).Fits ∧
      ∃ found s, (ofEq #['a', 'b', 'c', 'a', 'b', 'b', 'a']
          #['c', 'b', 'a', 'b', 'a', 'c']).script true = .ok s ∧
        (ofEq #['a', 'b', 'c', 'a', 'b', 'b', 'a']
          #['c', 'b', 'a', 'b', 'a', 'c']).Aligns 0 0 s.edits.toList found ∧
        found.length = 4 := by
  have hfits : (ofEq #['a', 'b', 'c', 'a', 'b', 'b', 'a']
      #['c', 'b', 'a', 'b', 'a', 'c']).Fits := by decide
  obtain ⟨found, s, hfound, hs, haligns, -⟩ := (script_is_alignment (ofEq
    #['a', 'b', 'c', 'a', 'b', 'b', 'a'] #['c', 'b', 'a', 'b', 'a', 'c']) true).1 hfits
  obtain ⟨hmatching, hlength⟩ := isMatching_of_matching hfits hfound
  exact ⟨hfits, found.toList, s, hs, haligns, (hmatching.length_eq_table hlength).trans (by decide)⟩

end Comparison

end EditGraph
