import EditGraph.Edit
import EditGraph.Matching
import EditGraph.Similarity

/-!
# Edit scripts

An edit script turns the old sequence into the new one. It has edits for every gap of a
matching, a gap being what lies between two consecutive pairs, or between a pair and an end
of the sequences. A gap deletes its old elements and inserts its new ones, or, when changes
are wanted, changes as many as it has on both sides and deletes or inserts what is left.

Replaying a script copies the old elements between the edits and takes the inserted ones
from the new sequence. It works on any two sequences that are long enough.

## Main definitions

* `Gap`, `gaps`, `Gap.edits` — the gaps of a matching and their edits.
* `EditScript` — the edits with their total cost and the similarity.
* `EditScript.Assembly.step`, `EditScript.ofMatching` — the script of a matching, pair by pair.
* `Rises` — pairs that rise from one point to another.
* `EditScript.apply` — the replay.

## Main results

* `foldr_removed_edits`, `foldr_inserted_edits` — the edits of a gap exchange just its elements.
* `EditScript.ofMatching_eq` — the script of pairs that rise has the edits of their gaps.
-/

namespace EditGraph

/-- `width` old elements from position `x` on and `height` new ones from position `y` on,
none of them matched. -/
structure Gap where
  x : Nat
  y : Nat
  width : Nat
  height : Nat
  deriving DecidableEq, Repr

/-- The gaps before each pair, when `x` old and `y` new elements precede the first one. -/
def gaps (x y : Nat) : List Match → List Gap
  | [] => []
  | p :: rest => ⟨x, y, p.x - 1 - x, p.y - 1 - y⟩ :: gaps p.x p.y rest

/-- The edits of a gap. Edits of no elements are left out. -/
def Gap.edits (changes : Bool) (g : Gap) : List Edit :=
  let shared := if changes then min g.width g.height else 0
  [⟨.change, g.x, g.y, shared⟩,
   ⟨.delete, g.x + shared, g.y + shared, g.width - shared⟩,
   ⟨.insert, g.x + g.width, g.y + shared, g.height - shared⟩].filter fun e => 0 < e.length

/-- The edits of a gap remove all of its old elements. -/
theorem foldr_removed_edits (changes : Bool) (g : Gap) :
    (g.edits changes).foldr (fun e n => e.removed + n) 0 = g.width := by
  simp only [Gap.edits, List.filter_cons, List.filter_nil, decide_eq_true_eq]
  split <;> split <;> split <;> split <;> simp [Edit.removed] <;> omega

/-- The edits of a gap bring in all of its new elements. -/
theorem foldr_inserted_edits (changes : Bool) (g : Gap) :
    (g.edits changes).foldr (fun e n => e.inserted + n) 0 = g.height := by
  simp only [Gap.edits, List.filter_cons, List.filter_nil, decide_eq_true_eq]
  split <;> split <;> split <;> split <;> simp [Edit.inserted] <;> omega

/-- Edits in order, their total cost, and the similarity of the sequences they turn into
each other. -/
structure EditScript where
  edits : Array Edit
  totalCost : Nat
  similarity : Similarity
  deriving DecidableEq, Repr

namespace EditScript

/-- The script with one more edit at its end. -/
def add (s : EditScript) (e : Edit) : Except Fault EditScript := do
  let totalCost ← Word.fit (s.totalCost + (← e.cost))
  return { s with edits := s.edits.push e, totalCost }

/-- How far the assembly of a script has come: the positions of the next elements on either side,
counted from one, and the script so far. -/
structure Assembly where
  x : Nat
  y : Nat
  script : EditScript

namespace Assembly

/-- Adds a change of as many elements before the pair `p` as there are on both sides. -/
def change (s : Assembly) (p : Match) : Except Fault Assembly := do
  if s.x < p.x ∧ s.y < p.y then
    let length := min (p.x - s.x) (p.y - s.y)
    let script ← s.script.add
      ⟨.change, ← Word.difference s.x 1, ← Word.difference s.y 1, length⟩
    return ⟨← Word.fit (s.x + length), ← Word.fit (s.y + length), script⟩
  else return s

/-- Adds a deletion and an insertion of what is left before the pair `p`, and goes on behind the
pair. -/
def close (s : Assembly) (p : Match) : Except Fault Assembly := do
  let script ←
    if s.x < p.x then do
      s.script.add ⟨.delete, ← Word.difference s.x 1, ← Word.difference s.y 1, p.x - s.x⟩
    else pure s.script
  let script ←
    if s.y < p.y then do
      script.add ⟨.insert, ← Word.difference p.x 1, ← Word.difference s.y 1, p.y - s.y⟩
    else pure script
  return ⟨← Word.fit (p.x + 1), ← Word.fit (p.y + 1), script⟩

/-- Adds the edits for what lies before the pair `p`. -/
def step (changes : Bool) (s : Assembly) (p : Match) : Except Fault Assembly := do
  let s ← if changes then s.change p else pure s
  s.close p

end Assembly

/-- The script of a matching of sequences of lengths `n` and `m`. A pair behind both ends
closes the last gap. -/
def ofMatching (changes : Bool) (n m : Nat) (found : List Match) : Except Fault EditScript := do
  let similarity ← Similarity.create found.length n m
  let last : Match := ⟨← Word.fit (n + 1), ← Word.fit (m + 1)⟩
  let assembly ← (found ++ [last]).foldlM (Assembly.step changes) ⟨1, 1, ⟨#[], 0, similarity⟩⟩
  return assembly.script

/-! ### The loop and the gaps -/

/-- The script with one more edit, unless that is one of no elements. -/
def addIfAny (s : EditScript) (e : Edit) : Except Fault EditScript :=
  if 0 < e.length then s.add e else .ok s

/-- Leaving edits of no elements out beforehand comes to the same. -/
theorem foldlM_filter (es : List Edit) (s : EditScript) :
    (es.filter fun e => 0 < e.length).foldlM add s = es.foldlM addIfAny s := by
  induction es generalizing s with
  | nil => rfl
  | cons e es ih =>
    rw [List.foldlM_cons, addIfAny, List.filter_cons]
    by_cases hlength : 0 < e.length
    · simp only [hlength, decide_true, if_true, List.foldlM_cons, ih]
    · simp only [hlength, decide_false, if_false, Bool.false_eq_true, ih, ok_bind]

variable {x y : Nat} {s : EditScript} {p : Match}

/-- The change before a pair takes as many elements as both sides of the gap have. The positions of
an assembly count from one. -/
theorem change_eq (hlimit : p.x + 1 < Word.limit ∧ p.y + 1 < Word.limit) (hx : x < p.x)
    (hy : y < p.y) {shared : Nat} (hshared : shared = min (p.x - 1 - x) (p.y - 1 - y)) :
    Assembly.change ⟨x + 1, y + 1, s⟩ p =
      (addIfAny s ⟨.change, x, y, shared⟩ >>= fun script =>
        .ok ⟨x + shared + 1, y + shared + 1, script⟩) := by
  have hmin : min (p.x - (x + 1)) (p.y - (y + 1)) = shared := by omega
  have hx' : x + 1 + shared = x + shared + 1 := Nat.add_right_comm x 1 shared
  have hy' : y + 1 + shared = y + shared + 1 := Nat.add_right_comm y 1 shared
  by_cases hboth : x + 1 < p.x ∧ y + 1 < p.y
  · rw [Assembly.change, if_pos hboth, addIfAny, if_pos (by simp only; omega)]
    simp only [hmin, Word.difference_of_le (Nat.le_add_left 1 _), Nat.add_sub_cancel, ok_bind,
      hx', hy', Word.fit_of_lt (show x + shared + 1 < Word.limit by omega),
      Word.fit_of_lt (show y + shared + 1 < Word.limit by omega)]
    rfl
  · obtain rfl : shared = 0 := by omega
    rw [Assembly.change, if_neg hboth, addIfAny, if_neg (Nat.lt_irrefl 0)]
    rfl

/-- What is left before a pair is deleted, and inserted. -/
theorem close_eq (hlimit : p.x + 1 < Word.limit ∧ p.y + 1 < Word.limit) (hx : x < p.x)
    (hy : y < p.y) :
    Assembly.close ⟨x + 1, y + 1, s⟩ p =
      (addIfAny s ⟨.delete, x, y, p.x - 1 - x⟩ >>= fun script =>
        addIfAny script ⟨.insert, p.x - 1, y, p.y - 1 - y⟩ >>= fun script =>
          .ok ⟨p.x + 1, p.y + 1, script⟩) := by
  have hwidth : p.x - (x + 1) = p.x - 1 - x := by omega
  have hheight : p.y - (y + 1) = p.y - 1 - y := by omega
  have hx' : x + 1 < p.x ↔ 0 < p.x - 1 - x := by omega
  have hy' : y + 1 < p.y ↔ 0 < p.y - 1 - y := by omega
  simp only [Assembly.close, addIfAny, hwidth, hheight, hx', hy',
    Word.difference_of_le (Nat.le_add_left 1 _), Nat.add_sub_cancel, ok_bind,
    Word.difference_of_le (show 1 ≤ p.x by omega), Word.fit_of_lt hlimit.1,
    Word.fit_of_lt hlimit.2]
  by_cases hdelete : 0 < p.x - 1 - x
  · rw [if_pos hdelete, if_pos hdelete]
    refine congrArg _ (funext fun script => ?_)
    split <;> rfl
  · rw [if_neg hdelete, if_neg hdelete]
    split <;> rfl

/-- **One pair** adds the edits of the gap before it. -/
theorem step_eq (changes : Bool) (hlimit : p.x + 1 < Word.limit ∧ p.y + 1 < Word.limit)
    (hx : x < p.x) (hy : y < p.y) :
    Assembly.step changes ⟨x + 1, y + 1, s⟩ p =
      ((Gap.edits changes ⟨x, y, p.x - 1 - x, p.y - 1 - y⟩).foldlM add s >>= fun script =>
        .ok ⟨p.x + 1, p.y + 1, script⟩) := by
  have hright : x + (p.x - 1 - x) = p.x - 1 := by omega
  simp only [Gap.edits, foldlM_filter, List.foldlM_cons, List.foldlM_nil, bind_assoc, pure_bind,
    hright]
  cases changes with
  | false =>
    have hnone : addIfAny s ⟨.change, x, y, 0⟩ = .ok s := if_neg (Nat.lt_irrefl 0)
    simp only [Assembly.step, Bool.false_eq_true, if_false, hnone, ok_bind, pure_bind,
      Nat.add_zero, Nat.sub_zero, close_eq hlimit hx hy]
  | true =>
    simp only [Assembly.step, if_true, change_eq hlimit hx hy rfl, bind_assoc, ok_bind]
    refine congrArg _ (funext fun script => ?_)
    rw [close_eq hlimit (by omega) (by omega), Nat.sub_add_eq, Nat.sub_add_eq]

end EditScript

/-- The pairs lie behind the point `(x, y)` and not behind `(n, m)`, each behind the one before
it on both sides. -/
def Rises (n m x y : Nat) : List Match → Prop
  | [] => x ≤ n ∧ y ≤ m
  | p :: l => x < p.x ∧ y < p.y ∧ Rises n m p.x p.y l

variable {n m x y : Nat} {l : List Match}

/-- The point that pairs rise from is not behind the one they rise to. -/
theorem Rises.le (h : Rises n m x y l) : x ≤ n ∧ y ≤ m := by
  induction l generalizing x y with
  | nil => exact h
  | cons p l ih =>
      obtain ⟨hx, hy, hl⟩ := h
      have := ih hl
      omega

namespace EditScript

/-- Pair by pair, the assembly adds the edits of all gaps. -/
theorem foldlM_step (changes : Bool) {s : EditScript} (h : Rises n m x y l)
    (hlimit : n + 2 < Word.limit ∧ m + 2 < Word.limit) :
    (l ++ [(⟨n + 1, m + 1⟩ : Match)]).foldlM (Assembly.step changes) ⟨x + 1, y + 1, s⟩ =
      (((gaps x y (l ++ [⟨n + 1, m + 1⟩])).flatMap (Gap.edits changes)).foldlM add s >>=
        fun script => .ok ⟨n + 2, m + 2, script⟩) := by
  induction l generalizing x y s with
  | nil =>
    obtain ⟨hx, hy⟩ := h
    rw [List.nil_append, List.foldlM_cons,
      step_eq changes hlimit (Nat.lt_succ_of_le hx) (Nat.lt_succ_of_le hy)]
    simp only [gaps, List.flatMap_cons, List.flatMap_nil, List.append_nil, List.foldlM_nil,
      bind_pure]
  | cons p l ih =>
    obtain ⟨hx, hy, hl⟩ := h
    obtain ⟨hpx, hpy⟩ := hl.le
    rw [List.cons_append, List.foldlM_cons, step_eq changes ⟨by omega, by omega⟩ hx hy, gaps,
      List.flatMap_cons, List.foldlM_append, bind_assoc, bind_assoc]
    refine congrArg _ (funext fun script => ?_)
    rw [ok_bind, ih hl]

/-- **The script of pairs that rise** has the edits of their gaps. -/
theorem ofMatching_eq (changes : Bool) (h : Rises n m 0 0 l) (hlimit : n + m + 2 < Word.limit)
    (hcount : 2 * l.length ≤ n + m) :
    ofMatching changes n m l =
      ((gaps 0 0 (l ++ [⟨n + 1, m + 1⟩])).flatMap (Gap.edits changes)).foldlM add
        ⟨#[], 0, ⟨l.length, n + m⟩⟩ := by
  have hloop := foldlM_step changes (s := ⟨#[], 0, ⟨l.length, n + m⟩⟩) h ⟨by omega, by omega⟩
  simp only [Nat.zero_add] at hloop
  simp only [ofMatching, Similarity.create_eq_ok (show n + m < Word.limit by omega) hcount,
    Word.fit_of_lt (show n + 1 < Word.limit by omega),
    Word.fit_of_lt (show m + 1 < Word.limit by omega), ok_bind, hloop, bind_assoc]
  exact bind_pure _

/-! ### Replay -/

/-- The elements at positions `start` up to and without `stop`. -/
def stretch {α : Type} (a : Array α) (start stop : Nat) : Except Fault (Array α) :=
  if start ≤ stop ∧ stop ≤ a.size then .ok (a.extract start stop) else .error .sliceRange

/-- How far a replay has come: the old elements used up, and the output so far. -/
structure Replay (α : Type) where
  cursor : Nat
  output : Array α

/-- Replays one edit. -/
def Replay.step {α : Type} (a b : Array α) (replay : Replay α) (e : Edit) :
    Except Fault (Replay α) := do
  let ⟨cursor, output⟩ := replay
  let kept ← stretch a cursor e.x
  let added ←
    match e.kind with
    | .delete => pure #[]
    | .insert | .change => do stretch b e.y (← e.newEnd)
  return ⟨← e.oldEnd, output ++ kept ++ added⟩

/-- Replays the script on `a`, taking inserted elements from `b`. -/
def apply {α : Type} (s : EditScript) (a b : Array α) : Except Fault (Array α) := do
  let ⟨cursor, output⟩ ← s.edits.foldlM (Replay.step a b) ⟨0, #[]⟩
  return output ++ (← stretch a cursor a.size)

end EditScript

end EditGraph
