import Mathlib.Data.List.GetD
import Mathlib.Logic.Function.Basic
import Mathlib.Tactic.SplitIfs

/-! # A queue in an array

The first `n` cells of an array hold a queue. Bytes are put behind it with one copy,
and taking from the front moves the rest down.
-/

namespace LinearBuffer

universe u

variable {α : Type u}

/-- The cells below `n`. -/
def contents (buf : Nat → α) (n : Nat) : List α := (List.range n).map buf

/-- `xs` is copied to the cells from `pos` on. -/
def put (buf : Nat → α) (pos : Nat) (xs : List α) : Nat → α := fun i =>
  if pos ≤ i then xs.getD (i - pos) (buf i) else buf i

/-- `n` cells move from `src` to `dst`, as if through a copy of them. -/
def move (buf : Nat → α) (dst src n : Nat) : Nat → α := fun i =>
  if dst ≤ i ∧ i < dst + n then buf (src + (i - dst)) else buf i

variable {buf : Nat → α} {n k : Nat} {xs : List α}

@[simp] theorem length_contents : (contents buf n).length = n := by rw [contents, List.length_map, List.length_range]

@[simp] theorem getElem_contents {i : Nat} (hi : i < (contents buf n).length) : (contents buf n)[i] = buf i := by
  simp [contents]

theorem contents_put : contents (put buf n xs) (n + xs.length) = contents buf n ++ xs := by
  apply List.ext_getElem
  · rw [length_contents, List.length_append, length_contents]
  · intro i hLeft hRight
    rw [getElem_contents, put]
    split
    · next hLe =>
      rw [List.getElem_append_right (by rw [length_contents]; exact hLe)]
      simp only [length_contents] at hLeft ⊢
      rw [List.getD_eq_getElem _ _ (by omega)]
    · next hLess =>
      rw [List.getElem_append_left (by rw [length_contents]; omega), getElem_contents]

theorem contents_take (hLe : k ≤ n) : (contents buf n).take k = contents buf k := by
  apply List.ext_getElem
  · rw [List.length_take, length_contents, length_contents, Nat.min_eq_left hLe]
  · intro i hLeft hRight
    rw [List.getElem_take, getElem_contents, getElem_contents]

theorem contents_move : contents (move buf 0 k (n - k)) (n - k) = (contents buf n).drop k := by
  apply List.ext_getElem
  · rw [List.length_drop, length_contents, length_contents]
  · intro i hLeft hRight
    rw [length_contents] at hLeft
    rw [List.getElem_drop, getElem_contents, getElem_contents, move, if_pos ⟨Nat.zero_le i, by omega⟩, Nat.sub_zero]

end LinearBuffer

/-! # A queue in a circular array

One slot of the array stays free, so that a full queue is not taken for an empty one.
-/

namespace RingBuffer

universe u

variable {α : Type u}

/-- The next element goes to `head`; the first is at `tail`. -/
structure Ring (α : Type u) where
  buf : Nat → α
  head : Nat
  tail : Nat

structure Ring.Fits (cap : Nat) (r : Ring α) : Prop where
  head : r.head < cap
  tail : r.tail < cap

def used (cap : Nat) (r : Ring α) : Nat :=
  if r.head ≥ r.tail then r.head - r.tail else cap - r.tail + r.head

def contents (cap : Nat) (r : Ring α) : List α := (List.range (used cap r)).map fun i => r.buf ((r.tail + i) % cap)

def push (cap : Nat) (r : Ring α) (a : α) : Ring α :=
  { r with buf := Function.update r.buf r.head a, head := (r.head + 1) % cap }

def pushAll (cap : Nat) : Ring α → List α → Ring α
  | r, [] => r
  | r, a :: as => pushAll cap (push cap r a) as

def pop (cap : Nat) (r : Ring α) : Ring α := { r with tail := (r.tail + 1) % cap }

/-- The first `n` elements, and what is left. -/
def popAll (cap : Nat) : Ring α → Nat → List α × Ring α
  | r, 0 => ([], r)
  | r, n + 1 => ((r.buf r.tail :: (popAll cap (pop cap r) n).1), (popAll cap (pop cap r) n).2)

variable {cap : Nat} {r : Ring α} {a : α} {as : List α} {n : Nat}

theorem length_contents : (contents cap r).length = used cap r := by rw [contents, List.length_map, List.length_range]

theorem mod_add_one {i : Nat} (hi : i < cap) : (i + 1) % cap = if i + 1 = cap then 0 else i + 1 := by
  split
  · next hEnd => rw [hEnd, Nat.mod_self]
  · exact Nat.mod_eq_of_lt (by omega)

theorem mod_add {i j : Nat} (hi : i < cap) (hj : j < cap) :
    (i + j) % cap = if i + j < cap then i + j else i + j - cap := by
  split
  · next hLess => exact Nat.mod_eq_of_lt hLess
  · rw [Nat.mod_eq_sub_mod (by omega), Nat.mod_eq_of_lt (by omega)]

variable (h : r.Fits cap)

include h

theorem used_lt : used cap r < cap := by
  obtain ⟨hHead, hTail⟩ := h
  rw [used]
  split <;> omega

theorem Ring.Fits.push : (RingBuffer.push cap r a).Fits cap :=
  ⟨Nat.mod_lt _ (Nat.zero_lt_of_lt h.head), h.tail⟩

theorem Ring.Fits.pop : (RingBuffer.pop cap r).Fits cap :=
  ⟨h.head, Nat.mod_lt _ (Nat.zero_lt_of_lt h.tail)⟩

theorem used_push (hRoom : used cap r + 1 < cap) : used cap (push cap r a) = used cap r + 1 := by
  obtain ⟨hHead, hTail⟩ := h
  simp only [used, push, mod_add_one hHead] at hRoom ⊢
  split_ifs at hRoom ⊢ <;> omega

theorem used_pop (hSome : 0 < used cap r) : used cap (pop cap r) + 1 = used cap r := by
  obtain ⟨hHead, hTail⟩ := h
  simp only [used, pop, mod_add_one hTail] at hSome ⊢
  split_ifs at hSome ⊢ <;> omega

theorem contents_push (hRoom : used cap r + 1 < cap) : contents cap (push cap r a) = contents cap r ++ [a] := by
  have hHead := h.head
  have hTail := h.tail
  rw [contents, used_push h hRoom, List.range_succ, List.map_append, List.map_singleton, contents]
  congr 1
  · apply List.map_congr_left
    intro i hi
    rw [List.mem_range] at hi
    refine Function.update_of_ne ?_ _ _
    change (r.tail + i) % cap ≠ r.head
    rw [mod_add hTail (by omega)]
    simp only [used] at hi hRoom
    split_ifs at hi hRoom ⊢ <;> omega
  · have hLast : (r.tail + used cap r) % cap = r.head := by
      rw [mod_add hTail (by omega)]
      simp only [used] at hRoom ⊢
      split_ifs at hRoom ⊢ <;> omega
    change [Function.update r.buf r.head a ((r.tail + used cap r) % cap)] = [a]
    rw [hLast, Function.update_self]

theorem contents_pop (hSome : 0 < used cap r) : contents cap r = r.buf r.tail :: contents cap (pop cap r) := by
  have hTail := h.tail
  rw [contents, ← used_pop h hSome, List.range_succ_eq_map, List.map_cons, List.map_map, contents, Nat.add_zero,
    Nat.mod_eq_of_lt hTail]
  congr 1
  apply List.map_congr_left
  intro i hi
  rw [List.mem_range] at hi
  change r.buf ((r.tail + (i + 1)) % cap) = r.buf (((r.tail + 1) % cap + i) % cap)
  rw [Nat.mod_add_mod, Nat.add_assoc, Nat.add_comm 1 i]

theorem pushAll_spec (hRoom : used cap r + as.length < cap) :
    (pushAll cap r as).Fits cap ∧ contents cap (pushAll cap r as) = contents cap r ++ as := by
  induction as generalizing r with
  | nil => exact ⟨h, (List.append_nil _).symm⟩
  | cons a as ih =>
    rw [List.length_cons] at hRoom
    have hFirst : used cap r + 1 < cap := by omega
    have hRest : used cap (push cap r a) + as.length < cap := by
      rw [used_push h hFirst]
      omega
    obtain ⟨hFits, hContents⟩ := ih h.push hRest
    refine ⟨hFits, hContents.trans ?_⟩
    rw [contents_push h hFirst, List.append_assoc, List.singleton_append]

theorem popAll_spec (hSome : n ≤ used cap r) : (popAll cap r n).2.Fits cap ∧ (popAll cap r n).1.length = n ∧
      contents cap r = (popAll cap r n).1 ++ contents cap (popAll cap r n).2 := by
  induction n generalizing r with
  | zero => exact ⟨h, rfl, rfl⟩
  | succ n ih =>
    have hPos : 0 < used cap r := by omega
    have hRest : n ≤ used cap (pop cap r) := by
      have hUsed := used_pop h hPos
      omega
    obtain ⟨hFits, hLength, hContents⟩ := ih h.pop hRest
    refine ⟨hFits, congrArg (· + 1) hLength, ?_⟩
    rw [contents_pop h hPos, hContents]
    rfl

end RingBuffer
