import Mathlib.Tactic.IntervalCases
import OpenXJ380.Lib.WordMemory

/-! # A stack that grows downwards

Each block lies below all that was pushed before it, and what is above does not change. Words that are pushed without
a gap form one row.
-/

namespace PushedBlocks

open WordMemory

abbrev Stack := Memory × Nat

variable {a : Nat} {st st' st'' : Stack} {blocks blocks' : List (Nat × List (BitVec 8))}
  {ws ws' : List (BitVec 64)}

/-- Blocks that have been pushed one after the other, with their addresses. -/
structure Pushed (st : Stack) (blocks : List (Nat × List (BitVec 8))) (st' : Stack) : Prop where
  below : st'.2 ≤ st.2
  inside : ∀ b ∈ blocks, st'.2 ≤ b.1 ∧ b.1 + b.2.length ≤ st.2
  apart : blocks.Pairwise fun b b' => b'.1 + b'.2.length ≤ b.1
  holds : ∀ b ∈ blocks, loadBytes st'.1 b.1 b.2.length = b.2
  above : ∀ x, st.2 ≤ x → st'.1 x = st.1 x

theorem Pushed.lower (h : a ≤ st.2) : Pushed st [] (st.1, a) :=
  ⟨h, fun _ hb => absurd hb List.not_mem_nil, .nil, fun _ hb => absurd hb List.not_mem_nil, fun _ _ => rfl⟩

theorem Pushed.push (bs : List (BitVec 8)) (h : a + bs.length ≤ st.2) :
    Pushed st [(a, bs)] (storeBytes st.1 a bs, a) where
  below := by simp only; omega
  inside b hb := by
    obtain rfl := List.mem_singleton.mp hb
    exact ⟨le_rfl, h⟩
  apart := List.pairwise_singleton _ _
  holds b hb := by
    obtain rfl := List.mem_singleton.mp hb
    exact loadBytes_storeBytes st.1 a bs
  above x hx := storeBytes_agree st.1 bs (.inr h) x hx (lt_add_one x)

theorem Pushed.trans (h : Pushed st blocks st') (h' : Pushed st' blocks' st'') :
    Pushed st (blocks ++ blocks') st'' where
  below := h'.below.trans h.below
  inside b hb := by
    have hBelow := h.below
    have hBelow' := h'.below
    obtain hb | hb := List.mem_append.mp hb
    · have := h.inside b hb
      omega
    · have := h'.inside b hb
      omega
  apart := by
    refine List.pairwise_append.mpr ⟨h.apart, h'.apart, fun b hb b' hb' => ?_⟩
    exact (h'.inside b' hb').2.trans (h.inside b hb).1
  holds b hb := by
    obtain hb | hb := List.mem_append.mp hb
    · have hInside := h.inside b hb
      have hSame : Agree st'.1 st''.1 b.1 (b.1 + b.2.length) := fun x hLow _ => h'.above x (hInside.1.trans hLow)
      rw [loadBytes_congr hSame, h.holds b hb]
    · exact h'.holds b hb
  above x hx := (h'.above x (h.below.trans hx)).trans (h.above x hx)

def wordBytes (ws : List (BitVec 64)) : List (BitVec 8) := ws.flatMap fun w => (List.range 8).map (byteOf w)

theorem wordBytes_cons (w : BitVec 64) (ws : List (BitVec 64)) :
    wordBytes (w :: ws) = (List.range 8).map (byteOf w) ++ wordBytes ws := List.flatMap_cons

@[simp] theorem length_wordBytes (ws : List (BitVec 64)) : (wordBytes ws).length = 8 * ws.length := by
  induction ws with
  | nil => rfl
  | cons w ws ih => simp [wordBytes_cons, ih, mul_add, add_comm]

theorem getD_wordBytes (ws : List (BitVec 64)) {i : Nat} (h : i < 8 * ws.length) :
    (wordBytes ws).getD i 0 = byteOf (ws.getD (i / 8) 0) (i % 8) := by
  induction ws generalizing i with
  | nil => simp at h
  | cons w ws ih =>
    rw [List.length_cons] at h
    rw [wordBytes_cons]
    obtain hFirst | hLater := lt_or_ge i 8
    · rw [List.getD_append _ _ _ _ (by simpa using hFirst), Nat.div_eq_of_lt hFirst, Nat.mod_eq_of_lt hFirst]
      simp [hFirst]
    · obtain ⟨j, rfl⟩ := Nat.exists_eq_add_of_le hLater
      have hDiv : (8 + j) / 8 = j / 8 + 1 := by omega
      have hMod : (8 + j) % 8 = j % 8 := by omega
      rw [List.getD_append_right _ _ _ _ (by simp), List.length_map, List.length_range, Nat.add_sub_cancel_left,
        ih (by omega), hDiv, hMod, List.getD_cons_succ]

theorem storeBytes_wordBytes (m : Memory) (a : Nat) (ws : List (BitVec 64)) :
    storeBytes m a (wordBytes ws) = storeWords m a ws := by
  funext x
  rw [storeBytes, storeWords, length_wordBytes]
  split
  next h => exact getD_wordBytes ws (by omega)
  next => rfl

def loadWords (m : Memory) (a n : Nat) : List (BitVec 64) := (List.range n).map fun i => loadWord m (a + 8 * i)

@[simp] theorem length_loadWords (m : Memory) (a n : Nat) : (loadWords m a n).length = n := by simp [loadWords]

theorem loadWords_add (m : Memory) (a n k : Nat) :
    loadWords m a (n + k) = loadWords m a n ++ loadWords m (a + 8 * n) k := by
  simp only [loadWords, List.range_add, List.map_append, List.map_map]
  congr 1
  apply List.map_congr_left
  intro i _
  simp only [Function.comp_apply, mul_add, add_assoc]

theorem loadWords_congr {m' : Memory} {n : Nat} (h : Agree m m' a (a + 8 * n)) :
    loadWords m' a n = loadWords m a n := by
  apply List.map_congr_left
  intro i hi
  have hLess := List.mem_range.mp hi
  exact loadWord_congr fun x hLow hHigh => h x (by omega) (by omega)

theorem loadWords_storeWords (m : Memory) (a : Nat) (ws : List (BitVec 64)) :
    loadWords (storeWords m a ws) a ws.length = ws := by
  apply List.ext_getElem (length_loadWords _ _ _)
  intro i hi hi'
  simp only [loadWords, List.getElem_map, List.getElem_range]
  exact loadWord_storeWords m a hi'

theorem byteOf_loadWord (m : Memory) (a : Nat) {i : Nat} (h : i < 8) : byteOf (loadWord m a) i = m (a + i) := by
  apply BitVec.eq_of_getLsbD_eq
  intro j hj
  simp only [byteOf, loadWord, BitVec.getLsbD_extractLsb', BitVec.getLsbD_append]
  interval_cases i <;> grind

theorem loadBytes_eq_wordBytes (m : Memory) (a n : Nat) : loadBytes m a (8 * n) = wordBytes (loadWords m a n) := by
  induction n with
  | zero => rfl
  | succ n ih =>
    have hLast : loadBytes m (a + 8 * n) 8 = wordBytes (loadWords m (a + 8 * n) 1) := by
      apply List.map_congr_left
      intro i hi
      exact (byteOf_loadWord m (a + 8 * n) (List.mem_range.mp hi)).symm
    rw [Nat.mul_succ, loadBytes_add, loadWords_add, ih, hLast, wordBytes, wordBytes, wordBytes, List.flatMap_append]

/-- Words that have been pushed without a gap, so that the last one comes first. -/
structure Row (st : Stack) (ws : List (BitVec 64)) (st' : Stack) : Prop where
  fits : st'.2 + 8 * ws.length = st.2
  words : loadWords st'.1 st'.2 ws.length = ws
  above : ∀ x, st.2 ≤ x → st'.1 x = st.1 x

theorem Row.refl (st : Stack) : Row st [] st := ⟨rfl, rfl, fun _ _ => rfl⟩

theorem Row.push (ws : List (BitVec 64)) (h : a + 8 * ws.length = st.2) : Row st ws (storeWords st.1 a ws, a) :=
  ⟨h, loadWords_storeWords st.1 a ws, fun x hx => storeWords_agree st.1 ws (.inr h.le) x hx (lt_add_one x)⟩

theorem Row.trans (h : Row st ws st') (h' : Row st' ws' st'') : Row st (ws' ++ ws) st'' where
  fits := by
    have := h.fits
    have := h'.fits
    rw [List.length_append]
    omega
  words := by
    have hFits := h'.fits
    have hSame : Agree st'.1 st''.1 st'.2 (st'.2 + 8 * ws.length) := fun x hLow _ => h'.above x hLow
    rw [List.length_append, loadWords_add, h'.words, hFits, loadWords_congr hSame, h.words]
  above x hx := by
    have hFits := h.fits
    exact (h'.above x (by omega)).trans (h.above x hx)

theorem Row.pushed (h : Row st ws st') : Pushed st [(st'.2, wordBytes ws)] st' where
  below := by
    have := h.fits
    omega
  inside b hb := by
    obtain rfl := List.mem_singleton.mp hb
    exact ⟨le_rfl, by rw [length_wordBytes]; exact h.fits.le⟩
  apart := List.pairwise_singleton _ _
  holds b hb := by
    obtain rfl := List.mem_singleton.mp hb
    rw [length_wordBytes, loadBytes_eq_wordBytes, h.words]
  above := h.above

end PushedBlocks
