import Mathlib.Data.List.GetD
import Mathlib.Data.BitVec

/-! # Byte memory with words of 64 bits

Addresses are natural numbers, and the low byte of a word comes first.
-/

namespace WordMemory

abbrev Memory := Nat → BitVec 8

def byteOf (w : BitVec 64) (i : Nat) : BitVec 8 := w.extractLsb' (8 * i) 8

def loadWord (m : Memory) (a : Nat) : BitVec 64 :=
  m (a + 7) ++ m (a + 6) ++ m (a + 5) ++ m (a + 4) ++ m (a + 3) ++ m (a + 2) ++ m (a + 1) ++ m a

/-- The words stand one behind the other from `a` on. -/
def storeWords (m : Memory) (a : Nat) (ws : List (BitVec 64)) : Memory := fun x =>
  if a ≤ x ∧ x < a + 8 * ws.length then byteOf (ws.getD ((x - a) / 8) 0) ((x - a) % 8) else m x

def loadBytes (m : Memory) (a n : Nat) : List (BitVec 8) := (List.range n).map fun i => m (a + i)

def storeBytes (m : Memory) (a : Nat) (bs : List (BitVec 8)) : Memory := fun x =>
  if a ≤ x ∧ x < a + bs.length then bs.getD (x - a) 0 else m x

/-- The same bytes from `lo` up to `hi`. -/
def Agree (m m' : Memory) (lo hi : Nat) : Prop := ∀ x, lo ≤ x → x < hi → m' x = m x

variable {m m' m'' : Memory} {a lo hi i : Nat} {ws : List (BitVec 64)}

theorem Agree.refl (m : Memory) (lo hi : Nat) : Agree m m lo hi := fun _ _ _ => rfl

theorem Agree.trans (h : Agree m m' lo hi) (h' : Agree m' m'' lo hi) : Agree m m'' lo hi :=
  fun x hLow hHigh => (h' x hLow hHigh).trans (h x hLow hHigh)

theorem storeWords_agree (m : Memory) (ws : List (BitVec 64)) (hApart : hi ≤ a ∨ a + 8 * ws.length ≤ lo) :
    Agree m (storeWords m a ws) lo hi := by
  intro x hLow hHigh
  rw [storeWords, if_neg]
  omega

theorem bytes_word (w : BitVec 64) :
    byteOf w 7 ++ byteOf w 6 ++ byteOf w 5 ++ byteOf w 4 ++ byteOf w 3 ++ byteOf w 2 ++ byteOf w 1 ++ byteOf w 0 =
      w := by
  apply BitVec.eq_of_getLsbD_eq
  intro i hi
  simp only [byteOf, BitVec.getLsbD_append, BitVec.getLsbD_extractLsb']
  grind

theorem loadWord_storeWords (m : Memory) (a : Nat) (hi : i < ws.length) :
    loadWord (storeWords m a ws) (a + 8 * i) = ws[i] := by
  have hByte : ∀ k, k < 8 → storeWords m a ws (a + 8 * i + k) = byteOf ws[i] k := by
    intro k hk
    have hIndex : (a + 8 * i + k - a) / 8 = i := by omega
    have hOffset : (a + 8 * i + k - a) % 8 = k := by omega
    rw [storeWords, if_pos (by omega), hIndex, hOffset, List.getD_eq_getElem _ _ hi]
  have hFirst := hByte 0 (by decide)
  rw [add_zero] at hFirst
  rw [loadWord, hFirst, hByte 1 (by decide), hByte 2 (by decide), hByte 3 (by decide), hByte 4 (by decide),
    hByte 5 (by decide), hByte 6 (by decide), hByte 7 (by decide), bytes_word]

theorem loadWord_congr (h : Agree m m' a (a + 8)) : loadWord m' a = loadWord m a := by
  have hByte : ∀ k, k < 8 → m' (a + k) = m (a + k) := fun k hk => h (a + k) (by omega) (by omega)
  have hFirst : m' a = m a := hByte 0 (by decide)
  rw [loadWord, loadWord, hFirst, hByte 1 (by decide), hByte 2 (by decide), hByte 3 (by decide), hByte 4 (by decide),
    hByte 5 (by decide), hByte 6 (by decide), hByte 7 (by decide)]

@[simp] theorem length_loadBytes (m : Memory) (a n : Nat) : (loadBytes m a n).length = n := by simp [loadBytes]

@[simp] theorem loadBytes_zero (m : Memory) (a : Nat) : loadBytes m a 0 = [] := rfl

theorem loadBytes_add (m : Memory) (a n k : Nat) :
    loadBytes m a (n + k) = loadBytes m a n ++ loadBytes m (a + n) k := by
  simp only [loadBytes, List.range_add, List.map_append, List.map_map]
  congr 1
  apply List.map_congr_left
  intro i _
  simp only [Function.comp_apply, add_assoc]

theorem loadBytes_congr {n : Nat} (h : Agree m m' a (a + n)) : loadBytes m' a n = loadBytes m a n := by
  apply List.map_congr_left
  intro i hi
  have hlt := List.mem_range.mp hi
  exact h (a + i) (by omega) (by omega)

@[simp] theorem storeBytes_nil (m : Memory) (a : Nat) : storeBytes m a [] = m := by
  funext x
  rw [storeBytes, if_neg (by simp only [List.length_nil]; omega)]

theorem storeBytes_agree (m : Memory) (bs : List (BitVec 8)) (hApart : hi ≤ a ∨ a + bs.length ≤ lo) :
    Agree m (storeBytes m a bs) lo hi := by
  intro x hLow hHigh
  rw [storeBytes, if_neg]
  omega

theorem loadBytes_storeBytes (m : Memory) (a : Nat) (bs : List (BitVec 8)) :
    loadBytes (storeBytes m a bs) a bs.length = bs := by
  apply List.ext_getElem (length_loadBytes _ a _)
  intro i hi hi'
  simp [loadBytes, storeBytes, hi']

theorem storeBytes_append (m : Memory) (a : Nat) (xs ys : List (BitVec 8)) :
    storeBytes m a (xs ++ ys) = storeBytes (storeBytes m a xs) (a + xs.length) ys := by
  funext x
  simp only [storeBytes, List.length_append]
  split_ifs with hAll hSecond hFirst hSecond hFirst
  · rw [List.getD_append_right _ _ _ _ (by omega), Nat.sub_add_eq]
  · exact List.getD_append _ _ _ _ (by omega)
  all_goals first | omega | rfl

end WordMemory

/-! # Byte memory with a 32-bit address space

Words are four bytes, the low one first. Addresses wrap, so an interval is given
by natural numbers and stays below the top of the address space.
-/

namespace ByteMemory

open BitVec (add_comm ofNat toNat_ofNat)

abbrev Address := BitVec 32
abbrev Word := BitVec 32
abbrev Memory := Address → BitVec 8

def load (m : Memory) (a : Address) : Word := m (a + 3#32) ++ m (a + 2#32) ++ m (a + 1#32) ++ m a

def store (m : Memory) (a : Address) (w : Word) : Memory := fun x =>
  if (x - a).toNat < 4 then w.extractLsb' (8 * (x - a).toNat) 8 else m x

/-- `n` bytes from `dst` on, all the same. -/
def fill (m : Memory) (dst : Address) (byte : BitVec 8) (n : Nat) : Memory := fun x =>
  if (x - dst).toNat < n then byte else m x

/-- `n` bytes from `src` on are copied to `dst`; the intervals do not overlap. -/
def copy (m : Memory) (dst src : Address) (n : Nat) : Memory := fun x =>
  if (x - dst).toNat < n then m (src + (x - dst)) else m x

/-- Two memories have the same bytes from `lo` up to `hi`. -/
def Agree (m m' : Memory) (lo hi : Nat) : Prop :=
  ∀ x : Address, lo ≤ x.toNat → x.toNat < hi → m' x = m x

variable {m m' m'' : Memory} {lo hi : Nat}

theorem Agree.refl (m : Memory) (lo hi : Nat) : Agree m m lo hi := fun _ _ _ => rfl

theorem Agree.trans (h : Agree m m' lo hi) (h' : Agree m' m'' lo hi) : Agree m m'' lo hi :=
  fun x hLow hHigh => (h' x hLow hHigh).trans (h x hLow hHigh)

theorem Agree.mono (h : Agree m m' lo hi) {lo' hi' : Nat} (hLow : lo ≤ lo') (hHigh : hi' ≤ hi) : Agree m m' lo' hi' :=
  fun x hx hx' => h x (hLow.trans hx) (hx'.trans_le hHigh)

theorem offset_lt_iff {a x : Address} {n : Nat} (hFits : a.toNat + n ≤ 2 ^ 32) :
    (x - a).toNat < n ↔ a.toNat ≤ x.toNat ∧ x.toNat < a.toNat + n := by
  rw [BitVec.toNat_sub]
  omega

theorem store_agree (m : Memory) {a : Address} (w : Word) (hFits : a.toNat + 4 ≤ 2 ^ 32)
    (hApart : hi ≤ a.toNat ∨ a.toNat + 4 ≤ lo) : Agree m (store m a w) lo hi := by
  intro x hLow hHigh
  rw [store, if_neg]
  rw [offset_lt_iff hFits]
  omega

theorem fill_agree (m : Memory) {dst : Address} (byte : BitVec 8) {n : Nat} (hFits : dst.toNat + n ≤ 2 ^ 32)
    (hApart : hi ≤ dst.toNat ∨ dst.toNat + n ≤ lo) : Agree m (fill m dst byte n) lo hi := by
  intro x hLow hHigh
  rw [fill, if_neg]
  rw [offset_lt_iff hFits]
  omega

theorem copy_agree (m : Memory) {dst : Address} (src : Address) {n : Nat} (hFits : dst.toNat + n ≤ 2 ^ 32)
    (hApart : hi ≤ dst.toNat ∨ dst.toNat + n ≤ lo) : Agree m (copy m dst src n) lo hi := by
  intro x hLow hHigh
  rw [copy, if_neg]
  rw [offset_lt_iff hFits]
  omega

theorem copy_byte (m : Memory) (dst src : Address) {n i : Nat} (hi : i < n) (hFits : n ≤ 2 ^ 32) :
    copy m dst src n (dst + ofNat 32 i) = m (src + ofNat 32 i) := by
  have hOffset : dst + ofNat 32 i - dst = ofNat 32 i := by
    rw [add_comm, BitVec.add_sub_cancel]
  rw [copy, hOffset, if_pos]
  rw [toNat_ofNat]
  omega

theorem load_store (m : Memory) (a : Address) (w : Word) : load (store m a w) a = w := by
  have hByte : ∀ i : Nat, i < 4 → store m a w (a + ofNat 32 i) = w.extractLsb' (8 * i) 8 := by
    intro i hi
    have hOffset : (a + ofNat 32 i - a).toNat = i := by
      rw [add_comm, BitVec.add_sub_cancel, toNat_ofNat]
      omega
    rw [store, hOffset, if_pos hi]
  have hZero : store m a w a = w.extractLsb' 0 8 := by
    have h := hByte 0 (by decide)
    rwa [BitVec.add_zero] at h
  have hOne := hByte 1 (by decide)
  have hTwo := hByte 2 (by decide)
  have hThree := hByte 3 (by decide)
  rw [load, hZero]
  rw [hOne, hTwo, hThree]
  apply BitVec.eq_of_getLsbD_eq
  intro i hi
  simp only [BitVec.getLsbD_append, BitVec.getLsbD_extractLsb']
  split
  · simp [*]
  · split
    · have hSum : 8 * 1 + (i - 8) = i := by omega
      rw [hSum]
      simp [*]
    · split
      · have hSum : 8 * 2 + (i - 8 - 8) = i := by omega
        rw [hSum]
        simp [*]
      · have hSum : 8 * 3 + (i - 8 - 8 - 8) = i := by omega
        have hLast : i - 8 - 8 - 8 < 8 := by omega
        rw [hSum]
        simp [hLast]

theorem load_congr {a : Address} (hFits : a.toNat + 4 ≤ 2 ^ 32) (h : Agree m m' a.toNat (a.toNat + 4)) :
    load m' a = load m a := by
  have hByte : ∀ i : Nat, i < 4 → m' (a + ofNat 32 i) = m (a + ofNat 32 i) := by
    intro i hi
    have hAddress : (a + ofNat 32 i).toNat = a.toNat + i := by
      rw [BitVec.toNat_add, toNat_ofNat]
      omega
    apply h <;> omega
  have hZero : m' a = m a := h a le_rfl (by omega)
  have hOne := hByte 1 (by decide)
  have hTwo := hByte 2 (by decide)
  have hThree := hByte 3 (by decide)
  rw [load, load, hZero, hOne, hTwo, hThree]

theorem load_store_apart (m : Memory) {a b : Address} (w : Word) (ha : a.toNat + 4 ≤ 2 ^ 32)
    (hb : b.toNat + 4 ≤ 2 ^ 32) (hApart : b.toNat + 4 ≤ a.toNat ∨ a.toNat + 4 ≤ b.toNat) :
    load (store m a w) b = load m b :=
  load_congr hb (store_agree m w ha hApart)

end ByteMemory
