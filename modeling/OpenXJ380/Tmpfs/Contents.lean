import Mathlib.Algebra.Group.Nat.Defs
import OpenXJ380.Lib.LinearBuffer
import OpenXJ380.Vfs.Model

/-! # The contents of a file in memory (`driver/fs/vfs/tmpfs.cpp`)

A file has a buffer that only grows. Its size says how much of the buffer counts, and what is cut off stays in
the buffer. The functions are called with a file and with a place for the bytes.
-/

namespace OpenXJ380.Tmpfs

open LinearBuffer Vfs

abbrev Byte := BitVec 8

structure Content where
  data : Nat → Byte
  size : Nat
  capacity : Nat
  isDir : Bool

/-- `(size_t)-1`. -/
def sizeMax : Nat := 2 ^ 64 - 1

/-- `memset` with 0, from `lo` up to `hi`. -/
def clear (data : Nat → Byte) (lo hi : Nat) : Nat → Byte := fun i => if lo ≤ i ∧ i < hi then 0 else data i

def growLoop (want : Nat) : Nat → Nat → Option Nat
  | 0, _ => none
  | rounds + 1, newCapacity =>
    if newCapacity < want then
      if newCapacity > sizeMax / 2 then none else growLoop want rounds (newCapacity * 2)
    else some newCapacity

/-- `realloc` says for which sizes there is memory. -/
def tmpfsReserve (realloc : Nat → Bool) (entry : Content) (want : Nat) : Option Content :=
  if want ≤ entry.capacity then some entry
  else
    match growLoop want 64 (if entry.capacity = 0 then 4096 else entry.capacity) with
    | none => none
    | some newCapacity =>
      if realloc newCapacity = false then none
      else some { entry with data := clear entry.data entry.capacity newCapacity, capacity := newCapacity }

def tmpfsRead (entry : Content) (offset size : Nat) : Int × List Byte :=
  if entry.isDir then (vfsStatusFailed, [])
  else if offset ≥ entry.size then (0, [])
  else
    let available := entry.size - offset
    let size := if size > available then available else size
    (size, (List.range size).map fun i => entry.data (offset + i))

def tmpfsWrite (realloc : Nat → Bool) (entry : Content) (offset : Nat) (bytes : List Byte) : Content × Int :=
  if entry.isDir ∨ offset > sizeMax - bytes.length then (entry, vfsStatusFailed)
  else
    match tmpfsReserve realloc entry (offset + bytes.length) with
    | none => (entry, vfsStatusFailed)
    | some entry =>
      ({ entry with
          data := put entry.data offset bytes
          size := if offset + bytes.length > entry.size then offset + bytes.length else entry.size }, bytes.length)

def tmpfsResize (realloc : Nat → Bool) (entry : Content) (size : Nat) : Content :=
  if entry.isDir ∨ size > sizeMax then entry
  else
    match tmpfsReserve realloc entry size with
    | none => entry
    | some entry =>
      { entry with
        data := if size > entry.size then clear entry.data entry.size size else entry.data
        size := size }

def writeAt (bytes : List Byte) (offset : Nat) (new : List Byte) : List Byte :=
  (bytes ++ List.replicate (offset - bytes.length) 0).take offset ++ new ++ bytes.drop (offset + new.length)

def resizeTo (bytes : List Byte) (size : Nat) : List Byte := bytes.take size ++ List.replicate (size - bytes.length) 0

structure Faithful (entry : Content) (bytes : List Byte) : Prop where
  size : entry.size = bytes.length
  read : ∀ offset size, tmpfsRead entry offset size =
    ((((bytes.drop offset).take size).length : Int), (bytes.drop offset).take size)

inductive Op where
  | write (offset : Nat) (bytes : List Byte)
  | resize (size : Nat)
  | read (offset size : Nat)

def Op.run (realloc : Nat → Bool) (entry : Content) : Op → Content
  | .write offset bytes => (tmpfsWrite realloc entry offset bytes).1
  | .resize size => tmpfsResize realloc entry size
  | .read _ _ => entry

def Op.Accepted (realloc : Nat → Bool) (entry : Content) : Op → Prop
  | .write offset bytes =>
    offset ≤ sizeMax - bytes.length ∧ (tmpfsReserve realloc entry (offset + bytes.length)).isSome
  | .resize size => size ≤ sizeMax ∧ (tmpfsReserve realloc entry size).isSome
  | .read _ _ => True

instance (realloc : Nat → Bool) (entry : Content) (op : Op) : Decidable (op.Accepted realloc entry) := by
  cases op with
  | write offset bytes => exact instDecidableAnd
  | resize size => exact instDecidableAnd
  | read offset size => exact instDecidableTrue

def Op.bytes (bytes : List Byte) : Op → List Byte
  | .write offset new => writeAt bytes offset new
  | .resize size => resizeTo bytes size
  | .read _ _ => bytes

def Op.Clean (realloc : Nat → Bool) (entry : Content) : Op → Prop
  | .write offset bytes => (Op.write offset bytes).Accepted realloc entry →
    ∀ i, entry.size ≤ i → i < offset → i < entry.capacity → entry.data i = 0
  | .resize _ => True
  | .read _ _ => True

/-- Something holds of the file and of what it is meant to contain before and after every call. A call that is not
accepted is meant to change nothing. -/
def Always (p : Content → List Byte → Prop) : Content → List Byte → List ((Nat → Bool) × Op) → Prop
  | entry, bytes, [] => p entry bytes
  | entry, bytes, (realloc, op) :: rest =>
    p entry bytes ∧
      Always p (op.run realloc entry) (if op.Accepted realloc entry then op.bytes bytes else bytes) rest

def AllClean : Content → List ((Nat → Bool) × Op) → Prop
  | _, [] => True
  | entry, (realloc, op) :: rest => op.Clean realloc entry ∧ AllClean (op.run realloc entry) rest

section

variable {entry entry' : Content} {bytes new : List Byte} {realloc : Nat → Bool} {offset size want : Nat} {op : Op}
  {data : Nat → Byte}

structure Kept (entry : Content) : Prop where
  file : entry.isDir = false
  size_le : entry.size ≤ entry.capacity
  capacity : entry.capacity = 0 ∨ ∃ k ≤ 51, entry.capacity = 4096 * 2 ^ k

theorem growLoop_spec (want rounds : Nat) {k : Nat} (hk : k ≤ 51) (hRounds : 52 ≤ rounds + k) :
    (want ≤ 2 ^ 63 → ∃ j, k ≤ j ∧ j ≤ 51 ∧ growLoop want rounds (4096 * 2 ^ k) = some (4096 * 2 ^ j) ∧
      want ≤ 4096 * 2 ^ j) ∧ (2 ^ 63 < want → growLoop want rounds (4096 * 2 ^ k) = none) := by
  induction rounds generalizing k with
  | zero => omega
  | succ rounds ih =>
    have hTop : 4096 * 2 ^ 51 = 2 ^ 63 := by decide
    have hCap : 4096 * 2 ^ k ≤ 2 ^ 63 := hTop ▸ Nat.mul_le_mul_left 4096 (Nat.pow_le_pow_right Nat.two_pos hk)
    rw [growLoop]
    by_cases hLess : 4096 * 2 ^ k < want
    · rw [if_pos hLess]
      obtain hMore | rfl := Nat.lt_or_eq_of_le hk
      · have hHalf : ¬4096 * 2 ^ k > sizeMax / 2 := by
          have hPow : 4096 * 2 ^ k ≤ 4096 * 2 ^ 50 :=
            Nat.mul_le_mul_left 4096 (Nat.pow_le_pow_right Nat.two_pos (Nat.le_of_lt_succ hMore))
          exact Nat.not_lt.mpr (Nat.le_trans hPow (by decide))
        rw [if_neg hHalf, mul_assoc, ← Nat.pow_succ]
        obtain ⟨hGrows, hFails⟩ := ih (k := k + 1) hMore (by omega)
        refine ⟨fun hWant => ?_, hFails⟩
        obtain ⟨j, hj, hj', hGrow, hFits⟩ := hGrows hWant
        exact ⟨j, Nat.le_of_succ_le hj, hj', hGrow, hFits⟩
      · rw [hTop] at hLess ⊢
        rw [if_pos (by decide)]
        exact ⟨(absurd · (Nat.not_le.mpr hLess)), fun _ => rfl⟩
    · rw [if_neg hLess]
      have hFits := Nat.le_of_not_lt hLess
      exact ⟨fun _ => ⟨k, Nat.le_refl k, hk, rfl, hFits⟩,
        fun hWant => absurd (Nat.le_trans hFits hCap) (Nat.not_le.mpr hWant)⟩

theorem Kept.start (h : Kept entry) :
    ∃ k ≤ 51, (if entry.capacity = 0 then 4096 else entry.capacity) = 4096 * 2 ^ k ∧ entry.capacity ≤ 4096 * 2 ^ k := by
  obtain hNone | ⟨k, hk, hCap⟩ := h.capacity
  · exact ⟨0, Nat.zero_le 51, if_pos hNone, by rw [hNone]; exact Nat.zero_le _⟩
  · refine ⟨k, hk, ?_, Nat.le_of_eq hCap⟩
    split
    · next hNone =>
      rw [hCap] at hNone
      exact absurd hNone (Nat.mul_ne_zero (by decide) (Nat.ne_of_gt (Nat.pow_pos Nat.two_pos)))
    · exact hCap

theorem tmpfsReserve_spec (h : Kept entry) (hReserve : tmpfsReserve realloc entry want = some entry') :
    Kept entry' ∧ entry'.size = entry.size ∧ want ≤ entry'.capacity ∧
      (∀ i < entry.capacity, entry'.data i = entry.data i) ∧
      ∀ i, entry.capacity ≤ i → i < entry'.capacity → entry'.data i = 0 := by
  rw [tmpfsReserve] at hReserve
  split at hReserve
  · next hFits =>
    cases hReserve
    exact ⟨h, rfl, hFits, fun _ _ => rfl, fun i hLe hLt => absurd hLe (Nat.not_le.mpr hLt)⟩
  · obtain ⟨k, hk, hStart, hLe⟩ := h.start
    obtain ⟨hGrows, hFails⟩ := growLoop_spec want 64 hk (by omega)
    rw [hStart] at hReserve
    obtain hBig | hSmall := Nat.lt_or_ge (2 ^ 63) want
    · rw [hFails hBig] at hReserve
      exact nomatch hReserve
    · obtain ⟨j, hkj, hj, hGrow, hFits⟩ := hGrows hSmall
      simp only [hGrow] at hReserve
      split at hReserve
      · exact nomatch hReserve
      · cases hReserve
        have hCap : entry.capacity ≤ 4096 * 2 ^ j :=
          Nat.le_trans hLe (Nat.mul_le_mul_left 4096 (Nat.pow_le_pow_right Nat.two_pos hkj))
        refine ⟨⟨h.file, Nat.le_trans h.size_le hCap, Or.inr ⟨j, hj, rfl⟩⟩, rfl, hFits, ?_, ?_⟩
        · intro i hi
          exact if_neg fun hBoth => absurd hBoth.1 (Nat.not_le.mpr hi)
        · intro i hLow hHigh
          exact if_pos ⟨hLow, hHigh⟩

theorem contents_of_reserve (h : Kept entry) (hReserve : tmpfsReserve realloc entry want = some entry') :
    contents entry.data entry.size = contents entry'.data entry'.size := by
  obtain ⟨-, hSize, -, hOld, -⟩ := tmpfsReserve_spec h hReserve
  rw [hSize, contents, contents]
  refine List.map_congr_left fun i hi => (hOld i ?_).symm
  exact Nat.lt_of_lt_of_le (List.mem_range.mp hi) h.size_le

theorem tmpfsReserve_isSome (h : Kept entry) (hMemory : ∀ n, realloc n) (hWant : want ≤ 2 ^ 63) :
    (tmpfsReserve realloc entry want).isSome := by
  rw [tmpfsReserve]
  split
  · rfl
  · obtain ⟨k, hk, hStart, -⟩ := h.start
    obtain ⟨j, -, -, hGrow, -⟩ := (growLoop_spec want 64 hk (by omega)).1 hWant
    simp only [hStart, hGrow, hMemory, Bool.true_eq_false, if_false, Option.isSome_some]

theorem getElem?_contents (n i : Nat) : (contents data n)[i]? = if i < n then some (data i) else none := by
  rw [contents, List.getElem?_map]
  split
  · next hLt =>
    rw [List.getElem?_range hLt]
    rfl
  · next hLe =>
    rw [List.getElem?_eq_none (by rw [List.length_range]; omega)]
    rfl

theorem getElem?_writeAt (data : Nat → Byte) (new : List Byte) (offset n i : Nat) :
    (contents (put data offset new) (if offset + new.length > n then offset + new.length else n))[i]? =
      if n ≤ i ∧ i < offset then some (data i) else (writeAt (contents data n) offset new)[i]? := by
  simp only [getElem?_contents, writeAt, put, List.getElem?_append, List.getElem?_take, List.getElem?_drop,
    List.length_append, List.length_take, List.length_replicate, length_contents, List.getElem?_replicate]
  rw [show min offset (n + (offset - n)) = offset by omega]
  split_ifs <;> first
    | rfl
    | omega
    | rw [List.getElem?_eq_getElem (by omega), List.getD_eq_getElem]
    | rw [Nat.add_sub_cancel' (by omega), List.getD_eq_default _ _ (by omega)]

theorem getElem?_hole (bytes : List Byte) {i : Nat} (hLe : bytes.length ≤ i) (hLt : i < offset) :
    (writeAt bytes offset new)[i]? = some 0 := by
  simp only [writeAt, List.getElem?_append, List.getElem?_take, List.length_append, List.length_take,
    List.length_replicate, List.getElem?_replicate]
  rw [if_pos (by omega), if_pos (by omega), if_pos hLt, if_neg (by omega), if_pos (by omega)]

theorem contents_writeAt_iff (n : Nat) :
    contents (put data offset new) (if offset + new.length > n then offset + new.length else n) =
        writeAt (contents data n) offset new ↔ ∀ i, n ≤ i → i < offset → data i = 0 := by
  constructor
  · intro hSame i hLe hLt
    have hByte := getElem?_writeAt data new offset n i
    rw [hSame, getElem?_hole _ (by rw [length_contents]; exact hLe) hLt, if_pos ⟨hLe, hLt⟩] at hByte
    exact (Option.some.inj hByte).symm
  · intro hZero
    apply List.ext_getElem?
    intro i
    rw [getElem?_writeAt]
    split
    · next hHole =>
      rw [getElem?_hole _ (by rw [length_contents]; exact hHole.1) hHole.2, hZero i hHole.1 hHole.2]
    · rfl

theorem contents_resizeTo (n : Nat) :
    contents (if size > n then clear data n size else data) size = resizeTo (contents data n) size := by
  apply List.ext_getElem?
  intro i
  simp only [getElem?_contents, resizeTo, List.getElem?_append, List.getElem?_take, List.length_take, length_contents,
    List.getElem?_replicate]
  grind [clear]

theorem map_range_data (n : Nat) (hn : n ≤ entry.size - offset) :
    (List.range n).map (fun i => entry.data (offset + i)) = ((contents entry.data entry.size).drop offset).take n := by
  apply List.ext_getElem
  · rw [List.length_map, List.length_range, List.length_take, List.length_drop, length_contents, Nat.min_eq_left hn]
  · intro i hLeft hRight
    rw [List.getElem_map, List.getElem_range, List.getElem_take, List.getElem_drop, getElem_contents]

section

variable (h : Kept entry)

include h

theorem tmpfsRead_spec (offset size : Nat) : tmpfsRead entry offset size =
      (((((contents entry.data entry.size).drop offset).take size).length : Int),
        ((contents entry.data entry.size).drop offset).take size) := by
  rw [tmpfsRead, if_neg (by rw [h.file]; exact nofun)]
  by_cases hEnd : offset ≥ entry.size
  · rw [if_pos hEnd, List.drop_eq_nil_of_le (by rw [length_contents]; exact hEnd), List.take_nil]
    rfl
  · rw [if_neg hEnd]
    by_cases hLong : size > entry.size - offset
    · have hAll : ((contents entry.data entry.size).drop offset).length = entry.size - offset := by
        rw [List.length_drop, length_contents]
      simp only [if_pos hLong, map_range_data _ (Nat.le_refl _)]
      rw [List.take_of_length_le (Nat.le_of_eq hAll), List.take_of_length_le (hAll ▸ Nat.le_of_lt hLong), hAll]
    · have hShort := Nat.le_of_not_lt hLong
      simp only [if_neg hLong, map_range_data _ hShort]
      rw [List.length_take, List.length_drop, length_contents, Nat.min_eq_left hShort]

theorem faithful_iff : Faithful entry bytes ↔ contents entry.data entry.size = bytes := by
  constructor
  · intro hFaithful
    have hRead := (tmpfsRead_spec h 0 entry.size).symm.trans (hFaithful.read 0 entry.size)
    have hBytes := (Prod.mk.inj hRead).2
    rwa [List.drop_zero, List.drop_zero, List.take_of_length_le (Nat.le_of_eq length_contents),
      List.take_of_length_le (Nat.le_of_eq hFaithful.size.symm)] at hBytes
  · rintro rfl
    exact ⟨length_contents.symm, tmpfsRead_spec h⟩

theorem tmpfsWrite_spec (realloc : Nat → Bool) (offset : Nat) (new : List Byte) :
    Kept (tmpfsWrite realloc entry offset new).1 ∧ (tmpfsWrite realloc entry offset new).2 =
        (if (Op.write offset new).Accepted realloc entry then (new.length : Int) else vfsStatusFailed) ∧
      (contents (tmpfsWrite realloc entry offset new).1.data (tmpfsWrite realloc entry offset new).1.size =
        (if (Op.write offset new).Accepted realloc entry then writeAt (contents entry.data entry.size) offset new
        else contents entry.data entry.size) ↔ (Op.write offset new).Clean realloc entry) := by
  by_cases hAccepted : (Op.write offset new).Accepted realloc entry
  · obtain ⟨hSum, hSome⟩ := id hAccepted
    obtain ⟨entry', hReserve⟩ := Option.isSome_iff_exists.mp hSome
    obtain ⟨hKept, hSize, hFits, hOld, hNew⟩ := tmpfsReserve_spec h hReserve
    have hGo : ¬(entry.isDir ∨ offset > sizeMax - new.length) := by
      rw [h.file]
      exact not_or.mpr ⟨Bool.false_ne_true, Nat.not_lt.mpr hSum⟩
    have hWrite : tmpfsWrite realloc entry offset new = ({ entry' with
            data := put entry'.data offset new
            size := if offset + new.length > entry'.size then offset + new.length else entry'.size },
          (new.length : Int)) := by
      rw [tmpfsWrite, if_neg hGo, hReserve]
    rw [hWrite, if_pos hAccepted, if_pos hAccepted]
    refine ⟨{ hKept with size_le := ?_ }, rfl, ?_⟩
    · have hLe := hKept.size_le
      dsimp only
      split
      · exact hFits
      · exact hLe
    · rw [contents_of_reserve h hReserve]
      refine (contents_writeAt_iff entry'.size).trans ?_
      rw [hSize]
      constructor
      · intro hZero _ i hLe hLt hCap
        rw [← hOld i hCap]
        exact hZero i hLe hLt
      · intro hClean i hLe hLt
        obtain hCap | hCap := Nat.lt_or_ge i entry.capacity
        · rw [hOld i hCap]
          exact hClean hAccepted i hLe hLt hCap
        · exact hNew i hCap (by omega)
  · have hWrite : tmpfsWrite realloc entry offset new = (entry, vfsStatusFailed) := by
      rw [tmpfsWrite]
      by_cases hGo : entry.isDir ∨ offset > sizeMax - new.length
      · rw [if_pos hGo]
      · have hNone : tmpfsReserve realloc entry (offset + new.length) = none :=
          Option.not_isSome_iff_eq_none.mp fun hSome => hAccepted ⟨Nat.le_of_not_lt (not_or.mp hGo).2, hSome⟩
        rw [if_neg hGo, hNone]
    rw [hWrite, if_neg hAccepted, if_neg hAccepted]
    exact ⟨h, rfl, fun _ hAccepted' => absurd hAccepted' hAccepted, fun _ => rfl⟩

theorem tmpfsResize_spec (realloc : Nat → Bool) (size : Nat) : Kept (tmpfsResize realloc entry size) ∧
      contents (tmpfsResize realloc entry size).data (tmpfsResize realloc entry size).size =
        if (Op.resize size).Accepted realloc entry then resizeTo (contents entry.data entry.size) size
        else contents entry.data entry.size := by
  by_cases hAccepted : (Op.resize size).Accepted realloc entry
  · obtain ⟨hMax, hSome⟩ := id hAccepted
    obtain ⟨entry', hReserve⟩ := Option.isSome_iff_exists.mp hSome
    obtain ⟨hKept, -, hFits, -⟩ := tmpfsReserve_spec h hReserve
    have hGo : ¬(entry.isDir ∨ size > sizeMax) := by
      rw [h.file]
      exact not_or.mpr ⟨Bool.false_ne_true, Nat.not_lt.mpr hMax⟩
    have hResize : tmpfsResize realloc entry size = { entry' with
          data := if size > entry'.size then clear entry'.data entry'.size size else entry'.data
          size := size } := by
      rw [tmpfsResize, if_neg hGo, hReserve]
    rw [hResize, if_pos hAccepted, contents_of_reserve h hReserve]
    exact ⟨{ hKept with size_le := hFits }, contents_resizeTo entry'.size⟩
  · have hResize : tmpfsResize realloc entry size = entry := by
      rw [tmpfsResize]
      by_cases hGo : entry.isDir ∨ size > sizeMax
      · rw [if_pos hGo]
      · have hNone : tmpfsReserve realloc entry size = none :=
          Option.not_isSome_iff_eq_none.mp fun hSome => hAccepted ⟨Nat.le_of_not_lt (not_or.mp hGo).2, hSome⟩
        rw [if_neg hGo, hNone]
    rw [hResize, if_neg hAccepted]
    exact ⟨h, rfl⟩

theorem Op.run_spec (realloc : Nat → Bool) (op : Op) : Kept (op.run realloc entry) ∧
      (contents (op.run realloc entry).data (op.run realloc entry).size =
        (if op.Accepted realloc entry then op.bytes (contents entry.data entry.size)
        else contents entry.data entry.size) ↔ op.Clean realloc entry) := by
  cases op with
  | write offset new =>
    obtain ⟨hKept, -, hIff⟩ := tmpfsWrite_spec h realloc offset new
    exact ⟨hKept, hIff⟩
  | resize size =>
    obtain ⟨hKept, hSame⟩ := tmpfsResize_spec h realloc size
    exact ⟨hKept, fun _ => trivial, fun _ => hSame⟩
  | read offset size =>
    refine ⟨h, fun _ => trivial, fun _ => ?_⟩
    rw [if_pos (show (Op.read offset size).Accepted realloc entry from trivial)]
    rfl

theorem always_faithful_iff (calls : List ((Nat → Bool) × Op)) :
    Always Faithful entry (contents entry.data entry.size) calls ↔ AllClean entry calls := by
  induction calls generalizing entry with
  | nil => exact ⟨fun _ => trivial, fun _ => (faithful_iff h).mpr rfl⟩
  | cons call rest ih =>
    obtain ⟨realloc, op⟩ := call
    obtain ⟨hKept, hIff⟩ := op.run_spec h realloc
    rw [Always, AllClean]
    constructor
    · rintro ⟨-, hRest⟩
      have hNext : Faithful (op.run realloc entry) (if op.Accepted realloc entry then
          op.bytes (contents entry.data entry.size) else contents entry.data entry.size) := by
        cases rest with
        | nil => exact hRest
        | cons call rest => exact hRest.1
      have hSame := (faithful_iff hKept).mp hNext
      rw [← hSame] at hRest
      exact ⟨hIff.mp hSame, (ih hKept).mp hRest⟩
    · rintro ⟨hClean, hRest⟩
      refine ⟨(faithful_iff h).mpr rfl, ?_⟩
      rw [← hIff.mpr hClean]
      exact (ih hKept).mpr hRest

end

theorem always_of_kept {p : Content → List Byte → Prop} (hAll : ∀ entry bytes, Kept entry → p entry bytes)
    (h : Kept entry) (calls : List ((Nat → Bool) × Op)) : Always p entry bytes calls := by
  induction calls generalizing entry bytes with
  | nil => exact hAll entry bytes h
  | cons call rest ih => exact ⟨hAll entry bytes h, ih (call.2.run_spec h call.1).1⟩

end

def newFile : Content where
  data := fun _ => 0
  size := 0
  capacity := 0
  isDir := false

theorem newFile_kept : Kept newFile := ⟨rfl, Nat.le_refl 0, .inl rfl⟩

/-- What callers are told, and that calls are accepted where there is memory. -/
structure Reports (entry : Content) : Prop where
  write : ∀ realloc offset new, (tmpfsWrite realloc entry offset new).2 =
    if (Op.write offset new).Accepted realloc entry then (new.length : Int) else vfsStatusFailed
  accepts : ∀ realloc want, (∀ n, realloc n = true) → want ≤ 2 ^ 63 → (tmpfsReserve realloc entry want).isSome

/-- Reads return what the file is meant to contain in every run exactly if no write skips bytes that were left
behind in the buffer. -/
theorem tmpfs_faithful_iff (calls : List ((Nat → Bool) × Op)) :
    (Always Faithful newFile [] calls ↔ AllClean newFile calls) ∧
      Always (fun entry _ => Reports entry) newFile [] calls := by
  refine ⟨always_faithful_iff newFile_kept calls, ?_⟩
  refine always_of_kept (fun entry _ h => ⟨fun realloc offset new => ?_, fun realloc want hMemory hWant => ?_⟩)
    newFile_kept calls
  · exact (tmpfsWrite_spec h realloc offset new).2.1
  · exact tmpfsReserve_isSome h hMemory hWant

/-- Two bytes are written and the second is cut off, then one is written behind it. -/
def cutCalls : List ((Nat → Bool) × Op) :=
  [(fun _ => true, .write 0 [7, 8]), (fun _ => true, .resize 1), (fun _ => true, .write 2 [9])]

/-- The byte that the shrink has cut off is read again. -/
theorem tmpfs_not_faithful :
    tmpfsRead (cutCalls.foldl (fun entry call => call.2.run call.1 entry) newFile) 0 3 = (3, [7, 8, 9]) ∧
      writeAt (resizeTo (writeAt [] 0 [7, 8]) 1) 2 [9] = [7, 0, 9] ∧ ¬Always Faithful newFile [] cutCalls := by
  refine ⟨by decide, by decide, fun hAlways => ?_⟩
  have hClean := ((always_faithful_iff newFile_kept cutCalls).mp hAlways).2.2.1
  exact absurd (hClean (by decide) 1 (by decide) (by decide) (by decide)) (by decide)

end OpenXJ380.Tmpfs
