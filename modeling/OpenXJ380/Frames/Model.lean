import OpenXJ380.Buddy.Model
import OpenXJ380.Lib.Bits

/-! # Bitmaps (`kernel/memory/bitmap.cpp`)

Eight bits to a byte. A range is set bit by bit up to the first whole byte, byte
by byte from there, and bit by bit at its end.
-/

namespace OpenXJ380.Frames

open Function

structure Bitmap where
  buffer : Nat → BitVec 8
  length : Nat

def bitmapInit (size : Nat) : Bitmap := ⟨fun _ => 0, size * 8⟩

def bitmapGet (bitmap : Bitmap) (index : Nat) : Bool :=
  if index ≥ bitmap.length then false else (bitmap.buffer (index / 8)).getLsbD (index % 8)

def bitmapSet (bitmap : Bitmap) (index : Nat) (value : Bool) : Bitmap :=
  if index ≥ bitmap.length then bitmap
  else
    let byte := bitmap.buffer (index / 8)
    let bit : BitVec 8 := 1#8 <<< (index % 8)
    { bitmap with buffer := update bitmap.buffer (index / 8) (if value then byte ||| bit else byte &&& ~~~bit) }

/-- `n` bits from `index` on, one at a time. -/
def bitmapSetBits (value : Bool) : Nat → Bitmap → Nat → Bitmap
  | 0, bitmap, _ => bitmap
  | n + 1, bitmap, index => bitmapSetBits value n (bitmapSet bitmap index value) (index + 1)

/-- `n` bytes from `word` on. -/
def bitmapFill (value : Bool) : Nat → Bitmap → Nat → Bitmap
  | 0, bitmap, _ => bitmap
  | n + 1, bitmap, word =>
    bitmapFill value n
      { bitmap with buffer := update bitmap.buffer word (if value then BitVec.allOnes 8 else 0#8) } (word + 1)

def bitmapSetRange (bitmap : Bitmap) (start stop : Nat) (value : Bool) : Bitmap :=
  if start ≥ stop ∨ start ≥ bitmap.length then bitmap
  else
    let startWord := (start + 7) / 8
    let endWord := stop / 8
    let bitmap := bitmapSetBits value (min (startWord * 8) stop - start) bitmap start
    if startWord > endWord then bitmap
    else
      let bitmap := bitmapFill value (endWord - startWord) bitmap startWord
      bitmapSetBits value (stop - endWord * 8) bitmap (endWord * 8)

section

variable {bitmap : Bitmap} {index i n : Nat} {value : Bool}

theorem bitmapGet_init (size index : Nat) : bitmapGet (bitmapInit size) index = false := by
  rw [bitmapGet, bitmapInit]
  split
  · rfl
  · exact BitVec.getLsbD_zero

@[simp] theorem bitmapSet_length : (bitmapSet bitmap index value).length = bitmap.length := by
  rw [bitmapSet]
  split <;> rfl

theorem bitmapSet_get : bitmapGet (bitmapSet bitmap index value) i =
      if i = index ∧ i < bitmap.length then value else bitmapGet bitmap i := by
  by_cases hIndex : index ≥ bitmap.length
  · rw [bitmapSet, if_pos hIndex, if_neg (by omega)]
  · by_cases hLength : i < bitmap.length
    · rw [bitmapGet, bitmapGet, bitmapSet_length, if_neg hLength.not_ge, if_neg hLength.not_ge,
        bitmapSet, if_neg hIndex]
      simp only [hLength, and_true]
      by_cases hByte : i / 8 = index / 8
      · rw [hByte, update_self, Bits.set_getLsbD _ _ (Nat.mod_lt _ (by decide))]
        congr 1
        rw [eq_iff_iff]
        omega
      · rw [update_of_ne hByte, if_neg (fun hEq => hByte (by rw [hEq]))]
    · rw [bitmapGet, bitmapSet_length, if_pos (not_lt.mp hLength), if_neg (fun h => hLength h.2), bitmapGet,
        if_pos (not_lt.mp hLength)]

@[simp] theorem bitmapSetBits_length : (bitmapSetBits value n bitmap index).length = bitmap.length := by
  induction n generalizing bitmap index with
  | zero => rfl
  | succ n ih => rw [bitmapSetBits, ih, bitmapSet_length]

theorem bitmapSetBits_get : bitmapGet (bitmapSetBits value n bitmap index) i =
      if (index ≤ i ∧ i < index + n) ∧ i < bitmap.length then value else bitmapGet bitmap i := by
  induction n generalizing bitmap index with
  | zero =>
    rw [if_neg (by omega)]
    rfl
  | succ n ih =>
    rw [bitmapSetBits, ih, bitmapSet_get, bitmapSet_length]
    split_ifs <;> first | rfl | omega

theorem byte_fill (value : Bool) {j : Nat} (hj : j < 8) :
    (if value then BitVec.allOnes 8 else 0#8).getLsbD j = value := by
  cases value with
  | false => exact BitVec.getLsbD_zero
  | true => rw [if_pos rfl, BitVec.getLsbD_allOnes, decide_eq_true hj]

@[simp] theorem bitmapFill_length {word : Nat} : (bitmapFill value n bitmap word).length = bitmap.length := by
  induction n generalizing bitmap word with
  | zero => rfl
  | succ n ih => rw [bitmapFill, ih]

theorem bitmapFill_get {word : Nat} : bitmapGet (bitmapFill value n bitmap word) i =
      if (word ≤ i / 8 ∧ i / 8 < word + n) ∧ i < bitmap.length then value else bitmapGet bitmap i := by
  induction n generalizing bitmap word with
  | zero =>
    rw [if_neg (by omega)]
    rfl
  | succ n ih =>
    rw [bitmapFill, ih]
    simp only [bitmapGet]
    by_cases hByte : i / 8 = word
    · rw [hByte, update_self, byte_fill value (Nat.mod_lt _ (by decide))]
      split_ifs <;> first | rfl | omega
    · rw [update_of_ne hByte]
      split_ifs <;> first | rfl | omega

theorem bitmapSetRange_get {start stop : Nat} : bitmapGet (bitmapSetRange bitmap start stop value) i =
      if (start ≤ i ∧ i < stop) ∧ i < bitmap.length then value else bitmapGet bitmap i := by
  simp only [bitmapSetRange]
  by_cases hNone : start ≥ stop ∨ start ≥ bitmap.length
  · rw [if_pos hNone, if_neg (by omega)]
  · rw [if_neg hNone]
    by_cases hWithin : (start + 7) / 8 > stop / 8
    · rw [if_pos hWithin, bitmapSetBits_get]
      congr 1
      rw [eq_iff_iff]
      omega
    · rw [if_neg hWithin, bitmapSetBits_get, bitmapFill_get, bitmapSetBits_get, bitmapFill_length, bitmapSetBits_length]
      split_ifs <;> first | rfl | omega

@[simp] theorem bitmapSetRange_length {start stop : Nat} :
    (bitmapSetRange bitmap start stop value).length = bitmap.length := by
  simp only [bitmapSetRange]
  split_ifs
  · rfl
  · rw [bitmapSetBits_length]
  · rw [bitmapSetBits_length, bitmapFill_length, bitmapSetBits_length]

end

/-! # Frames (`kernel/memory/buddy.cpp`, `kernel/memory/page.cpp`)

Three zones over one memory, the bitmap of the frames in use, the bitmap of the
usable frames, which stays as it was at boot, and a signed counter for each page.
-/

open Buddy

inductive ZoneType where
  | dma
  | dma32
  | normal
deriving DecidableEq

def zoneDmaEnd : Nat := 16 * 2 ^ 20
def zoneDma32End : Nat := 4 * 2 ^ 30

structure FrameState where
  memory : Memory
  zones : ZoneType → Option ZoneT
  usingRegions : Bitmap
  usable : Bitmap
  refcount : Nat → BitVec 32
  memorySize : Nat

def physToZoneType (phys : Nat) : ZoneType :=
  if phys < zoneDmaEnd then .dma else if phys < zoneDma32End then .dma32 else .normal

def zoneHasMemory (zone : ZoneT) : Bool := zone.managedPages > 0

def getPage (s : FrameState) (addr : Nat) : Option Nat :=
  if addr ≥ s.memorySize then none else some (addr / pageSize)

def addressRef (s : FrameState) (addr : Nat) : FrameState :=
  match getPage s addr with
  | none => s
  | some page => { s with refcount := update s.refcount page (s.refcount page + 1) }

def addressUnref (s : FrameState) (addr : Nat) : FrameState :=
  match getPage s addr with
  | none => s
  | some page => { s with refcount := update s.refcount page (s.refcount page - 1) }

def addressCanFree (s : FrameState) (addr : Nat) : Bool :=
  match getPage s addr with
  | none => true
  | some page => (s.refcount page).toInt ≤ 0

/-- The rounds of `for (a = addr; a < addr + pages * PAGE_SIZE; a += PAGE_SIZE)`. -/
def rounds (addr pages : Nat) : Nat := (u64 (addr + pages * pageSize) - addr + (pageSize - 1)) / pageSize

def refPages : Nat → FrameState → Nat → FrameState
  | 0, s, _ => s
  | n + 1, s, a => refPages n (addressRef s a) (a + pageSize)

def unrefPages : Nat → FrameState → Nat → FrameState
  | 0, s, _ => s
  | n + 1, s, a => unrefPages n (addressUnref s a) (a + pageSize)

def canFreePages (s : FrameState) : Nat → Nat → Bool
  | 0, _ => true
  | n + 1, a => addressCanFree s a && canFreePages s n (a + pageSize)

def tryZones (count : Nat) : List ZoneType → FrameState → FrameState × Nat
  | [], s => (s, 0)
  | type :: types, s =>
    match s.zones type with
    | none => tryZones count types s
    | some zone =>
      if zoneHasMemory zone then
        let (memory, zone, addr) := buddyAllocZone s.memory zone count
        let s := { s with memory := memory, zones := update s.zones type (some zone) }
        if addr ≠ 0 then (s, addr) else tryZones count types s
      else tryZones count types s

def markFrames (s : FrameState) (addr pages : Nat) : FrameState :=
  let first := addr / pageSize
  refPages (rounds addr pages) { s with usingRegions := bitmapSetRange s.usingRegions first (first + pages) true } addr

def allocFrom (types : List ZoneType) (s : FrameState) (count : Nat) : FrameState × Nat :=
  if count = 0 then (s, 0)
  else
    let (s, addr) := tryZones count types s
    if addr = 0 then (s, 0) else (markFrames s addr (countToBlockPages count), addr)

def allocFrames (s : FrameState) (count : Nat) : FrameState × Nat := allocFrom [.normal, .dma32, .dma] s count

def allocFramesDma32 (s : FrameState) (count : Nat) : FrameState × Nat := allocFrom [.dma32, .dma] s count

def framesInUse (s : FrameState) (idx pages : Nat) : Bool :=
  (List.range pages).all fun off => bitmapGet s.usingRegions (idx + off) && bitmapGet s.usable (idx + off)

/-- `none` where a free list does not end. -/
def freeFrames (s : FrameState) (addr count : Nat) : Option FrameState :=
  if addr = 0 ∨ count = 0 then some s
  else
    let pages := countToBlockPages count
    let order := countToOrder count
    if !orderValid order then some s
    else
      let idx := addr / pageSize
      if !framesInUse s idx pages then some s
      else
        let type := physToZoneType addr
        match s.zones type with
        | none => some s
        | some zone =>
          let s := unrefPages (rounds addr pages) s addr
          if !canFreePages s (rounds addr pages) addr then some s
          else do
            let (memory, zone) ← buddyFreeZone s.memory zone addr order
            some { s with
              memory := memory
              zones := update s.zones type (some zone)
              usingRegions := bitmapSetRange s.usingRegions idx (idx + pages) false }

/-- `max_pfn` frames, none of them in a zone yet. -/
def buddyInit (memory : Memory) (usable : Bitmap) (memorySize : Nat) : FrameState :=
  let maxPfn := memorySize / pageSize
  let dmaEndPfn := min maxPfn (zoneDmaEnd / pageSize)
  let dma32EndPfn := min maxPfn (zoneDma32End / pageSize)
  { memory := memory
    zones := fun
      | .dma => some (initZone 0 dmaEndPfn)
      | .dma32 => if dmaEndPfn < dma32EndPfn then some (initZone dmaEndPfn dma32EndPfn) else none
      | .normal => if dma32EndPfn < maxPfn then some (initZone dma32EndPfn maxPfn) else none
    usingRegions := bitmapInit ((maxPfn + 7) / 8)
    usable := usable
    refcount := fun _ => 0
    memorySize := memorySize }

def addRegion (s : FrameState) (start stop : Nat) (type : ZoneType) : Option FrameState :=
  match s.zones type with
  | none => some s
  | some zone => do
    let (memory, zone) ← addMemoryRegion s.memory zone start stop
    some { s with memory := memory, zones := update s.zones type (some zone) }

def addRegions : List (Nat × Nat) → FrameState → Option FrameState
  | [], s => some s
  | (start, stop) :: regions, s => do addRegions regions (← addRegion s start stop (physToZoneType start))

end OpenXJ380.Frames
