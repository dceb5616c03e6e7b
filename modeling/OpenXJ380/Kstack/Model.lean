import OpenXJ380.Lib.Bits
import OpenXJ380.Vmap.Model

/-! # Kernel stacks with guard pages (`arch/arm32/src/kstack.c`)

A pool of slots over a range of sections. The lowest page of a slot is its guard,
the others are the stack. The calls of the flush hook are recorded in order.
-/

namespace OpenXJ380.Kstack

open Mmu Vmap

def kstackPageSize : U32 := 4096
def kstackMaxSlots : U32 := 64

inductive KstackErr where
  | ok
  | notInit
  | badArgs
  | align
  | badHandle
  | doubleFree
  | noSlot
  | map
  deriving DecidableEq, Repr

inductive KstackGuard where
  | unmapped
  | apNone
  deriving DecidableEq, Repr

structure KstackT where
  slot : U32
  base : U32
  top : U32
  guard : U32
  pages : U32
  inUse : Bool
  deriving DecidableEq, Repr

/-- `vm` is what the pointer refers to, `flushed` what the hook was called with. -/
structure KstackPool where
  vm : VmapT
  poolBase : U32
  slotCount : U32
  stackPages : U32
  slotPages : U32
  bitmap : Nat → U32
  bitmapWords : U32
  flushed : List (U32 × U32)
  guardKind : KstackGuard
  usedSlots : U32
  peakUsed : U32
  statAlloc : U32
  statFree : U32
  statFlush : U32
  statGuardSplit : U32
  lastVmapErr : VmapErr
  inited : Bool

def slotBaseOf (p : KstackPool) (index : U32) : U32 := p.poolBase + index * p.slotPages * kstackPageSize

def slotGuardOf (p : KstackPool) (index : U32) : U32 := slotBaseOf p index

def slotStackBaseOf (p : KstackPool) (index : U32) : U32 := slotBaseOf p index + kstackPageSize

def slotTopOf (p : KstackPool) (index : U32) : U32 := slotBaseOf p index + p.slotPages * kstackPageSize

def bitOf (bitmap : Nat → U32) (index : U32) : Bool :=
  bitmap (index >>> 5).toNat &&& 1#32 <<< (index &&& 31) ≠ 0

def kstackSlotInUse (p : KstackPool) (index : U32) : Bool :=
  if !p.inited ∨ index ≥ p.slotCount then true else bitOf p.bitmap index

def slotMark (p : KstackPool) (index : U32) (used : Bool) : KstackPool :=
  let mask := 1#32 <<< (index &&& 31)
  let word := (index >>> 5).toNat
  if used then
    let p := { p with bitmap := Function.update p.bitmap word (p.bitmap word ||| mask)
                      usedSlots := p.usedSlots + 1 }
    { p with peakUsed := if p.usedSlots > p.peakUsed then p.usedSlots else p.peakUsed }
  else
    { p with bitmap := Function.update p.bitmap word (p.bitmap word &&& ~~~mask)
             usedSlots := if p.usedSlots > 0 then p.usedSlots - 1 else p.usedSlots }

/-- The first free slot, or `slotCount`. -/
def slotFindFree (p : KstackPool) : U32 :=
  (((List.range p.slotCount.toNat).map (BitVec.ofNat 32)).find? fun i => !bitOf p.bitmap i).getD p.slotCount

def vmapResult (p : KstackPool) (e : VmapErr) : KstackPool × KstackErr :=
  if e = .ok then (p, .ok) else ({ p with lastVmapErr := e }, .map)

def flushRange (p : KstackPool) (vaBegin vaEnd : U32) : KstackPool :=
  if vaBegin < vaEnd then
    { p with flushed := p.flushed ++ [(vaBegin, vaEnd)], statFlush := p.statFlush + 1 }
  else p

def guardUnmap (p : KstackPool) (guard : U32) : KstackPool × KstackErr :=
  let (vm, e) := vmapUnmap p.vm guard
  let p := { p with vm := vm }
  if e = .notMapped then (p, .ok)
  else if e = .isSection then
    let p := { p with statGuardSplit := p.statGuardSplit + 1 }
    let (vm, e) := vmapSplitSection p.vm guard
    let p := { p with vm := vm }
    let (vm, e) := if e = .ok then vmapUnmap p.vm guard else (p.vm, e)
    let p := { p with vm := vm }
    if e = .notMapped then (p, .ok) else vmapResult p e
  else vmapResult p e

def attrNone : VmapAttr := { vmapAttrNormal with ap3 := mmuApNone }

def guardApply (p : KstackPool) (guard : U32) : KstackPool × KstackErr :=
  match p.guardKind with
  | .unmapped => guardUnmap p guard
  | .apNone =>
    let (vm, s) := if vmapLookup p.vm guard = vmapResultSection then vmapSplitSection p.vm guard
      else (p.vm, .ok)
    let p := { p with vm := vm }
    if s ≠ .ok then vmapResult p s
    else
      let (vm, e) := if vmapLookup p.vm guard = 0 then vmapMap p.vm guard guard (some attrNone)
        else vmapSetAttr p.vm guard (some attrNone)
      vmapResult { p with vm := vm } e

def pageClaim (p : KstackPool) (va pa : U32) (attr : VmapAttr) : KstackPool × KstackErr :=
  let (vm, e) := vmapSplitSection p.vm va
  let p := { p with vm := vm }
  if e ≠ .ok ∧ e ≠ .isSection then vmapResult p e
  else
    let (vm, e) := vmapUnmap p.vm va
    let p := { p with vm := vm }
    if e ≠ .ok ∧ e ≠ .notMapped then vmapResult p e
    else
      let (vm, e) := vmapMap p.vm va pa (some attr)
      vmapResult { p with vm := vm } e

/-- The stack pages from page `i` on, as long as they can be claimed. -/
def claimPages (p : KstackPool) (base i : U32) : Nat → KstackPool × KstackErr
  | 0 => (p, .ok)
  | n + 1 =>
    let va := base + i * kstackPageSize
    let (p, e) := pageClaim p va va vmapAttrNormal
    if e ≠ .ok then (p, e) else claimPages p base (i + 1) n

def handleCheck (p : KstackPool) (k : KstackT) : KstackErr :=
  if !p.inited then .notInit
  else if k.slot ≥ p.slotCount then .badHandle
  else
    let sb := slotBaseOf p k.slot
    if k.guard ≠ sb ∨ k.base ≠ sb + kstackPageSize ∨ k.top ≠ sb + p.slotPages * kstackPageSize ∨
        k.pages ≠ p.stackPages then .badHandle
    else if !k.inUse ∨ !bitOf p.bitmap k.slot then .doubleFree
    else .ok

/-- The pointers are not null; `bitmap` is the caller's array before it is cleared. -/
def kstackPoolInit (vm : VmapT) (poolBase poolSize stackPages : U32) (guardKind : KstackGuard)
    (bitmap : Nat → U32) (bitmapWords : U32) : Except KstackErr KstackPool :=
  if stackPages = 0 ∨ bitmapWords = 0 then .error .badArgs
  else if poolBase &&& (kstackPageSize - 1) ≠ 0 then .error .align
  else
    let slotBytes := (stackPages + 1) * kstackPageSize
    if poolSize < slotBytes then .error .badArgs
    else
      let slots := poolSize / slotBytes
      let slots := if slots > kstackMaxSlots then kstackMaxSlots else slots
      if slots = 0 then .error .badArgs
      else if bitmapWords < (slots + 31) / 32 then .error .badArgs
      else .ok
        { vm := vm, poolBase := poolBase, slotCount := slots, stackPages := stackPages
          slotPages := stackPages + 1
          bitmap := fun w => if w < bitmapWords.toNat then 0 else bitmap w
          bitmapWords := bitmapWords, flushed := [], guardKind := guardKind, usedSlots := 0
          peakUsed := 0, statAlloc := 0, statFree := 0, statFlush := 0, statGuardSplit := 0
          lastVmapErr := .ok, inited := true }

/-- The loop over the stack pages; `first` is the first error so far. -/
def releasePages (p : KstackPool) (base : U32) (first : KstackErr) (i : U32) :
    Nat → KstackPool × KstackErr
  | 0 => (p, first)
  | n + 1 =>
    let (vm, ve) := vmapUnmap p.vm (base + i * kstackPageSize)
    let p := { p with vm := vm }
    if ve = .ok ∨ ve = .notMapped ∨ ve = .isSection then releasePages p base first (i + 1) n
    else if first = .ok then
      let (p, first) := vmapResult p ve
      releasePages p base first (i + 1) n
    else releasePages p base first (i + 1) n

def slotRelease (p : KstackPool) (slot : U32) : KstackPool × KstackErr :=
  let (p, e) := guardUnmap p (slotGuardOf p slot)
  let (p, first) := releasePages p (slotStackBaseOf p slot) e 0 p.stackPages.toNat
  (flushRange p (slotGuardOf p slot) (slotTopOf p slot), first)

def handleOf (p : KstackPool) (slot : U32) : KstackT :=
  { slot := slot, guard := slotGuardOf p slot, base := slotStackBaseOf p slot, top := slotTopOf p slot
    pages := p.stackPages, inUse := true }

def kstackAlloc (p : KstackPool) : KstackPool × KstackErr × Option KstackT :=
  if !p.inited then (p, .notInit, none)
  else
    let slot := slotFindFree p
    if slot ≥ p.slotCount then (p, .noSlot, none)
    else
      let p := slotMark p slot true
      let (p, e) := guardApply p (slotGuardOf p slot)
      let (p, e) := if e = .ok then claimPages p (slotStackBaseOf p slot) 0 p.stackPages.toNat else (p, e)
      if e = .ok then
        let p := flushRange p (slotGuardOf p slot) (slotTopOf p slot)
        ({ p with statAlloc := p.statAlloc + 1 }, .ok, some (handleOf p slot))
      else
        let (p, r) := slotRelease p slot
        (if r = .ok then slotMark p slot false else p, e, none)

def kstackFree (p : KstackPool) (k : KstackT) : KstackPool × KstackErr × KstackT :=
  let e := handleCheck p k
  if e ≠ .ok then (p, e, k)
  else
    let (p, e) := slotRelease p k.slot
    if e ≠ .ok then (p, e, k)
    else
      let p := slotMark p k.slot false
      ({ p with statFree := p.statFree + 1 }, .ok, { k with inUse := false })

/-! # Slots and their bits

The slots of a pool follow each other without a gap, and the counter of used
slots is the number of bits of the bitmap.
-/

open BitVec (le_def lt_def ofNat toNat_add toNat_and toNat_udiv)

def slotBytes (p : KstackPool) : U32 := p.slotPages * kstackPageSize

/-- What the initialisation establishes for a pool that ends below the top of the address space. -/
structure Geometry (p : KstackPool) : Prop where
  aligned : p.poolBase.toNat % 4096 = 0
  pages : p.slotPages = p.stackPages + 1
  bytes : 0 < (slotBytes p).toNat
  fits : p.poolBase.toNat + p.slotCount.toNat * (slotBytes p).toNat < 2 ^ 32
  count : p.slotCount.toNat ≤ 64
  words : p.slotCount.toNat ≤ 32 * p.bitmapWords.toNat

structure Numbered (p : KstackPool) : Prop where
  count : p.slotCount.toNat ≤ 64
  words : p.slotCount.toNat ≤ 32 * p.bitmapWords.toNat

section

variable {p : KstackPool}

theorem Geometry.numbered (h : Geometry p) : Numbered p := { h with }

variable {slot : U32}

theorem Geometry.slotBase_toNat (h : Geometry p) (hSlot : slot.toNat ≤ p.slotCount.toNat) :
    (slotBaseOf p slot).toNat = p.poolBase.toNat + slot.toNat * (slotBytes p).toNat := by
  have hFits := h.fits
  have hBelow : slot.toNat * (slotBytes p).toNat ≤ p.slotCount.toNat * (slotBytes p).toNat :=
    Nat.mul_le_mul_right _ hSlot
  rw [slotBaseOf, BitVec.mul_assoc, toNat_add, BitVec.toNat_mul]
  change (p.poolBase.toNat + slot.toNat * (slotBytes p).toNat % 2 ^ 32) % 2 ^ 32 = _
  rw [Nat.mod_eq_of_lt (by omega), Nat.mod_eq_of_lt (by omega)]

theorem Geometry.slotTop_toNat (h : Geometry p) (hSlot : slot.toNat < p.slotCount.toNat) :
    (slotTopOf p slot).toNat = p.poolBase.toNat + (slot.toNat + 1) * (slotBytes p).toNat := by
  have hFits := h.fits
  have hBelow : (slot.toNat + 1) * (slotBytes p).toNat ≤ p.slotCount.toNat * (slotBytes p).toNat :=
    Nat.mul_le_mul_right _ hSlot
  rw [slotTopOf, toNat_add, h.slotBase_toNat hSlot.le]
  change (p.poolBase.toNat + slot.toNat * (slotBytes p).toNat + (slotBytes p).toNat) % 2 ^ 32 = _
  rw [Nat.succ_mul, Nat.mod_eq_of_lt (by rw [Nat.succ_mul] at hBelow; omega), add_assoc]

theorem Geometry.guard_lt_top (h : Geometry p) (hSlot : slot.toNat < p.slotCount.toNat) :
    slotGuardOf p slot < slotTopOf p slot := by
  have hBytes := h.bytes
  rw [lt_def, slotGuardOf, h.slotBase_toNat hSlot.le, h.slotTop_toNat hSlot, Nat.succ_mul]
  omega

def SlotAddress (p : KstackPool) (slot va : U32) : Prop := slotGuardOf p slot ≤ va ∧ va < slotTopOf p slot

theorem Geometry.disjoint (h : Geometry p) {i j : U32} (hi : i < p.slotCount) (hj : j < p.slotCount)
    (hNe : i ≠ j) (va : U32) : ¬ (SlotAddress p i va ∧ SlotAddress p j va) := by
  rintro ⟨⟨hLowI, hHighI⟩, hLowJ, hHighJ⟩
  rw [slotGuardOf, le_def] at hLowI hLowJ
  rw [lt_def] at hHighI hHighJ hi hj
  rw [h.slotBase_toNat hi.le] at hLowI
  rw [h.slotBase_toNat hj.le] at hLowJ
  rw [h.slotTop_toNat hi] at hHighI
  rw [h.slotTop_toNat hj] at hHighJ
  have hNeNat : i.toNat ≠ j.toNat := fun hEq => hNe (BitVec.eq_of_toNat_eq hEq)
  obtain hLt | hGt := Nat.lt_or_gt_of_ne hNeNat
  · have hStep : (i.toNat + 1) * (slotBytes p).toNat ≤ j.toNat * (slotBytes p).toNat := Nat.mul_le_mul_right _ hLt
    omega
  · have hStep : (j.toNat + 1) * (slotBytes p).toNat ≤ i.toNat * (slotBytes p).toNat := Nat.mul_le_mul_right _ hGt
    omega

end

variable {vm : VmapT} {poolBase poolSize stackPages bitmapWords index : U32} {guardKind : KstackGuard}
  {bitmap : Nat → U32} {p : KstackPool}

theorem init_cases (hInit : kstackPoolInit vm poolBase poolSize stackPages guardKind bitmap bitmapWords = .ok p) :
    p.vm = vm ∧ p.inited ∧ p.poolBase = poolBase ∧ p.usedSlots = 0 ∧
      (∀ w < p.bitmapWords.toNat, p.bitmap w = 0) ∧ p.slotPages = p.stackPages + 1 ∧
      poolBase.toNat % 4096 = 0 ∧ p.slotCount.toNat ≤ 64 ∧ 0 < (slotBytes p).toNat ∧
      p.slotCount.toNat * (slotBytes p).toNat ≤ poolSize.toNat ∧ p.slotCount.toNat ≤ 32 * p.bitmapWords.toNat := by
  have hSlots : ∀ slots bytes : U32, slots = (if poolSize / bytes > kstackMaxSlots then kstackMaxSlots
      else poolSize / bytes) → slots ≠ 0 → slots.toNat ≤ 64 ∧ 0 < bytes.toNat ∧
        slots.toNat * bytes.toNat ≤ poolSize.toNat := by
    intro slots bytes hSlots hNonzero
    have hMax : kstackMaxSlots.toNat = 64 := rfl
    have hQuotient : slots.toNat ≤ poolSize.toNat / bytes.toNat ∧ slots.toNat ≤ 64 := by
      rw [hSlots, ← toNat_udiv]
      split
      · rename_i hMany
        rw [gt_iff_lt, lt_def] at hMany
        omega
      · rename_i hFew
        rw [gt_iff_lt, lt_def] at hFew
        omega
    have hPositive : 0 < bytes.toNat := by
      obtain hZero | hPos := Nat.eq_zero_or_pos bytes.toNat
      · rw [hZero, Nat.div_zero] at hQuotient
        exact absurd (BitVec.eq_of_toNat_eq (Nat.le_zero.mp hQuotient.1)) hNonzero
      · exact hPos
    exact ⟨hQuotient.2, hPositive, (Nat.le_div_iff_mul_le hPositive).mp hQuotient.1⟩
  simp only [kstackPoolInit] at hInit
  split at hInit
  · cases hInit
  split at hInit
  · cases hInit
  rename_i hAligned
  split at hInit
  · cases hInit
  generalize hCount : (if poolSize / ((stackPages + 1) * kstackPageSize) > kstackMaxSlots then kstackMaxSlots
    else poolSize / ((stackPages + 1) * kstackPageSize)) = slots at hInit
  split at hInit
  · cases hInit
  rename_i hNonzero
  split at hInit
  · cases hInit
  rename_i hWords
  cases hInit
  obtain ⟨hFew, hPositive, hTotal⟩ := hSlots slots _ hCount.symm hNonzero
  refine ⟨rfl, rfl, rfl, rfl, fun w hw => if_pos hw, rfl, ?_, hFew, hPositive, hTotal, ?_⟩
  · have hNat := congrArg BitVec.toNat (not_not.mp hAligned)
    rw [toNat_and] at hNat
    exact (Nat.and_two_pow_sub_one_eq_mod poolBase.toNat 12).symm.trans hNat
  · rw [lt_def, toNat_udiv, toNat_add] at hWords
    change ¬ bitmapWords.toNat < (slots.toNat + 31) % 2 ^ 32 / 32 at hWords
    change slots.toNat ≤ 32 * bitmapWords.toNat
    omega

theorem init_geometry (hInit : kstackPoolInit vm poolBase poolSize stackPages guardKind bitmap bitmapWords = .ok p)
    (hEnd : poolBase.toNat + poolSize.toNat < 2 ^ 32) : Geometry p := by
  obtain ⟨-, -, hBase, -, -, hPages, hAligned, hFew, hPositive, hTotal, hWords⟩ := init_cases hInit
  refine ⟨?_, hPages, hPositive, ?_, hFew, hWords⟩
  · rw [hBase]
    exact hAligned
  · rw [hBase]
    exact (Nat.add_le_add_left hTotal _).trans_lt hEnd

def bitAt (bitmap : Nat → U32) (n : Nat) : Bool := (bitmap (n / 32)).getLsbD (n % 32)

theorem slotWord (index : U32) : (index >>> 5).toNat = index.toNat / 32 := by
  rw [BitVec.toNat_ushiftRight, Nat.shiftRight_eq_div_pow]

theorem slotMask (index : U32) : 1#32 <<< (index &&& 31) = BitVec.twoPow 32 (index.toNat % 32) := by
  have hShift : (index &&& 31).toNat = index.toNat % 32 := by
    rw [toNat_and]
    exact Nat.and_two_pow_sub_one_eq_mod index.toNat 5
  rw [BitVec.shiftLeft_eq', hShift, BitVec.twoPow_eq]

theorem bitOf_eq (bitmap : Nat → U32) (index : U32) : bitOf bitmap index = bitAt bitmap index.toNat := by
  rw [bitOf, slotMask, slotWord]
  exact and_twoPow_ne_zero _ _ (Nat.mod_lt _ (by decide))

def setBits (p : KstackPool) : Finset Nat :=
  (Finset.range (32 * p.bitmapWords.toNat)).filter fun n => bitAt p.bitmap n = true

theorem mem_setBits {n : Nat} : n ∈ setBits p ↔ n < 32 * p.bitmapWords.toNat ∧ bitAt p.bitmap n := by
  rw [setBits, Finset.mem_filter, Finset.mem_range]

theorem slotMark_bitAt (p : KstackPool) (index : U32) (used : Bool) (n : Nat) :
    bitAt (slotMark p index used).bitmap n = if n = index.toNat then used else bitAt p.bitmap n := by
  have hSame : n / 32 = index.toNat / 32 → (n % 32 = index.toNat % 32 ↔ n = index.toNat) := by omega
  have hBitmap : (slotMark p index used).bitmap = Function.update p.bitmap (index.toNat / 32)
      (if used then p.bitmap (index.toNat / 32) ||| 1#32 <<< (index.toNat % 32)
        else p.bitmap (index.toNat / 32) &&& ~~~(1#32 <<< (index.toNat % 32))) := by
    simp only [slotMark, slotMask, slotWord, BitVec.twoPow_eq]
    cases used <;> rfl
  rw [bitAt, hBitmap]
  obtain hWord | hOther := eq_or_ne (n / 32) (index.toNat / 32)
  · simp only [hWord, Function.update_self, Bits.set_getLsbD _ _ (Nat.mod_lt n (show 0 < 32 by decide)), hSame hWord,
      bitAt]
  · rw [Function.update_of_ne hOther, if_neg (fun hEq => hOther (by rw [hEq])), bitAt]

theorem setBits_mark (hIn : index.toNat < 32 * p.bitmapWords.toNat) :
    setBits (slotMark p index true) = insert index.toNat (setBits p) := by
  ext n
  rw [mem_setBits, Finset.mem_insert, mem_setBits, slotMark_bitAt]
  change n < 32 * p.bitmapWords.toNat ∧ _ ↔ _
  obtain rfl | hNe := eq_or_ne n index.toNat
  · simp [hIn]
  · simp [hNe]

theorem setBits_clear (p : KstackPool) (index : U32) :
    setBits (slotMark p index false) = (setBits p).erase index.toNat := by
  ext n
  rw [mem_setBits, Finset.mem_erase, mem_setBits, slotMark_bitAt]
  change n < 32 * p.bitmapWords.toNat ∧ _ ↔ _
  obtain rfl | hNe := eq_or_ne n index.toNat
  · simp
  · simp [hNe]

structure Booked (p : KstackPool) : Prop where
  used : p.usedSlots.toNat = (setBits p).card
  below : ∀ n ∈ setBits p, n < p.slotCount.toNat

theorem Booked.of_eq {q : KstackPool} (h : Booked p) (hBitmap : q.bitmap = p.bitmap)
    (hWords : q.bitmapWords = p.bitmapWords) (hCount : q.slotCount = p.slotCount)
    (hUsed : q.usedSlots = p.usedSlots) : Booked q := by
  have hBits : setBits q = setBits p := by
    rw [setBits, setBits, hBitmap, hWords]
  constructor
  · rw [hUsed, hBits]
    exact h.used
  · rw [hBits, hCount]
    exact h.below

theorem init_booked (hInit : kstackPoolInit vm poolBase poolSize stackPages guardKind bitmap bitmapWords = .ok p) :
    Booked p := by
  obtain ⟨-, -, -, hUsed, hClear, -⟩ := init_cases hInit
  have hNone : setBits p = ∅ := by
    apply Finset.eq_empty_of_forall_notMem
    intro n hn
    obtain ⟨hIn, hBit⟩ := mem_setBits.mp hn
    rw [bitAt, hClear _ (by omega)] at hBit
    simp at hBit
  constructor
  · rw [hUsed, hNone]
    rfl
  · rw [hNone]
    exact fun n hn => absurd hn (Finset.notMem_empty n)

theorem Booked.mark (h : Booked p) (hNumbered : Numbered p)
    (hIndex : index < p.slotCount) (hClear : bitOf p.bitmap index = false) : Booked (slotMark p index true) := by
  have hCount := hNumbered.count
  have hWords := hNumbered.words
  rw [lt_def] at hIndex
  have hIn : index.toNat < 32 * p.bitmapWords.toNat := by omega
  have hNew : index.toNat ∉ setBits p := by
    rw [mem_setBits, ← bitOf_eq, hClear]
    simp
  have hFew : (setBits p).card ≤ 64 := by
    have hSubset : setBits p ⊆ Finset.range p.slotCount.toNat := fun n hn => Finset.mem_range.mpr (h.below n hn)
    have hCard := Finset.card_le_card hSubset
    rw [Finset.card_range] at hCard
    omega
  constructor
  · rw [setBits_mark hIn, Finset.card_insert_of_notMem hNew, ← h.used]
    change (p.usedSlots + 1).toNat = _
    rw [toNat_add]
    change (p.usedSlots.toNat + 1) % 2 ^ 32 = _
    rw [h.used]
    omega
  · intro n hn
    change n < p.slotCount.toNat
    rw [setBits_mark hIn, Finset.mem_insert] at hn
    obtain rfl | hOld := hn
    · exact hIndex
    · exact h.below n hOld

theorem Booked.clear (h : Booked p) (hNumbered : Numbered p)
    (hIndex : index < p.slotCount) (hSet : bitOf p.bitmap index) : Booked (slotMark p index false) := by
  have hWords := hNumbered.words
  rw [lt_def] at hIndex
  have hOld : index.toNat ∈ setBits p := by
    rw [mem_setBits, ← bitOf_eq, hSet]
    exact ⟨by omega, rfl⟩
  have hPositive : 0 < (setBits p).card := Finset.card_pos.mpr ⟨_, hOld⟩
  constructor
  · rw [setBits_clear, Finset.card_erase_of_mem hOld, ← h.used]
    change (if p.usedSlots > 0 then p.usedSlots - 1 else p.usedSlots).toNat = _
    have hUsed : p.usedSlots > 0 := by
      rw [gt_iff_lt, lt_def, h.used]
      exact hPositive
    rw [if_pos hUsed, BitVec.toNat_sub_of_le (by rw [le_def]; exact Nat.succ_le_of_lt hUsed)]
    rfl
  · intro n hn
    change n < p.slotCount.toNat
    rw [setBits_clear] at hn
    exact h.below n (Finset.mem_of_mem_erase hn)

theorem slotFindFree_clear (h : slotFindFree p < p.slotCount) : bitOf p.bitmap (slotFindFree p) = false := by
  rw [slotFindFree] at h ⊢
  cases hFound : ((List.range p.slotCount.toNat).map (ofNat 32)).find? fun i => !bitOf p.bitmap i with
  | none =>
    rw [hFound] at h
    exact absurd h (BitVec.lt_irrefl _)
  | some slot =>
    have hClear := List.find?_some hFound
    simpa using hClear

end OpenXJ380.Kstack
