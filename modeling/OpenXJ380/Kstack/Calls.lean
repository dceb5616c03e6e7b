import OpenXJ380.Kstack.SlotPages

/-! # Pools that never hand out a stack

Where the pages of a slot wrap around the address space, or the second-level
tables are not aligned, every allocation fails.
-/

namespace OpenXJ380.Kstack

section

open Mmu Vmap

structure Laid (p : KstackPool) : Prop where
  inited : p.inited = true
  geometry : Geometry p
  fits : PoolFits p.vm
  vaEnd : p.vm.vaEnd.toNat % 4096 = 0
  sections : p.vm.l2PoolPa &&& (vmapL2Align - 1) ≠ 0 → ∀ slot < p.slotCount,
    l1Type (p.vm.l1 (vmapL1Index (slotGuardOf p slot))) = mmuL1TypeSection

structure Usable (p : KstackPool) : Prop where
  sane : Sane p
  aligned : p.vm.l2PoolPa &&& (vmapL2Align - 1) = 0

theorem SameShape.laid {p q : KstackPool} (h : SameShape p q) (hLaid : Laid p) : Laid q := by
  refine ⟨h.inited.trans hLaid.inited, h.geometry hLaid.geometry, h.window.poolFits hLaid.fits, ?_, ?_⟩
  · rw [h.window.vaEnd]
    exact hLaid.vaEnd
  · intro hBad slot hSlot
    rw [h.window.l2PoolPa] at hBad
    rw [h.slotCount] at hSlot
    rw [h.slotGuardOf, h.window.l1 hBad]
    exact hLaid.sections hBad slot hSlot

theorem SameShape.usable {p q : KstackPool} (h : SameShape p q) (hUsable : Usable p) : Usable q := by
  refine ⟨h.sane hUsable.sane, ?_⟩
  rw [h.window.l2PoolPa]
  exact hUsable.aligned

theorem SameShape.usable_symm {p q : KstackPool} (h : SameShape p q) (hUsable : Usable q) : Usable p := by
  constructor
  · rw [Sane, ← h.stackPages]
    exact hUsable.sane
  · rw [← h.window.l2PoolPa]
    exact hUsable.aligned

variable {p : KstackPool} {slot : U32}

theorem Geometry.stackBase_aligned (h : Geometry p) (slot : U32) : (slotStackBaseOf p slot).toNat % 4096 = 0 := by
  have hAligned := h.aligned
  have hSize : kstackPageSize.toNat = 4096 := rfl
  rw [slotStackBaseOf, slotBaseOf, BitVec.toNat_add, BitVec.toNat_add, BitVec.toNat_mul, hSize]
  omega

theorem last_page_refused (hLaid : Laid p) {va : U32} (hLast : va.toNat = 0xFFFFF000) : ¬ Accepted p.vm va := by
  intro hAccepted
  have hRange := hAccepted.range
  have hEnd := hLaid.vaEnd
  simp only [inRange, decide_eq_true_eq, ge_iff_le] at hRange
  have hBelow := hRange.2
  rw [BitVec.lt_def] at hBelow
  omega

theorem allocWork_wraps (hLaid : Laid p) (hWraps : ¬ Sane p) : (allocWork p slot).2 ≠ .ok := by
  intro hOk
  have hBytes := hLaid.geometry.bytes
  rw [slotBytes, hLaid.geometry.pages, BitVec.toNat_mul, BitVec.toNat_add] at hBytes
  change 0 < (p.stackPages.toNat + 1) % 2 ^ 32 * 4096 % 2 ^ 32 at hBytes
  rw [Sane] at hWraps
  have hMany : 2 ^ 20 ≤ p.stackPages.toNat := by omega
  have hGuard := guardApply_kept p (slotGuardOf p slot)
  have hBase := hGuard.shape.slotStackBaseOf slot
  have hPages := hGuard.shape.stackPages
  simp only [allocWork] at hOk
  split at hOk
  · have hAligned := hLaid.geometry.stackBase_aligned slot
    rw [hBase, hPages] at hOk
    have hClaimed := claimPages_accepted (k := 0) hOk ((0xFFFFF000 - (slotStackBaseOf p slot).toNat) / 4096)
      (Nat.zero_le _) (by omega)
    apply last_page_refused hLaid ?_ (hGuard.window.symm.accepted hClaimed)
    have hSize : kstackPageSize.toNat = 4096 := rfl
    rw [pageVa, BitVec.toNat_add, BitVec.toNat_mul, BitVec.toNat_ofNat, hSize]
    omega
  · rename_i hFailed
    exact absurd hOk hFailed

theorem split_misaligned {v : VmapT} {va : U32} (hBad : v.l2PoolPa &&& (vmapL2Align - 1) ≠ 0)
    (hSection : l1Type (v.l1 (vmapL1Index va)) = mmuL1TypeSection) : (vmapSplitSection v va).2 ≠ .ok := by
  intro hOk
  have hAfter := split_ok_type hOk
  rw [(split_window v va).l1 hBad, hSection] at hAfter
  cases hAfter

theorem guardUnmap_misaligned (hBad : p.vm.l2PoolPa &&& (vmapL2Align - 1) ≠ 0)
    {guard : U32} (hSection : l1Type (p.vm.l1 (vmapL1Index guard)) = mmuL1TypeSection) :
    (guardUnmap p guard).2 ≠ .ok := by
  intro hOk
  obtain hAccepted | hRefused := Classical.em (Accepted p.vm guard)
  · have hLookup := vmapLookup_section hAccepted.inited hAccepted.range hSection
    have hUnmap : vmapUnmap p.vm guard = (p.vm, .isSection) := by
      rw [vmapUnmap_eq hAccepted, hLookup, if_neg (by decide), if_pos rfl]
    have hSplit := split_misaligned hBad hSection
    simp only [guardUnmap, hUnmap] at hOk
    rw [if_neg (by decide), if_pos trivial, if_neg hSplit, if_neg (split_ne_notMapped _ _), vmapResult_ok] at hOk
    exact hSplit hOk
  · obtain ⟨e, hError, hEq⟩ := vmapUnmap_refused hRefused
    simp only [guardUnmap, hEq] at hOk
    rw [if_neg (ne_of_refusal hError (by decide)), if_neg (ne_of_refusal hError (by decide)), vmapResult_ok] at hOk
    exact ne_of_refusal hError (by decide) hOk

theorem guardApply_misaligned (hBad : p.vm.l2PoolPa &&& (vmapL2Align - 1) ≠ 0)
    {guard : U32} (hAligned : guard &&& (vmapPageSize - 1) = 0)
    (hSection : l1Type (p.vm.l1 (vmapL1Index guard)) = mmuL1TypeSection) : (guardApply p guard).2 ≠ .ok := by
  intro hOk
  cases hKind : p.guardKind with
  | unmapped =>
    rw [guardApply, hKind] at hOk
    exact guardUnmap_misaligned hBad hSection hOk
  | apNone =>
    rw [guardApply_apNone hKind] at hOk
    obtain hAccepted | hRefused := Classical.em (Accepted p.vm guard)
    · have hLookup := vmapLookup_section hAccepted.inited hAccepted.range hSection
      have hSplit := split_misaligned hBad hSection
      rw [guardSplit, if_pos hLookup, if_pos hSplit, vmapResult_ok] at hOk
      exact hSplit hOk
    · have hWindow := guardSplit_window p.vm guard
      split at hOk
      · rename_i hFailed
        exact hFailed (vmapResult_ok.mp hOk)
      · rw [vmapResult_ok, guardClose] at hOk
        apply hRefused
        apply hWindow.symm.accepted
        split at hOk
        · exact map_accepted hOk
        · exact setAttr_accepted hAligned hOk

theorem allocWork_misaligned (hLaid : Laid p) (hBad : p.vm.l2PoolPa &&& (vmapL2Align - 1) ≠ 0)
    (hSlot : slot < p.slotCount) : (allocWork p slot).2 ≠ .ok := by
  have hAligned : slotGuardOf p slot &&& (vmapPageSize - 1) = 0 := by
    have hBase := hLaid.geometry.stackBase_aligned slot
    have hSize : kstackPageSize.toNat = 4096 := rfl
    rw [slotStackBaseOf, BitVec.toNat_add, hSize] at hBase
    apply BitVec.eq_of_toNat_eq
    rw [BitVec.toNat_and]
    apply (Nat.and_two_pow_sub_one_eq_mod (slotGuardOf p slot).toNat 12).trans
    rw [slotGuardOf]
    change _ = 0
    omega
  have hGuard := guardApply_misaligned hBad hAligned (hLaid.sections hBad slot hSlot)
  simp only [allocWork]
  rw [if_neg hGuard]
  exact hGuard

theorem usable_of_allocWork_ok (hLaid : Laid p) (hSlot : slot < p.slotCount)
    (hOk : (allocWork p slot).2 = .ok) : Usable p := by
  constructor
  · by_contra hWraps
    exact allocWork_wraps hLaid hWraps hOk
  · by_contra hBad
    exact allocWork_misaligned hLaid hBad hSlot hOk

end

/-! # Allocating and freeing a slot

A call works on the pages of one slot and then flushes it. The bookkeeping of
the slot comes before or after.
-/

open Mmu Vmap

structure Worked (p q : KstackPool) (slot : U32) : Prop where
  shape : SameShape p q
  bitmap : q.bitmap = p.bitmap
  used : q.usedSlots = p.usedSlots
  changes : Usable p → ∀ owners, Tables p.vm (PoolSection p) owners →
    Changes (SlotPages p slot) p.vm q.vm

theorem SameShape.poolSection {p q : KstackPool} (h : SameShape p q) : PoolSection q = PoolSection p := by
  funext i desc
  simp only [PoolSection, h.inPool_iff]

section

variable {p q r : KstackPool} {slot : U32} {owners : List (BitVec 12)}

theorem Worked.of_vm (hShape : SameShape p q) (hBitmap : q.bitmap = p.bitmap)
    (hUsed : q.usedSlots = p.usedSlots) (hVm : q.vm = p.vm) : Worked p q slot := by
  refine ⟨hShape, hBitmap, hUsed, ?_⟩
  intro _ _ _
  rw [hVm]

theorem Worked.trans (h : Worked p q slot) (h' : Worked q r slot) : Worked p r slot := by
  refine ⟨h.shape.trans h'.shape, h'.bitmap.trans h.bitmap, h'.used.trans h.used, ?_⟩
  intro hUsable owners hTables
  have hFirst := h.changes hUsable owners hTables
  obtain ⟨owners', -, hMid⟩ := hTables.changes hFirst
  rw [← h.shape.poolSection] at hMid
  have hSecond := h'.changes (h.shape.usable hUsable) owners' hMid
  have hPages : SlotPages q slot = SlotPages p slot := by
    funext va
    exact propext (h.shape.slotPages_iff slot va)
  rw [hPages] at hSecond
  exact hFirst.trans hSecond

theorem flushRange_worked (p : KstackPool) (a b : U32) : Worked p (flushRange p a b) slot := by
  apply Worked.of_vm (flushRange_shape p a b) <;>
  · rw [flushRange]
    split <;> rfl

theorem counted_worked (p : KstackPool) (allocs frees slot : U32) :
    Worked p { p with statAlloc := allocs, statFree := frees } slot :=
  Worked.of_vm ⟨.refl _, rfl, rfl, rfl, rfl, rfl, rfl, rfl⟩ rfl rfl rfl

theorem allocWork_worked (hLaid : Laid p) (hSlot : slot < p.slotCount) : Worked p (allocWork p slot).1 slot := by
  have hKept := allocWork_kept p slot
  refine ⟨hKept.shape, hKept.bitmap, hKept.usedSlots, ?_⟩
  intro hUsable owners hTables
  exact allocWork_changes hLaid.geometry hUsable.sane hSlot hTables

theorem releaseWork_worked (p : KstackPool) (slot : U32) : Worked p (releaseWork p slot).1 slot := by
  have hKept := releaseWork_kept p slot
  exact ⟨hKept.shape, hKept.bitmap, hKept.usedSlots, fun _ _ hTables => releaseWork_changes hTables⟩

theorem Live.of_vm (h : Live p slot) (hShape : SameShape p q) (hVm : q.vm = p.vm)
    (hUsed : bitOf q.bitmap slot) : Live q slot := by
  refine ⟨?_, hUsed, ?_, ?_, ?_⟩
  · rw [hShape.slotCount]
    exact h.below
  · rw [hVm, hShape.slotGuardOf, hShape.guardKind]
    exact h.guard
  · rw [hVm, hShape.stackPages, hShape.slotStackBaseOf]
    exact h.pages
  · intro va hva
    rw [hVm]
    exact h.accepted va ((hShape.slotPages_iff slot va).mp hva)

theorem slotMark_bitOf (p : KstackPool) (index : U32) (used : Bool) (slot : U32) :
    bitOf (slotMark p index used).bitmap slot = if slot = index then used else bitOf p.bitmap slot := by
  rw [bitOf_eq, bitOf_eq, slotMark_bitAt]
  simp only [BitVec.toNat_inj]

@[simp] theorem slotMark_vm (p : KstackPool) (index : U32) (used : Bool) : (slotMark p index used).vm = p.vm := by
  cases used <;> rfl

end

def flushSlot (p : KstackPool) (slot : U32) : KstackPool :=
  flushRange p (slotGuardOf p slot) (slotTopOf p slot)

def allocDone (p : KstackPool) (slot : U32) : KstackPool :=
  let q := flushSlot (allocWork p slot).1 slot
  { q with statAlloc := q.statAlloc + 1 }

def rolledBack (p : KstackPool) (slot : U32) : KstackPool :=
  flushSlot (releaseWork (allocWork p slot).1 slot).1 slot

def released (p : KstackPool) (slot : U32) : KstackPool := flushSlot (releaseWork p slot).1 slot

def freeDone (p : KstackPool) (slot : U32) : KstackPool :=
  let q := slotMark (released p slot) slot false
  { q with statFree := q.statFree + 1 }

variable {p : KstackPool} {slot : U32}

theorem kstackAlloc_eq (hInited : p.inited) (hFound : slotFindFree p = slot) (hFree : slot < p.slotCount) :
    kstackAlloc p = if (allocWork (slotMark p slot true) slot).2 = .ok then (allocDone (slotMark p slot true) slot, .ok,
          some (handleOf (flushSlot (allocWork (slotMark p slot true) slot).1 slot) slot)) else
        (if (releaseWork (allocWork (slotMark p slot true) slot).1 slot).2 = .ok then
            slotMark (rolledBack (slotMark p slot true) slot) slot false else rolledBack (slotMark p slot true) slot,
          (allocWork (slotMark p slot true) slot).2, none) := by
  have hNot : ¬ (!p.inited) := by simp [hInited]
  subst hFound
  rw [kstackAlloc, if_neg hNot]
  exact if_neg (BitVec.not_le.mpr hFree)

theorem kstackAlloc_full (hInited : p.inited) (hFull : ¬ slotFindFree p < p.slotCount) :
    kstackAlloc p = (p, .noSlot, none) := by
  have hNot : ¬ (!p.inited) := by simp [hInited]
  rw [kstackAlloc, if_neg hNot]
  simp only
  rw [if_pos (BitVec.not_lt.mp hFull)]

theorem kstackFree_eq {k : KstackT} (hHandle : handleCheck p k = .ok) : kstackFree p k =
      if (releaseWork p k.slot).2 ≠ .ok then (released p k.slot, (releaseWork p k.slot).2, k)
      else (freeDone p k.slot, .ok, { k with inUse := false }) := by
  rw [kstackFree]
  exact if_neg (not_not.mpr hHandle)

theorem kstackFree_refused {k : KstackT} (hHandle : handleCheck p k ≠ .ok) :
    kstackFree p k = (p, handleCheck p k, k) := by
  simp only [kstackFree]
  rw [if_pos hHandle]

theorem handleCheck_ok {k : KstackT} (hHandle : handleCheck p k = .ok) :
    k.slot < p.slotCount ∧ bitOf p.bitmap k.slot := by
  simp only [handleCheck] at hHandle
  split_ifs at hHandle with hInited hSlot hFields hUsed
  · rw [not_or, Bool.not_eq_true, Bool.not_eq_false'] at hUsed
    exact ⟨BitVec.not_le.mp hSlot, by simpa using hUsed.2⟩

theorem flushSlot_worked (p : KstackPool) (slot : U32) : Worked p (flushSlot p slot) slot :=
  flushRange_worked p _ _

@[simp] theorem flushSlot_vm (p : KstackPool) (slot : U32) : (flushSlot p slot).vm = p.vm := by
  rw [flushSlot, flushRange]
  split <;> rfl

theorem allocDone_counted (p : KstackPool) (slot : U32) :
    Worked (flushSlot (allocWork p slot).1 slot) (allocDone p slot) slot := by
  rw [allocDone]
  generalize flushSlot (allocWork p slot).1 slot = q
  exact counted_worked q _ _ slot

@[simp] theorem allocDone_vm (p : KstackPool) (slot : U32) : (allocDone p slot).vm = (allocWork p slot).1.vm := by
  have hFlush := flushSlot_vm (allocWork p slot).1 slot
  rw [allocDone]
  generalize flushSlot (allocWork p slot).1 slot = q at hFlush ⊢
  exact hFlush

theorem freeDone_counted (p : KstackPool) (slot : U32) :
    Worked (slotMark (released p slot) slot false) (freeDone p slot) slot := by
  rw [freeDone]
  generalize slotMark (released p slot) slot false = q
  exact counted_worked q _ _ slot

theorem allocDone_worked (hLaid : Laid p) (hSlot : slot < p.slotCount) : Worked p (allocDone p slot) slot :=
  ((allocWork_worked hLaid hSlot).trans (flushSlot_worked _ slot)).trans (allocDone_counted p slot)

theorem rolledBack_worked (hLaid : Laid p) (hSlot : slot < p.slotCount) : Worked p (rolledBack p slot) slot :=
  ((allocWork_worked hLaid hSlot).trans (releaseWork_worked _ slot)).trans (flushSlot_worked _ slot)

theorem released_worked (p : KstackPool) (slot : U32) : Worked p (released p slot) slot :=
  (releaseWork_worked p slot).trans (flushSlot_worked _ slot)

theorem allocDone_live (hLaid : Laid p) {owners : List (BitVec 12)}
    (hTables : Tables p.vm (PoolSection p) owners) (hSlot : slot < p.slotCount)
    (hUsed : bitOf p.bitmap slot) (hOk : (allocWork p slot).2 = .ok) : Live (allocDone p slot) slot := by
  have hUsable := usable_of_allocWork_ok hLaid hSlot hOk
  have hLive := allocWork_live hLaid.geometry hUsable.sane hSlot hLaid.fits hTables hUsed hOk
  have hShape : SameShape (allocWork p slot).1 (allocDone p slot) :=
    (flushSlot_worked (allocWork p slot).1 slot).shape.trans (allocDone_counted p slot).shape
  apply hLive.of_vm hShape (allocDone_vm p slot)
  rw [(allocDone_worked hLaid hSlot).bitmap]
  exact hUsed

theorem flushSlot_flushed (hGeom : Geometry p) (hSlot : slot < p.slotCount) :
    (flushSlot p slot).flushed = p.flushed ++ [(slotGuardOf p slot, slotTopOf p slot)] := by
  rw [flushSlot, flushRange, if_pos (hGeom.guard_lt_top hSlot)]

theorem flushSlot_after {q : KstackPool} (hGeom : Geometry p) (hSlot : slot < p.slotCount) (hKept : Kept p q) :
    (flushSlot q slot).flushed = p.flushed ++ [(slotGuardOf p slot, slotTopOf p slot)] := by
  have hShape := hKept.shape
  rw [flushSlot_flushed (hShape.geometry hGeom) (by rwa [hShape.slotCount]), hKept.flushed,
    hShape.slotGuardOf, hShape.slotTopOf]

@[simp] theorem slotMark_flushed (p : KstackPool) (index : U32) (used : Bool) :
    (slotMark p index used).flushed = p.flushed := by
  cases used <;> rfl

theorem allocDone_flushed (hGeom : Geometry p) (hSlot : slot < p.slotCount) :
    (allocDone p slot).flushed = p.flushed ++ [(slotGuardOf p slot, slotTopOf p slot)] := by
  have hFlush := flushSlot_after hGeom hSlot (allocWork_kept p slot)
  rw [allocDone]
  generalize flushSlot (allocWork p slot).1 slot = q at hFlush ⊢
  exact hFlush

theorem rolledBack_flushed (hGeom : Geometry p) (hSlot : slot < p.slotCount) :
    (rolledBack p slot).flushed = p.flushed ++ [(slotGuardOf p slot, slotTopOf p slot)] := by
  rw [rolledBack]
  exact flushSlot_after hGeom hSlot ((allocWork_kept p slot).trans (releaseWork_kept _ slot))

theorem released_flushed (hGeom : Geometry p) (hSlot : slot < p.slotCount) :
    (released p slot).flushed = p.flushed ++ [(slotGuardOf p slot, slotTopOf p slot)] := by
  rw [released]
  exact flushSlot_after hGeom hSlot (releaseWork_kept p slot)

theorem freeDone_flushed (p : KstackPool) (slot : U32) : (freeDone p slot).flushed = (released p slot).flushed := by
  have hMark := slotMark_flushed (released p slot) slot false
  rw [freeDone]
  generalize slotMark (released p slot) slot false = q at hMark ⊢
  exact hMark

end OpenXJ380.Kstack
