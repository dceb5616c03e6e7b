import OpenXJ380.Kstack.Calls

/-! # Guard pages never disappear

A failed allocation whose rollback fails as well keeps its slot on purpose, so
that nobody is handed a half-mapped stack. Every other slot in use has a closed
guard and a mapped stack, after any calls.
-/

namespace OpenXJ380.Kstack

open Function

open Mmu Vmap Transition

/-- `abandoned` are the slots that a failed allocation could not give back. -/
structure Tracked where
  pool : KstackPool
  abandoned : U32 → Bool

inductive Call where
  | alloc
  | free (k : KstackT)

def Call.slot (p : KstackPool) : Call → U32
  | .alloc => slotFindFree p
  | .free k => k.slot

def kstackMachine : Machine Tracked Call KstackErr where
  step s call := match call with
    | .alloc =>
      let (p, e, _) := kstackAlloc s.pool
      let slot := slotFindFree s.pool
      let abandoned := if e ≠ .ok ∧ slot < s.pool.slotCount
        then update s.abandoned slot (kstackSlotInUse p slot) else s.abandoned
      (⟨p, abandoned⟩, e)
    | .free k =>
      let (p, e, _) := kstackFree s.pool k
      (⟨p, if e = .ok then update s.abandoned k.slot false else s.abandoned⟩, e)

structure Sound (p : KstackPool) (abandoned : U32 → Bool) : Prop where
  laid : Laid p
  booked : Booked p
  tables : Usable p → ∃ owners, Tables p.vm (PoolSection p) owners
  live : ∀ slot, slot < p.slotCount → bitOf p.bitmap slot = true → abandoned slot = false →
    Usable p ∧ Live p slot
  abandoned : ∀ slot, abandoned slot = true → slot < p.slotCount ∧ bitOf p.bitmap slot = true

section

variable {p q : KstackPool} {abandoned : U32 → Bool} {slot : U32}

section

variable (h : Sound p abandoned)

include h

theorem Sound.worked (hSlot : slot < p.slotCount) (hWorked : Worked p q slot)
    (hLive : bitOf p.bitmap slot → abandoned slot = false → Usable q ∧ Live q slot) : Sound q abandoned := by
  have hShape := hWorked.shape
  refine ⟨hShape.laid h.laid, ?_, ?_, ?_, ?_⟩
  · exact h.booked.of_eq hWorked.bitmap hShape.bitmapWords hShape.slotCount hWorked.used
  · intro hUsable
    have hBefore := hShape.usable_symm hUsable
    obtain ⟨owners, hTables⟩ := h.tables hBefore
    obtain ⟨owners', -, hAfter⟩ := hTables.changes (hWorked.changes hBefore owners hTables)
    rw [hShape.poolSection]
    exact ⟨owners', hAfter⟩
  · intro other hOther hUsed hKept
    rw [hShape.slotCount] at hOther
    rw [hWorked.bitmap] at hUsed
    obtain rfl | hNe := eq_or_ne slot other
    · exact hLive hUsed hKept
    · obtain ⟨hUsable, hOld⟩ := h.live other hOther hUsed hKept
      obtain ⟨owners, hTables⟩ := h.tables hUsable
      refine ⟨hShape.usable hUsable, ?_⟩
      apply hOld.frame h.laid.geometry hUsable.sane h.laid.fits hTables hShape
        (hWorked.changes hUsable owners hTables) hSlot hNe
      rw [hWorked.bitmap]
      exact hUsed
  · intro other hOther
    rw [hShape.slotCount, hWorked.bitmap]
    exact h.abandoned other hOther

theorem Sound.abandon (hSlot : slot < p.slotCount)
    (hUsed : bitOf p.bitmap slot) : Sound p (update abandoned slot true) := by
  refine ⟨h.laid, h.booked, h.tables, ?_, ?_⟩
  · intro other hOther hBit hKept
    obtain rfl | hNe := eq_or_ne other slot
    · rw [update_self] at hKept
      cases hKept
    · rw [update_of_ne hNe] at hKept
      exact h.live other hOther hBit hKept
  · intro other hOther
    obtain rfl | hNe := eq_or_ne other slot
    · exact ⟨hSlot, hUsed⟩
    · rw [update_of_ne hNe] at hOther
      exact h.abandoned other hOther

theorem Sound.adopt (hUsable : Usable p) (hLive : Live p slot) : Sound p (update abandoned slot false) := by
  refine ⟨h.laid, h.booked, h.tables, ?_, ?_⟩
  · intro other hOther hBit hKept
    obtain rfl | hNe := eq_or_ne other slot
    · exact ⟨hUsable, hLive⟩
    · rw [update_of_ne hNe] at hKept
      exact h.live other hOther hBit hKept
  · intro other hOther
    obtain rfl | hNe := eq_or_ne other slot
    · rw [update_self] at hOther
      cases hOther
    · rw [update_of_ne hNe] at hOther
      exact h.abandoned other hOther

theorem Sound.marked (slot : U32) (used : Bool) (hBooked : Booked (slotMark p slot used)) (hSlot : slot < p.slotCount) :
    Sound (slotMark p slot used) (update abandoned slot used) := by
  have hShape := slotMark_shape p slot used
  refine ⟨hShape.laid h.laid, hBooked, ?_, ?_, ?_⟩
  · intro hUsable
    rw [slotMark_vm, hShape.poolSection]
    exact h.tables (hShape.usable_symm hUsable)
  · intro other hOther hBit hKept
    rw [hShape.slotCount] at hOther
    have hBitAfter := hBit
    rw [slotMark_bitOf] at hBit
    obtain rfl | hNe := eq_or_ne other slot
    · rw [update_self] at hKept
      rw [if_pos rfl, hKept] at hBit
      cases hBit
    · rw [if_neg hNe] at hBit
      rw [update_of_ne hNe] at hKept
      obtain ⟨hUsable, hLive⟩ := h.live other hOther hBit hKept
      exact ⟨hShape.usable hUsable, hLive.of_vm hShape (slotMark_vm p slot used) hBitAfter⟩
  · intro other hOther
    rw [hShape.slotCount, slotMark_bitOf]
    obtain rfl | hNe := eq_or_ne other slot
    · rw [update_self] at hOther
      rw [if_pos rfl]
      exact ⟨hSlot, hOther⟩
    · rw [update_of_ne hNe] at hOther
      rw [if_neg hNe]
      exact h.abandoned other hOther

theorem Sound.cleared (hSlot : slot < p.slotCount) (hUsed : bitOf p.bitmap slot) :
    Sound (slotMark p slot false) (update abandoned slot false) :=
  h.marked slot false (h.booked.clear h.laid.geometry.numbered hSlot hUsed) hSlot

end

theorem Sound.worked_abandoned (h : Sound p (update abandoned slot true)) (hSlot : slot < p.slotCount)
    (hWorked : Worked p q slot) : Sound q (update abandoned slot true) := by
  apply h.worked hSlot hWorked
  intro _ hNever
  rw [update_self] at hNever
  cases hNever

theorem Sound.allocated (h : Sound p (update abandoned slot true)) (hSlot : slot < p.slotCount)
    (hUsed : bitOf p.bitmap slot) (hKept : abandoned slot = false) (hOk : (allocWork p slot).2 = .ok) :
    Sound (allocDone p slot) abandoned := by
  have hUsable := usable_of_allocWork_ok h.laid hSlot hOk
  obtain ⟨owners, hTables⟩ := h.tables hUsable
  have hWorked := allocDone_worked h.laid hSlot
  have hAfter := (h.worked_abandoned hSlot hWorked).adopt (hWorked.shape.usable hUsable)
    (allocDone_live h.laid hTables hSlot hUsed hOk)
  rwa [update_idem, ← hKept, update_eq_self] at hAfter

theorem Sound.alloc {s : Tracked} (h : Sound s.pool s.abandoned) :
    Sound (kstackMachine.step s .alloc).1.pool (kstackMachine.step s .alloc).1.abandoned := by
  simp only [kstackMachine]
  obtain hFree | hFull := Classical.em (slotFindFree s.pool < s.pool.slotCount)
  swap
  · rw [kstackAlloc_full h.laid.inited hFull]
    simp only [hFull, and_false, if_false]
    exact h
  have hClear := slotFindFree_clear hFree
  rw [kstackAlloc_eq h.laid.inited rfl hFree]
  generalize slotFindFree s.pool = slot at hFree hClear ⊢
  have hKept : s.abandoned slot = false := by
    rw [← Bool.not_eq_true]
    intro hAbandoned
    rw [(h.abandoned slot hAbandoned).2] at hClear
    cases hClear
  have hMarked := h.marked slot true (h.booked.mark h.laid.geometry.numbered hFree hClear) hFree
  have hSlot : slot < (slotMark s.pool slot true).slotCount := by
    rw [(slotMark_shape s.pool slot true).slotCount]
    exact hFree
  have hUsed : bitOf (slotMark s.pool slot true).bitmap slot := by
    rw [slotMark_bitOf, if_pos rfl]
  split
  · rename_i hOk
    simp only [ne_eq, not_true_eq_false, false_and, if_false]
    exact hMarked.allocated hSlot hUsed hKept hOk
  · rename_i hFailed
    simp only [ne_eq, hFailed, not_false_eq_true, hFree, and_self, if_true]
    have hBack := hMarked.worked_abandoned hSlot (rolledBack_worked hMarked.laid hSlot)
    have hInUse := hBack.abandoned slot (update_self slot true s.abandoned)
    generalize rolledBack (slotMark s.pool slot true) slot = q at hBack hInUse ⊢
    have hInited := hBack.laid.inited
    split
    · have hShape := slotMark_shape q slot false
      have hFlag : kstackSlotInUse (slotMark q slot false) slot = false := by
        rw [kstackSlotInUse, hShape.inited, hShape.slotCount, hInited, if_neg (by simpa using hInUse.1),
          slotMark_bitOf, if_pos rfl]
      rw [hFlag]
      have hCleared := hBack.cleared hInUse.1 hInUse.2
      rwa [update_idem] at hCleared
    · have hFlag : kstackSlotInUse q slot := by
        rw [kstackSlotInUse, hInited, if_neg (by simpa using hInUse.1)]
        exact hInUse.2
      rw [hFlag]
      exact hBack

theorem Sound.free {s : Tracked} (h : Sound s.pool s.abandoned) (k : KstackT) :
    Sound (kstackMachine.step s (.free k)).1.pool (kstackMachine.step s (.free k)).1.abandoned := by
  simp only [kstackMachine]
  obtain hHandle | hRefused := eq_or_ne (handleCheck s.pool k) .ok
  swap
  · rw [kstackFree_refused hRefused]
    simp only [hRefused, if_false]
    exact h
  obtain ⟨hSlot, hUsed⟩ := handleCheck_ok hHandle
  have hWorked := released_worked s.pool k.slot
  rw [kstackFree_eq hHandle]
  split
  · rename_i hFailed
    apply h.worked hSlot hWorked
    intro _ hKept
    exact absurd (releaseWork_ok (h.live k.slot hSlot hUsed hKept).2) hFailed
  · simp only [if_true]
    have hReleased := (h.abandon hSlot hUsed).worked_abandoned hSlot hWorked
    have hInUse := hReleased.abandoned k.slot (update_self k.slot true s.abandoned)
    have hCleared := hReleased.cleared hInUse.1 hInUse.2
    rw [update_idem] at hCleared
    refine @Sound.worked _ _ _ k.slot hCleared ?_ (freeDone_counted s.pool k.slot) ?_
    · rw [(slotMark_shape _ k.slot false).slotCount]
      exact hInUse.1
    · intro hNever
      rw [slotMark_bitOf, if_pos rfl] at hNever
      cases hNever

theorem Sound.step {s : Tracked} (h : Sound s.pool s.abandoned) (call : Call) :
    Sound (kstackMachine.step s call).1.pool (kstackMachine.step s call).1.abandoned := by
  cases call with
  | alloc => exact h.alloc
  | free k => exact h.free k

theorem Sound.final {s : Tracked} (h : Sound s.pool s.abandoned) (calls : List Call) :
    Sound (kstackMachine.final s calls).pool (kstackMachine.final s calls).abandoned :=
  kstackMachine.final_invariant (I := fun s => Sound s.pool s.abandoned) (fun _ call hSound => hSound.step call) h calls

end

section

variable {l1 : BitVec 12 → U32} {l2Pool : L2Pool} {l2PoolPa l2Capacity vaBegin vaEnd : U32} {vm : VmapT}
  {poolBase poolSize stackPages : U32} {guardKind : KstackGuard} {bitmap : Nat → U32} {bitmapWords : U32}
  {p : KstackPool}

theorem vmapInit_cases (hVmap : vmapInit (some l1) (some l2Pool) l2PoolPa l2Capacity vaBegin vaEnd = .ok vm) :
    vm.l1 = l1 ∧ vm.l2Used = 0 ∧ vm.vaEnd.toNat % 4096 = 0 := by
  simp only [vmapInit] at hVmap
  split_ifs at hVmap with hArgs hPool hRange
  cases hVmap
  rw [not_or, not_not, not_not] at hRange
  have hNat := congrArg BitVec.toNat hRange.2
  rw [BitVec.toNat_and] at hNat
  exact ⟨rfl, rfl, (Nat.and_two_pow_sub_one_eq_mod vaEnd.toNat 12).symm.trans hNat⟩

theorem init_sound (hVmap : vmapInit (some l1) (some l2Pool) l2PoolPa l2Capacity vaBegin vaEnd = .ok vm)
    (hFits : PoolFits vm) (hPool : kstackPoolInit vm poolBase poolSize stackPages guardKind bitmap bitmapWords = .ok p)
    (hEnd : poolBase.toNat + poolSize.toNat < 2 ^ 32)
    (hSections : ∀ va : U32, poolBase.toNat ≤ va.toNat → va.toNat < poolBase.toNat + poolSize.toNat →
      l1Type (l1 (vmapL1Index va)) = mmuL1TypeSection) : Sound p fun _ => false := by
  obtain ⟨hL1, hUsed, hVaEnd⟩ := vmapInit_cases hVmap
  obtain ⟨hVm, hInited, hBase, -, hClear, -, -, -, -, hTotal, hWords⟩ := init_cases hPool
  have hGeom := init_geometry hPool hEnd
  have hInside : ∀ va, InPool p va → l1Type (p.vm.l1 (vmapL1Index va)) = mmuL1TypeSection := by
    rintro va ⟨hLow, hHigh⟩
    rw [hBase] at hLow hHigh
    rw [hVm, hL1]
    exact hSections va hLow (by omega)
  refine ⟨⟨hInited, hGeom, by rwa [hVm], by rwa [hVm], ?_⟩, init_booked hPool, ?_, ?_, ?_⟩
  · intro _ slot hSlot
    apply hInside
    rw [BitVec.lt_def] at hSlot
    have hBytes := hGeom.bytes
    have hStep : (slot.toNat + 1) * (slotBytes p).toNat ≤ p.slotCount.toNat * (slotBytes p).toNat :=
      Nat.mul_le_mul_right _ hSlot
    rw [Nat.succ_mul] at hStep
    rw [InPool, slotGuardOf, hGeom.slotBase_toNat hSlot.le]
    omega
  · intro hUsable
    refine ⟨[], hUsable.aligned, List.nodup_nil, ?_, ?_, ?_, ?_⟩
    · rw [hVm, hUsed]
      rfl
    · rw [hVm, hUsed]
      exact Nat.zero_le _
    · intro k hk
      cases hk
    · rintro i - ⟨va, hva, rfl⟩
      exact hInside va hva
  · intro slot hSlot hBit
    rw [BitVec.lt_def] at hSlot
    rw [bitOf_eq, bitAt, hClear _ (by omega)] at hBit
    simp at hBit
  · intro slot hNever
    cases hNever

end

/-- A guard entry that no access passes: a fault, or a page without access permissions. -/
def GuardInaccessible (kind : KstackGuard) (desc : U32) : Prop :=
  match kind with
  | .unmapped => desc = 0
  | .apNone => ∀ table va, (smallPageTranslation table desc va).ap = 0

theorem GuardClosed.inaccessible {kind : KstackGuard} {desc : U32} (h : GuardClosed kind desc) :
    GuardInaccessible kind desc := by
  cases kind with
  | unmapped => exact h
  | apNone =>
    intro table va
    obtain ⟨hHigh, hLow⟩ := guardClosed_ap h
    rw [smallPageTranslation, hHigh, hLow]
    rfl

structure Guarded (p : KstackPool) (slot : U32) : Prop where
  guard : ∃ desc, p.vm.entry (slotGuardOf p slot) = some desc ∧ GuardInaccessible p.guardKind desc
  stack : ∀ i < p.stackPages.toNat, p.vm.entry (pageVa (slotStackBaseOf p slot) i) =
    some (mmuSmallPageDescriptor (pageVa (slotStackBaseOf p slot) i) (pageAttrOf vmapAttrNormal))

def Flushes (s : Tracked) (call : Call) : Prop :=
  let q := (kstackMachine.step s call).1.pool
  q.vm = s.pool.vm ∨
    q.flushed = s.pool.flushed ++ [(slotGuardOf s.pool (call.slot s.pool), slotTopOf s.pool (call.slot s.pool))]

theorem Sound.flushes {s : Tracked} (h : Sound s.pool s.abandoned) (call : Call) : Flushes s call := by
  cases call with
  | alloc =>
    obtain hFree | hFull := Classical.em (slotFindFree s.pool < s.pool.slotCount)
    · right
      simp only [kstackMachine, Call.slot]
      rw [kstackAlloc_eq h.laid.inited rfl hFree]
      generalize slotFindFree s.pool = slot at hFree ⊢
      have hShape := slotMark_shape s.pool slot true
      have hGeom := hShape.geometry h.laid.geometry
      have hSlot : slot < (slotMark s.pool slot true).slotCount := by
        rw [hShape.slotCount]
        exact hFree
      rw [← slotMark_flushed s.pool slot true, ← hShape.slotGuardOf, ← hShape.slotTopOf]
      split
      · exact allocDone_flushed hGeom hSlot
      · simp only
        split
        · rw [slotMark_flushed]
          exact rolledBack_flushed hGeom hSlot
        · exact rolledBack_flushed hGeom hSlot
    · left
      simp only [kstackMachine]
      rw [kstackAlloc_full h.laid.inited hFull]
  | free k =>
    obtain hHandle | hRefused := eq_or_ne (handleCheck s.pool k) .ok
    · right
      have hFlush := released_flushed h.laid.geometry (handleCheck_ok hHandle).1
      simp only [kstackMachine, Call.slot]
      rw [kstackFree_eq hHandle]
      split
      · exact hFlush
      · rw [← freeDone_flushed] at hFlush
        exact hFlush
    · left
      simp only [kstackMachine]
      rw [kstackFree_refused hRefused]

/-- After any calls, every slot in use that no failed allocation left behind is guarded. -/
theorem guard_pages_stay {l1 : BitVec 12 → U32} {l2Pool : L2Pool} {l2PoolPa l2Capacity vaBegin vaEnd : U32}
    {vm : VmapT} {poolBase poolSize stackPages : U32} {guardKind : KstackGuard} {bitmap : Nat → U32}
    {bitmapWords : U32} {p : KstackPool}
    (hVmap : vmapInit (some l1) (some l2Pool) l2PoolPa l2Capacity vaBegin vaEnd = .ok vm)
    (hFits : PoolFits vm)
    (hPool : kstackPoolInit vm poolBase poolSize stackPages guardKind bitmap bitmapWords = .ok p)
    (hEnd : poolBase.toNat + poolSize.toNat < 2 ^ 32)
    (hSections : ∀ va : U32, poolBase.toNat ≤ va.toNat → va.toNat < poolBase.toNat + poolSize.toNat →
      l1Type (l1 (vmapL1Index va)) = mmuL1TypeSection)
    (calls : List Call) :
    let s := kstackMachine.final ⟨p, fun _ => false⟩ calls
    (∀ slot < s.pool.slotCount, kstackSlotInUse s.pool slot = true → s.abandoned slot = false →
      Guarded s.pool slot) ∧
    (∀ slot, s.abandoned slot = true → kstackSlotInUse s.pool slot = true) ∧
    (∀ i j, i < s.pool.slotCount → j < s.pool.slotCount → i ≠ j →
      ∀ va, ¬ (SlotAddress s.pool i va ∧ SlotAddress s.pool j va)) ∧
    s.pool.usedSlots.toNat = (setBits s.pool).card ∧
    ∀ call, Flushes s call := by
  intro s
  have hSound : Sound s.pool s.abandoned :=
    Sound.final (s := ⟨p, fun _ => false⟩) (init_sound hVmap hFits hPool hEnd hSections) calls
  refine ⟨?_, ?_, ?_, hSound.booked.used, hSound.flushes⟩
  · intro slot hSlot hUsed hKept
    have hBit : bitOf s.pool.bitmap slot = true := by
      rwa [kstackSlotInUse, hSound.laid.inited, if_neg (by simpa using hSlot)] at hUsed
    have hLive := (hSound.live slot hSlot hBit hKept).2
    obtain ⟨desc, hEntry, hClosed⟩ := hLive.guard
    exact ⟨⟨desc, hEntry, hClosed.inaccessible⟩, hLive.pages⟩
  · intro slot hAbandoned
    obtain ⟨hSlot, hUsed⟩ := hSound.abandoned slot hAbandoned
    rwa [kstackSlotInUse, hSound.laid.inited, if_neg (by simpa using hSlot)]
  · intro i j hi hj hNe va
    exact hSound.laid.geometry.disjoint hi hj hNe va

def stackVmap (vaBegin vaEnd capacity : U32) : VmapT :=
  { sampleVmap sampleSections with vaBegin := vaBegin, vaEnd := vaEnd, l2Capacity := capacity }

def stackPool (vm : VmapT) (poolBase slotCount : U32) : KstackPool :=
  { vm := vm, poolBase := poolBase, slotCount := slotCount, stackPages := 1, slotPages := 2
    bitmap := fun w => if w < 1 then 0 else 0, bitmapWords := 1, flushed := [], guardKind := .unmapped
    usedSlots := 0, peakUsed := 0, statAlloc := 0, statFree := 0, statFlush := 0, statGuardSplit := 0
    lastVmapErr := .ok, inited := true }

def boundaryPool (capacity : U32) : KstackPool := stackPool (stackVmap 0x40000000 0x40400000 capacity) 0x400FE000 2

def topPool : KstackPool := stackPool (stackVmap 0xFFF00000 0xFFFFF000 4) 0xFFFFE000 1

theorem guard_pages_stay_across_sections :
    let s := kstackMachine.final ⟨boundaryPool 4, fun _ => false⟩ [.alloc, .alloc]
    kstackSlotInUse s.pool 1 = true ∧ Guarded s.pool 1 := by
  have hVmap : vmapInit (some sampleSections) (some samplePool) 0x20000000 4 0x40000000 0x40400000 =
      .ok (stackVmap 0x40000000 0x40400000 4) := rfl
  have hPool : kstackPoolInit (stackVmap 0x40000000 0x40400000 4) 0x400FE000 0x4000 1 .unmapped (fun _ => 0) 1 =
      .ok (boundaryPool 4) := rfl
  have hAll := guard_pages_stay hVmap ⟨by decide, by decide⟩ hPool (by decide)
    (fun va _ _ => sampleSections_type (vmapL1Index va)) [.alloc, .alloc]
  have hUsed : kstackSlotInUse (kstackMachine.final ⟨boundaryPool 4, fun _ => false⟩ [.alloc, .alloc]).pool 1 =
      true := by decide +kernel
  exact ⟨hUsed, hAll.1 1 (by decide +kernel) hUsed (by decide +kernel)⟩

/-- With one second-level table the second slot stays in use under an open guard. At the
top of the address space a failed call closes a guard and flushes nothing. -/
theorem abandoned_guard_open :
    (vmapInit (some sampleSections) (some samplePool) 0x20000000 1 0x40000000 0x40400000 =
        .ok (stackVmap 0x40000000 0x40400000 1) ∧
      kstackPoolInit (stackVmap 0x40000000 0x40400000 1) 0x400FE000 0x4000 1 .unmapped (fun _ => 0) 1 =
        .ok (boundaryPool 1) ∧
      let s := kstackMachine.final ⟨boundaryPool 1, fun _ => false⟩ [.alloc, .alloc]
      kstackSlotInUse s.pool 1 = true ∧ s.pool.vm.entry (slotGuardOf s.pool 1) = none ∧
        (s.pool.vm.translate (slotGuardOf s.pool 1)).map (fun t => t.ap) = some 3) ∧
    vmapInit (some sampleSections) (some samplePool) 0x20000000 4 0xFFF00000 0xFFFFF000 =
        .ok (stackVmap 0xFFF00000 0xFFFFF000 4) ∧
      kstackPoolInit (stackVmap 0xFFF00000 0xFFFFF000 4) 0xFFFFE000 0x2000 1 .unmapped (fun _ => 0) 1 =
        .ok topPool ∧
      let s := kstackMachine.final ⟨topPool, fun _ => false⟩ [.alloc]
      topPool.vm.entry (slotGuardOf topPool 0) = none ∧ s.pool.vm.entry (slotGuardOf topPool 0) = some 0 ∧
        s.pool.flushed = [] := by
  refine ⟨⟨rfl, rfl, ?_, ?_, ?_⟩, rfl, rfl, ?_, ?_, ?_⟩ <;> decide +kernel

end OpenXJ380.Kstack
