import OpenXJ380.Kstack.Guard
import OpenXJ380.Vmap.Sections

/-! # A failed allocation

The rollback gives the slot back, unless it fails itself: its guard still reads as a section
that cannot be split, or a page of the slot is not in the range of the vmap.
-/

namespace OpenXJ380.Kstack

open Mmu Vmap Transition

variable {p q : KstackPool} {slot guard : U32}

theorem guardUnmap_ok_of_lookup (hAccepted : Accepted p.vm guard)
    (hNot : vmapLookup p.vm guard ≠ vmapResultSection) : (guardUnmap p guard).2 = .ok := by
  simp only [guardUnmap]
  obtain hOk | hNotMapped | hSection := unmap_tolerated hAccepted
  · rw [hOk, if_neg (by decide), if_neg (by decide), vmapResult_ok]
  · rw [hNotMapped, if_pos rfl]
  · rw [vmapUnmap_eq hAccepted, if_neg hNot] at hSection
    split_ifs at hSection
    cases hTable : p.vm.table (vmapL1Index guard) with
    | none =>
      rw [hTable] at hSection
      cases hSection
    | some l2 =>
      rw [hTable] at hSection
      cases hSection

theorem guardUnmap_stuck (h : Stuck p.vm guard) :
    (guardUnmap p guard).2 ≠ .ok ∧ Stuck (guardUnmap p guard).1.vm guard := by
  have hSplit := h.split
  have hNever := split_ne_notMapped p.vm guard
  simp only [guardUnmap, h.unmap]
  rw [if_neg (by decide), if_pos trivial]
  by_cases hOk : (vmapSplitSection p.vm guard).2 = .ok
  · simp only [if_pos hOk, hSplit.unmap]
    rw [if_neg (by decide)]
    refine ⟨fun hResult => ?_, ?_⟩
    · rw [vmapResult_ok] at hResult
      cases hResult
    · rw [vmapResult_vm]
      exact hSplit
  · simp only [if_neg hOk, if_neg hNever]
    exact ⟨fun hResult => hOk (vmapResult_ok.mp hResult), by rw [vmapResult_vm]; exact hSplit⟩

theorem guardApply_stuck (h : Stuck p.vm guard) :
    (guardApply p guard).2 ≠ .ok ∧ Stuck (guardApply p guard).1.vm guard := by
  cases hKind : p.guardKind with
  | unmapped =>
    rw [guardApply, hKind]
    exact guardUnmap_stuck h
  | apNone =>
    have hSplit : Stuck (guardSplit p.vm guard).1 guard := by
      rw [guardSplit, if_pos h.lookup]
      exact h.split
    have hClose : guardClose (guardSplit p.vm guard).1 guard = ((guardSplit p.vm guard).1, .isSection) := by
      rw [guardClose, hSplit.lookup, if_neg (by decide), hSplit.setAttr]
    rw [guardApply_apNone hKind]
    split
    · rename_i hFailed
      exact ⟨fun hResult => hFailed (vmapResult_ok.mp hResult), by rw [vmapResult_vm]; exact hSplit⟩
    · rw [hClose]
      refine ⟨fun hResult => ?_, by rw [vmapResult_vm]; exact hSplit⟩
      rw [vmapResult_ok] at hResult
      cases hResult

theorem guardUnmap_milder (p : KstackPool) (guard : U32) : Milder p.vm (guardUnmap p guard).1.vm := by
  have hUnmap := unmap_milder p.vm guard
  have hSplit := hUnmap.trans (split_milder (vmapUnmap p.vm guard).1 guard)
  simp only [guardUnmap]
  split_ifs
  · exact hUnmap
  · exact hSplit.trans (unmap_milder _ guard)
  · rw [vmapResult_vm]
    exact hSplit.trans (unmap_milder _ guard)
  · exact hSplit
  · rw [vmapResult_vm]
    exact hSplit
  · rw [vmapResult_vm]
    exact hUnmap

theorem guardClose_milder (vm : VmapT) (guard : U32) : Milder vm (guardClose vm guard).1 := by
  rw [guardClose]
  split
  · exact map_milder vm guard guard _
  · exact setAttr_milder vm guard _

theorem pageClaim_milder (p : KstackPool) (va pa : U32) (attr : VmapAttr) :
    Milder p.vm (pageClaim p va pa attr).1.vm := by
  have hSplit := split_milder p.vm va
  have hUnmap := hSplit.trans (unmap_milder _ va)
  simp only [pageClaim]
  split_ifs
  · rw [vmapResult_vm]
    exact hSplit
  · rw [vmapResult_vm]
    exact hUnmap
  · rw [vmapResult_vm]
    exact hUnmap.trans (map_milder _ va pa _)

theorem claimPages_milder (p : KstackPool) (base : U32) (k n : Nat) :
    Milder p.vm (claimPages p base (BitVec.ofNat 32 k) n).1.vm := by
  induction n generalizing p k with
  | zero => exact .refl p.vm
  | succ n ih =>
    have hFirst := pageClaim_milder p (pageVa base k) (pageVa base k) vmapAttrNormal
    rw [claimPages_succ]
    split
    · exact hFirst
    · exact hFirst.trans (ih _ (k + 1))

theorem guardUnmap_lookup (hAccepted : Accepted p.vm guard) (hNot : ¬ Stuck p.vm guard) :
    vmapLookup (guardUnmap p guard).1.vm guard ≠ vmapResultSection := by
  by_cases hLookup : vmapLookup p.vm guard = vmapResultSection
  · have hUnmap : vmapUnmap p.vm guard = (p.vm, .isSection) := by
      rw [vmapUnmap_eq hAccepted, hLookup, if_neg (by decide), if_pos rfl]
    have hSplit := split_lookup hAccepted hNot
    simp only [guardUnmap, hUnmap]
    rw [if_neg (by decide), if_pos trivial]
    split_ifs
    · exact (unmap_milder _ guard).lookup hSplit
    · rw [vmapResult_vm]
      exact (unmap_milder _ guard).lookup hSplit
    · exact hSplit
    · rw [vmapResult_vm]
      exact hSplit
  · exact (guardUnmap_milder p guard).lookup hLookup

theorem guardApply_lookup (hAccepted : Accepted p.vm guard) (hNot : ¬ Stuck p.vm guard) :
    vmapLookup (guardApply p guard).1.vm guard ≠ vmapResultSection := by
  cases hKind : p.guardKind with
  | unmapped =>
    rw [guardApply, hKind]
    exact guardUnmap_lookup hAccepted hNot
  | apNone =>
    have hSplit : vmapLookup (guardSplit p.vm guard).1 guard ≠ vmapResultSection := by
      rw [guardSplit]
      split
      · exact split_lookup hAccepted hNot
      · assumption
    rw [guardApply_apNone hKind]
    split
    · rw [vmapResult_vm]
      exact hSplit
    · rw [vmapResult_vm]
      exact (guardClose_milder _ guard).lookup hSplit

/-- The pages of the slot are in the range of the vmap, and its guard can be closed. -/
structure Releasable (p : KstackPool) (slot : U32) : Prop where
  accepted : ∀ va, SlotPages p slot va → Accepted p.vm va
  guard : ¬ Stuck p.vm (slotGuardOf p slot)

theorem releasePages_first {base : U32} {first : KstackErr} (hFirst : first ≠ .ok) (p : KstackPool) (k n : Nat) :
    (releasePages p base first (BitVec.ofNat 32 k) n).2 ≠ .ok := by
  induction n generalizing p k with
  | zero => exact hFirst
  | succ n ih =>
    rw [releasePages_succ, if_neg hFirst, ite_self]
    exact ih _ (k + 1)

theorem releasePages_refused {base : U32} {first : KstackErr} {k n j : Nat} (hLow : k ≤ j) (hHigh : j < k + n)
    (hRefused : ¬ Accepted p.vm (pageVa base j)) :
    (releasePages p base first (BitVec.ofNat 32 k) n).2 ≠ .ok := by
  induction n generalizing p first k with
  | zero => omega
  | succ n ih =>
    rw [releasePages_succ]
    by_cases hHere : j = k
    · subst hHere
      obtain ⟨e, hError, hEq⟩ := vmapUnmap_refused hRefused
      rw [hEq, if_neg]
      · split_ifs with hFirst
        · refine releasePages_first (fun hOk => ?_) _ (j + 1) n
          exact ne_of_refusal hError (by decide) (vmapResult_ok.mp hOk)
        · exact releasePages_first hFirst _ (j + 1) n
      · rintro (hOk | hNotMapped | hSection)
        · exact ne_of_refusal hError (by decide) hOk
        · exact ne_of_refusal hError (by decide) hNotMapped
        · exact ne_of_refusal hError (by decide) hSection
    · have hStill (q : KstackPool) (hVm : q.vm = (vmapUnmap p.vm (pageVa base k)).1) :
          ¬ Accepted q.vm (pageVa base j) := by
        rw [hVm]
        exact fun hAccepted => hRefused ((unmap_window p.vm (pageVa base k)).symm.accepted hAccepted)
      split_ifs
      · exact ih (by omega) (by omega) (hStill _ rfl)
      · exact ih (by omega) (by omega) (hStill _ (vmapResult_vm _ _))
      · exact ih (by omega) (by omega) (hStill _ rfl)

theorem releaseWork_iff :
    (releaseWork (allocWork p slot).1 slot).2 = .ok ↔ Releasable p slot := by
  have hKept := allocWork_kept p slot
  have hWindow := hKept.window
  have hGuardOf := hKept.shape.slotGuardOf slot
  have hBaseOf := hKept.shape.slotStackBaseOf slot
  have hPages := hKept.shape.stackPages
  have hUnmapKept := guardUnmap_kept (allocWork p slot).1 (slotGuardOf (allocWork p slot).1 slot)
  constructor
  · intro hOk
    simp only [releaseWork] at hOk
    have hGuard : (guardUnmap (allocWork p slot).1 (slotGuardOf (allocWork p slot).1 slot)).2 = .ok := by
      by_contra hNot
      exact releasePages_first hNot _ 0 _ hOk
    refine ⟨?_, fun hStuck => ?_⟩
    · rintro va ⟨m, hm, rfl⟩
      by_contra hRefused
      cases m with
      | zero =>
        have hNot : ¬ Accepted (allocWork p slot).1.vm (slotGuardOf p slot) := by
          intro hAccepted
          rw [pageVa_zero] at hRefused
          exact hRefused (hWindow.symm.accepted hAccepted)
        obtain ⟨e, hError, hEq⟩ := vmapUnmap_refused hNot
        rw [hGuardOf] at hGuard
        simp only [guardUnmap, hEq] at hGuard
        rw [if_neg (ne_of_refusal hError (by decide)), if_neg (ne_of_refusal hError (by decide)),
          vmapResult_ok] at hGuard
        exact ne_of_refusal hError (by decide) hGuard
      | succ m =>
        refine releasePages_refused (p := (guardUnmap (allocWork p slot).1
          (slotGuardOf (allocWork p slot).1 slot)).1) (k := 0) (j := m) (Nat.zero_le m) ?_ ?_ hOk
        · rw [hUnmapKept.shape.stackPages, hPages]
          omega
        · intro hAccepted
          rw [hUnmapKept.shape.slotStackBaseOf, hBaseOf, slotStackBaseOf, pageVa_succ] at hAccepted
          exact hRefused ((hWindow.trans hUnmapKept.window).symm.accepted hAccepted)
    · have hApply := guardApply_stuck hStuck
      have hWork : allocWork p slot = guardApply p (slotGuardOf p slot) := by
        simp only [allocWork, if_neg hApply.1]
      rw [hGuardOf, hWork] at hGuard
      exact (guardUnmap_stuck hApply.2).1 hGuard
  · intro hReleasable
    have hAccepted := hReleasable.accepted _ (slotPages_guard p slot)
    have hLookup : vmapLookup (allocWork p slot).1.vm (slotGuardOf p slot) ≠ vmapResultSection := by
      have hApply := guardApply_lookup hAccepted hReleasable.guard
      simp only [allocWork]
      split_ifs
      · exact (claimPages_milder _ _ 0 _).lookup hApply
      · exact hApply
    simp only [releaseWork]
    rw [hGuardOf, guardUnmap_ok_of_lookup (hWindow.accepted hAccepted) hLookup]
    rw [hGuardOf] at hUnmapKept
    refine releasePages_ok (k := 0) fun j _ hj => ?_
    rw [hUnmapKept.shape.stackPages, hPages] at hj
    rw [hUnmapKept.shape.slotStackBaseOf, hBaseOf]
    exact (hWindow.trans hUnmapKept.window).accepted (hReleasable.accepted _ (slotPages_stack (by omega) slot))

theorem bitmap_ext {a b : Nat → U32} (h : ∀ n, bitAt a n = bitAt b n) : a = b := by
  funext w
  apply BitVec.eq_of_getLsbD_eq
  intro i hi
  have hBit := h (w * 32 + i)
  rw [bitAt, bitAt] at hBit
  rwa [show (w * 32 + i) / 32 = w by omega, show (w * 32 + i) % 32 = i by omega] at hBit

theorem slotMark_restore (hClear : bitOf p.bitmap slot = false)
    (hMarked : q.bitmap = (slotMark p slot true).bitmap) : (slotMark q slot false).bitmap = p.bitmap := by
  apply bitmap_ext
  intro n
  rw [slotMark_bitAt, hMarked, slotMark_bitAt]
  by_cases hSlot : n = slot.toNat
  · rw [if_pos hSlot, hSlot, ← bitOf_eq, hClear]
  · rw [if_neg hSlot, if_neg hSlot]

theorem slotMark_used (hUsed : q.usedSlots = p.usedSlots + 1) (hFew : p.usedSlots.toNat ≤ 64) :
    (slotMark q slot false).usedSlots = p.usedSlots := by
  have hPositive : q.usedSlots > 0 := by
    rw [hUsed]
    bv_omega
  change (if q.usedSlots > 0 then q.usedSlots - 1 else q.usedSlots) = _
  rw [if_pos hPositive, hUsed]
  exact BitVec.add_sub_cancel _ _

theorem slotFindFree_eq (hBitmap : q.bitmap = p.bitmap) (hCount : q.slotCount = p.slotCount) :
    slotFindFree q = slotFindFree p := by
  rw [slotFindFree, slotFindFree, hBitmap, hCount]

theorem Releasable.of_shape (hShape : SameShape p q) (hVm : q.vm = p.vm) (h : Releasable p slot) :
    Releasable q slot := by
  refine ⟨fun va hva => ?_, ?_⟩
  · rw [hVm]
    exact h.accepted va ((hShape.slotPages_iff slot va).mp hva)
  · rw [hVm, hShape.slotGuardOf]
    exact h.guard

theorem releasable_mark : Releasable (slotMark p slot true) slot ↔ Releasable p slot := by
  have hShape := slotMark_shape p slot true
  refine ⟨fun h => ⟨fun va hva => ?_, ?_⟩, .of_shape hShape (slotMark_vm p slot true)⟩
  · have hAccepted := h.accepted va ((hShape.slotPages_iff slot va).mpr hva)
    rwa [slotMark_vm] at hAccepted
  · have hGuard := h.guard
    rwa [slotMark_vm, hShape.slotGuardOf] at hGuard

structure Steady (p : KstackPool) : Prop extends Numbered p where
  inited : p.inited = true
  booked : Booked p

theorem Steady.few (h : Steady p) : p.usedSlots.toNat ≤ 64 := by
  have hSubset : setBits p ⊆ Finset.range p.slotCount.toNat := fun n hn =>
    Finset.mem_range.mpr (h.booked.below n hn)
  have hCard := Finset.card_le_card hSubset
  have hCount := h.count
  rw [Finset.card_range] at hCard
  rw [h.booked.used]
  omega

theorem Steady.of_kept (h : Steady p) (hShape : SameShape p q) (hBitmap : q.bitmap = p.bitmap)
    (hUsed : q.usedSlots = p.usedSlots) : Steady q where
  count := by
    rw [hShape.slotCount]
    exact h.count
  words := by
    rw [hShape.slotCount, hShape.bitmapWords]
    exact h.words
  inited := hShape.inited.trans h.inited
  booked := h.booked.of_eq hBitmap hShape.bitmapWords hShape.slotCount hUsed

theorem Steady.marked (h : Steady p) (hSlot : slot < p.slotCount) (hClear : bitOf p.bitmap slot = false) :
    Steady (slotMark p slot true) :=
  ⟨{ h with }, h.inited, h.booked.mark h.toNumbered hSlot hClear⟩

theorem Steady.cleared (h : Steady p) (hSlot : slot < p.slotCount) (hUsed : bitOf p.bitmap slot) :
    Steady (slotMark p slot false) :=
  ⟨{ h with }, h.inited, h.booked.clear h.toNumbered hSlot hUsed⟩

theorem Steady.worked (h : Steady p) (hWorked : Worked p q slot) : Steady q :=
  h.of_kept hWorked.shape hWorked.bitmap hWorked.used

theorem rolledBack_kept (p : KstackPool) (slot : U32) : SameShape p (rolledBack p slot) ∧
    (rolledBack p slot).bitmap = p.bitmap ∧ (rolledBack p slot).usedSlots = p.usedSlots := by
  have hKept := (allocWork_kept p slot).trans (releaseWork_kept (allocWork p slot).1 slot)
  have hFlush := flushSlot_worked (releaseWork (allocWork p slot).1 slot).1 slot
  exact ⟨hKept.shape.trans hFlush.shape, hFlush.bitmap.trans hKept.bitmap, hFlush.used.trans hKept.usedSlots⟩

theorem Steady.alloc_map (h : Steady p) (hMap : (kstackAlloc p).2.1 = .map) :
    slotFindFree p < p.slotCount ∧ bitOf p.bitmap (slotFindFree p) = false ∧
      (Releasable p (slotFindFree p) → (kstackAlloc p).1 =
        slotMark (rolledBack (slotMark p (slotFindFree p) true) (slotFindFree p)) (slotFindFree p) false) ∧
      (¬ Releasable p (slotFindFree p) → (kstackAlloc p).1 =
        rolledBack (slotMark p (slotFindFree p) true) (slotFindFree p)) := by
  by_cases hFree : slotFindFree p < p.slotCount
  · refine ⟨hFree, slotFindFree_clear hFree, ?_⟩
    rw [← releasable_mark, ← releaseWork_iff]
    rw [kstackAlloc_eq h.inited rfl hFree] at hMap ⊢
    by_cases hOk : (allocWork (slotMark p (slotFindFree p) true) (slotFindFree p)).2 = .ok
    · rw [if_pos hOk] at hMap
      cases hMap
    · rw [if_neg hOk]
      exact ⟨fun hBack => if_pos hBack, fun hBack => if_neg hBack⟩
  · rw [kstackAlloc_full h.inited hFree] at hMap
    cases hMap

theorem Steady.alloc (h : Steady p) : Steady (kstackAlloc p).1 := by
  by_cases hFree : slotFindFree p < p.slotCount
  · have hClear := slotFindFree_clear hFree
    rw [kstackAlloc_eq h.inited rfl hFree]
    generalize slotFindFree p = slot at hFree hClear ⊢
    have hMarked := h.marked hFree hClear
    obtain ⟨hShape, hBitmap, hUsed⟩ := rolledBack_kept (slotMark p slot true) slot
    have hBack := hMarked.of_kept hShape hBitmap hUsed
    split
    · have hWork := allocWork_kept (slotMark p slot true) slot
      have hDone := (hMarked.of_kept hWork.shape hWork.bitmap hWork.usedSlots).worked (flushSlot_worked _ slot)
      exact hDone.worked (allocDone_counted _ slot)
    · simp only
      split
      · refine hBack.cleared ?_ ?_
        · rw [hShape.slotCount]
          exact hFree
        · rw [hBitmap, slotMark_bitOf, if_pos rfl]
      · exact hBack
  · rw [kstackAlloc_full h.inited hFree]
    exact h

theorem Steady.free (h : Steady p) (k : KstackT) : Steady (kstackFree p k).1 := by
  by_cases hHandle : handleCheck p k = .ok
  · obtain ⟨hSlot, hUsed⟩ := handleCheck_ok hHandle
    have hWorked := released_worked p k.slot
    have hReleased := h.worked hWorked
    rw [kstackFree_eq hHandle]
    split
    · exact hReleased
    · have hCleared : Steady (slotMark (released p k.slot) k.slot false) := by
        refine hReleased.cleared ?_ ?_
        · rw [hWorked.shape.slotCount]
          exact hSlot
        · rw [hWorked.bitmap]
          exact hUsed
      exact hCleared.worked (freeDone_counted p k.slot)
  · rw [kstackFree_refused hHandle]
    exact h

inductive Event where
  | alloc
  | free (k : KstackT)
  | tables (vm : VmapT)

def sharedMachine : Machine KstackPool Event KstackErr where
  step p event := match event with
    | .alloc => let r := kstackAlloc p; (r.1, r.2.1)
    | .free k => let r := kstackFree p k; (r.1, r.2.1)
    | .tables vm => ({ p with vm := vm }, .ok)

theorem Steady.step (h : Steady p) (event : Event) : Steady (sharedMachine.step p event).1 := by
  cases event with
  | alloc => exact h.alloc
  | free k => exact h.free k
  | tables vm => exact ⟨{ h with }, h.inited, h.booked.of_eq rfl rfl rfl rfl⟩

theorem init_steady {vm : VmapT} {poolBase poolSize stackPages : U32} {guardKind : KstackGuard}
    {bitmap : Nat → U32} {bitmapWords : U32}
    (hInit : kstackPoolInit vm poolBase poolSize stackPages guardKind bitmap bitmapWords = .ok p) : Steady p := by
  obtain ⟨-, hInited, -, -, -, -, -, hCount, -, -, hWords⟩ := init_cases hInit
  exact ⟨⟨hCount, hWords⟩, hInited, init_booked hInit⟩

def PoolState (p : KstackPool) : Prop :=
  ∃ (vm : VmapT) (poolBase poolSize stackPages : U32) (guardKind : KstackGuard) (bitmap : Nat → U32)
    (bitmapWords : U32) (fresh : KstackPool) (events : List Event),
    kstackPoolInit vm poolBase poolSize stackPages guardKind bitmap bitmapWords = .ok fresh ∧
      p = sharedMachine.final fresh events

theorem PoolState.steady (h : PoolState p) : Steady p := by
  obtain ⟨vm, poolBase, poolSize, stackPages, guardKind, bitmap, bitmapWords, fresh, events, hInit, rfl⟩ := h
  exact sharedMachine.final_invariant (fun _ event hSteady => hSteady.step event) (init_steady hInit) events

/-- What a failed allocation leaves where the rollback succeeds, and where it does not. -/
theorem failed_alloc_bookkeeping (h : PoolState p) (hMap : (kstackAlloc p).2.1 = .map) :
    (Releasable p (slotFindFree p) → (kstackAlloc p).1.bitmap = p.bitmap ∧
      (kstackAlloc p).1.usedSlots = p.usedSlots ∧ slotFindFree (kstackAlloc p).1 = slotFindFree p) ∧
    (¬ Releasable p (slotFindFree p) →
      (∀ slot, bitOf (kstackAlloc p).1.bitmap slot = if slot = slotFindFree p then true else bitOf p.bitmap slot) ∧
        (kstackAlloc p).1.usedSlots = p.usedSlots + 1) := by
  have hSteady := h.steady
  obtain ⟨-, hClear, hBack, hKept⟩ := hSteady.alloc_map hMap
  have hFew := hSteady.few
  obtain ⟨hShape, hBitmap, hUsed⟩ := rolledBack_kept (slotMark p (slotFindFree p) true) (slotFindFree p)
  have hMore : (rolledBack (slotMark p (slotFindFree p) true) (slotFindFree p)).usedSlots = p.usedSlots + 1 := hUsed
  constructor
  · intro hReleasable
    have hRestored := slotMark_restore hClear hBitmap
    rw [hBack hReleasable]
    have hShapes := ((slotMark_shape p (slotFindFree p) true).trans hShape).trans
      (slotMark_shape _ (slotFindFree p) false)
    exact ⟨hRestored, slotMark_used hMore hFew, slotFindFree_eq hRestored hShapes.slotCount⟩
  · intro hNot
    rw [hKept hNot]
    refine ⟨fun slot => ?_, hMore⟩
    rw [hBitmap, slotMark_bitOf]

/-- A guard at the end of a section takes the only table, and the stack page behind it gets none. -/
def edgePool : KstackPool := stackPool (stackVmap 0x40000000 0x40400000 1) 0x400FF000 1

theorem edgePool_state : PoolState edgePool :=
  ⟨stackVmap 0x40000000 0x40400000 1, 0x400FF000, 0x2000, 1, .unmapped, fun _ => 0, 1, edgePool, [], rfl, rfl⟩

theorem edgePool_releasable : Releasable edgePool 0 where
  accepted := by
    rintro va ⟨m, hm, rfl⟩
    have hPage : m = 0 ∨ m = 1 := by
      change m ≤ 1 at hm
      omega
    obtain rfl | rfl := hPage
    · exact ⟨by decide, by decide, by decide⟩
    · exact ⟨by decide, by decide, by decide⟩
  guard := by
    intro hStuck
    obtain hFull | hBad := hStuck.unsplit (sampleSections_type _)
    · exact absurd hFull (by decide)
    · exact absurd rfl hBad

theorem failed_alloc_rolled_back :
    (kstackAlloc edgePool).2.1 = .map ∧ (kstackAlloc edgePool).1.bitmap = edgePool.bitmap ∧
      (kstackAlloc edgePool).1.usedSlots = 0 := by
  have hMap : (kstackAlloc edgePool).2.1 = .map := by decide +kernel
  have hFirst : slotFindFree edgePool = 0 := by decide
  have hBoth := (failed_alloc_bookkeeping edgePool_state hMap).1 (by rw [hFirst]; exact edgePool_releasable)
  exact ⟨hMap, hBoth.1, hBoth.2.1⟩

/-- Two allocations from a pool with one second-level table. The first one succeeds. -/
def onePool : KstackPool := sharedMachine.final (boundaryPool 1) [.alloc]

theorem onePool_state : PoolState onePool :=
  ⟨stackVmap 0x40000000 0x40400000 1, 0x400FE000, 0x4000, 1, .unmapped, fun _ => 0, 1, boundaryPool 1, [.alloc],
    rfl, rfl⟩

/-- The second one finds no table for the section of its guard, and the slot stays marked. -/
theorem failed_alloc_trace :
    ¬ ∀ p, PoolState p → (kstackAlloc p).2.1 = .map →
      (kstackAlloc p).1.bitmap = p.bitmap ∧ (kstackAlloc p).1.usedSlots = p.usedSlots := by
  intro hAll
  have hUsed := (hAll onePool onePool_state (by decide +kernel)).2
  have hOne : onePool.usedSlots = 1 := by decide +kernel
  have hTwo : (kstackAlloc onePool).1.usedSlots = 2 := by decide +kernel
  rw [hOne, hTwo] at hUsed
  cases hUsed

end OpenXJ380.Kstack
