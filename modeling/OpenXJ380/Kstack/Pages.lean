import OpenXJ380.Kstack.Model
import OpenXJ380.Vmap.Frame

/-! # What the page functions of the stack pool do

They change page tables only, by splits and by writes to their own pages, and on
success the entry of the page is the one they were asked for.
-/

namespace OpenXJ380.Kstack

open BitVec (getLsbD_and getLsbD_or ofNat)

section

open Mmu Vmap

structure Kept (p p' : KstackPool) : Prop where
  window : SameWindow p.vm p'.vm
  poolBase : p'.poolBase = p.poolBase
  slotCount : p'.slotCount = p.slotCount
  stackPages : p'.stackPages = p.stackPages
  slotPages : p'.slotPages = p.slotPages
  bitmap : p'.bitmap = p.bitmap
  bitmapWords : p'.bitmapWords = p.bitmapWords
  flushed : p'.flushed = p.flushed
  guardKind : p'.guardKind = p.guardKind
  usedSlots : p'.usedSlots = p.usedSlots
  inited : p'.inited = p.inited

variable {p : KstackPool}

theorem Kept.of_window {vm : VmapT} (h : SameWindow p.vm vm) (split : U32) (e : VmapErr) :
    Kept p { p with vm := vm, statGuardSplit := split, lastVmapErr := e } :=
  ⟨h, rfl, rfl, rfl, rfl, rfl, rfl, rfl, rfl, rfl, rfl⟩

theorem Kept.refl (p : KstackPool) : Kept p p := Kept.of_window (.refl _) _ _

theorem Kept.trans {p' p'' : KstackPool} (h : Kept p p') (h' : Kept p' p'') : Kept p p'' :=
  ⟨h.window.trans h'.window, h'.poolBase.trans h.poolBase, h'.slotCount.trans h.slotCount,
    h'.stackPages.trans h.stackPages, h'.slotPages.trans h.slotPages, h'.bitmap.trans h.bitmap,
    h'.bitmapWords.trans h.bitmapWords, h'.flushed.trans h.flushed, h'.guardKind.trans h.guardKind,
    h'.usedSlots.trans h.usedSlots, h'.inited.trans h.inited⟩

theorem vmapResult_kept (p : KstackPool) (e : VmapErr) : Kept p (vmapResult p e).1 := by
  rw [vmapResult]
  split
  · exact .refl p
  · exact .of_window (.refl _) _ _

@[simp] theorem vmapResult_vm (p : KstackPool) (e : VmapErr) : (vmapResult p e).1.vm = p.vm := by
  rw [vmapResult]
  split <;> rfl

theorem vmapResult_ok {e : VmapErr} : (vmapResult p e).2 = .ok ↔ e = .ok := by
  rw [vmapResult]
  split <;> simp_all

variable {p : KstackPool} {untouched : BitVec 12 → U32 → Prop} {owners : List (BitVec 12)}
  {allowed : U32 → Prop}

theorem guardUnmap_kept (p : KstackPool) (guard : U32) : Kept p (guardUnmap p guard).1 := by
  have hUnmap := unmap_window p.vm guard
  have hSplit := hUnmap.trans (split_window (vmapUnmap p.vm guard).1 guard)
  simp only [guardUnmap]
  split_ifs
  · exact .of_window hUnmap _ _
  · exact .of_window (hSplit.trans (unmap_window _ guard)) _ _
  · exact (Kept.of_window (hSplit.trans (unmap_window _ guard)) _ _).trans (vmapResult_kept _ _)
  · exact .of_window hSplit _ _
  · exact (Kept.of_window hSplit _ _).trans (vmapResult_kept _ _)
  · exact (Kept.of_window hUnmap _ _).trans (vmapResult_kept _ _)

variable {guard va : U32}

theorem guardUnmap_changes (h : Tables p.vm untouched owners) (hAllowed : allowed guard) :
    Changes allowed p.vm (guardUnmap p guard).1.vm := by
  have hUnmap : Changes allowed p.vm (vmapUnmap p.vm guard).1 := unmap_changes p.vm hAllowed
  obtain ⟨owners', -, hMid⟩ := h.changes hUnmap
  have hSplit := hUnmap.trans (hMid.split_changes allowed guard)
  simp only [guardUnmap]
  split_ifs
  · exact hUnmap
  · exact hSplit.trans (unmap_changes _ hAllowed)
  · rw [vmapResult_vm]
    exact hSplit.trans (unmap_changes _ hAllowed)
  · exact hSplit
  · rw [vmapResult_vm]
    exact hSplit
  · rw [vmapResult_vm]
    exact hUnmap

theorem guardUnmap_ok (h : Tables p.vm untouched owners) (hFits : PoolFits p.vm)
    (hLinked : ∀ desc, untouched (vmapL1Index guard) desc → l1Type desc = mmuL1TypeSection)
    (hOk : (guardUnmap p guard).2 = .ok) : Accepted p.vm guard ∧ (guardUnmap p guard).1.vm.entry guard = some 0 := by
  have hUnmap : Changes (fun _ => True) p.vm (vmapUnmap p.vm guard).1 := unmap_changes p.vm trivial
  obtain ⟨owners', -, hMid⟩ := h.changes hUnmap
  obtain ⟨owners'', -, hSplit⟩ := hMid.changes (hMid.split_changes (fun _ => True) guard)
  have hSplitFits := ((unmap_window p.vm guard).trans (split_window _ guard)).poolFits hFits
  simp only [guardUnmap] at hOk ⊢
  split_ifs at hOk ⊢ with hNotMapped hSection hSplitOk hAgain hNever
  · obtain ⟨hSame, hEntry⟩ := h.unmap_notMapped hFits hLinked hNotMapped
    exact ⟨unmap_accepted (by rw [hNotMapped]; decide), by rw [hSame]; exact hEntry⟩
  · obtain ⟨hSame, hEntry⟩ := hSplit.unmap_notMapped hSplitFits hLinked hAgain
    exact ⟨unmap_accepted (by rw [hSection]; decide), by rw [hSame]; exact hEntry⟩
  · rw [vmapResult_ok] at hOk
    exact ⟨unmap_accepted (by rw [hSection]; decide), by rw [vmapResult_vm]; exact unmap_ok hOk⟩
  · exact absurd hNever (split_ne_notMapped _ _)
  · rw [vmapResult_ok] at hOk
    exact absurd hOk hSplitOk
  · rw [vmapResult_ok] at hOk
    exact ⟨unmap_accepted (by rw [hOk]; decide), by rw [vmapResult_vm]; exact unmap_ok hOk⟩

def guardSplit (vm : VmapT) (guard : U32) : VmapT × VmapErr :=
  if vmapLookup vm guard = vmapResultSection then vmapSplitSection vm guard else (vm, .ok)

def guardClose (vm : VmapT) (guard : U32) : VmapT × VmapErr :=
  if vmapLookup vm guard = 0 then vmapMap vm guard guard (some attrNone)
  else vmapSetAttr vm guard (some attrNone)

theorem guardApply_apNone (hKind : p.guardKind = .apNone) (guard : U32) : guardApply p guard =
      if (guardSplit p.vm guard).2 ≠ .ok then
        vmapResult { p with vm := (guardSplit p.vm guard).1 } (guardSplit p.vm guard).2 else
        vmapResult { p with vm := (guardClose (guardSplit p.vm guard).1 guard).1 }
          (guardClose (guardSplit p.vm guard).1 guard).2 := by
  rw [guardApply]
  split
  · rename_i hOther
    rw [hOther] at hKind
    cases hKind
  · rfl

theorem guardSplit_window (vm : VmapT) (guard : U32) : SameWindow vm (guardSplit vm guard).1 := by
  rw [guardSplit]
  split
  · exact split_window vm guard
  · exact .refl vm

theorem guardClose_window (vm : VmapT) (guard : U32) : SameWindow vm (guardClose vm guard).1 := by
  rw [guardClose]
  split
  · exact map_window vm guard guard _
  · exact setAttr_window vm guard _

theorem guardSplit_changes {vm : VmapT} (h : Tables vm untouched owners) (allowed : U32 → Prop) (guard : U32) :
    Changes allowed vm (guardSplit vm guard).1 := by
  rw [guardSplit]
  split
  · exact h.split_changes allowed guard
  · exact .refl

theorem guardClose_changes {vm : VmapT} (h : Tables vm untouched owners) (hAllowed : allowed guard)
    (hLinked : ∀ desc, untouched (vmapL1Index guard) desc → l1Type desc = mmuL1TypeSection) :
    Changes allowed vm (guardClose vm guard).1 := by
  rw [guardClose]
  split
  · exact h.map_changes hAllowed guard _ (h.kind hLinked)
  · exact setAttr_changes vm hAllowed _

theorem guardApply_kept (p : KstackPool) (guard : U32) : Kept p (guardApply p guard).1 := by
  cases hKind : p.guardKind with
  | unmapped =>
    rw [guardApply, hKind]
    exact guardUnmap_kept p guard
  | apNone =>
    have hSplit := guardSplit_window p.vm guard
    have hClose := hSplit.trans (guardClose_window _ guard)
    rw [guardApply_apNone hKind]
    split
    · exact (Kept.of_window hSplit _ _).trans (vmapResult_kept _ _)
    · exact (Kept.of_window hClose _ _).trans (vmapResult_kept _ _)

theorem guardApply_changes (h : Tables p.vm untouched owners) (hAllowed : allowed guard)
    (hLinked : ∀ desc, untouched (vmapL1Index guard) desc → l1Type desc = mmuL1TypeSection) :
    Changes allowed p.vm (guardApply p guard).1.vm := by
  cases hKind : p.guardKind with
  | unmapped =>
    rw [guardApply, hKind]
    exact guardUnmap_changes h hAllowed
  | apNone =>
    have hSplit := guardSplit_changes h allowed guard
    obtain ⟨owners', -, hMid⟩ := h.changes hSplit
    rw [guardApply_apNone hKind]
    split
    · rw [vmapResult_vm]
      exact hSplit
    · rw [vmapResult_vm]
      exact hSplit.trans (guardClose_changes hMid hAllowed hLinked)

/-- The entry of a guard page: none at all, or a page that nobody may access. -/
def GuardClosed (kind : KstackGuard) (desc : U32) : Prop :=
  match kind with
  | .unmapped => desc = 0
  | .apNone => ∃ pa, desc = mmuSmallPageDescriptor pa (pageAttrOf attrNone)

theorem guardClosed_ap {desc : U32} (h : GuardClosed .apNone desc) :
    desc.getLsbD 9 = false ∧ desc.extractLsb' 4 2 = 0 := by
  obtain ⟨pa, rfl⟩ := h
  constructor
  · rw [mmuSmallPageDescriptor]
    simp only [getLsbD_or, getLsbD_and, mmuPageMask]
    simp
    decide
  · apply BitVec.eq_of_getLsbD_eq
    intro i hi
    simp only [mmuSmallPageDescriptor, BitVec.getLsbD_extractLsb', getLsbD_or, getLsbD_and, mmuPageMask]
    interval_cases i
    · simp
      decide
    · simp
      decide

theorem guardUnmap_closed {desc : U32} (hAccepted : Accepted p.vm guard)
    (hEntry : p.vm.entry guard = some desc) (hClosed : GuardClosed p.guardKind desc) :
    (guardUnmap p guard).2 = .ok := by
  obtain ⟨l2, hTable, hWord⟩ := Option.map_eq_some_iff.mp hEntry
  have hLookup := vmapLookup_table hAccepted.inited hAccepted.range hTable
  rw [hWord] at hLookup
  have hUnmap : (vmapUnmap p.vm guard).2 = .notMapped ∨ (vmapUnmap p.vm guard).2 = .ok := by
    rw [vmapUnmap_eq hAccepted, hLookup, hTable]
    cases hKind : p.guardKind with
    | unmapped =>
      rw [hKind] at hClosed
      have hZero : desc = 0 := hClosed
      rw [if_pos hZero]
      exact .inl rfl
    | apNone =>
      rw [hKind] at hClosed
      obtain ⟨pa, rfl⟩ := hClosed
      rw [if_neg (smallPageDescriptor_ne_zero pa attrNone), if_neg (smallPageDescriptor_ne_section pa attrNone)]
      exact .inr rfl
  simp only [guardUnmap]
  obtain hNotMapped | hOk := hUnmap
  · rw [if_pos hNotMapped]
  · rw [hOk]
    rfl

theorem guardApply_ok (h : Tables p.vm untouched owners) (hFits : PoolFits p.vm)
    (hAligned : guard &&& (vmapPageSize - 1) = 0)
    (hLinked : ∀ desc, untouched (vmapL1Index guard) desc → l1Type desc = mmuL1TypeSection)
    (hOk : (guardApply p guard).2 = .ok) : Accepted p.vm guard ∧
      ∃ desc, (guardApply p guard).1.vm.entry guard = some desc ∧ GuardClosed p.guardKind desc := by
  cases hKind : p.guardKind with
  | unmapped =>
    rw [guardApply, hKind] at hOk ⊢
    obtain ⟨hAccepted, hEntry⟩ := guardUnmap_ok h hFits hLinked hOk
    exact ⟨hAccepted, 0, hEntry, rfl⟩
  | apNone =>
    obtain ⟨owners', -, hMid⟩ := h.changes (guardSplit_changes h (fun _ => True) guard)
    have hWindow := guardSplit_window p.vm guard
    rw [guardApply_apNone hKind] at hOk ⊢
    split at hOk
    · rename_i hFailed
      exact absurd (vmapResult_ok.mp hOk) hFailed
    · rename_i hSplitOk
      rw [if_neg hSplitOk, vmapResult_vm]
      rw [vmapResult_ok] at hOk
      rw [guardClose] at hOk ⊢
      split at hOk
      · rename_i hZero
        rw [if_pos hZero]
        exact ⟨hWindow.symm.accepted (map_accepted hOk), _, map_ok (hMid.kind hLinked) hOk, guard, rfl⟩
      · rename_i hNonzero
        rw [if_neg hNonzero]
        obtain ⟨pa, hEntry⟩ := setAttr_ok hOk
        exact ⟨hWindow.symm.accepted (setAttr_accepted hAligned hOk), _, hEntry, pa, rfl⟩

theorem pageClaim_kept (p : KstackPool) (va pa : U32) (attr : VmapAttr) : Kept p (pageClaim p va pa attr).1 := by
  have hSplit := split_window p.vm va
  have hUnmap := hSplit.trans (unmap_window _ va)
  simp only [pageClaim]
  split_ifs
  · exact (Kept.of_window hSplit _ _).trans (vmapResult_kept _ _)
  · exact (Kept.of_window hUnmap _ _).trans (vmapResult_kept _ _)
  · exact (Kept.of_window (hUnmap.trans (map_window _ va pa _)) _ _).trans (vmapResult_kept _ _)

theorem pageClaim_changes (h : Tables p.vm untouched owners) (hAllowed : allowed va) (pa : U32) (attr : VmapAttr)
    (hLinked : ∀ desc, untouched (vmapL1Index va) desc → l1Type desc = mmuL1TypeSection) :
    Changes allowed p.vm (pageClaim p va pa attr).1.vm := by
  have hSplit := h.split_changes allowed va
  have hUnmap := hSplit.trans (unmap_changes _ hAllowed)
  obtain ⟨owners', -, hMid⟩ := h.changes hUnmap
  simp only [pageClaim]
  split_ifs
  · rw [vmapResult_vm]
    exact hSplit
  · rw [vmapResult_vm]
    exact hUnmap
  · rw [vmapResult_vm]
    exact hUnmap.trans (hMid.map_changes hAllowed pa _ (hMid.kind hLinked))

theorem pageClaim_accepted {pa : U32} {attr : VmapAttr} (hOk : (pageClaim p va pa attr).2 = .ok) :
    Accepted p.vm va := by
  apply split_accepted
  simp only [pageClaim] at hOk
  split_ifs at hOk with hSplit
  · rw [vmapResult_ok] at hOk
    rw [hOk]
    decide
  all_goals
    intro hRefused
    rcases hSplit ⟨ne_of_refusal hRefused (by decide), ne_of_refusal hRefused (by decide)⟩

theorem pageClaim_ok (h : Tables p.vm untouched owners) {pa : U32} {attr : VmapAttr}
    (hLinked : ∀ desc, untouched (vmapL1Index va) desc → l1Type desc = mmuL1TypeSection)
    (hOk : (pageClaim p va pa attr).2 = .ok) :
    (pageClaim p va pa attr).1.vm.entry va = some (mmuSmallPageDescriptor pa (pageAttrOf attr)) := by
  have hSplit := h.split_changes (fun _ => True) va
  have hUnmap : Changes (fun _ => True) p.vm (vmapUnmap (vmapSplitSection p.vm va).1 va).1 :=
    hSplit.trans (unmap_changes _ trivial)
  obtain ⟨owners', -, hMid⟩ := h.changes hUnmap
  simp only [pageClaim] at hOk ⊢
  split_ifs at hOk ⊢ with hSplitErr hUnmapErr
  · rw [vmapResult_ok] at hOk
    exact absurd hOk hSplitErr.1
  · rw [vmapResult_ok] at hOk
    exact absurd hOk hUnmapErr.1
  · rw [vmapResult_ok] at hOk
    rw [vmapResult_vm]
    exact map_ok (hMid.kind hLinked) hOk

end

/-! # The loops over the pages of a stack -/

open Mmu Vmap

def pageVa (base : U32) (k : Nat) : U32 := base + ofNat 32 k * kstackPageSize

theorem pageVa_ne {base : U32} {j k : Nat} (hj : j < 2 ^ 20) (hk : k < 2 ^ 20) (hNe : j ≠ k) :
    pageVa base j >>> 12 ≠ pageVa base k >>> 12 := by
  intro hEq
  have hNat := congrArg BitVec.toNat hEq
  have hSize : kstackPageSize.toNat = 4096 := rfl
  simp only [pageVa, BitVec.toNat_ushiftRight, BitVec.toNat_add, BitVec.toNat_mul, BitVec.toNat_ofNat,
    hSize, Nat.shiftRight_eq_div_pow] at hNat
  omega

theorem ofNat_succ (k : Nat) : ofNat 32 k + 1 = ofNat 32 (k + 1) := by
  rw [BitVec.ofNat_add]
  rfl

theorem pageVa_succ (base : U32) (k : Nat) : pageVa (base + kstackPageSize) k = pageVa base (k + 1) := by
  have hOne : 1 * kstackPageSize = kstackPageSize := by decide
  rw [pageVa, pageVa, ← ofNat_succ, BitVec.add_mul, hOne, BitVec.add_assoc, BitVec.add_comm kstackPageSize]

@[simp] theorem pageVa_zero (base : U32) : pageVa base 0 = base := by
  simp [pageVa]

variable {untouched : BitVec 12 → U32 → Prop} {allowed : U32 → Prop}

theorem claimPages_succ (p : KstackPool) (base : U32) (k n : Nat) : claimPages p base (ofNat 32 k) (n + 1) =
      if (pageClaim p (pageVa base k) (pageVa base k) vmapAttrNormal).2 ≠ .ok then
        pageClaim p (pageVa base k) (pageVa base k) vmapAttrNormal else
        claimPages (pageClaim p (pageVa base k) (pageVa base k) vmapAttrNormal).1 base (ofNat 32 (k + 1)) n := by
  rw [claimPages, ofNat_succ]
  rfl

theorem claimPages_kept (p : KstackPool) (base : U32) (k n : Nat) : Kept p (claimPages p base (ofNat 32 k) n).1 := by
  induction n generalizing p k with
  | zero => exact .refl p
  | succ n ih =>
    have hFirst := pageClaim_kept p (pageVa base k) (pageVa base k) vmapAttrNormal
    rw [claimPages_succ]
    split
    · exact hFirst
    · exact hFirst.trans (ih _ (k + 1))

variable {p : KstackPool} {base : U32} {k n : Nat}

theorem claimPages_accepted (hOk : (claimPages p base (ofNat 32 k) n).2 = .ok) :
    ∀ j, k ≤ j → j < k + n → Accepted p.vm (pageVa base j) := by
  induction n generalizing p k with
  | zero =>
    intro j hLow hHigh
    omega
  | succ n ih =>
    rw [claimPages_succ] at hOk
    split at hOk
    · rename_i hFailed
      exact absurd hOk hFailed
    · rename_i hClaimed
      rw [not_not] at hClaimed
      have hWindow := (pageClaim_kept p (pageVa base k) (pageVa base k) vmapAttrNormal).window
      intro j hLow hHigh
      obtain rfl | hLater := Nat.eq_or_lt_of_le hLow
      · exact pageClaim_accepted hClaimed
      · exact hWindow.symm.accepted (ih hOk j hLater (by omega))

theorem claimPages_changes {owners : List (BitVec 12)} (h : Tables p.vm untouched owners)
    (hAllowed : ∀ j, k ≤ j → j < k + n → allowed (pageVa base j))
    (hLinked : ∀ va, allowed va → ∀ desc, untouched (vmapL1Index va) desc → l1Type desc = mmuL1TypeSection) :
    Changes allowed p.vm (claimPages p base (ofNat 32 k) n).1.vm := by
  induction n generalizing p k owners with
  | zero => exact .refl
  | succ n ih =>
    have hPage := hAllowed k le_rfl (by omega)
    have hFirst := pageClaim_changes h hPage (pageVa base k) vmapAttrNormal (hLinked _ hPage)
    obtain ⟨owners', -, hMid⟩ := h.changes hFirst
    rw [claimPages_succ]
    split
    · exact hFirst
    · exact hFirst.trans (ih hMid fun j hLow hHigh => hAllowed j (by omega) (by omega))

theorem claimPages_entries {owners : List (BitVec 12)} (h : Tables p.vm untouched owners)
    (hFits : PoolFits p.vm) (hBound : k + n ≤ 2 ^ 20)
    (hLinked : ∀ j, k ≤ j → j < k + n → ∀ desc, untouched (vmapL1Index (pageVa base j)) desc →
      l1Type desc = mmuL1TypeSection) (hOk : (claimPages p base (ofNat 32 k) n).2 = .ok) :
    ∀ j, k ≤ j → j < k + n → (claimPages p base (ofNat 32 k) n).1.vm.entry (pageVa base j) =
      some (mmuSmallPageDescriptor (pageVa base j) (pageAttrOf vmapAttrNormal)) := by
  induction n generalizing p k owners with
  | zero =>
    intro j hLow hHigh
    omega
  | succ n ih =>
    have hHere := hLinked k le_rfl (by omega)
    have hFirst : Changes (fun _ => True) p.vm (pageClaim p (pageVa base k) (pageVa base k) vmapAttrNormal).1.vm :=
      pageClaim_changes h trivial (pageVa base k) vmapAttrNormal hHere
    obtain ⟨owners', -, hMid⟩ := h.changes hFirst
    have hMidFits := (Changes.window h.aligned hFirst).poolFits hFits
    rw [claimPages_succ] at hOk ⊢
    split at hOk
    · rename_i hFailed
      exact absurd hOk hFailed
    · rename_i hClaimed
      rw [if_neg hClaimed]
      rw [not_not] at hClaimed
      intro j hLow hHigh
      obtain rfl | hLater := Nat.eq_or_lt_of_le hLow
      · have hEntry := pageClaim_ok h hHere hClaimed
        have hOwner : vmapL1Index (pageVa base k) ∈ owners' := by
          obtain ⟨l2, hTable, -⟩ := Option.map_eq_some_iff.mp hEntry
          exact hMid.owner_of_table hHere hTable
        apply hMid.entry_changes hMidFits (fun va => ∃ m, k + 1 ≤ m ∧ m < k + 1 + n ∧ va = pageVa base m)
          ?_ ?_ hOwner ?_ hEntry
        · rintro va ⟨m, hm, hm', rfl⟩
          exact hLinked m (by omega) (by omega)
        · apply claimPages_changes hMid
          · exact fun m hm hm' => ⟨m, hm, hm', rfl⟩
          · rintro va ⟨m, hm, hm', rfl⟩
            exact hLinked m (by omega) (by omega)
        · rintro va ⟨m, hm, hm', rfl⟩
          exact pageVa_ne (by omega) (by omega) (by omega)
      · exact ih hMid hMidFits (by omega) (fun m hm hm' => hLinked m (by omega) (by omega)) hOk j hLater (by omega)

theorem releasePages_succ (p : KstackPool) (base : U32) (first : KstackErr) (k n : Nat) :
    releasePages p base first (ofNat 32 k) (n + 1) =
      if (vmapUnmap p.vm (pageVa base k)).2 = .ok ∨ (vmapUnmap p.vm (pageVa base k)).2 = .notMapped ∨
          (vmapUnmap p.vm (pageVa base k)).2 = .isSection then
        releasePages { p with vm := (vmapUnmap p.vm (pageVa base k)).1 } base first (ofNat 32 (k + 1)) n
      else if first = .ok then releasePages (vmapResult { p with vm := (vmapUnmap p.vm (pageVa base k)).1 }
            (vmapUnmap p.vm (pageVa base k)).2).1 base (vmapResult { p with vm := (vmapUnmap p.vm (pageVa base k)).1 }
            (vmapUnmap p.vm (pageVa base k)).2).2 (ofNat 32 (k + 1)) n else
        releasePages { p with vm := (vmapUnmap p.vm (pageVa base k)).1 } base first (ofNat 32 (k + 1)) n := by
  rw [releasePages, ofNat_succ]
  rfl

theorem releasePages_kept (p : KstackPool) (base : U32) (first : KstackErr) (k n : Nat) :
    Kept p (releasePages p base first (ofNat 32 k) n).1 := by
  induction n generalizing p first k with
  | zero => exact .refl p
  | succ n ih =>
    have hFirst := unmap_window p.vm (pageVa base k)
    rw [releasePages_succ]
    split_ifs
    · exact (Kept.of_window hFirst _ _).trans (ih _ _ (k + 1))
    · exact ((Kept.of_window hFirst _ _).trans (vmapResult_kept _ _)).trans (ih _ _ (k + 1))
    · exact (Kept.of_window hFirst _ _).trans (ih _ _ (k + 1))

theorem releasePages_changes (p : KstackPool) (first : KstackErr)
    (hAllowed : ∀ j, k ≤ j → j < k + n → allowed (pageVa base j)) :
    Changes allowed p.vm (releasePages p base first (ofNat 32 k) n).1.vm := by
  induction n generalizing p first k with
  | zero => exact .refl
  | succ n ih =>
    have hFirst : Changes allowed p.vm (vmapUnmap p.vm (pageVa base k)).1 :=
      unmap_changes p.vm (hAllowed k le_rfl (by omega))
    have hRest := fun (q : KstackPool) (first : KstackErr) =>
      ih q first (k := k + 1) fun j hLow hHigh => hAllowed j (by omega) (by omega)
    rw [releasePages_succ]
    split_ifs
    · exact hFirst.trans (hRest { p with vm := (vmapUnmap p.vm (pageVa base k)).1 } _)
    · have hStep := hRest (vmapResult { p with vm := (vmapUnmap p.vm (pageVa base k)).1 }
        (vmapUnmap p.vm (pageVa base k)).2).1 (vmapResult { p with vm := (vmapUnmap p.vm (pageVa base k)).1 }
        (vmapUnmap p.vm (pageVa base k)).2).2
      rw [vmapResult_vm] at hStep
      exact hFirst.trans hStep
    · exact hFirst.trans (hRest { p with vm := (vmapUnmap p.vm (pageVa base k)).1 } _)

theorem releasePages_ok (hAccepted : ∀ j, k ≤ j → j < k + n → Accepted p.vm (pageVa base j)) :
    (releasePages p base .ok (ofNat 32 k) n).2 = .ok := by
  induction n generalizing p k with
  | zero => rfl
  | succ n ih =>
    rw [releasePages_succ, if_pos (unmap_tolerated (hAccepted k le_rfl (by omega)))]
    apply ih
    intro j hLow hHigh
    exact (unmap_window p.vm (pageVa base k)).accepted (hAccepted j (by omega) (by omega))

end OpenXJ380.Kstack
