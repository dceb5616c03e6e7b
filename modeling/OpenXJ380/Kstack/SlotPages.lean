import OpenXJ380.Kstack.Pages

/-! # The pages of a slot

An allocation and a release write only to the pages of their own slot. What a
slot that is in use needs is therefore kept by work on any other slot.
-/

namespace OpenXJ380.Kstack

open Mmu Vmap

def Sane (p : KstackPool) : Prop := p.stackPages.toNat + 1 < 2 ^ 20

def SlotPages (p : KstackPool) (slot va : U32) : Prop :=
  ∃ m ≤ p.stackPages.toNat, va = pageVa (slotBaseOf p slot) m

def InPool (p : KstackPool) (va : U32) : Prop :=
  p.poolBase.toNat ≤ va.toNat ∧ va.toNat < p.poolBase.toNat + p.slotCount.toNat * (slotBytes p).toNat

def PoolSection (p : KstackPool) (i : BitVec 12) (desc : U32) : Prop :=
  (∃ va, InPool p va ∧ vmapL1Index va = i) → l1Type desc = mmuL1TypeSection

theorem slotPages_guard (p : KstackPool) (slot : U32) : SlotPages p slot (slotGuardOf p slot) :=
  ⟨0, Nat.zero_le _, (pageVa_zero _).symm⟩

theorem slotPages_stack {p : KstackPool} {i : Nat} (hi : i < p.stackPages.toNat) (slot : U32) :
    SlotPages p slot (pageVa (slotStackBaseOf p slot) i) :=
  ⟨i + 1, hi, pageVa_succ _ _⟩

section

variable {p : KstackPool}

variable (h : Geometry p)

include h

variable (hSane : Sane p)

include hSane

theorem Geometry.bytes_eq : (slotBytes p).toNat = (p.stackPages.toNat + 1) * 4096 := by
  rw [Sane] at hSane
  rw [slotBytes, h.pages, BitVec.toNat_mul, BitVec.toNat_add]
  change (p.stackPages.toNat + 1) % 2 ^ 32 * 4096 % 2 ^ 32 = _
  omega

theorem Geometry.page_toNat {slot : U32}
    (hSlot : slot.toNat < p.slotCount.toNat) {m : Nat} (hm : m ≤ p.stackPages.toNat) :
    (pageVa (slotBaseOf p slot) m).toNat = p.poolBase.toNat + slot.toNat * (slotBytes p).toNat + m * 4096 := by
  have hTop := h.slotTop_toNat hSlot
  have hLt := (slotTopOf p slot).isLt
  have hBytes := h.bytes_eq hSane
  rw [Nat.succ_mul] at hTop
  rw [Sane] at hSane
  rw [pageVa, BitVec.toNat_add, h.slotBase_toNat hSlot.le, BitVec.toNat_mul, BitVec.toNat_ofNat]
  change (_ + m % 2 ^ 32 * 4096 % 2 ^ 32) % 2 ^ 32 = _
  omega

theorem Geometry.slotPages_address {slot va : U32} (hSlot : slot < p.slotCount) (hPage : SlotPages p slot va) :
    SlotAddress p slot va ∧ va.toNat % 4096 = 0 := by
  obtain ⟨m, hm, rfl⟩ := hPage
  have hBytes := h.bytes_eq hSane
  have hAligned := h.aligned
  rw [BitVec.lt_def] at hSlot
  rw [SlotAddress, slotGuardOf, BitVec.le_def, BitVec.lt_def, h.page_toNat hSane hSlot hm,
    h.slotBase_toNat hSlot.le, h.slotTop_toNat hSlot, Nat.succ_mul]
  rw [hBytes]
  have hMultiple : slot.toNat * ((p.stackPages.toNat + 1) * 4096) =
      slot.toNat * (p.stackPages.toNat + 1) * 4096 := (mul_assoc _ _ _).symm
  omega

theorem Geometry.slotPages_inPool {slot va : U32}
    (hSlot : slot < p.slotCount) (hPage : SlotPages p slot va) : InPool p va := by
  obtain ⟨⟨hLow, hHigh⟩, -⟩ := h.slotPages_address hSane hSlot hPage
  rw [BitVec.lt_def] at hSlot hHigh
  rw [slotGuardOf, BitVec.le_def, h.slotBase_toNat hSlot.le] at hLow
  rw [h.slotTop_toNat hSlot] at hHigh
  have hStep : (slot.toNat + 1) * (slotBytes p).toNat ≤ p.slotCount.toNat * (slotBytes p).toNat :=
    Nat.mul_le_mul_right _ hSlot
  exact ⟨by omega, by omega⟩

theorem Geometry.slotPages_away {i j u va : U32} (hi : i < p.slotCount)
    (hj : j < p.slotCount) (hNe : i ≠ j) (hu : SlotPages p i u) (hva : SlotPages p j va) : u >>> 12 ≠ va >>> 12 := by
  obtain ⟨hAddressU, hAlignedU⟩ := h.slotPages_address hSane hi hu
  obtain ⟨hAddressVa, hAlignedVa⟩ := h.slotPages_address hSane hj hva
  intro hEq
  have hNat := congrArg BitVec.toNat hEq
  rw [BitVec.toNat_ushiftRight, BitVec.toNat_ushiftRight, Nat.shiftRight_eq_div_pow, Nat.shiftRight_eq_div_pow] at hNat
  obtain rfl : u = va := BitVec.eq_of_toNat_eq (by omega)
  exact h.disjoint hi hj hNe u ⟨hAddressU, hAddressVa⟩

theorem Geometry.page_aligned {slot va : U32} (hSlot : slot < p.slotCount)
    (hPage : SlotPages p slot va) : va &&& (vmapPageSize - 1) = 0 := by
  apply BitVec.eq_of_toNat_eq
  rw [BitVec.toNat_and]
  exact (Nat.and_two_pow_sub_one_eq_mod va.toNat 12).trans (h.slotPages_address hSane hSlot hPage).2

end

structure SameShape (p p' : KstackPool) : Prop where
  window : SameWindow p.vm p'.vm
  poolBase : p'.poolBase = p.poolBase
  slotCount : p'.slotCount = p.slotCount
  stackPages : p'.stackPages = p.stackPages
  slotPages : p'.slotPages = p.slotPages
  bitmapWords : p'.bitmapWords = p.bitmapWords
  guardKind : p'.guardKind = p.guardKind
  inited : p'.inited = p.inited

theorem SameShape.trans {p p' p'' : KstackPool} (h : SameShape p p') (h' : SameShape p' p'') : SameShape p p'' :=
  ⟨h.window.trans h'.window, h'.poolBase.trans h.poolBase, h'.slotCount.trans h.slotCount,
    h'.stackPages.trans h.stackPages, h'.slotPages.trans h.slotPages, h'.bitmapWords.trans h.bitmapWords,
    h'.guardKind.trans h.guardKind, h'.inited.trans h.inited⟩

theorem Kept.shape {p p' : KstackPool} (h : Kept p p') : SameShape p p' :=
  { h with }

theorem slotMark_shape (p : KstackPool) (index : U32) (used : Bool) : SameShape p (slotMark p index used) := by
  cases used <;> exact ⟨.refl _, rfl, rfl, rfl, rfl, rfl, rfl, rfl⟩

theorem flushRange_shape (p : KstackPool) (a b : U32) : SameShape p (flushRange p a b) := by
  rw [flushRange]
  split <;> exact ⟨.refl _, rfl, rfl, rfl, rfl, rfl, rfl, rfl⟩

section

variable {p p' : KstackPool}

section

variable (h : SameShape p p')

include h

theorem SameShape.slotBaseOf (slot : U32) : slotBaseOf p' slot = slotBaseOf p slot := by
  rw [Kstack.slotBaseOf, Kstack.slotBaseOf, h.poolBase, h.slotPages]

theorem SameShape.slotGuardOf (slot : U32) : slotGuardOf p' slot = slotGuardOf p slot :=
  h.slotBaseOf slot

theorem SameShape.slotStackBaseOf (slot : U32) : slotStackBaseOf p' slot = slotStackBaseOf p slot := by
  rw [Kstack.slotStackBaseOf, Kstack.slotStackBaseOf, h.slotBaseOf]

theorem SameShape.slotTopOf (slot : U32) : slotTopOf p' slot = slotTopOf p slot := by
  rw [Kstack.slotTopOf, Kstack.slotTopOf, h.slotBaseOf, h.slotPages]

theorem SameShape.slotBytes : slotBytes p' = slotBytes p := by
  rw [Kstack.slotBytes, Kstack.slotBytes, h.slotPages]

theorem SameShape.geometry (hGeom : Geometry p) : Geometry p' := by
  refine ⟨?_, ?_, ?_, ?_, ?_, ?_⟩
  · rw [h.poolBase]
    exact hGeom.aligned
  · rw [h.slotPages, h.stackPages]
    exact hGeom.pages
  · rw [h.slotBytes]
    exact hGeom.bytes
  · rw [h.poolBase, h.slotCount, h.slotBytes]
    exact hGeom.fits
  · rw [h.slotCount]
    exact hGeom.count
  · rw [h.slotCount, h.bitmapWords]
    exact hGeom.words

theorem SameShape.sane (hSane : Sane p) : Sane p' := by
  rw [Sane, h.stackPages]
  exact hSane

theorem SameShape.slotPages_iff (slot va : U32) : SlotPages p' slot va ↔ SlotPages p slot va := by
  rw [SlotPages, SlotPages, h.stackPages, h.slotBaseOf]

theorem SameShape.inPool_iff (va : U32) : InPool p' va ↔ InPool p va := by
  rw [InPool, InPool, h.poolBase, h.slotCount, h.slotBytes]

end

structure Live (p : KstackPool) (slot : U32) : Prop where
  below : slot < p.slotCount
  used : bitOf p.bitmap slot = true
  guard : ∃ desc, p.vm.entry (slotGuardOf p slot) = some desc ∧ GuardClosed p.guardKind desc
  pages : ∀ i < p.stackPages.toNat, p.vm.entry (pageVa (slotStackBaseOf p slot) i) =
    some (mmuSmallPageDescriptor (pageVa (slotStackBaseOf p slot) i) (pageAttrOf vmapAttrNormal))
  accepted : ∀ va, SlotPages p slot va → Accepted p.vm va

theorem Live.frame {owners : List (BitVec 12)} {q : KstackPool} {i j : U32} (h : Live p j)
    (hGeom : Geometry p) (hSane : Sane p) (hFits : PoolFits p.vm)
    (hTables : Tables p.vm (PoolSection p) owners) (hShape : SameShape p q)
    (hChanges : Changes (SlotPages p i) p.vm q.vm) (hi : i < p.slotCount) (hNe : i ≠ j)
    (hUsed : bitOf q.bitmap j) : Live q j := by
  have hSections : ∀ slot va, slot < p.slotCount → SlotPages p slot va → ∀ desc,
      PoolSection p (vmapL1Index va) desc → l1Type desc = mmuL1TypeSection :=
    fun slot va hSlot hva _ hSection => hSection ⟨va, hGeom.slotPages_inPool hSane hSlot hva, rfl⟩
  have hEntry : ∀ va desc, SlotPages p j va → p.vm.entry va = some desc → q.vm.entry va = some desc := by
    intro va desc hva hOld
    have hOwner : vmapL1Index va ∈ owners := by
      obtain ⟨l2, hTable, -⟩ := Option.map_eq_some_iff.mp hOld
      exact hTables.owner_of_table (hSections j va h.below hva) hTable
    apply hTables.entry_changes hFits _ (fun u hu => hSections i u hi hu) hChanges hOwner ?_ hOld
    intro u hu
    exact hGeom.slotPages_away hSane hi h.below hNe hu hva
  refine ⟨?_, hUsed, ?_, ?_, ?_⟩
  · rw [hShape.slotCount]
    exact h.below
  · obtain ⟨desc, hOld, hClosed⟩ := h.guard
    rw [hShape.slotGuardOf, hShape.guardKind]
    exact ⟨desc, hEntry _ _ (slotPages_guard p j) hOld, hClosed⟩
  · intro k hk
    rw [hShape.stackPages] at hk
    rw [hShape.slotStackBaseOf]
    exact hEntry _ _ (slotPages_stack hk j) (h.pages k hk)
  · intro va hva
    rw [hShape.slotPages_iff] at hva
    exact hShape.window.accepted (h.accepted va hva)

end

def allocWork (p : KstackPool) (slot : U32) : KstackPool × KstackErr :=
  let (p, e) := guardApply p (slotGuardOf p slot)
  if e = .ok then claimPages p (slotStackBaseOf p slot) 0 p.stackPages.toNat else (p, e)

def releaseWork (p : KstackPool) (slot : U32) : KstackPool × KstackErr :=
  let (p, e) := guardUnmap p (slotGuardOf p slot)
  releasePages p (slotStackBaseOf p slot) e 0 p.stackPages.toNat

variable {p : KstackPool} {owners : List (BitVec 12)} {slot : U32}

theorem allocWork_kept (p : KstackPool) (slot : U32) : Kept p (allocWork p slot).1 := by
  have hGuard := guardApply_kept p (slotGuardOf p slot)
  simp only [allocWork]
  split
  · exact hGuard.trans (claimPages_kept _ _ 0 _)
  · exact hGuard

theorem releaseWork_kept (p : KstackPool) (slot : U32) : Kept p (releaseWork p slot).1 := by
  have hGuard := guardUnmap_kept p (slotGuardOf p slot)
  simp only [releaseWork]
  exact hGuard.trans (releasePages_kept _ _ _ 0 _)

theorem poolSection_linked (hGeom : Geometry p) (hSane : Sane p) (hSlot : slot < p.slotCount) (va : U32)
    (hva : SlotPages p slot va) (desc : U32) (hSection : PoolSection p (vmapL1Index va) desc) :
    l1Type desc = mmuL1TypeSection :=
  hSection ⟨va, hGeom.slotPages_inPool hSane hSlot hva, rfl⟩

theorem allocWork_changes (hGeom : Geometry p) (hSane : Sane p) (hSlot : slot < p.slotCount)
    (hTables : Tables p.vm (PoolSection p) owners) : Changes (SlotPages p slot) p.vm (allocWork p slot).1.vm := by
  have hLinked := poolSection_linked hGeom hSane hSlot
  have hPage := slotPages_guard p slot
  have hGuard := guardApply_changes hTables hPage (hLinked _ hPage)
  have hShape := (guardApply_kept p (slotGuardOf p slot)).shape
  obtain ⟨owners', -, hMid⟩ := hTables.changes hGuard
  simp only [allocWork]
  split
  · apply hGuard.trans
    rw [hShape.slotStackBaseOf, hShape.stackPages]
    apply claimPages_changes (k := 0) hMid ?_ hLinked
    intro j _ hj
    exact slotPages_stack (by omega) slot
  · exact hGuard

theorem releaseWork_changes (hTables : Tables p.vm (PoolSection p) owners) :
    Changes (SlotPages p slot) p.vm (releaseWork p slot).1.vm := by
  have hGuard := guardUnmap_changes hTables (slotPages_guard p slot)
  have hShape := (guardUnmap_kept p (slotGuardOf p slot)).shape
  simp only [releaseWork]
  apply hGuard.trans
  rw [hShape.slotStackBaseOf, hShape.stackPages]
  apply releasePages_changes (k := 0)
  intro j _ hj
  exact slotPages_stack (by omega) slot

theorem allocWork_live (hGeom : Geometry p) (hSane : Sane p) (hSlot : slot < p.slotCount)
    (hFits : PoolFits p.vm) (hTables : Tables p.vm (PoolSection p) owners)
    (hUsed : bitOf p.bitmap slot) (hOk : (allocWork p slot).2 = .ok) : Live (allocWork p slot).1 slot := by
  have hLinked := poolSection_linked hGeom hSane hSlot
  have hPage := slotPages_guard p slot
  have hGuardKept := guardApply_kept p (slotGuardOf p slot)
  have hShape := hGuardKept.shape
  have hAllShape := (allocWork_kept p slot).shape
  have hBitmap := (allocWork_kept p slot).bitmap
  have hGuardChanges := guardApply_changes hTables hPage (hLinked _ hPage)
  obtain ⟨owners', -, hMid⟩ := hTables.changes hGuardChanges
  have hMidFits := hGuardKept.window.poolFits hFits
  have hStack : ∀ j, j < p.stackPages.toNat → ∀ desc,
      PoolSection p (vmapL1Index (pageVa (slotStackBaseOf p slot) j)) desc → l1Type desc = mmuL1TypeSection :=
    fun j hj => hLinked _ (slotPages_stack hj slot)
  have hWork : (allocWork p slot) = if (guardApply p (slotGuardOf p slot)).2 = .ok then
      claimPages (guardApply p (slotGuardOf p slot)).1 (slotStackBaseOf p slot) 0 p.stackPages.toNat
      else guardApply p (slotGuardOf p slot) := by
    rw [← hShape.slotStackBaseOf, ← hShape.stackPages]
    rfl
  rw [hWork] at hOk hAllShape hBitmap ⊢
  split at hOk
  swap
  · rename_i hFailed
    exact absurd hOk hFailed
  rename_i hGuardOk
  rw [if_pos hGuardOk] at hAllShape hBitmap ⊢
  obtain ⟨hGuardAccepted, desc, hEntry, hClosed⟩ :=
    guardApply_ok hTables hFits (hGeom.page_aligned hSane hSlot hPage) (hLinked _ hPage) hGuardOk
  have hSaneNat : p.stackPages.toNat + 1 < 2 ^ 20 := hSane
  have hClaimed := claimPages_accepted (k := 0) hOk
  refine ⟨?_, ?_, ?_, ?_, ?_⟩
  · rw [hAllShape.slotCount]
    exact hSlot
  · rw [hBitmap]
    exact hUsed
  · rw [hAllShape.slotGuardOf, hAllShape.guardKind]
    refine ⟨desc, ?_, hClosed⟩
    have hOwner : vmapL1Index (slotGuardOf p slot) ∈ owners' := by
      obtain ⟨l2, hTable, -⟩ := Option.map_eq_some_iff.mp hEntry
      exact hMid.owner_of_table (hLinked _ hPage) hTable
    apply hMid.entry_changes hMidFits
      (fun va => ∃ j < p.stackPages.toNat, va = pageVa (slotStackBaseOf p slot) j) ?_ ?_ hOwner ?_ hEntry
    · rintro va ⟨j, hj, rfl⟩
      exact hStack j hj
    · apply claimPages_changes (k := 0) hMid
      · exact fun j _ hj => ⟨j, by omega, rfl⟩
      · rintro va ⟨j, hj, rfl⟩
        exact hStack j hj
    · rintro va ⟨j, hj, rfl⟩
      rw [slotStackBaseOf, pageVa_succ]
      have hNe := @pageVa_ne (slotBaseOf p slot) (j + 1) 0 (by omega) (by omega) (by omega)
      rwa [pageVa_zero] at hNe
  · intro i hi
    rw [hAllShape.stackPages] at hi
    rw [hAllShape.slotStackBaseOf]
    apply claimPages_entries (k := 0) hMid hMidFits (by omega) ?_ hOk i (Nat.zero_le i) (by omega)
    intro j _ hj
    exact hStack j (by omega)
  · intro va hva
    rw [hAllShape.slotPages_iff] at hva
    apply hAllShape.window.accepted
    obtain ⟨m, hm, rfl⟩ := hva
    cases m with
    | zero =>
      rw [pageVa_zero]
      exact hGuardAccepted
    | succ i =>
      rw [← pageVa_succ]
      exact hGuardKept.window.symm.accepted (hClaimed i (Nat.zero_le i) (by omega))

theorem releaseWork_ok (hLive : Live p slot) : (releaseWork p slot).2 = .ok := by
  have hShape := (guardUnmap_kept p (slotGuardOf p slot)).shape
  have hGuardOk : (guardUnmap p (slotGuardOf p slot)).2 = .ok := by
    obtain ⟨desc, hEntry, hClosed⟩ := hLive.guard
    exact guardUnmap_closed (hLive.accepted _ (slotPages_guard p slot)) hEntry hClosed
  simp only [releaseWork]
  rw [hGuardOk, hShape.slotStackBaseOf, hShape.stackPages]
  apply releasePages_ok (k := 0)
  intro j _ hj
  exact hShape.window.accepted (hLive.accepted _ (slotPages_stack (by omega) slot))

end OpenXJ380.Kstack
