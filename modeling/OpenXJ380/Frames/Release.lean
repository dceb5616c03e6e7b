import OpenXJ380.Buddy.Invariant
import OpenXJ380.Frames.Model

/-! # The free addresses of all zones

`W` is what lies on the free lists. A frame of the regions is clear in the bitmap
of frames in use where its address is in `W`, and set otherwise.
-/

namespace OpenXJ380.Frames

open Function

section

open Buddy Dyadic

def lowOf : ZoneType → Nat
  | .dma => 0
  | .dma32 => zoneDmaEnd
  | .normal => zoneDma32End

def highOf (memorySize : Nat) : ZoneType → Nat
  | .dma => min (memorySize / pageSize * pageSize) zoneDmaEnd
  | .dma32 => min (memorySize / pageSize * pageSize) zoneDma32End
  | .normal => memorySize / pageSize * pageSize

def part (W : Set Nat) (type : ZoneType) : Set Nat := {a | a ∈ W ∧ physToZoneType a = type}

/-- The regions given to the zones at boot: whole usable frames of one zone, the first megabyte left out. -/
structure RegionFits (usable : Bitmap) (memorySize : Nat) (r : Nat × Nat) : Prop where
  low : 0x100000 ≤ r.1
  nonempty : r.1 < r.2
  start : 4096 ∣ r.1
  stop : 4096 ∣ r.2
  zone : r.2 ≤ highOf memorySize (physToZoneType r.1)
  usable : ∀ f, r.1 ≤ f * 4096 → f * 4096 < r.2 → bitmapGet usable f = true

def Managed (regions : List (Nat × Nat)) (f : Nat) : Prop := ∃ r ∈ regions, r.1 ≤ f * 4096 ∧ f * 4096 < r.2

structure Site where
  usable : Bitmap
  memorySize : Nat
  regions : List (Nat × Nat)
  fits : ∀ r ∈ regions, RegionFits usable memorySize r
  apart : regions.Pairwise fun r q => Disjoint (Set.Ico r.1 r.2) (Set.Ico q.1 q.2)
  small : memorySize + 2 ^ 31 ≤ 2 ^ 64

structure Ledger (site : Site) (regions : List (Nat × Nat)) (s : FrameState) (W : Set Nat) : Prop where
  usable : s.usable = site.usable
  memorySize : s.memorySize = site.memorySize
  length : s.usingRegions.length = (site.memorySize / pageSize + 7) / 8 * 8
  zone : ∀ type z, s.zones type = some z → (∃ lists, Stocked s.memory z lists (part W type) 0) ∧
    zoneStart z = lowOf type ∧ zoneEnd z = highOf site.memorySize type
  present : ∀ f, Managed site.regions f → ∃ z, s.zones (physToZoneType (f * 4096)) = some z
  pages : ∀ a ∈ W, Managed regions (a / 4096)
  clear : ∀ f, Managed regions f → (bitmapGet s.usingRegions f = false ↔ f * 4096 ∈ W)
  used : ∀ f, bitmapGet s.usingRegions f = true → Managed regions f

variable {site : Site} {regions : List (Nat × Nat)} {s : FrameState} {W : Set Nat} {type : ZoneType}
  {a f n addr count order : Nat} {z : ZoneT}

theorem physToZoneType_iff :
    physToZoneType a = type ↔ lowOf type ≤ a ∧ (type = .normal ∨ type = .dma32 ∧ a < zoneDma32End ∨
      type = .dma ∧ a < zoneDmaEnd) := by
  rw [physToZoneType]
  simp only [zoneDmaEnd, zoneDma32End]
  cases type <;> simp only [lowOf, zoneDmaEnd, zoneDma32End] <;> grind

theorem physToZoneType_page (a : Nat) : physToZoneType (a / 4096 * 4096) = physToZoneType a := by
  rw [physToZoneType, physToZoneType, zoneDmaEnd, zoneDma32End]
  split_ifs <;> first | rfl | omega

theorem type_of_bounds (hLow : lowOf type ≤ a) (hHigh : a < highOf site.memorySize type) : physToZoneType a = type := by
  rw [physToZoneType_iff]
  refine ⟨hLow, ?_⟩
  cases type with
  | dma => exact .inr (.inr ⟨rfl, hHigh.trans_le (min_le_right _ _)⟩)
  | dma32 => exact .inr (.inl ⟨rfl, hHigh.trans_le (min_le_right _ _)⟩)
  | normal => exact .inl rfl

theorem highOf_le (memorySize : Nat) (type : ZoneType) : highOf memorySize type ≤ memorySize / pageSize * pageSize := by
  cases type with
  | dma => exact min_le_left _ _
  | dma32 => exact min_le_left _ _
  | normal => exact le_rfl

theorem blockPages_eq (count : Nat) : ∃ k, countToBlockPages count = 2 ^ k ∧ countToOrder count = k + minOrder := by
  have hPower : ∃ k, countToBlockPages count = 2 ^ k := by
    rw [countToBlockPages, nextPowerOf2]
    split_ifs with hSmall hPower
    · exact ⟨0, rfl⟩
    · exact (Nat.and_sub_one_eq_zero_iff_isPowerOfTwo (by omega)).mp hPower
    · exact ⟨_, rfl⟩
  obtain ⟨k, hPages⟩ := hPower
  refine ⟨k, hPages, ?_⟩
  rw [countToOrder, hPages, log2FloorU64, if_neg (Nat.two_pow_pos k).ne', Nat.log2_two_pow]

theorem rounds_eq {pages : Nat} (h : addr + pages * 4096 < 2 ^ 64) : rounds addr pages = pages := by
  rw [rounds, pageSize, u64, Nat.mod_eq_of_lt h]
  omega

theorem frame_mem_cells (hDvd : 4096 ∣ addr) (hOrder : minOrder ≤ order) :
    f * 4096 ∈ Block.cells ⟨addr, order⟩ ↔ addr / 4096 ≤ f ∧ f < addr / 4096 + 2 ^ (order - minOrder) := by
  have hPow : 2 ^ order = 2 ^ (order - minOrder) * 4096 := by
    rw [show (4096 : Nat) = 2 ^ minOrder from rfl, ← pow_add, Nat.sub_add_cancel hOrder]
  rw [Block.mem_cells]
  simp only [hPow]
  omega

def OnFreeList (s : FrameState) (f : Nat) : Prop :=
  ∃ type z, s.zones type = some z ∧ ∃ x ∈ freeSet s.memory z, f * 4096 ∈ x.cells

theorem Ledger.onFreeList (h : Ledger site site.regions s W) : OnFreeList s f ↔ f * 4096 ∈ W := by
  constructor
  · rintro ⟨type, z, hZone, x, hx, hMem⟩
    obtain ⟨⟨lists, hStocked⟩, -⟩ := h.zone type z hZone
    rw [freeSet_eq hStocked.listed] at hx
    exact (hStocked.carved.subset hx hMem).1
  · intro hMem
    have hManaged := h.pages _ hMem
    rw [Nat.mul_div_cancel _ (by decide)] at hManaged
    obtain ⟨z, hZone⟩ := h.present f hManaged
    obtain ⟨⟨lists, hStocked⟩, -⟩ := h.zone _ z hZone
    obtain ⟨x, hx, hCell⟩ := (hStocked.carved.cover _).mp ⟨hMem, rfl⟩
    refine ⟨_, z, hZone, x, ?_, hCell⟩
    rw [freeSet_eq hStocked.listed]
    exact hx

theorem stocked_page {m : Memory} {lists : Nat → List Nat} {U : Set Nat} (h : Stocked m z lists U 0) (ha : a ∈ U) :
    a / 4096 * 4096 ∈ U := by
  obtain ⟨x, hx, hCell⟩ := (h.carved.cover a).mp ha
  have hAligned := h.carved.aligned x hx
  have hPage : 4096 ∣ x.base := (Nat.pow_dvd_pow 2 hx.1).trans hAligned
  apply h.carved.subset hx
  rw [Block.mem_cells] at hCell ⊢
  omega

theorem Ledger.page (h : Ledger site site.regions s W) (ha : a ∈ W) : a / 4096 * 4096 ∈ W := by
  have hManaged := h.pages a ha
  obtain ⟨z, hZone⟩ := h.present _ hManaged
  obtain ⟨⟨lists, hStocked⟩, -⟩ := h.zone _ z hZone
  have hPart : a ∈ part W (physToZoneType (a / 4096 * 4096)) := ⟨ha, (physToZoneType_page a).symm⟩
  exact (stocked_page hStocked hPart).1

theorem Ledger.used_iff (h : Ledger site regions s W) :
    bitmapGet s.usingRegions f ↔ Managed regions f ∧ f * 4096 ∉ W := by
  constructor
  · intro hUsed
    refine ⟨h.used f hUsed, fun hMem => ?_⟩
    rw [(h.clear f (h.used f hUsed)).mpr hMem] at hUsed
    cases hUsed
  · rintro ⟨hManaged, hNot⟩
    rw [← h.clear f hManaged] at hNot
    simpa using hNot

theorem Ledger.managed_lt (hManaged : Managed site.regions f) : f < site.memorySize / pageSize := by
  obtain ⟨r, hr, -, hHigh⟩ := hManaged
  have hEnd := (site.fits r hr).zone.trans (highOf_le _ _)
  simp only [pageSize] at hEnd ⊢
  omega

theorem Ledger.counters (h : Ledger site regions s W) (refcount : Nat → BitVec 32) :
    Ledger site regions { s with refcount := refcount } W :=
  { h with }

end

/-! # Taking and giving back frames

One zone changes at a time, and the bitmap follows it.
-/

open Buddy Dyadic

section

variable {site : Site} {regions : List (Nat × Nat)} {s : FrameState} {W : Set Nat} {type : ZoneType}
  {a f n addr count order : Nat} {z z' : ZoneT} {m' : Memory}

def setZone (s : FrameState) (type : ZoneType) (m : Memory) (z : ZoneT) (b : Bitmap) : FrameState :=
  { s with memory := m, zones := update s.zones type (some z), usingRegions := b }

theorem Ledger.setZone {W' : Set Nat} {b : Bitmap} (h : Ledger site regions s W) (hZone : s.zones type = some z)
    (hWithin : Within s.memory z m' z') (hStocked : ∃ lists, Stocked m' z' lists (part W' type) 0)
    (hOthers : ∀ t, t ≠ type → part W' t = part W t) (hLength : b.length = s.usingRegions.length)
    {regions' : List (Nat × Nat)} (hPages : ∀ a ∈ W', Managed regions' (a / 4096))
    (hClear : ∀ f, Managed regions' f → (bitmapGet b f = false ↔ f * 4096 ∈ W'))
    (hUsed : ∀ f, bitmapGet b f → Managed regions' f) : Ledger site regions' (setZone s type m' z' b) W' := by
  obtain ⟨-, hStart, hStop⟩ := h.zone type z hZone
  refine ⟨h.usable, h.memorySize, hLength.trans h.length, ?_, ?_, hPages, hClear, hUsed⟩
  · intro t y hy
    simp only [Frames.setZone] at hy ⊢
    by_cases hSame : t = type
    · subst hSame
      rw [update_self] at hy
      cases hy
      exact ⟨hStocked, hWithin.start.trans hStart, hWithin.stop.trans hStop⟩
    · rw [update_of_ne hSame] at hy
      obtain ⟨⟨lists, hOther⟩, hBounds⟩ := h.zone t y hy
      refine ⟨⟨lists, ?_⟩, hBounds⟩
      rw [hOthers t hSame]
      apply hOther.elsewhere
      intro a ha
      apply hWithin.memory
      by_contra hInside
      rw [hStart, hStop] at hInside
      exact hSame (ha.2.symm.trans (@type_of_bounds site _ _ (by omega) (by omega)))
  · intro f hManaged
    obtain ⟨y, hy⟩ := h.present f hManaged
    by_cases hSame : physToZoneType (f * 4096) = type
    · refine ⟨z', ?_⟩
      rw [hSame]
      exact update_self _ _ _
    · refine ⟨y, ?_⟩
      rw [← hy]
      exact update_of_ne hSame _ _

theorem part_sdiff {V : Set Nat} : part (W \ V) type = part W type \ V := by
  ext a
  simp only [part, Set.mem_sdiff, Set.mem_ofPred_eq]
  exact ⟨fun ⟨⟨hW, hV⟩, hType⟩ => ⟨⟨hW, hType⟩, hV⟩, fun ⟨⟨hW, hType⟩, hV⟩ => ⟨⟨hW, hV⟩, hType⟩⟩

theorem part_union {V : Set Nat} (hV : ∀ a ∈ V, physToZoneType a = type) : part (W ∪ V) type = part W type ∪ V := by
  ext a
  simp only [part, Set.mem_union, Set.mem_ofPred_eq]
  constructor
  · rintro ⟨hW | hMem, hType⟩
    · exact .inl ⟨hW, hType⟩
    · exact .inr hMem
  · rintro (⟨hW, hType⟩ | hMem)
    · exact ⟨.inl hW, hType⟩
    · exact ⟨.inr hMem, hV a hMem⟩

theorem part_sdiff_other {V : Set Nat} (hV : ∀ a ∈ V, physToZoneType a = type) (t : ZoneType) (hNe : t ≠ type) :
    part (W \ V) t = part W t := by
  rw [part_sdiff, sdiff_eq_left, Set.disjoint_left]
  intro a ha hMem
  exact hNe (ha.2.symm.trans (hV a hMem))

theorem part_union_other {V : Set Nat} (hV : ∀ a ∈ V, physToZoneType a = type) (t : ZoneType) (hNe : t ≠ type) :
    part (W ∪ V) t = part W t := by
  ext a
  simp only [part, Set.mem_union, Set.mem_ofPred_eq]
  constructor
  · rintro ⟨hW | hMem, hType⟩
    · exact ⟨hW, hType⟩
    · exact absurd (hType.symm.trans (hV a hMem)) hNe
  · rintro ⟨hW, hType⟩
    exact ⟨.inl hW, hType⟩

theorem addressRef_eq (s : FrameState) (a : Nat) : ∃ refcount, addressRef s a = { s with refcount := refcount } := by
  rw [addressRef]
  split
  · exact ⟨s.refcount, rfl⟩
  · exact ⟨_, rfl⟩

theorem addressUnref_eq (s : FrameState) (a : Nat) :
    ∃ refcount, addressUnref s a = { s with refcount := refcount } := by
  rw [addressUnref]
  split
  · exact ⟨s.refcount, rfl⟩
  · exact ⟨_, rfl⟩

theorem refPages_eq (n : Nat) (s : FrameState) (a : Nat) :
    ∃ refcount, refPages n s a = { s with refcount := refcount } := by
  induction n generalizing s a with
  | zero => exact ⟨s.refcount, rfl⟩
  | succ n ih =>
    obtain ⟨first, hFirst⟩ := addressRef_eq s a
    obtain ⟨rest, hRest⟩ := ih (addressRef s a) (a + pageSize)
    exact ⟨rest, by rw [refPages, hRest, hFirst]⟩

theorem unrefPages_eq (n : Nat) (s : FrameState) (a : Nat) :
    ∃ refcount, unrefPages n s a = { s with refcount := refcount } := by
  induction n generalizing s a with
  | zero => exact ⟨s.refcount, rfl⟩
  | succ n ih =>
    obtain ⟨first, hFirst⟩ := addressUnref_eq s a
    obtain ⟨rest, hRest⟩ := ih (addressUnref s a) (a + pageSize)
    exact ⟨rest, by rw [unrefPages, hRest, hFirst]⟩

structure FrameBlock (s : FrameState) (W : Set Nat) (count : Nat) (s' : FrameState) (addr : Nat) : Prop where
  nonzero : addr ≠ 0
  found : ∃ type z m' z', s.zones type = some z ∧ s' = setZone s type m' z' s.usingRegions ∧
    Taken s.memory z (part W type) (countToOrder count) addr m' z'

theorem tryZones_spec (h : Ledger site regions s W) (count : Nat) (types : List ZoneType) :
    tryZones count types s = (s, 0) ∨ ∃ s' addr, tryZones count types s = (s', addr) ∧ FrameBlock s W count s' addr := by
  induction types with
  | nil => exact .inl rfl
  | cons type types ih =>
    rw [tryZones]
    cases hZone : s.zones type with
    | none => exact ih
    | some z =>
      simp only
      split
      · obtain ⟨⟨lists, hStocked⟩, -⟩ := h.zone type z hZone
        obtain hNone | ⟨m', z', addr, hAlloc, hTaken⟩ := buddyAllocZone_spec hStocked count
        · rw [hNone]
          simp only [ne_eq, not_true_eq_false, if_false]
          rw [← hZone, update_eq_self]
          exact ih
        · right
          rw [hAlloc]
          exact ⟨_, addr, if_pos hTaken.nonzero, hTaken.nonzero, type, z, m', z', hZone, rfl, hTaken⟩
      · exact ih

/-- The frames `addr / 4096 + i` for `i < pages`. -/
def blockFrames (addr pages : Nat) : Finset Nat := Finset.Ico (addr / pageSize) (addr / pageSize + pages)

theorem Ledger.setRange_managed {pages : Nat} {inUse : Bool} (h : Ledger site site.regions s W)
    (hManaged : Managed site.regions f) :
    bitmapGet (bitmapSetRange s.usingRegions (addr / pageSize) (addr / pageSize + pages) inUse) f =
      if f ∈ blockFrames addr pages then inUse else bitmapGet s.usingRegions f := by
  have hLess := Ledger.managed_lt hManaged
  rw [bitmapSetRange_get, h.length]
  refine if_congr ?_ rfl rfl
  rw [blockFrames, Finset.mem_Ico]
  omega

theorem Ledger.mark {s' : FrameState} (h : Ledger site site.regions s W) (hFound : FrameBlock s W count s' addr) :
    ∃ V, V ⊆ W ∧ Ledger site site.regions (markFrames s' addr (countToBlockPages count)) (W \ V) ∧
      ∀ f, f ∈ blockFrames addr (countToBlockPages count) ↔ f * 4096 ∈ V := by
  obtain ⟨type, z, m', z', hZone, rfl, hTaken⟩ := hFound.found
  obtain ⟨k, hPages, hOrder⟩ := blockPages_eq count
  have hInside := hTaken.inside
  have hType : ∀ a ∈ Block.cells ⟨addr, countToOrder count⟩, physToZoneType a = type := fun a ha => (hInside ha).2
  have hLow : minOrder ≤ countToOrder count := (orderValid_iff.mp hTaken.valid).1
  have hDvd : 4096 ∣ addr := (Nat.pow_dvd_pow 2 hLow).trans hTaken.aligned
  have hFrames : ∀ f, f ∈ blockFrames addr (countToBlockPages count) ↔
      f * 4096 ∈ Block.cells ⟨addr, countToOrder count⟩ := by
    intro f
    rw [frame_mem_cells hDvd hLow, blockFrames, Finset.mem_Ico, hPages, hOrder, Nat.add_sub_cancel]
    rfl
  refine ⟨Block.cells ⟨addr, countToOrder count⟩, fun a ha => (hInside ha).1, ?_, hFrames⟩
  obtain ⟨refcount, hRef⟩ := refPages_eq (rounds addr (countToBlockPages count)) (Frames.setZone s type m' z'
    (bitmapSetRange s.usingRegions (addr / pageSize) (addr / pageSize + countToBlockPages count) true)) addr
  have hMark : markFrames (Frames.setZone s type m' z' s.usingRegions) addr (countToBlockPages count) =
    { Frames.setZone s type m' z' (bitmapSetRange s.usingRegions (addr / pageSize)
        (addr / pageSize + countToBlockPages count) true) with refcount := refcount } := hRef
  rw [hMark]
  refine .counters ?_ refcount
  apply h.setZone hZone hTaken.within
  · rw [part_sdiff]
    exact hTaken.stocked
  · exact part_sdiff_other hType
  · exact bitmapSetRange_length
  · exact fun a ha => h.pages a ha.1
  · intro f hManaged
    rw [h.setRange_managed hManaged, Set.mem_sdiff, ← hFrames f, ← h.clear f hManaged]
    split_ifs with hCase
    · simp [hCase]
    · simp [hCase]
  · intro f hUsed
    rw [bitmapSetRange_get] at hUsed
    split_ifs at hUsed with hCase
    · have hMem := (hFrames f).mp (by rw [blockFrames, Finset.mem_Ico]; exact hCase.1)
      have hManaged := h.pages _ (hInside hMem).1
      rwa [Nat.mul_div_cancel _ (by decide)] at hManaged
    · exact h.used f hUsed

end

/-! # Giving back frames

A release that gets past the checks clears the bitmap whether or not the zone
takes the block, and the zone takes it where it starts at a multiple of its size.
-/

/-- `freeFrames` gets to the release. -/
structure Reaches (s : FrameState) (addr count : Nat) : Prop where
  nonzero : addr ≠ 0 ∧ count ≠ 0
  valid : orderValid (countToOrder count) = true
  inUse : framesInUse s (addr / pageSize) (countToBlockPages count) = true
  zone : (s.zones (physToZoneType addr)).isSome = true
  canFree : canFreePages (unrefPages (rounds addr (countToBlockPages count)) s addr)
    (rounds addr (countToBlockPages count)) addr = true

instance (s : FrameState) (addr count : Nat) : Decidable (Reaches s addr count) :=
  decidable_of_iff ((addr ≠ 0 ∧ count ≠ 0) ∧ orderValid (countToOrder count) = true ∧
      framesInUse s (addr / pageSize) (countToBlockPages count) = true ∧ (s.zones (physToZoneType addr)).isSome = true ∧
      canFreePages (unrefPages (rounds addr (countToBlockPages count)) s addr)
        (rounds addr (countToBlockPages count)) addr = true)
    ⟨fun ⟨h₁, h₂, h₃, h₄, h₅⟩ => ⟨h₁, h₂, h₃, h₄, h₅⟩, fun ⟨h₁, h₂, h₃, h₄, h₅⟩ => ⟨h₁, h₂, h₃, h₄, h₅⟩⟩

def Misplaced (s : FrameState) (addr count : Nat) : Prop :=
  Reaches s addr count ∧ ¬ orderToBlockSize (countToOrder count) ∣ addr

variable {site : Site} {s : FrameState} {W : Set Nat} {type : ZoneType} {a f n addr count order : Nat} {z : ZoneT}

theorem freeFrames_stays (h : ¬ Reaches s addr count) :
    ∃ refcount, freeFrames s addr count = some { s with refcount := refcount } := by
  simp only [freeFrames]
  split_ifs with hZero hOrder hUsed hFree
  · exact ⟨s.refcount, rfl⟩
  · exact ⟨s.refcount, rfl⟩
  · exact ⟨s.refcount, rfl⟩
  · split
    · exact ⟨s.refcount, rfl⟩
    · obtain ⟨refcount, hUnref⟩ := unrefPages_eq (rounds addr (countToBlockPages count)) s addr
      exact ⟨refcount, by rw [hUnref]⟩
  · split
    · exact ⟨s.refcount, rfl⟩
    · rename_i z hZone
      exact absurd ⟨not_or.mp hZero, by simpa using hOrder, by simpa using hUsed, by rw [hZone]; rfl, by simpa using hFree⟩ h

theorem freeFrames_reaches (h : Reaches s addr count) (hZone : s.zones (physToZoneType addr) = some z) :
    ∃ refcount, freeFrames s addr count = (buddyFreeZone s.memory z addr (countToOrder count)).map fun r =>
        { setZone s (physToZoneType addr) r.1 r.2 (bitmapSetRange s.usingRegions (addr / pageSize)
            (addr / pageSize + countToBlockPages count) false) with refcount := refcount } := by
  obtain ⟨refcount, hUnref⟩ := unrefPages_eq (rounds addr (countToBlockPages count)) s addr
  have hFree := h.canFree
  refine ⟨refcount, ?_⟩
  simp only [freeFrames]
  rw [if_neg (by simp [h.nonzero.1, h.nonzero.2]), h.valid, h.inUse, hZone]
  simp only [Bool.not_true, Bool.false_eq_true, if_false, hFree]
  rw [hUnref]
  cases buddyFreeZone s.memory z addr (countToOrder count) <;> rfl

theorem framesInUse_iff {idx pages : Nat} : framesInUse s idx pages ↔
      ∀ f, idx ≤ f → f < idx + pages → bitmapGet s.usingRegions f ∧ bitmapGet s.usable f := by
  rw [framesInUse, List.all_eq_true]
  constructor
  · intro h f hLow hHigh
    have hOne := h (f - idx) (List.mem_range.mpr (by omega))
    rwa [Nat.add_sub_cancel' hLow, Bool.and_eq_true] at hOne
  · intro h off hOff
    rw [List.mem_range] at hOff
    rw [Bool.and_eq_true]
    exact h (idx + off) le_self_add (by omega)

theorem block_below {boundary : Nat} (hAligned : 2 ^ order ∣ addr) (hNonzero : addr ≠ 0)
    (hBoundary : 2 ^ order ∣ boundary ∨ boundary ∣ 2 ^ order) (hLess : addr < boundary) :
    addr + 2 ^ order ≤ boundary := by
  obtain hDvd | hDvd := hBoundary
  · exact Block.add_le_of_dvd hAligned hDvd hLess
  · exact absurd (Nat.eq_zero_of_dvd_of_lt (hDvd.trans hAligned) hLess) hNonzero

theorem block_type (hAligned : 2 ^ order ∣ addr) (hNonzero : addr ≠ 0) (hOrder : order ≤ maxOrder)
    (ha : a ∈ Block.cells ⟨addr, order⟩) : physToZoneType a = physToZoneType addr := by
  have hDma : addr < zoneDmaEnd → addr + 2 ^ order ≤ zoneDmaEnd := by
    apply block_below hAligned hNonzero
    obtain hLe | hLe := Nat.le_total order 24
    · exact .inl (Nat.pow_dvd_pow 2 hLe)
    · exact .inr (Nat.pow_dvd_pow 2 hLe)
  have hDma32 : addr < zoneDma32End → addr + 2 ^ order ≤ zoneDma32End := by
    apply block_below hAligned hNonzero
    exact .inl (Nat.pow_dvd_pow (n := 32) 2 (hOrder.trans (by decide)))
  rw [Block.mem_cells] at ha
  simp only at ha
  rw [physToZoneType, physToZoneType]
  split_ifs <;> first | rfl | omega

theorem highOf_dvd (memorySize : Nat) (type : ZoneType) : 4096 ∣ highOf memorySize type := by
  cases type with
  | dma => simp only [highOf, pageSize, zoneDmaEnd]; omega
  | dma32 => simp only [highOf, pageSize, zoneDma32End]; omega
  | normal => exact Nat.dvd_mul_left _ _

theorem managed_high (hManaged : Managed site.regions f) :
    f * 4096 + 4096 ≤ highOf site.memorySize (physToZoneType (f * 4096)) := by
  obtain ⟨r, hr, hLow, hHigh⟩ := hManaged
  have hEnd := (site.fits r hr).zone
  have hDvd := highOf_dvd site.memorySize (physToZoneType r.1)
  have hType : physToZoneType (f * 4096) = physToZoneType r.1 :=
    @type_of_bounds site _ _ ((physToZoneType_iff.mp rfl).1.trans hLow) (hHigh.trans_le hEnd)
  rw [hType]
  omega

theorem Ledger.frame_used (h : Ledger site site.regions s W) (hReaches : Reaches s addr count)
    (hf : f ∈ blockFrames addr (countToBlockPages count)) : Managed site.regions f ∧ f * 4096 ∉ W := by
  rw [blockFrames, Finset.mem_Ico] at hf
  exact h.used_iff.mp (framesInUse_iff.mp hReaches.inUse f hf.1 hf.2).1

theorem blockFrames_iff (hOrder : minOrder ≤ countToOrder count) (hAligned : 2 ^ countToOrder count ∣ addr) (f : Nat) :
    f ∈ blockFrames addr (countToBlockPages count) ↔ f * 4096 ∈ Block.cells ⟨addr, countToOrder count⟩ := by
  obtain ⟨k, hPages, hCount⟩ := blockPages_eq count
  rw [frame_mem_cells ((Nat.pow_dvd_pow 2 hOrder).trans hAligned) hOrder, blockFrames, Finset.mem_Ico, hPages, hCount,
    Nat.add_sub_cancel]
  rfl

theorem Ledger.release (h : Ledger site site.regions s W) (hReaches : Reaches s addr count)
    (hAligned : 2 ^ countToOrder count ∣ addr) :
    ∃ s' V, freeFrames s addr count = some s' ∧ Ledger site site.regions s' (W ∪ V) ∧
      ∀ f, f ∈ blockFrames addr (countToBlockPages count) ↔ f * 4096 ∈ V := by
  obtain ⟨z, hZone⟩ := Option.isSome_iff_exists.mp hReaches.zone
  obtain ⟨⟨lists, hStocked⟩, hStart, hStop⟩ := h.zone _ z hZone
  have hOrder := orderValid_iff.mp hReaches.valid
  have hDvd : 4096 ∣ addr := (Nat.pow_dvd_pow 2 hOrder.1).trans hAligned
  have hFrames := blockFrames_iff hOrder.1 hAligned
  have hType : ∀ a ∈ Block.cells ⟨addr, countToOrder count⟩, physToZoneType a = physToZoneType addr := fun a ha =>
    block_type hAligned hReaches.nonzero.1 hOrder.2 ha
  have hPage : ∀ a ∈ Block.cells ⟨addr, countToOrder count⟩, a / 4096 ∈ blockFrames addr (countToBlockPages count) := by
    intro a ha
    rw [hFrames, frame_mem_cells hDvd hOrder.1]
    have hPow : 2 ^ countToOrder count = 2 ^ (countToOrder count - minOrder) * 4096 := by
      rw [show (4096 : Nat) = 2 ^ minOrder from rfl, ← pow_add, Nat.sub_add_cancel hOrder.1]
    rw [Block.mem_cells] at ha
    simp only [hPow] at ha
    omega
  have hApart : Disjoint (Block.cells ⟨addr, countToOrder count⟩) (part W (physToZoneType addr)) := by
    rw [Set.disjoint_left]
    intro a ha hFree
    exact (h.frame_used hReaches (hPage a ha)).2 (h.page hFree.1)
  have hContains : zoneContainsBlock z addr (countToOrder count) := by
    have hLast : addr + 2 ^ countToOrder count - 1 ∈ Block.cells ⟨addr, countToOrder count⟩ := by
      rw [Block.mem_cells]
      simp only
      omega
    have hHigh := managed_high (h.frame_used hReaches (hPage _ hLast)).1
    rw [physToZoneType_page, hType _ hLast] at hHigh
    refine zoneContainsBlock_iff.mpr ⟨hReaches.valid, ?_, ?_⟩
    · rw [hStart]
      exact (physToZoneType_iff.mp rfl).1
    · rw [hStop]
      omega
  obtain ⟨m', z', hFree, ⟨lists', hAfter⟩, hWithin⟩ :=
    buddyFreeZone_spec (x := ⟨addr, countToOrder count⟩) hStocked hReaches.nonzero.1 hAligned hContains hApart
  obtain ⟨refcount, hResult⟩ := freeFrames_reaches hReaches hZone
  refine ⟨_, Block.cells ⟨addr, countToOrder count⟩, by rw [hResult, hFree]; rfl, ?_, hFrames⟩
  refine .counters ?_ refcount
  apply h.setZone hZone hWithin
  · rw [part_union hType]
    exact ⟨lists', hAfter⟩
  · exact part_union_other hType
  · exact bitmapSetRange_length
  · rintro a (ha | ha)
    · exact h.pages a ha
    · exact (h.frame_used hReaches (hPage a ha)).1
  · intro f hManaged
    rw [h.setRange_managed hManaged, Set.mem_union, ← hFrames f, ← h.clear f hManaged]
    split_ifs with hCase
    · simp [hCase]
    · simp [hCase]
  · intro f hUsed
    rw [bitmapSetRange_get] at hUsed
    split_ifs at hUsed with hCase
    exact h.used f hUsed

theorem Ledger.misplace (h : Ledger site site.regions s W) (hMisplaced : Misplaced s addr count) :
    ∃ s', freeFrames s addr count = some s' ∧ Managed site.regions (addr / pageSize) ∧
      bitmapGet s'.usingRegions (addr / pageSize) = false ∧ ¬ OnFreeList s' (addr / pageSize) := by
  obtain ⟨hReaches, hAligned⟩ := hMisplaced
  obtain ⟨z, hZone⟩ := Option.isSome_iff_exists.mp hReaches.zone
  obtain ⟨refcount, hResult⟩ := freeFrames_reaches hReaches hZone
  rw [buddyFreeZone_refused s.memory z (.inr (.inl fun hZero => hAligned (Nat.dvd_of_mod_eq_zero hZero)))] at hResult
  obtain ⟨k, hPages, -⟩ := blockPages_eq count
  have hPos := Nat.two_pow_pos k
  have hFirst : addr / pageSize ∈ blockFrames addr (countToBlockPages count) := by
    rw [blockFrames, Finset.mem_Ico, hPages]
    omega
  have hUsed := h.frame_used hReaches hFirst
  refine ⟨_, hResult, hUsed.1, ?_, ?_⟩
  · simp only [Frames.setZone]
    rw [bitmapSetRange_get]
    split_ifs with hCase
    · rfl
    · have hLess := Ledger.managed_lt hUsed.1
      have hLength := h.length
      omega
  · rintro ⟨type, y, hy, hList⟩
    apply hUsed.2
    rw [← h.onFreeList]
    simp only [Frames.setZone] at hy hList
    rw [← hZone, Function.update_eq_self] at hy
    exact ⟨type, y, hy, hList⟩

theorem toInt_pred {r : BitVec 32} (hLe : r.toInt ≤ 0) (hMin : r ≠ BitVec.intMin 32) : (r - 1).toInt ≤ 0 := by
  have hLow : -2 ^ 31 ≤ r.toInt := BitVec.le_toInt r
  have hNe : r.toInt ≠ -2 ^ 31 := by
    intro hEq
    exact hMin (BitVec.eq_of_toInt_eq (hEq.trans (by decide)))
  rw [BitVec.toInt_sub, show (1 : BitVec 32).toInt = 1 by decide, Int.bmod_eq_of_le (by omega) (by omega)]
  omega

theorem Ledger.reaches_frame (h : Ledger site site.regions s W) (hManaged : Managed site.regions f)
    (hUsed : f * 4096 ∉ W) (hLe : (s.refcount f).toInt ≤ 0) (hMin : s.refcount f ≠ BitVec.intMin 32) :
    Reaches s (f * 4096) 1 := by
  have hLess := Ledger.managed_lt hManaged
  have hSmall := site.small
  simp only [pageSize] at hLess
  have hFrame : f * 4096 / 4096 = f := Nat.mul_div_cancel _ (by decide)
  have hRounds : rounds (f * 4096) (countToBlockPages 1) = 1 := rounds_eq (by
    rw [show countToBlockPages 1 = 1 from rfl]
    omega)
  obtain ⟨r, hr, hLow, hHigh⟩ := hManaged
  have hFits := site.fits r hr
  have hAbove := hFits.low
  have hPage : getPage s (f * 4096) = some f := by
    rw [getPage, h.memorySize, if_neg (by omega), pageSize, hFrame]
  obtain ⟨z, hZone⟩ := h.present f ⟨r, hr, hLow, hHigh⟩
  refine ⟨⟨by omega, by decide⟩, by decide, ?_, by rw [hZone]; rfl, ?_⟩
  · rw [framesInUse_iff, pageSize, hFrame]
    intro g hFirst hLast
    have hSame : g = f := by
      rw [show countToBlockPages 1 = 1 from rfl] at hLast
      omega
    rw [hSame, h.usable]
    exact ⟨h.used_iff.mpr ⟨⟨r, hr, hLow, hHigh⟩, hUsed⟩, hFits.usable f hLow hHigh⟩
  · rw [hRounds, unrefPages, unrefPages, canFreePages, canFreePages, Bool.and_true, addressUnref, hPage]
    rw [addressCanFree, getPage]
    rw [getPage] at hPage
    simp only [hPage]
    rw [decide_eq_true_eq, Function.update_self]
    exact toInt_pred hLe hMin

end OpenXJ380.Frames
