import OpenXJ380.Frames.Release

/-! # Any calls on the frames

A run starts from the zones as boot left them. A caller may pass anything, and
writes only to frames it was handed.
-/

namespace OpenXJ380.Frames

section

open Buddy Dyadic Transition

section

variable {site : Site} {regions : List (Nat × Nat)} {s : FrameState} {W : Set Nat} {m : Memory}

theorem initZone_bounds (first last : Nat) (hFirst : first * 4096 < 2 ^ 64) (hLast : last * 4096 < 2 ^ 64) :
    zoneStart (initZone first last) = first * 4096 ∧ zoneEnd (initZone first last) = last * 4096 :=
  ⟨Nat.mod_eq_of_lt hFirst, Nat.mod_eq_of_lt hLast⟩

theorem buddyInit_zone {usable : Bitmap} {memorySize : Nat} {type : ZoneType} {z : ZoneT}
    (hZone : (buddyInit m usable memorySize).zones type = some z) :
    ∃ first last, z = initZone first last ∧ first * 4096 = lowOf type ∧ last * 4096 = highOf memorySize type := by
  simp only [buddyInit] at hZone
  cases type with
  | dma =>
    cases hZone
    refine ⟨_, _, rfl, rfl, ?_⟩
    simp only [highOf, zoneDmaEnd, pageSize]
    omega
  | dma32 =>
    simp only at hZone
    split_ifs at hZone with hLess
    cases hZone
    refine ⟨_, _, rfl, ?_, ?_⟩
    · simp only [lowOf, zoneDmaEnd, zoneDma32End, pageSize] at hLess ⊢
      omega
    · simp only [highOf, zoneDma32End, pageSize]
      omega
  | normal =>
    simp only at hZone
    split_ifs at hZone with hLess
    cases hZone
    refine ⟨_, _, rfl, ?_, rfl⟩
    simp only [lowOf, zoneDma32End, pageSize] at hLess ⊢
    omega

theorem Ledger.init (site : Site) (m : Memory) : Ledger site [] (buddyInit m site.usable site.memorySize) ∅ := by
  have hPart : ∀ type, part ∅ type = ∅ := fun type => Set.eq_empty_iff_forall_notMem.mpr fun a ha => ha.1
  have hSmall := site.small
  have hNothing : ∀ f, ¬ Managed [] f := by
    rintro f ⟨r, hr, -⟩
    cases hr
  refine ⟨rfl, rfl, rfl, ?_, ?_, fun a ha => ha.elim, fun f hf => absurd hf (hNothing f), ?_⟩
  · intro type z hz
    obtain ⟨first, last, rfl, hLow, hHigh⟩ := buddyInit_zone hz
    have hTop := highOf_le site.memorySize type
    have hOrder : lowOf type ≤ zoneDma32End := by cases type <;> decide
    simp only [pageSize, zoneDma32End] at hTop hOrder
    obtain ⟨hStart, hStop⟩ := initZone_bounds first last (by omega) (by omega)
    rw [hPart]
    exact ⟨⟨_, (@Shared.fresh m first last).stocked⟩, hStart.trans hLow, hStop.trans hHigh⟩
  · intro f hManaged
    have hLess := Ledger.managed_lt hManaged
    have hType := physToZoneType_iff.mp (rfl : physToZoneType (f * 4096) = _)
    simp only [buddyInit]
    generalize physToZoneType (f * 4096) = type at hType
    simp only [zoneDmaEnd, zoneDma32End, pageSize] at hType hLess ⊢
    cases type with
    | dma => exact ⟨_, rfl⟩
    | dma32 =>
      refine ⟨_, if_pos ?_⟩
      simp only [lowOf, zoneDmaEnd] at hType
      omega
    | normal =>
      refine ⟨_, if_pos ?_⟩
      simp only [lowOf, zoneDma32End] at hType
      omega
  · intro f hUsed
    rw [buddyInit, bitmapGet_init] at hUsed
    cases hUsed

theorem managed_append {r : Nat × Nat} (f : Nat) :
    Managed (regions ++ [r]) f ↔ Managed regions f ∨ r.1 ≤ f * 4096 ∧ f * 4096 < r.2 := by
  simp only [Managed, List.mem_append, List.mem_singleton]
  constructor
  · rintro ⟨q, hq | rfl, hf⟩
    · exact .inl ⟨q, hq, hf⟩
    · exact .inr hf
  · rintro (⟨q, hq, hf⟩ | hf)
    · exact ⟨q, .inl hq, hf⟩
    · exact ⟨r, .inr rfl, hf⟩

theorem Ledger.addRegion {r : Nat × Nat} (h : Ledger site regions s W)
    (hUnused : ∀ f, bitmapGet s.usingRegions f = false)
    (hr : r ∈ site.regions) (hDone : ∀ q ∈ regions, q ∈ site.regions)
    (hApart : ∀ q ∈ regions, Disjoint (Set.Ico q.1 q.2) (Set.Ico r.1 r.2)) :
    ∃ s', addRegion s r.1 r.2 (physToZoneType r.1) = some s' ∧ s'.usingRegions = s.usingRegions ∧
      Ledger site (regions ++ [r]) s' (W ∪ Set.Ico r.1 r.2) := by
  have hFits := site.fits r hr
  have hSmall := site.small
  obtain ⟨hLow, hLess, hStart, hStop, hHigh, -⟩ := hFits
  have hPages := hHigh.trans (highOf_le _ _)
  simp only [pageSize] at hPages
  have hType : ∀ a ∈ Set.Ico r.1 r.2, physToZoneType a = physToZoneType r.1 := fun a ha =>
    @type_of_bounds site _ _ ((physToZoneType_iff.mp rfl).1.trans ha.1) (ha.2.trans_le hHigh)
  have hManaged : Managed site.regions (r.1 / 4096) := ⟨r, hr, by omega, by omega⟩
  obtain ⟨z, hZone⟩ := h.present _ hManaged
  rw [physToZoneType_page] at hZone
  obtain ⟨⟨lists, hStocked⟩, hFirst, hLast⟩ := h.zone _ z hZone
  have hFirstLe : zoneStart z ≤ r.1 := by
    rw [hFirst]
    exact (physToZoneType_iff.mp rfl).1
  have hClip : clipRegion z r.1 r.2 = some (r.1, r.2) := by
    rw [clipRegion_eq z (by omega), if_neg (by omega), if_neg (by omega), Option.some.injEq, Prod.mk.injEq]
    constructor <;> omega
  have hWrap : NoWrap r.1 r.2 := by
    intro k _ hTop
    have hPow : 2 ^ k ≤ 2 ^ 31 := Nat.pow_le_pow_right (by decide) hTop.le
    right
    omega
  have hOther : Disjoint (Set.Ico r.1 r.2) (part W (physToZoneType r.1)) := by
    rw [Set.disjoint_left]
    intro a ha hOld
    obtain ⟨q, hq, hqLow, hqHigh⟩ := h.pages a hOld.1
    have hqStop := (site.fits q (hDone q hq)).stop
    exact Set.disjoint_left.mp (hApart q hq) (Set.mem_Ico.mpr (by omega)) ha
  obtain ⟨m', z', lists', hAdd, hAfter, hWithin⟩ := addMemoryRegion_spec hStocked hClip hWrap hOther
  have hKept : firstKept r.1 r.2 = r.1 := if_neg (by omega)
  rw [hKept] at hAfter
  refine ⟨Frames.setZone s (physToZoneType r.1) m' z' s.usingRegions, ?_, rfl, ?_⟩
  · rw [Frames.addRegion, hZone]
    simp only [hAdd]
    rfl
  apply h.setZone hZone hWithin
  · rw [part_union hType]
    exact ⟨lists', hAfter⟩
  · exact part_union_other hType
  · rfl
  · rintro a (ha | ha)
    · exact (managed_append _).mpr (.inl (h.pages a ha))
    · rw [Set.mem_Ico] at ha
      exact (managed_append _).mpr (.inr (by omega))
  · intro f hf
    have hAll : f * 4096 ∈ W ∪ Set.Ico r.1 r.2 := by
      obtain hOld | hNew := (managed_append f).mp hf
      · exact .inl ((h.clear f hOld).mp (hUnused f))
      · exact .inr hNew
    exact ⟨fun _ => hAll, fun _ => hUnused f⟩
  · intro f hUsed
    rw [hUnused] at hUsed
    cases hUsed

theorem Ledger.addRegions (rest : List (Nat × Nat)) (h : Ledger site regions s W)
    (hUnused : ∀ f, bitmapGet s.usingRegions f = false) (hAll : regions ++ rest = site.regions) :
    ∃ s' W', addRegions rest s = some s' ∧ Ledger site site.regions s' W' := by
  induction rest generalizing regions s W with
  | nil =>
    rw [List.append_nil] at hAll
    exact ⟨s, W, rfl, hAll ▸ h⟩
  | cons r rest ih =>
    have hApart := site.apart
    rw [← hAll, List.pairwise_append] at hApart
    obtain ⟨s', hAdd, hSame, hAfter⟩ := h.addRegion hUnused (r := r)
      (by rw [← hAll]; exact List.mem_append_right _ (.head _))
      (fun q hq => by rw [← hAll]; exact List.mem_append_left _ hq)
      (fun q hq => hApart.2.2 q hq r (.head _))
    obtain ⟨s'', W', hRest, hDone⟩ := ih hAfter (by rw [hSame]; exact hUnused) (by rw [List.append_assoc]; exact hAll)
    refine ⟨s'', W', ?_, hDone⟩
    rw [Frames.addRegions, hAdd]
    exact hRest

theorem boot_spec (site : Site) (m : Memory) :
    ∃ s W, addRegions site.regions (buddyInit m site.usable site.memorySize) = some s ∧ Ledger site site.regions s W :=
  (Ledger.init site m).addRegions site.regions (fun f => bitmapGet_init _ f) rfl

end

structure Tracked where
  frames : FrameState
  out : Finset Nat

inductive Call where
  | allocFrames (count : Nat)
  | allocFramesDma32 (count : Nat)
  | addressRef (addr : Nat)
  | addressUnref (addr : Nat)
  | freeFrames (addr count : Nat)
  | write (a w : Nat)

def handed (s : Tracked) (count : Nat) (r : FrameState × Nat) : Tracked :=
  ⟨r.1, if r.2 = 0 then s.out else s.out ∪ blockFrames r.2 (countToBlockPages count)⟩

def perform (s : Tracked) : Call → Option (Tracked × Nat)
  | .allocFrames count => some (handed s count (allocFrames s.frames count), (allocFrames s.frames count).2)
  | .allocFramesDma32 count =>
    some (handed s count (allocFramesDma32 s.frames count), (allocFramesDma32 s.frames count).2)
  | .addressRef addr => some ({ s with frames := addressRef s.frames addr }, 0)
  | .addressUnref addr => some ({ s with frames := addressUnref s.frames addr }, 0)
  | .freeFrames addr count =>
    (freeFrames s.frames addr count).map fun frames =>
      (⟨frames, if Reaches s.frames addr count then s.out \ blockFrames addr (countToBlockPages count) else s.out⟩, 0)
  | .write a w => some ({ s with frames := { s.frames with memory := Function.update s.frames.memory a w } }, 0)

def Permitted (site : Site) (s : Tracked) : Call → Prop
  | .write a _ => a / 4096 ∈ s.out ∨ ¬ Managed site.regions (a / 4096)
  | _ => True

/-- A release that goes through gives back a block that starts at a multiple of its size. -/
def InPlace (s : Tracked) : Call → Prop
  | .freeFrames addr count => ¬ Misplaced s.frames addr count
  | _ => True

def frameSystem (site : Site) : System Tracked Call where
  step s call t := Permitted site s call ∧ ∃ p, perform s call = some (t, p)

structure Kept (site : Site) (s : Tracked) (W : Set Nat) : Prop where
  ledger : Ledger site site.regions s.frames W
  out : ∀ f ∈ s.out, Managed site.regions f ∧ f * 4096 ∉ W

variable {site : Site} {s t : Tracked} {W : Set Nat} {m : Memory}

theorem allocFrom_spec (h : Ledger site site.regions s.frames W) (types : List ZoneType) (count : Nat) :
    allocFrom types s.frames count = (s.frames, 0) ∨
      ∃ frames addr V, allocFrom types s.frames count = (frames, addr) ∧ addr ≠ 0 ∧ V ⊆ W ∧
        Ledger site site.regions frames (W \ V) ∧
        ∀ f, f ∈ blockFrames addr (countToBlockPages count) ↔ f * 4096 ∈ V := by
  rw [allocFrom]
  split
  · exact .inl rfl
  · obtain hNone | ⟨frames, addr, hTry, hFound⟩ := tryZones_spec h count types
    · left
      rw [hNone]
      rfl
    · right
      obtain ⟨V, hInside, hAfter, hFrames⟩ := h.mark hFound
      refine ⟨_, addr, V, ?_, hFound.nonzero, hInside, hAfter, hFrames⟩
      rw [hTry]
      exact if_neg hFound.nonzero

section

variable (h : Kept site s W)

include h

theorem Kept.alloc (types : List ZoneType) (count : Nat) :
    (∃ W', Kept site (handed s count (allocFrom types s.frames count)) W') ∧ ((allocFrom types s.frames count).2 ≠ 0 →
        ∀ f ∈ blockFrames (allocFrom types s.frames count).2 (countToBlockPages count), f ∉ s.out) := by
  obtain hNone | ⟨frames, addr, V, hAlloc, hNonzero, hInside, hAfter, hFrames⟩ := allocFrom_spec h.ledger types count
  · rw [hNone]
    refine ⟨⟨W, ?_⟩, fun hNever => absurd rfl hNever⟩
    rw [handed, if_pos rfl]
    exact h
  · rw [hAlloc]
    refine ⟨⟨W \ V, ?_⟩, ?_⟩
    · rw [handed, if_neg hNonzero]
      refine ⟨hAfter, ?_⟩
      intro f hf
      obtain hOld | hNew := Finset.mem_union.mp hf
      · exact ⟨(h.out f hOld).1, fun hMem => (h.out f hOld).2 hMem.1⟩
      · have hMem := (hFrames f).mp hNew
        have hManaged := h.ledger.pages _ (hInside hMem)
        rw [Nat.mul_div_cancel _ (by decide)] at hManaged
        exact ⟨hManaged, fun hFree => hFree.2 hMem⟩
    · intro _ f hf hOld
      exact (h.out f hOld).2 (hInside ((hFrames f).mp hf))

theorem Kept.write {a w : Nat} (hPermitted : Permitted site s (.write a w)) :
    Kept site { s with frames := { s.frames with memory := Function.update s.frames.memory a w } } W := by
  refine ⟨⟨h.ledger.usable, h.ledger.memorySize, h.ledger.length, ?_, h.ledger.present, h.ledger.pages, h.ledger.clear,
    h.ledger.used⟩, h.out⟩
  intro type z hz
  obtain ⟨⟨lists, hStocked⟩, hBounds⟩ := h.ledger.zone type z hz
  refine ⟨⟨lists, hStocked.elsewhere ?_⟩, hBounds⟩
  intro b hb
  apply Function.update_of_ne
  rintro rfl
  obtain hOut | hOutside := hPermitted
  · exact (h.out _ hOut).2 (h.ledger.page hb.1)
  · exact hOutside (h.ledger.pages b hb.1)

theorem Kept.counters (refcount : Nat → BitVec 32) :
    Kept site { s with frames := { s.frames with refcount := refcount } } W :=
  ⟨h.ledger.counters refcount, h.out⟩

theorem Kept.free {addr count : Nat} (hPlaced : InPlace s (.freeFrames addr count)) :
    ∃ t p W', perform s (.freeFrames addr count) = some (t, p) ∧ Kept site t W' := by
  by_cases hReaches : Reaches s.frames addr count
  · have hAligned : 2 ^ countToOrder count ∣ addr := by
      by_contra hNot
      exact hPlaced ⟨hReaches, hNot⟩
    obtain ⟨frames, V, hFree, hAfter, hFrames⟩ := h.ledger.release hReaches hAligned
    refine ⟨⟨frames, s.out \ blockFrames addr (countToBlockPages count)⟩, 0, W ∪ V, ?_, hAfter, ?_⟩
    · rw [perform, hFree, if_pos hReaches]
      rfl
    · intro f hf
      obtain ⟨hOld, hNot⟩ := Finset.mem_sdiff.mp hf
      refine ⟨(h.out f hOld).1, ?_⟩
      rintro (hFreeBefore | hNew)
      · exact (h.out f hOld).2 hFreeBefore
      · exact hNot ((hFrames f).mpr hNew)
  · obtain ⟨refcount, hFree⟩ := freeFrames_stays hReaches
    refine ⟨⟨{ s.frames with refcount := refcount }, s.out⟩, 0, W, ?_, h.counters refcount⟩
    rw [perform, hFree, if_neg hReaches]
    rfl

theorem Kept.perform {call : Call} (hPermitted : Permitted site s call) (hPlaced : InPlace s call) :
    ∃ t p W', perform s call = some (t, p) ∧ Kept site t W' := by
  cases call with
  | allocFrames count =>
    obtain ⟨⟨W', hAfter⟩, -⟩ := h.alloc [.normal, .dma32, .dma] count
    exact ⟨_, _, W', rfl, hAfter⟩
  | allocFramesDma32 count =>
    obtain ⟨⟨W', hAfter⟩, -⟩ := h.alloc [.dma32, .dma] count
    exact ⟨_, _, W', rfl, hAfter⟩
  | addressRef addr =>
    obtain ⟨refcount, hRef⟩ := addressRef_eq s.frames addr
    refine ⟨_, _, W, rfl, ?_⟩
    rw [hRef]
    exact h.counters refcount
  | addressUnref addr =>
    obtain ⟨refcount, hUnref⟩ := addressUnref_eq s.frames addr
    refine ⟨_, _, W, rfl, ?_⟩
    rw [hUnref]
    exact h.counters refcount
  | freeFrames addr count => exact h.free hPlaced
  | write a w => exact ⟨_, _, W, rfl, h.write hPermitted⟩

end

theorem Kept.run {calls : List Call} (hRun : Run ((frameSystem site).restrict InPlace) s calls t)
    (h : ∃ W, Kept site s W) : ∃ W, Kept site t W := by
  apply hRun.invariant (I := fun s => ∃ W, Kept site s W) _ h
  rintro s call t ⟨W, hKept⟩ ⟨hPlaced, hPermitted, p, hPerform⟩
  obtain ⟨t', p', W', hPerform', hAfter⟩ := hKept.perform hPermitted hPlaced
  rw [hPerform] at hPerform'
  cases hPerform'
  exact ⟨W', hAfter⟩

end

/-! # The bitmap and the free lists

They agree as long as every release that goes through is in its place. The first
one that is not makes them disagree.
-/

open Buddy Dyadic Transition

/-- A frame of the regions is clear in the bitmap exactly when it is on a free list. -/
def Agrees (site : Site) (s : FrameState) : Prop :=
  ∀ f, Managed site.regions f → (bitmapGet s.usingRegions f = false ↔ OnFreeList s f)

/-- A frame that nothing refers to is on a free list or can still be given back by itself. -/
def NotLost (s : FrameState) (f : Nat) : Prop :=
  OnFreeList s f ∨ ∃ s', freeFrames s (f * 4096) 1 = some s' ∧ OnFreeList s' f

def HandsOutFresh (s : Tracked) (alloc : FrameState → Nat → FrameState × Nat) : Prop :=
  ∀ count, (alloc s.frames count).2 ≠ 0 →
    ∀ f ∈ blockFrames (alloc s.frames count).2 (countToBlockPages count), f ∉ s.out

section

variable {site : Site} {s : Tracked} {W : Set Nat} {frames : FrameState} {m : Memory}

section

variable (h : Ledger site site.regions frames W)

include h

theorem Ledger.agrees : Agrees site frames := by
  intro f hManaged
  rw [h.onFreeList]
  exact h.clear f hManaged

theorem Ledger.notLost {f : Nat} (hManaged : Managed site.regions f)
    (hLe : (frames.refcount f).toInt ≤ 0) (hMin : frames.refcount f ≠ BitVec.intMin 32) : NotLost frames f := by
  by_cases hMem : f * 4096 ∈ W
  · exact .inl (h.onFreeList.mpr hMem)
  · have hReaches := h.reaches_frame hManaged hMem hLe hMin
    have hAligned : 2 ^ countToOrder 1 ∣ f * 4096 := Nat.dvd_mul_left _ _
    obtain ⟨frames', V, hFree, hAfter, hFrames⟩ := h.release hReaches hAligned
    refine .inr ⟨frames', hFree, hAfter.onFreeList.mpr (.inr ((hFrames f).mp ?_))⟩
    rw [blockFrames, Finset.mem_Ico, pageSize, Nat.mul_div_cancel _ (by decide), show countToBlockPages 1 = 1 from rfl]
    omega

theorem Ledger.agrees_iff {frames' : FrameState} {addr count : Nat}
    (hFree : freeFrames frames addr count = some frames') : Agrees site frames' ↔ ¬ Misplaced frames addr count := by
  constructor
  · intro hAgrees hMisplaced
    obtain ⟨frames'', hFree', hManaged, hClear, hNot⟩ := h.misplace hMisplaced
    rw [hFree] at hFree'
    cases hFree'
    exact hNot ((hAgrees _ hManaged).mp hClear)
  · intro hPlaced
    by_cases hReaches : Reaches frames addr count
    · have hAligned : 2 ^ countToOrder count ∣ addr := by
        by_contra hNot
        exact hPlaced ⟨hReaches, hNot⟩
      obtain ⟨frames'', V, hFree', hAfter, -⟩ := h.release hReaches hAligned
      rw [hFree] at hFree'
      cases hFree'
      exact hAfter.agrees
    · obtain ⟨refcount, hFree'⟩ := freeFrames_stays hReaches
      rw [hFree] at hFree'
      cases hFree'
      exact (h.counters refcount).agrees

end

/-- After every run whose releases are in their place, and of each further release just when it is. -/
theorem frames_agree {calls : List Call}
    (hBoot : addRegions site.regions (buddyInit m site.usable site.memorySize) = some frames)
    (hRun : Run ((frameSystem site).restrict InPlace) ⟨frames, ∅⟩ calls s) :
    Agrees site s.frames ∧ HandsOutFresh s allocFrames ∧ HandsOutFresh s allocFramesDma32 ∧
      (∀ f, Managed site.regions f → (s.frames.refcount f).toInt ≤ 0 → s.frames.refcount f ≠ BitVec.intMin 32 →
        NotLost s.frames f) ∧
      (∀ call, Permitted site s call → InPlace s call → (perform s call).isSome) ∧
      ∀ addr count frames', freeFrames s.frames addr count = some frames' →
        (Agrees site frames' ↔ ¬ Misplaced s.frames addr count) := by
  obtain ⟨frames', W, hBoot', hLedger⟩ := boot_spec site m
  rw [hBoot] at hBoot'
  cases hBoot'
  obtain ⟨W', hKept⟩ := Kept.run hRun ⟨W, hLedger, fun f hf => absurd hf (Finset.notMem_empty f)⟩
  refine ⟨hKept.ledger.agrees, fun count => (hKept.alloc _ count).2, fun count => (hKept.alloc _ count).2, ?_, ?_, ?_⟩
  · exact fun f hManaged hLe hMin => hKept.ledger.notLost hManaged hLe hMin
  · intro call hPermitted hPlaced
    obtain ⟨t, p, W'', hPerform, -⟩ := hKept.perform hPermitted hPlaced
    rw [hPerform]
    rfl
  · exact fun addr count frames' hFree => hKept.ledger.agrees_iff hFree

end

theorem sampleRegion_fits : RegionFits ⟨fun _ => BitVec.allOnes 8, 512⟩ 0x110000 (0x100000, 0x110000) := by
  refine ⟨by decide, by decide, by decide, by decide, by decide, ?_⟩
  intro f hLow hHigh
  simp only at hLow hHigh
  rw [bitmapGet, if_neg (by simp only; omega), BitVec.getLsbD_allOnes, decide_eq_true (Nat.mod_lt _ (by decide))]

def sampleSite : Site where
  usable := ⟨fun _ => BitVec.allOnes 8, 512⟩
  memorySize := 0x110000
  regions := [(0x100000, 0x110000)]
  fits := List.forall_mem_singleton.mpr sampleRegion_fits
  apart := List.pairwise_singleton _ _
  small := by decide

def sampleBoot : FrameState :=
  (addRegions sampleSite.regions (buddyInit (fun _ => 0) sampleSite.usable sampleSite.memorySize)).getD
    (buddyInit (fun _ => 0) sampleSite.usable sampleSite.memorySize)

theorem sampleBoot_eq :
    addRegions sampleSite.regions (buddyInit (fun _ => 0) sampleSite.usable sampleSite.memorySize) = some sampleBoot := by
  have hSome : (addRegions sampleSite.regions
      (buddyInit (fun _ => 0) sampleSite.usable sampleSite.memorySize)).isSome := by
    decide +kernel
  obtain ⟨frames, hBoot⟩ := Option.isSome_iff_exists.mp hSome
  rw [sampleBoot, hBoot]
  rfl

def after (s : Tracked) (call : Call) : Tracked := ((perform s call).map Prod.fst).getD s

theorem step_after {s : Tracked} {call : Call} (hPermitted : Permitted sampleSite s call)
    (hSome : (perform s call).isSome) : (frameSystem sampleSite).step s call (after s call) := by
  obtain ⟨⟨t, p⟩, hPerform⟩ := Option.isSome_iff_exists.mp hSome
  refine ⟨hPermitted, p, ?_⟩
  rw [after, hPerform]
  rfl

/-- Four frames taken and given back. -/
theorem frames_agree_alloc_free :
    ∃ s : Tracked, s.out = ∅ ∧ Agrees sampleSite s.frames ∧ bitmapGet s.frames.usingRegions 256 = false := by
  have hAlloc : ((frameSystem sampleSite).restrict InPlace).step ⟨sampleBoot, ∅⟩ (.allocFrames 4)
      (after ⟨sampleBoot, ∅⟩ (.allocFrames 4)) := ⟨trivial, step_after trivial rfl⟩
  have hFree : ((frameSystem sampleSite).restrict InPlace).step (after ⟨sampleBoot, ∅⟩ (.allocFrames 4))
      (.freeFrames 0x100000 4) (after (after ⟨sampleBoot, ∅⟩ (.allocFrames 4)) (.freeFrames 0x100000 4)) :=
    ⟨fun hMisplaced => hMisplaced.2 (by decide +kernel), step_after trivial (by decide +kernel)⟩
  have hAll := frames_agree sampleBoot_eq ((Run.single hAlloc).snoc hFree)
  exact ⟨_, by decide +kernel, hAll.1, by decide +kernel⟩

theorem free_of_step {site : Site} {s t : Tracked} {addr count : Nat}
    (h : (frameSystem site).step s (.freeFrames addr count) t) : freeFrames s.frames addr count = some t.frames := by
  obtain ⟨-, p, hPerform⟩ := h
  rw [perform, Option.map_eq_some_iff] at hPerform
  obtain ⟨frames, hFree, hPair⟩ := hPerform
  cases hPair
  exact hFree

/-- Two frames from the middle of a block of four: clear in the bitmap, on no list, and not to be given back. -/
theorem misplaced_free_loses :
    ∃ s : Tracked, Run (frameSystem sampleSite) ⟨sampleBoot, ∅⟩ [.allocFrames 4, .freeFrames 0x101000 2] s ∧
      Managed sampleSite.regions 257 ∧ bitmapGet s.frames.usingRegions 257 = false ∧
      s.frames.refcount 257 = 0 ∧ ¬ OnFreeList s.frames 257 ∧ freeFrames s.frames (257 * 4096) 1 = some s.frames := by
  have hAlloc : (frameSystem sampleSite).step ⟨sampleBoot, ∅⟩ (.allocFrames 4) (after ⟨sampleBoot, ∅⟩ (.allocFrames 4)) :=
    step_after trivial rfl
  have hFree : (frameSystem sampleSite).step (after ⟨sampleBoot, ∅⟩ (.allocFrames 4)) (.freeFrames 0x101000 2)
      (after (after ⟨sampleBoot, ∅⟩ (.allocFrames 4)) (.freeFrames 0x101000 2)) :=
    step_after trivial (by decide +kernel)
  refine ⟨_, (Run.single hAlloc).snoc hFree, ⟨_, List.mem_singleton.mpr rfl, by decide, by decide⟩, by decide +kernel,
    by decide +kernel, ?_, ?_⟩
  · obtain ⟨frames, W, hBoot, hLedger⟩ := boot_spec sampleSite (fun _ => 0)
    rw [sampleBoot_eq] at hBoot
    cases hBoot
    have hFirst : ((frameSystem sampleSite).restrict InPlace).step ⟨sampleBoot, ∅⟩ (.allocFrames 4)
        (after ⟨sampleBoot, ∅⟩ (.allocFrames 4)) := ⟨trivial, hAlloc⟩
    obtain ⟨W', hKept⟩ := Kept.run (Run.single hFirst) ⟨W, hLedger, fun f hf => absurd hf (Finset.notMem_empty f)⟩
    obtain ⟨frames', hResult, -, -, hNot⟩ := @Ledger.misplace _ _ _ 0x101000 2 hKept.ledger
      ⟨by decide +kernel, by decide +kernel⟩
    have hSame := Option.some.inj ((free_of_step hFree).symm.trans hResult)
    rw [hSame]
    exact hNot
  · rw [freeFrames, if_neg (by decide), if_neg (by decide), if_pos (by decide +kernel)]

end OpenXJ380.Frames
