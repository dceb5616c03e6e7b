import OpenXJ380.Paging.Granted

/-! # What a mapping costs

The frames that pages were mapped to come back when the pages are unmapped. The
rest of the block does not.
-/

namespace OpenXJ380.Paging

open Buddy (countToBlockPages)
open Frames TableTree

variable {site : Site} {m m' : Machine} {directory : PageDirectory} {free held held' new : Set U64}
  {pcbGroupQueue : List (Option Mapper)} {a addr frame length flags : U64} {k n fuel : Nat}

theorem nothingLost_iff {B F : Set U64} (h : Funded site m free held) (hBlock : B ⊆ free) (hNew : new ⊆ free \ B)
    (hBack : F ⊆ B)
    (hAfter : Funded site m' (((free \ B) \ new) ∪ F) held') (hTables : newTables m m' directory = new) :
    NothingLost m m' directory ↔ F.ncard = B.ncard := by
  have hApart : Disjoint ((free \ B) \ new) F := Set.disjoint_left.mpr fun b hb hIn => hb.1.2 (hBack hIn)
  have hTotal := Set.ncard_sdiff_add_ncard_of_subset hBlock
  have hRest := Set.ncard_sdiff_add_ncard_of_subset hNew
  rw [NothingLost, h.counted, hAfter.counted, hTables, Set.ncard_union_eq hApart]
  omega

theorem MappedPages.newTables {m₁ m₂ : Machine} {B : Set U64} {N : Nat} (hFunded : Funded site m free held)
    (hTree : Tree m.memory directory.table free)
    (h : MappedPages site m₁ directory (free \ B) held' addr frame flags N n m₂ new) (hMemory : m₁.memory = m.memory)
    (hReached : ∀ q, q.length ≤ 3 →
        tableAt nextTable m'.memory directory.table q = tableAt nextTable m₂.memory directory.table q) :
    newTables m m' directory = new := by
  ext t
  rw [Paging.newTables, Set.mem_ofPred_eq, ← and_assoc, ← hFunded.onFreeList]
  constructor
  · rintro ⟨hFree, q, hq, hAt⟩
    rw [hReached q hq] at hAt
    refine (h.origin q t hq hAt).resolve_left fun hOld => ?_
    rw [hMemory] at hOld
    exact hTree.used q t hq hOld hFree
  · intro ht
    obtain ⟨q, hq, hAt⟩ := h.placed t ht
    exact ⟨(h.fresh ht).1, q, hq, (hReached q hq).trans hAt⟩

theorem unmapPageRange_pages (hAddr : Pages addr (pagesOf length))
    (hSome : pageAlignUp length ≠ 0) {P : Nat → Machine → Prop}
    (hStep : ∀ k m, k < pagesOf length → P k m → ∃ m', unmapPage m directory (addr + offset k) = some m' ∧ P (k + 1) m')
    (hStart : P 0 m) (hFuel : pagesOf length < fuel) :
    ∃ m', unmapPageRange m fuel directory addr length = some m' ∧ P (pagesOf length) m' := by
  obtain ⟨-, -, hCover, hNeeded⟩ := pagesOf_spec hSome
  have hFits := hAddr.fits
  have hStop : (addr + length).toNat = addr.toNat + length.toNat := by
    rw [BitVec.toNat_add]
    omega
  have hWithin : (addr + length).toNat ≤ addr.toNat + pagesOf length * 4096 := by
    rw [hStop]
    exact Nat.add_le_add_left hCover _
  have hBelow : ∀ k < pagesOf length, addr.toNat + k * 4096 < (addr + length).toNat := by
    intro k hk
    rw [hStop]
    exact Nat.add_lt_add_left (hNeeded k hk) _
  obtain ⟨m', hUnmap, hEnd⟩ := unmapFrom_pages hAddr hWithin hBelow hStep (Nat.zero_le _) hStart hFuel
  have hZero : addr + offset 0 = addr := BitVec.add_zero addr
  rw [hZero] at hUnmap
  exact ⟨m', hUnmap, hEnd⟩

theorem framesFrom_zero : framesFrom a 0 = ∅ := by
  ext b
  rw [framesFrom, Set.mem_ofPred_eq, blockFrames, add_zero, Finset.Ico_self]
  exact ⟨fun h => absurd h.2 (Finset.notMem_empty _), (absurd · (Set.notMem_empty b))⟩

theorem framesFrom_offset (h : Pages frame n) (hk : k < n) : frame + offset k ∈ framesFrom frame n := by
  have hAligned := h.aligned
  rw [framesFrom, Set.mem_ofPred_eq, h.toNat hk.le, blockFrames, Finset.mem_Ico, Buddy.pageSize]
  omega

theorem framesFrom_subset (hLe : k ≤ n) : framesFrom a k ⊆ framesFrom a n := by
  rintro b ⟨hB, hIn⟩
  have hBounds := Finset.mem_Ico.mp hIn
  exact ⟨hB, Finset.mem_Ico.mpr ⟨hBounds.1, by omega⟩⟩

theorem MappedPages.unmapped (hSome : pageAlignUp length ≠ 0) (hFuel : pagesOf length < fuel)
    (hAddr : Pages addr (pagesOf length)) (hFrames : Pages frame (pagesOf length)) (hFunded : Funded site m free held)
    (hHeld : framesFrom frame (pagesOf length) ⊆ held) (hPlain : flags &&& pteAddrMask = 0) (hPresent : isPresent flags)
    (h : MappedPages site m directory free held addr frame flags (pagesOf length) (pagesOf length) m' new) :
    ∃ m'', unmapPageRange m' fuel directory addr length = some m'' ∧
      UnmappedPages site m' directory (free \ new) (held ∪ new) addr frame flags (pagesOf length)
          (pagesOf length) m'' := by
  refine unmapPageRange_pages hAddr hSome ?_ ?_ hFuel
  · intro k m'' hk hBefore
    have hIn := hHeld (framesFrom_offset hFrames hk)
    exact unmapPages_step hAddr hFrames hk (hFunded.held_address hIn) hPlain hPresent (.inl hIn) (h.tables k hk) hBefore
  · refine ⟨h.tree, ?_, fun _ _ => rfl, fun i _ hi => h.values i hi⟩
    rw [framesFrom_zero, Set.union_empty, Set.sdiff_empty]
    exact h.funded

theorem MappedPages.passed (hSome : pageAlignUp length ≠ 0) (hFuel : pagesOf length < fuel)
    (hAddr : Pages addr (pagesOf length)) (hFrames : Pages frame (pagesOf length)) (hFunded : Funded site m free held)
    (hHeld : framesFrom frame (pagesOf length) ⊆ held) (hAbsent : ¬ isPresent flags)
    (h : MappedPages site m directory free held addr frame flags (pagesOf length) (pagesOf length) m' new) :
    unmapPageRange m' fuel directory addr length = some m' := by
  have hStep : ∀ k s, k < pagesOf length → s = m' →
      ∃ s', unmapPage s directory (addr + offset k) = some s' ∧ s' = m' := by
    rintro k s hk rfl
    obtain ⟨t, hAt⟩ := h.tables k hk
    have hAddress := hFunded.held_address (hHeld (framesFrom_offset hFrames hk))
    have hEntry := h.values k hk
    rw [pageEntryValue_at hAt] at hEntry
    refine ⟨s, ?_, rfl⟩
    rw [unmapPage_eq, hAt]
    change unmapEntry s t (l1Index (addr + offset k)) = some s
    rw [unmapEntry, hEntry, pageValue_present hAddress, Bool.eq_false_iff.mpr hAbsent]
    rfl
  obtain ⟨m'', hUnmap, hSame⟩ := unmapPageRange_pages (P := fun _ s => s = m') hAddr hSome hStep rfl hFuel
  rw [hUnmap, hSame]

theorem Ready.returned (h : Ready site m directory flags free held) (hFuel : userBrkStart.toNat < fuel)
    (hTables : TablesSuffice m pcbGroupQueue fuel directory length flags)
    (hRefused : ¬ Refused m pcbGroupQueue directory length flags) :
    ∃ m', mapAndUnmap m pcbGroupQueue fuel directory length flags = some m' ∧ (NothingLost m m' directory ↔
        (if isPresent flags then pagesOf length else 0) = countToBlockPages (pagesOf length)) := by
  have hSome : pageAlignUp length ≠ 0 := fun hZero => hRefused (.inl hZero)
  obtain ⟨hAligned, hPositive, -⟩ := pagesOf_spec hSome
  obtain ⟨frame, addr, queue', hGranted, hCall⟩ := h.granted hFuel hRefused
  obtain ⟨hLe, -⟩ := countToBlockPages_spec hPositive (by omega)
  have hTaken := hGranted.taken
  have hFew : pagesOf length < fuel := by
    have hBrk : 2 ^ 20 ≤ userBrkStart.toNat := by decide
    exact (Nat.le_trans hGranted.frames.few hBrk).trans_lt hFuel
  have hEnough := hTables _ _ _ hCall hGranted.nonzero
  have hFunded := hTaken.funded { m with frames := (allocFrames m.frames (pagesOf length)).1 } rfl
  have hTree : Tree m.memory directory.table (free \ framesFrom frame (countToBlockPages (pagesOf length))) :=
    ⟨h.tree.distinct, fun q t hq hAt hIn => h.tree.used q t hq hAt hIn.1⟩
  obtain ⟨new, hMapped⟩ := mapFrames_mapped hGranted.addresses hFunded hTree
    (fun i hi => h.sane _ (hGranted.inArea i hi)) le_rfl hEnough
  have hHeld : framesFrom frame (pagesOf length) ⊆ held ∪ framesFrom frame (countToBlockPages (pagesOf length)) :=
    fun b hb => .inr (framesFrom_subset hLe hb)
  have hWhole : (framesFrom frame (countToBlockPages (pagesOf length))).ncard = countToBlockPages (pagesOf length) := by
    have hInside := hTaken.inside
    have hPhysical := h.funded.physical
    rw [addressLimit] at hPhysical
    exact framesFrom_count hGranted.frames.aligned (by omega)
  have hMapped' : (framesFrom frame (pagesOf length)).ncard = pagesOf length :=
    framesFrom_count hGranted.frames.aligned hGranted.frames.fits.le
  rw [mapAndUnmap, hCall]
  simp only [Option.bind_eq_bind, Option.bind_some, if_neg hGranted.nonzero]
  by_cases hPresent : isPresent flags
  · obtain ⟨m', hUnmap, hAfter⟩ :=
    hMapped.unmapped hSome hFew hGranted.addresses hGranted.frames hFunded hHeld h.plain hPresent
    refine ⟨m', hUnmap, ?_⟩
    rw [nothingLost_iff h.funded hTaken.wasFree hMapped.fresh (framesFrom_subset hLe) hAfter.funded
      (hMapped.newTables h.funded h.tree rfl hAfter.reached), hMapped', hWhole, if_pos hPresent]
  · refine ⟨_, hMapped.passed hSome hFew hGranted.addresses hGranted.frames hFunded hHeld hPresent, ?_⟩
    have hAfter := hMapped.funded
    rw [← Set.union_empty ((free \ _) \ new)] at hAfter
    rw [nothingLost_iff h.funded hTaken.wasFree hMapped.fresh (Set.empty_subset _) hAfter
      (hMapped.newTables h.funded h.tree rfl fun _ _ => rfl), Set.ncard_empty, hWhole, if_neg hPresent]

/-- Nothing is lost of a block that the pages fill, if they are present. -/
theorem mapAndUnmap_nothingLost (h : Ready site m directory flags free held) (hFuel : userBrkStart.toNat < fuel)
    (hTables : TablesSuffice m pcbGroupQueue fuel directory length flags) :
    ∃ m', mapAndUnmap m pcbGroupQueue fuel directory length flags = some m' ∧
      (NothingLost m m' directory ↔ Refused m pcbGroupQueue directory length flags ∨
        ((∃ k, pagesOf length = 2 ^ k) ∧ isPresent flags = true)) := by
  by_cases hRefused : Refused m pcbGroupQueue directory length flags
  · obtain ⟨m', hCall, hFunded, hMemory⟩ := h.refused hFuel hRefused
    refine ⟨m', ?_, iff_of_true ?_ (.inl hRefused)⟩
    · rw [mapAndUnmap, hCall]
      rfl
    · have hNone : newTables m m' directory = ∅ := by
        refine Set.eq_empty_of_forall_notMem ?_
        rintro t ⟨hAligned, hOn, q, hq, hAt⟩
        rw [hMemory] at hAt
        exact h.tree.used q t hq hAt (h.funded.onFreeList.mpr ⟨hAligned, hOn⟩)
      rw [NothingLost, h.funded.counted, hFunded.counted, hNone, Set.ncard_empty, Nat.add_zero]
  · obtain ⟨m', hCall, hCount⟩ := h.returned hFuel hTables hRefused
    refine ⟨m', hCall, hCount.trans ?_⟩
    rw [or_iff_right hRefused]
    obtain ⟨hAligned, hPositive, -⟩ := pagesOf_spec fun hZero => hRefused (.inl hZero)
    have hLess := (pageAlignUp length).isLt
    obtain ⟨hLe, hFull⟩ := countToBlockPages_spec hPositive (by omega)
    by_cases hPresent : isPresent flags = true
    · rw [if_pos hPresent, eq_comm, hFull]
      exact (and_iff_left hPresent).symm
    · rw [if_neg hPresent]
      exact iff_of_false (by omega) fun hBoth => hPresent hBoth.2

def emptyMachine : Machine := { memory := noTables, frames := sampleBoot, exhausted := false }

def emptyDirectory : PageDirectory := { self := 0, table := 0x1000 }

def userFlags : U64 := ptePresent ||| pteWriteable ||| pteUser

theorem emptyMachine_ready : ∃ free, Ready sampleSite emptyMachine emptyDirectory userFlags free ∅ := by
  obtain ⟨free, hFunded, hManaged⟩ := @boot_funded sampleSite emptyMachine (fun _ => 0) (by decide) sampleBoot_eq
  refine ⟨free, hFunded, empty_tree ?_, fun _ _ _ _ _ _ _ => .inl rfl, by decide⟩
  intro hFree
  obtain ⟨r, hMem, hLow, -⟩ := hManaged _ hFree
  obtain rfl := List.mem_singleton.mp hMem
  exact absurd hLow (by decide)

theorem emptyMachine_search (hFuel : 0 < fuel) :
    searchTwice noTables [] fuel emptyDirectory 0x3000 = some userMmapStart := by
  obtain ⟨n, rfl⟩ := Nat.exists_eq_succ_of_ne_zero hFuel.ne'
  have hNone : nextCandidate noTables emptyDirectory none 0x3000 userMmapStart = none := by decide +kernel
  have hFirst : findFreeUserRange noTables (owners []) (n + 1) (some emptyDirectory) userMmapStart 0x3000 =
      some userMmapStart := by
    have hAligned : pageAlignUp 0x3000 = 0x3000 := by decide
    have hCandidate :
        (if userMmapStart < userMmapStart then userMmapStart else userMmapStart &&& pageMask) = userMmapStart := by
      decide
    have hOwner : findProcessByPagedir (owners []) emptyDirectory = none := rfl
    rw [findFreeUserRange, if_neg (by decide)]
    simp only [hAligned, hCandidate, hOwner]
    rw [if_neg (by decide), searchFrom, if_pos (by decide), hNone]
  have hStart : searchStart (findMapper [] emptyDirectory) = userMmapStart := rfl
  rw [searchTwice, hStart]
  simp only [hFirst, Option.bind_eq_bind, Option.bind_some]
  exact if_neg fun hBoth => hBoth.2 rfl

theorem emptyMachine_call (hFuel : 0 < fuel) : pageAllocRandom emptyMachine [] fuel emptyDirectory 0x3000 userFlags =
      some (mapFrames { emptyMachine with frames := (allocFrames sampleBoot 3).1 } emptyDirectory userMmapStart 0x100000
        userFlags 3, [], userMmapStart) := by
  have hPages : pagesOf 0x3000 = 3 := by decide
  have hFrames : emptyMachine.frames = sampleBoot := rfl
  have hFrame : (allocFrames sampleBoot 3).2 = (0x100000 : U64).toNat := by decide +kernel
  have hBlock : allocFrames emptyMachine.frames (pagesOf 0x3000) =
      ((allocFrames sampleBoot 3).1, (0x100000 : U64).toNat) := by
    rw [hPages, hFrames, ← hFrame]
  rw [pageAllocRandom_block (by decide) hBlock (by decide), if_pos (by decide)]
  have hAligned : pageAlignUp 0x3000 = 0x3000 := by decide
  have hSearch : searchTwice emptyMachine.memory [] fuel emptyDirectory (pageAlignUp 0x3000) = some userMmapStart := by
    rw [hAligned]
    exact emptyMachine_search hFuel
  simp only [hSearch, Option.bind_eq_bind, Option.bind_some, hPages]
  exact if_neg (by decide)

theorem emptyMachine_tables (hFuel : 0 < fuel) :
    TablesSuffice emptyMachine [] fuel emptyDirectory 0x3000 userFlags := by
  intro m' queue' addr hCall _
  rw [emptyMachine_call hFuel, Option.some.injEq, Prod.mk.injEq] at hCall
  rw [← hCall.1]
  decide +kernel

/-- Three pages. -/
theorem mapAndUnmap_nothingLost_three :
    ∃ m', mapAndUnmap emptyMachine [] (2 ^ 48) emptyDirectory 0x3000 userFlags = some m' ∧
    (NothingLost emptyMachine m' emptyDirectory ↔ Refused emptyMachine [] emptyDirectory 0x3000 userFlags ∨
      ((∃ k, pagesOf 0x3000 = 2 ^ k) ∧ isPresent userFlags = true)) := by
  obtain ⟨free, hReady⟩ := emptyMachine_ready
  exact mapAndUnmap_nothingLost hReady (by decide) (emptyMachine_tables (by decide))

/-- The fourth frame of the block of three pages is lost. -/
theorem mapAndUnmap_loses :
    ¬ ∀ (site : Site) (m : Machine) (pcbGroupQueue : List (Option Mapper)) (fuel : Nat) (directory : PageDirectory)
        (length flags : U64) (free held : Set U64), Ready site m directory flags free held → userBrkStart.toNat < fuel →
          TablesSuffice m pcbGroupQueue fuel directory length flags →
            ∀ m', mapAndUnmap m pcbGroupQueue fuel directory length flags = some m' → NothingLost m m' directory := by
  intro hAlways
  obtain ⟨free, hReady⟩ := emptyMachine_ready
  have hFuel : userBrkStart.toNat < 2 ^ 48 := by decide
  have hTables := @emptyMachine_tables (2 ^ 48) (by decide)
  have hGranted : ¬ Refused emptyMachine [] emptyDirectory 0x3000 userFlags := by
    intro hRefused
    obtain ⟨m', hCall, -⟩ := hReady.refused hFuel hRefused
    rw [emptyMachine_call (by decide), Option.some.injEq, Prod.mk.injEq, Prod.mk.injEq] at hCall
    exact absurd hCall.2.2 (by decide)
  obtain ⟨m', hCall, hCount⟩ := hReady.returned hFuel hTables hGranted
  exact absurd (hCount.mp (hAlways _ _ _ _ _ _ _ _ _ hReady hFuel hTables m' hCall)) (by decide)

end OpenXJ380.Paging
