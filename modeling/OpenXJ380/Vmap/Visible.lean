import OpenXJ380.Vmap.Mapping

/-! # When a successful mapping is visible

A page mapped under a fault entry goes to a table that no first-level entry
refers to. Under a section or a page table the mapping shows up at its own page,
and at another one only through a table that is shared.
-/

namespace OpenXJ380.Vmap

open Function

open Mmu

variable {v : VmapT} {va : U32} {l2 : Nat}

theorem vmapLookup_congr {v' : VmapT} (hInited : v'.inited = v.inited) (hRange : inRange v' va = inRange v va)
    (hEntry : v'.l1 (vmapL1Index va) = v.l1 (vmapL1Index va)) (hPool : ∀ pa, l2FromPa v' pa = l2FromPa v pa)
    (hWord : inRange v va → ∀ l2, v.table (vmapL1Index va) = some l2 →
      v'.l2Pool (l2 + (vmapL2Index va).toNat) = v.l2Pool (l2 + (vmapL2Index va).toNat)) :
    vmapLookup v' va = vmapLookup v va := by
  simp only [vmapLookup, hInited, hRange, hEntry, hPool]
  split_ifs with hOutside hFault hSection hOther
  · rfl
  · rfl
  · rfl
  · rfl
  · cases hTable : l2FromPa v (v.l1 (vmapL1Index va) &&& ~~~0x3FF) with
    | none => rfl
    | some l2 =>
      apply hWord
      · simpa using (not_or.mp hOutside).2
      · rw [VmapT.table, if_pos (not_not.mp hOther), hTable]

theorem mapped_lookup_self (h : Accepted v va)
    (hTable : v.table (vmapL1Index va) = some l2) (pa : U32) (attr : VmapAttr) :
    vmapLookup (v.mapped l2 va pa attr) va = mmuSmallPageDescriptor pa (pageAttrOf attr) := by
  rw [vmapLookup_table (by exact h.inited) (by exact h.range) (by exact hTable)]
  simp only [VmapT.mapped, VmapT.write, update_self]

theorem mapped_lookup_other {other : U32} (pa : U32) (attr : VmapAttr)
    (hWord : inRange v other → ∀ l2', v.table (vmapL1Index other) = some l2' →
      l2' + (vmapL2Index other).toNat ≠ l2 + (vmapL2Index va).toNat) :
    vmapLookup (v.mapped l2 va pa attr) other = vmapLookup v other := by
  apply vmapLookup_congr
  · rfl
  · rfl
  · rfl
  · exact fun _ => rfl
  · intro hRange l2' hTable
    exact update_of_ne (hWord hRange l2' hTable) _ _

def VmapT.EntriesInPool (v : VmapT) : Prop :=
  ∀ i, l1Type (v.l1 i) = mmuL1TypeFault ∨ l1Type (v.l1 i) = mmuL1TypeSection ∨
    ∃ k, v.table i = some (vmapL2Entries * k)

/-- If the call succeeds, its page shows the mapping and no other page changes. -/
def MapShows (v : VmapT) (va pa : U32) (attr : VmapAttr) : Prop :=
  (vmapMap v va pa (some attr)).2 = .ok →
    vmapLookup (vmapMap v va pa (some attr)).1 va = mmuSmallPageDescriptor pa (pageAttrOf attr) ∧
    ∀ other : U32, other >>> 12 ≠ va >>> 12 → vmapLookup v other ≠ vmapResultSection →
      vmapLookup (vmapMap v va pa (some attr)).1 other = vmapLookup v other

/-- No other page in range is looked up through the word of `va`. -/
def Unshared (v : VmapT) (va : U32) (l2 : Nat) : Prop :=
  ∀ other, inRange v other = true → vmapL1Index other ≠ vmapL1Index va →
    vmapL2Index other = vmapL2Index va → v.table (vmapL1Index other) ≠ some l2

/-- No other section in range refers to the next table already, unless its word there is the
one the call writes. -/
def FreshOrSame (v : VmapT) (va pa : U32) (attr : VmapAttr) : Prop :=
  ∀ other, inRange v other = true → vmapL1Index other ≠ vmapL1Index va →
    v.table (vmapL1Index other) = some (freshTable v) →
    v.l2Pool (freshTable v + (vmapL2Index other).toNat) = vmapResultSection ∨
    v.l2Pool (freshTable v + (vmapL2Index other).toNat) =
      if vmapL2Index other = vmapL2Index va then mmuSmallPageDescriptor pa (pageAttrOf attr)
      else v.splitWord va (vmapL2Index other).toNat

structure ShowsWhen (v : VmapT) (va pa : U32) (attr : VmapAttr) : Prop where
  fault : l1Type (v.l1 (vmapL1Index va)) = mmuL1TypeFault → v.l2Used ≥ v.l2Capacity
  pageTable : ∀ l2, v.table (vmapL1Index va) = some l2 →
    v.l2Pool (l2 + (vmapL2Index va).toNat) = 0 → Unshared v va l2
  split : l1Type (v.l1 (vmapL1Index va)) = mmuL1TypeSection → v.l2Used < v.l2Capacity →
    v.freshEntry &&& (vmapL2Align - 1) = 0 → l2FromPa v v.freshEntry ≠ none →
    FreshOrSame v va pa attr

theorem EntriesInPool.aligned (h : v.EntriesInPool) {i : BitVec 12}
    (hTable : v.table i = some l2) : l2 % vmapL2Entries = 0 := by
  have hKind := table_kind hTable
  obtain hFault | hSection | ⟨k, hk⟩ := h i
  · rw [hFault] at hKind
    cases hKind
  · rw [hSection] at hKind
    cases hKind
  · rw [hTable] at hk
    rw [Option.some.inj hk, Nat.mul_mod_right]

theorem freshTable_aligned (v : VmapT) : freshTable v % vmapL2Entries = 0 := by
  simp only [freshTable, vmapL2Entries]
  omega

theorem word_eq {l2' : Nat} {j j' : BitVec 8} (hAligned : l2 % vmapL2Entries = 0)
    (hAligned' : l2' % vmapL2Entries = 0) (hWord : l2' + j'.toNat = l2 + j.toNat) : l2' = l2 ∧ j' = j := by
  simp only [vmapL2Entries] at hAligned hAligned'
  refine ⟨by omega, ?_⟩
  apply BitVec.eq_of_toNat_eq
  omega

section

variable {v : VmapT} {va pa : U32}

theorem shows_of_fault (h : Accepted v va) (hPa : pa &&& (vmapPageSize - 1) = 0) (attr : VmapAttr)
    (hKind : l1Type (v.l1 (vmapL1Index va)) = mmuL1TypeFault) : MapShows v va pa attr ↔ v.l2Used ≥ v.l2Capacity := by
  have hNotTable : l1Type (v.l1 (vmapL1Index va)) ≠ mmuL1TypePageTable := by
    rw [hKind]
    decide
  have hNotSection : l1Type (v.l1 (vmapL1Index va)) ≠ mmuL1TypeSection := by
    rw [hKind]
    decide
  rw [MapShows, vmapMap_unlinked h hPa attr hNotTable hNotSection]
  constructor
  · intro hShows
    by_contra hRoom
    rw [if_neg hRoom] at hShows
    have hSelf := (hShows rfl).1
    rw [vmapLookup_eq (by exact h.inited) (by exact h.range) (by exact hNotSection), mapped_table,
      VmapT.table, if_neg (by exact hNotTable)] at hSelf
    exact smallPageDescriptor_ne_zero pa attr hSelf.symm
  · intro hFull hOk
    rw [if_pos hFull] at hOk
    cases hOk

theorem shows_of_table (h : Accepted v va) (hEntries : v.EntriesInPool)
    (hPa : pa &&& (vmapPageSize - 1) = 0) (attr : VmapAttr)
    (hKind : l1Type (v.l1 (vmapL1Index va)) = mmuL1TypePageTable) :
    MapShows v va pa attr ↔ ∀ l2, v.table (vmapL1Index va) = some l2 →
      v.l2Pool (l2 + (vmapL2Index va).toNat) = 0 → Unshared v va l2 := by
  rw [MapShows, vmapMap_table h hPa attr hKind]
  cases hTable : v.table (vmapL1Index va) with
  | none => simp
  | some l2 =>
    simp only [Option.some.injEq, forall_eq']
    constructor
    · intro hShows hZero other hOther hFirst hSecond hSame
      rw [if_neg (by simp [hZero])] at hShows
      have hPage : other >>> 12 ≠ va >>> 12 := by
        rw [Ne, page_eq_iff]
        exact fun hEq => hFirst hEq.1
      have hBefore : vmapLookup v other = 0 := by
        rw [vmapLookup_table h.inited hOther hSame, hSecond]
        exact hZero
      have hAfter := (hShows rfl).2 other hPage (by rw [hBefore]; decide)
      rw [hBefore, vmapLookup_table (by exact h.inited) (by exact hOther) (by exact hSame), hSecond] at hAfter
      simp only [VmapT.mapped, VmapT.write, update_self] at hAfter
      exact smallPageDescriptor_ne_zero pa attr hAfter
    · intro hUnshared hOk
      split at hOk
      · cases hOk
      · rename_i hWord
        rw [if_neg hWord]
        refine ⟨mapped_lookup_self h hTable pa attr, ?_⟩
        intro other hPage hNotSection
        apply mapped_lookup_other
        intro hRange l2' hOther hSame
        obtain ⟨rfl, hSecond⟩ := word_eq (EntriesInPool.aligned hEntries hTable)
          (EntriesInPool.aligned hEntries hOther) hSame
        have hFirst : vmapL1Index other ≠ vmapL1Index va := by
          intro hFirst
          exact hPage ((page_eq_iff va other).mpr ⟨hFirst, hSecond⟩)
        have hBefore := vmapLookup_table h.inited hRange hOther
        rw [hBefore, hSecond] at hNotSection
        have hZero : v.l2Pool (l2' + (vmapL2Index va).toNat) = 0 := by
          by_contra hNonzero
          exact hWord ⟨hNonzero, hNotSection⟩
        exact hUnshared hZero other hRange hFirst hSecond hOther

theorem splitMapped_word (attr : VmapAttr) (page : BitVec 8) :
    ((v.splitted va).mapped (freshTable v) va pa attr).l2Pool (freshTable v + page.toNat) =
      if page = vmapL2Index va then mmuSmallPageDescriptor pa (pageAttrOf attr) else v.splitWord va page.toNat := by
  simp only [VmapT.mapped, VmapT.write]
  obtain rfl | hNe := eq_or_ne page (vmapL2Index va)
  · rw [update_self, if_pos rfl]
  · have hWord : freshTable v + page.toNat ≠ freshTable v + (vmapL2Index va).toNat := by
      intro hEq
      exact hNe (BitVec.eq_of_toNat_eq (Nat.add_left_cancel hEq))
    rw [update_of_ne hWord, if_neg hNe]
    have hPage : page.toNat < vmapL2Entries := page.isLt
    rw [splitted_l2Pool, splitPool_inside va hPage]

theorem splitMapped_outside (attr : VmapAttr) {w : Nat}
    (hOutside : ¬ (freshTable v ≤ w ∧ w < freshTable v + vmapL2Entries)) :
    ((v.splitted va).mapped (freshTable v) va pa attr).l2Pool w = v.l2Pool w := by
  have hPage := (vmapL2Index va).isLt
  have hWord : w ≠ freshTable v + (vmapL2Index va).toNat := by
    rintro rfl
    exact hOutside ⟨Nat.le_add_right _ _, Nat.add_lt_add_left hPage (freshTable v)⟩
  simp only [VmapT.mapped, VmapT.write]
  rw [update_of_ne hWord, splitted_l2Pool, splitPool_outside va hOutside]

theorem shows_of_section (h : Accepted v va) (hEntries : v.EntriesInPool)
    (hPa : pa &&& (vmapPageSize - 1) = 0) (attr : VmapAttr)
    (hKind : l1Type (v.l1 (vmapL1Index va)) = mmuL1TypeSection) :
    MapShows v va pa attr ↔ (v.l2Used < v.l2Capacity → v.freshEntry &&& (vmapL2Align - 1) = 0 →
      l2FromPa v v.freshEntry ≠ none → FreshOrSame v va pa attr) := by
  rw [MapShows, vmapMap_section h hPa attr hKind]
  obtain hRoom | hFull := lt_or_ge v.l2Used.toNat v.l2Capacity.toNat
  swap
  · have hFull' : v.l2Used ≥ v.l2Capacity := hFull
    have hNot : ¬ v.l2Used < v.l2Capacity := BitVec.not_lt.mpr hFull'
    simp [hFull', hNot]
  rw [if_neg (BitVec.not_le.mpr hRoom)]
  obtain hAligned | hMisaligned := eq_or_ne (v.freshEntry &&& (vmapL2Align - 1)) 0
  swap
  · rw [if_pos hMisaligned]
    constructor
    · intro _ _ hAligned
      exact absurd hAligned hMisaligned
    · intro _ hOk
      cases hOk
  rw [if_neg (not_not.mpr hAligned)]
  cases hPool : l2FromPa v v.freshEntry with
  | none => simp
  | some l2 =>
    have hFresh := l2FromPa_freshEntry hPool
    subst hFresh
    have hTable : (v.splitted va).table (vmapL1Index va) = some (freshTable v) := by
      rw [splitted_table_self hAligned, hPool]
    constructor
    · intro hShows _ _ _ other hOther hFirst hSame
      rcases eq_or_ne (v.l2Pool (freshTable v + (vmapL2Index other).toNat)) vmapResultSection with
        hOne | hNotOne
      · exact .inl hOne
      · right
        have hPage : other >>> 12 ≠ va >>> 12 := by
          rw [Ne, page_eq_iff]
          exact fun hEq => hFirst hEq.1
        have hBefore := vmapLookup_table h.inited hOther hSame
        have hAfter := (hShows rfl).2 other hPage (by rw [hBefore]; exact hNotOne)
        rw [hBefore, vmapLookup_table (by exact h.inited) (by exact hOther)
          (by rw [mapped_table, splitted_table_other hFirst]; exact hSame), splitMapped_word] at hAfter
        exact hAfter.symm
    · intro hWhen _
      refine ⟨mapped_lookup_self h.splitted hTable pa attr, ?_⟩
      intro other hPage hNotSection
      cases hRange : inRange v other with
      | false => rw [vmapLookup_outside hRange, vmapLookup_outside (by exact hRange)]
      | true =>
        have hFirst : vmapL1Index other ≠ vmapL1Index va := by
          intro hFirst
          rw [← hFirst] at hKind
          exact hNotSection (vmapLookup_section h.inited hRange hKind)
        apply vmapLookup_congr
        · rfl
        · rfl
        · exact update_of_ne hFirst _ _
        · exact fun _ => rfl
        · intro _ l2' hOther
          obtain rfl | hElsewhere := eq_or_ne l2' (freshTable v)
          · rw [splitMapped_word]
            rw [vmapLookup_table h.inited hRange hOther] at hNotSection
            obtain hOne | hSame := hWhen hRoom hAligned (by simp) other hRange hFirst hOther
            · exact absurd hOne hNotSection
            · exact hSame.symm
          · apply splitMapped_outside
            rintro ⟨hLow, hHigh⟩
            have hMultiple := EntriesInPool.aligned hEntries hOther
            have hFreshMultiple := freshTable_aligned v
            simp only [vmapL2Entries] at hMultiple hFreshMultiple hHigh
            omega

/-- A successful mapping shows up, and nothing else changes, exactly under these conditions. -/
theorem map_shows_iff (h : Accepted v va) (hEntries : v.EntriesInPool)
    (hPa : pa &&& (vmapPageSize - 1) = 0) (attr : VmapAttr) :
    MapShows v va pa attr ↔ ShowsWhen v va pa attr := by
  rcases hEntries (vmapL1Index va) with hFault | hSection | ⟨k, hTable⟩
  · rw [shows_of_fault h hPa attr hFault]
    constructor
    · intro hFull
      refine ⟨fun _ => hFull, ?_, ?_⟩
      · intro l2 hTable
        rw [table_kind hTable] at hFault
        cases hFault
      · intro hSection
        rw [hFault] at hSection
        cases hSection
    · intro hWhen
      exact hWhen.fault hFault
  · rw [shows_of_section h hEntries hPa attr hSection]
    constructor
    · intro hSplit
      refine ⟨?_, ?_, fun _ => hSplit⟩
      · intro hFault
        rw [hFault] at hSection
        cases hSection
      · intro l2 hTable
        rw [table_kind hTable] at hSection
        cases hSection
    · intro hWhen
      exact hWhen.split hSection
  · rw [shows_of_table h hEntries hPa attr (table_kind hTable)]
    constructor
    · intro hUnshared
      refine ⟨?_, hUnshared, ?_⟩
      · intro hFault
        rw [table_kind hTable] at hFault
        cases hFault
      · intro hSection
        rw [table_kind hTable] at hSection
        cases hSection
    · intro hWhen
      exact hWhen.pageTable

end

/-! Two tables of sections: one with identity sections, one with faults only. -/

def samplePool : L2Pool := { address := 0x10000, words := fun _ => 0 }

def sampleSections (i : BitVec 12) : U32 :=
  mmuSectionDescriptor (i.setWidth 32 <<< 20) (sectionAttrOf vmapAttrNormal)

def sampleVmap (l1 : BitVec 12 → U32) : VmapT :=
  { l1 := l1, l2Pool := samplePool.words, l2PoolPa := 0x20000000, l2Capacity := 4, l2Used := 0
    vaBegin := 0x40000000, vaEnd := 0x40400000, statSplit := 0, statMap := 0, statUnmap := 0
    inited := true }

theorem sampleSections_type (i : BitVec 12) : l1Type (sampleSections i) = mmuL1TypeSection := by
  rw [section_iff, sampleSections, mmuSectionDescriptor, sectionAttrOf]
  simp only [BitVec.getLsbD_or, BitVec.getLsbD_and]
  rw [mmuL1SectionAttr_bit _ _ _ _ _ _ _ 1 (by decide), mmuL1SectionAttr_bit _ _ _ _ _ _ _ 0 (by decide)]
  simp [mmuSectionMask]

theorem map_in_section_shows :
    vmapInit (some sampleSections) (some samplePool) 0x20000000 4 0x40000000 0x40400000 =
      .ok (sampleVmap sampleSections) ∧
    MapShows (sampleVmap sampleSections) 0x40008000 0x80000000 vmapAttrNormal := by
  refine ⟨by rfl, ?_⟩
  have hEntries : (sampleVmap sampleSections).EntriesInPool := fun i => .inr (.inl (sampleSections_type i))
  rw [map_shows_iff ⟨by decide, by decide, by decide⟩ hEntries (by decide)]
  refine ⟨?_, ?_, ?_⟩
  · intro hFault
    exact absurd ((sampleSections_type _).symm.trans hFault) (by decide)
  · intro l2 hTable
    exact absurd ((sampleSections_type _).symm.trans (table_kind hTable)) (by decide)
  · intro _ _ _ _ other _ _ hTable
    exact absurd ((sampleSections_type _).symm.trans (table_kind hTable)) (by decide)

theorem map_under_fault_lost :
    vmapInit (some fun _ => 0) (some samplePool) 0x20000000 4 0x40000000 0x40400000 =
      .ok (sampleVmap fun _ => 0) ∧
    (vmapMap (sampleVmap fun _ => 0) 0x40000000 0x80000000 (some vmapAttrNormal)).2 = .ok ∧
    vmapLookup (vmapMap (sampleVmap fun _ => 0) 0x40000000 0x80000000 (some vmapAttrNormal)).1
      0x40000000 = 0 ∧
    ¬ MapShows (sampleVmap fun _ => 0) 0x40000000 0x80000000 vmapAttrNormal := by
  refine ⟨by rfl, by decide, by decide, ?_⟩
  intro hShows
  have hSelf := (hShows (by decide)).1
  revert hSelf
  decide

end OpenXJ380.Vmap
