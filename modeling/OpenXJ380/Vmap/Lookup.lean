import OpenXJ380.Vmap.Model

/-! # What the mapping operations read and write

The first-level entry of an address is a section, a page table of the pool, or
neither. Every operation is described by the tables it finds and the words it
changes.
-/

namespace OpenXJ380.Vmap

open BitVec (eq_of_getLsbD_eq getLsbD_and getLsbD_not getLsbD_or getLsbD_setWidth getLsbD_shiftLeft
  getLsbD_ushiftRight ofNat ofNat_toNat)

section

open Mmu

theorem l1Type_eq_iff (desc kind : U32) (hKind : kind &&& 3 = kind) :
    l1Type desc = kind ↔ desc.getLsbD 1 = kind.getLsbD 1 ∧ desc.getLsbD 0 = kind.getLsbD 0 := by
  rw [← hKind, l1Type]
  constructor
  · intro hEq
    have h1 := congrArg (fun w => w.getLsbD 1) hEq
    have h0 := congrArg (fun w => w.getLsbD 0) hEq
    simpa using And.intro h1 h0
  · rintro ⟨h1, h0⟩
    apply eq_of_getLsbD_eq
    intro i hi
    simp only [getLsbD_and] at h1 h0 ⊢
    interval_cases i <;> simp at h1 h0 ⊢
    · rw [h0]
    · rw [h1]

theorem pageTable_iff (desc : U32) : l1Type desc = mmuL1TypePageTable ↔ desc.getLsbD 1 = false ∧ desc.getLsbD 0 :=
  l1Type_eq_iff desc mmuL1TypePageTable (by decide)

theorem section_iff (desc : U32) : l1Type desc = mmuL1TypeSection ↔ desc.getLsbD 1 ∧ desc.getLsbD 0 = false :=
  l1Type_eq_iff desc mmuL1TypeSection (by decide)

theorem section_ne_pageTable : mmuL1TypeSection ≠ mmuL1TypePageTable := by decide

theorem pageTableDescriptor_type (pa domain : U32) :
    l1Type (mmuPageTableDescriptor pa domain) = mmuL1TypePageTable := by
  rw [pageTable_iff]
  simp [mmuPageTableDescriptor, mmuL2TableMask, mmuL1TypePageTable]

theorem aligned_iff (pa : U32) : pa &&& (vmapL2Align - 1) = 0 ↔ ∀ i < 10, pa.getLsbD i = false := by
  constructor
  · intro hZero i hi
    have hBit := congrArg (fun w => w.getLsbD i) hZero
    simp only [getLsbD_and] at hBit
    interval_cases i <;> simpa [vmapL2Align] using hBit
  · intro hLow
    apply eq_of_getLsbD_eq
    intro i hi
    rw [getLsbD_and]
    obtain hLt | hGe := lt_or_ge i 10
    · rw [hLow i hLt]
      simp
    · interval_cases i <;> simp [vmapL2Align]

theorem pageTableDescriptor_base {pa : U32} (domain : U32) (hAligned : pa &&& (vmapL2Align - 1) = 0) :
    mmuPageTableDescriptor pa domain &&& ~~~0x3FF = pa := by
  rw [aligned_iff] at hAligned
  apply eq_of_getLsbD_eq
  intro i hi
  simp only [mmuPageTableDescriptor, mmuL2TableMask, mmuL1DomainMask, mmuL1TypePageTable,
    getLsbD_and, getLsbD_or, getLsbD_not, getLsbD_shiftLeft]
  obtain hLt | hGe := lt_or_ge i 10
  · rw [hAligned i hLt]
    interval_cases i <;> simp
  · interval_cases i <;> simp

theorem page_eq_iff (va other : U32) : other >>> 12 = va >>> 12 ↔
      vmapL1Index other = vmapL1Index va ∧ vmapL2Index other = vmapL2Index va := by
  constructor
  · intro hEq
    constructor
    · apply eq_of_getLsbD_eq
      intro i hi
      have hBit := congrArg (fun w => w.getLsbD (i + 8)) hEq
      simp only [getLsbD_ushiftRight] at hBit
      simp only [vmapL1Index, getLsbD_setWidth, getLsbD_ushiftRight, hi, decide_true, Bool.true_and]
      rw [show 20 + i = 12 + (i + 8) by omega]
      exact hBit
    · rw [vmapL2Index, vmapL2Index, hEq]
  · rintro ⟨hFirst, hSecond⟩
    apply eq_of_getLsbD_eq
    intro i hi
    obtain hLow | hHigh := lt_or_ge i 8
    · have hBit := congrArg (fun w => w.getLsbD i) hSecond
      simpa [vmapL2Index, hLow] using hBit
    · have hBit := congrArg (fun w => w.getLsbD (i - 8)) hFirst
      simp only [vmapL1Index, getLsbD_setWidth, getLsbD_ushiftRight] at hBit ⊢
      obtain hIn | hOut := lt_or_ge i 20
      · have hIndex : i - 8 < 12 := by omega
        rw [show 20 + (i - 8) = 12 + i by omega] at hBit
        simpa [hIndex] using hBit
      · rw [BitVec.getLsbD_of_ge _ _ (by omega), BitVec.getLsbD_of_ge _ _ (by omega)]

def VmapT.table (v : VmapT) (i : BitVec 12) : Option Nat :=
  if l1Type (v.l1 i) = mmuL1TypePageTable then l2FromPa v (v.l1 i &&& ~~~0x3FF) else none

variable {v : VmapT} {va : U32}

theorem vmapL2Of_eq (hInited : v.inited) (hRange : inRange v va) : vmapL2Of v va = v.table (vmapL1Index va) := by
  simp only [vmapL2Of, VmapT.table, hInited, hRange]
  split_ifs <;> simp_all

theorem vmapLookup_section (hInited : v.inited)
    (hRange : inRange v va) (hKind : l1Type (v.l1 (vmapL1Index va)) = mmuL1TypeSection) :
    vmapLookup v va = vmapResultSection := by
  have hNot : ¬ (!v.inited ∨ !inRange v va) := by simp [hInited, hRange]
  rw [vmapLookup, if_neg hNot]
  simp only [hKind]
  rfl

theorem vmapLookup_eq (hInited : v.inited) (hRange : inRange v va)
    (hKind : l1Type (v.l1 (vmapL1Index va)) ≠ mmuL1TypeSection) : vmapLookup v va = ((v.table (vmapL1Index va)).map
      fun l2 => v.l2Pool (l2 + (vmapL2Index va).toNat)).getD 0 := by
  have hNot : ¬ (!v.inited ∨ !inRange v va) := by simp [hInited, hRange]
  rw [vmapLookup, if_neg hNot, VmapT.table]
  simp only [hKind, if_false]
  obtain hTable | hOther := eq_or_ne (l1Type (v.l1 (vmapL1Index va))) mmuL1TypePageTable
  · simp only [hTable, not_true_eq_false, ne_eq, if_true, if_false]
    rw [if_neg (by decide)]
    cases l2FromPa v (v.l1 (vmapL1Index va) &&& ~~~0x3FF) <;> rfl
  · simp only [hOther, ne_eq, not_false_eq_true, if_true, if_false, ite_self]
    rfl

theorem vmapLookup_outside (hRange : inRange v va = false) : vmapLookup v va = 0 := by
  rw [vmapLookup, if_pos (.inr (by simp [hRange]))]

theorem table_kind {i : BitVec 12} {l2 : Nat} (h : v.table i = some l2) : l1Type (v.l1 i) = mmuL1TypePageTable := by
  rw [VmapT.table] at h
  split at h
  · assumption
  · cases h

theorem vmapLookup_table {l2 : Nat} (hInited : v.inited)
    (hRange : inRange v va) (hTable : v.table (vmapL1Index va) = some l2) :
    vmapLookup v va = v.l2Pool (l2 + (vmapL2Index va).toNat) := by
  have hKind : l1Type (v.l1 (vmapL1Index va)) ≠ mmuL1TypeSection := by
    rw [table_kind hTable]
    decide
  rw [vmapLookup_eq hInited hRange hKind, hTable]
  rfl

theorem smallPageDescriptor_bit_one (pa : U32) (attr : VmapAttr) :
    (mmuSmallPageDescriptor pa (pageAttrOf attr)).getLsbD 1 := by
  rw [mmuSmallPageDescriptor, getLsbD_or, pageAttrOf, mmuL2SmallPageAttr_bit _ _ _ _ _ _ 1 (by decide)]
  simp

theorem smallPageDescriptor_ne_zero (pa : U32) (attr : VmapAttr) : mmuSmallPageDescriptor pa (pageAttrOf attr) ≠ 0 := by
  intro hZero
  have hBit := smallPageDescriptor_bit_one pa attr
  rw [hZero] at hBit
  simp at hBit

theorem smallPageDescriptor_ne_section (pa : U32) (attr : VmapAttr) :
    mmuSmallPageDescriptor pa (pageAttrOf attr) ≠ vmapResultSection := by
  intro hSection
  have hBit := smallPageDescriptor_bit_one pa attr
  rw [hSection] at hBit
  simp [vmapResultSection] at hBit

theorem fillTable_apply (pool : Nat → U32) (l2 : Nat) (base attr : U32) (w : Nat) : fillTable pool l2 base attr w =
      if l2 ≤ w ∧ w < l2 + vmapL2Entries then mmuSmallPageDescriptor (base + ofNat 32 (w - l2) <<< 12) attr
      else pool w := by
  have hLoop : ∀ n, ((List.range n).foldl (fun pool i =>
      Function.update pool (l2 + i) (mmuSmallPageDescriptor (base + ofNat 32 i <<< 12) attr)) pool) w =
      if l2 ≤ w ∧ w < l2 + n then mmuSmallPageDescriptor (base + ofNat 32 (w - l2) <<< 12) attr
      else pool w := by
    intro n
    induction n with
    | zero =>
      rw [if_neg (by omega)]
      rfl
    | succ n ih =>
      rw [List.range_succ, List.foldl_append, List.foldl_cons, List.foldl_nil]
      obtain rfl | hNe := eq_or_ne w (l2 + n)
      · rw [Function.update_self, if_pos (by omega), Nat.add_sub_cancel_left]
      · rw [Function.update_of_ne hNe, ih]
        refine if_congr ?_ rfl rfl
        omega
  exact hLoop vmapL2Entries

/-- The pool after the pages of the section at `va` are written to the next table. -/
def VmapT.splitPool (v : VmapT) (va : U32) : Nat → U32 :=
  fillTable (zeroTable v.l2Pool (freshTable v)) (freshTable v) (va &&& ~~~(mmuSectionSize - 1))
    (pageAttrOf (decodeSectionAttr (v.l1 (vmapL1Index va))))

/-- The word of a page of the section at `va` after the split. -/
def VmapT.splitWord (v : VmapT) (va : U32) (page : Nat) : U32 :=
  mmuSmallPageDescriptor ((va &&& ~~~(mmuSectionSize - 1)) + ofNat 32 page <<< 12)
    (pageAttrOf (decodeSectionAttr (v.l1 (vmapL1Index va))))

theorem splitPool_inside {page : Nat} (va : U32) (hPage : page < vmapL2Entries) :
    v.splitPool va (freshTable v + page) = v.splitWord va page := by
  rw [VmapT.splitPool, fillTable_apply, if_pos (by omega), Nat.add_sub_cancel_left]
  rfl

theorem splitPool_outside {w : Nat} (va : U32) (hOutside : ¬ (freshTable v ≤ w ∧ w < freshTable v + vmapL2Entries)) :
    v.splitPool va w = v.l2Pool w := by
  rw [VmapT.splitPool, fillTable_apply, if_neg hOutside, zeroTable, if_neg hOutside]

def VmapT.freshEntry (v : VmapT) : U32 := v.l2PoolPa + ofNat 32 (freshTable v * 4)

/-- A split that runs into a misaligned table has already used up the table. -/
def VmapT.consumed (v : VmapT) (va : U32) : VmapT :=
  { v with l2Used := v.l2Used + 1, l2Pool := v.splitPool va }

def VmapT.splitted (v : VmapT) (va : U32) : VmapT :=
  { v.consumed va with
    l1 := Function.update v.l1 (vmapL1Index va)
      (mmuPageTableDescriptor v.freshEntry (decodeSectionAttr (v.l1 (vmapL1Index va))).domain)
    statSplit := v.statSplit + 1 }

theorem splitted_l2Pool (v : VmapT) (va : U32) : (v.splitted va).l2Pool = v.splitPool va := by
  rw [VmapT.splitted, VmapT.consumed]

theorem vmapSplitSection_eq (hInited : v.inited) (hRange : inRange v va) (hAligned : va &&& (vmapPageSize - 1) = 0) :
    vmapSplitSection v va = if l1Type (v.l1 (vmapL1Index va)) = mmuL1TypePageTable then (v, .ok)
      else if l1Type (v.l1 (vmapL1Index va)) ≠ mmuL1TypeSection then (v, .isSection)
      else if v.l2Used ≥ v.l2Capacity then (v, .noL2)
      else if v.freshEntry &&& (vmapL2Align - 1) ≠ 0 then (v.consumed va, .align) else (v.splitted va, .ok) := by
  have hNot : ¬ (!v.inited) := by simp [hInited]
  have hIn : ¬ (!inRange v va) := by simp [hRange]
  rw [vmapSplitSection, if_neg hNot, if_neg hIn, if_neg (not_not.mpr hAligned)]
  simp only [l2Ensure]
  split_ifs with hTable hOther hRoom hMisaligned
  · rfl
  · rfl
  · rfl
  · rw [VmapT.freshEntry] at hMisaligned
    dsimp only
    rw [if_pos hMisaligned]
    rfl
  · rw [VmapT.freshEntry] at hMisaligned
    dsimp only
    rw [if_neg hMisaligned]
    simp only [VmapT.splitted, VmapT.consumed, VmapT.splitPool, VmapT.freshEntry]

end

/-! # A page of a split section translates like the section

The attributes are decoded from the section and encoded again for small pages.
Bit by bit, the hardware reads the same values from both.
-/

open Mmu

theorem vmapL1Index_eq (va : U32) : vmapL1Index va = l1Index va := by
  ext i hi
  simp [vmapL1Index, l1Index]

theorem vmapL2Index_eq (va : U32) : vmapL2Index va = l2Index va := by
  ext i hi
  simp [vmapL2Index, l2Index]

theorem bit_decode (desc : U32) (k : Nat) : decide (desc >>> k &&& 1 ≠ 0) = desc.getLsbD k := by
  have hBit : decide (desc >>> k &&& 1 ≠ 0) = (desc >>> k).getLsbD 0 := and_twoPow_ne_zero (desc >>> k) 0 (by decide)
  rw [hBit, getLsbD_ushiftRight, add_zero]

theorem pageAttr_bit (desc : U32) (i : Nat) : i < 32 → (pageAttrOf (decodeSectionAttr desc)).getLsbD i = match i with
      | 0 => desc.getLsbD 4
      | 1 => true
      | 2 => desc.getLsbD 2
      | 3 => desc.getLsbD 3
      | 4 => desc.getLsbD 10
      | 5 => desc.getLsbD 11
      | 6 => desc.getLsbD 12
      | 7 => desc.getLsbD 13
      | 8 => desc.getLsbD 14
      | 9 => desc.getLsbD 15
      | 10 => desc.getLsbD 16
      | _ => false := by
  intro hi
  have hB := bit_decode desc 2
  have hC := bit_decode desc 3
  have hAp2 : decide (desc &&& mmuL1Ap2Bit ≠ 0) = desc.getLsbD 15 := and_twoPow_ne_zero desc 15 (by decide)
  have hShared : decide (desc &&& mmuAttrSBit ≠ 0) = desc.getLsbD 16 := and_twoPow_ne_zero desc 16 (by decide)
  have hXn : decide (desc &&& 1 <<< 4 ≠ 0) = desc.getLsbD 4 := and_twoPow_ne_zero desc 4 (by decide)
  rw [pageAttrOf, mmuL2SmallPageAttr_bit _ _ _ _ _ _ i hi]
  simp only [decodeSectionAttr, hB, hC, hShared, hXn, getLsbD_ite_or, hAp2, getLsbD_and,
    getLsbD_ushiftRight, mmuApLowMask]
  interval_cases i <;> simp [-BitVec.getLsbD_eq_getElem]

variable {va desc : U32}

theorem splitWord_page {other : U32} (hFirst : vmapL1Index other = vmapL1Index va) :
    (va &&& ~~~(mmuSectionSize - 1)) + ofNat 32 (vmapL2Index other).toNat <<< 12 = other &&& mmuPageMask := by
  have hBits : ∀ i, 20 ≤ i → i < 32 → other.getLsbD i = va.getLsbD i := by
    intro i hLow hHigh
    have hBit := congrArg (fun w => w.getLsbD (i - 20)) hFirst
    have hIndex : i - 20 < 12 := by omega
    have hSum : 20 + (i - 20) = i := by omega
    simpa [vmapL1Index, hIndex, hSum] using hBit
  rw [BitVec.add_eq_or_of_and_eq_zero]
  · apply eq_of_getLsbD_eq
    intro i hi
    simp only [getLsbD_or, getLsbD_and, getLsbD_not, getLsbD_shiftLeft,
      ofNat_toNat, getLsbD_setWidth, vmapL2Index, getLsbD_ushiftRight]
    obtain hLow | hHigh := lt_or_ge i 20
    · interval_cases i <;> simp [mmuSectionSize, mmuPageMask]
    · rw [hBits i hHigh hi]
      interval_cases i <;> simp [mmuSectionSize, mmuPageMask]
  · apply eq_of_getLsbD_eq
    intro i hi
    simp only [getLsbD_and, getLsbD_not, getLsbD_shiftLeft,
      ofNat_toNat, getLsbD_setWidth, vmapL2Index, getLsbD_ushiftRight]
    interval_cases i <;> simp [mmuSectionSize]

/-- A section that maps its own address, with the attributes the source can build. -/
def IdentitySection (desc : U32) (i : BitVec 12) : Prop :=
  ∃ a : VmapAttr, desc = mmuSectionDescriptor (i.setWidth 32 <<< 20) (sectionAttrOf a)

theorem IdentitySection.bit {i : BitVec 12} (h : IdentitySection desc i) :
    desc.getLsbD 17 = false ∧ desc.getLsbD 18 = false ∧ desc.getLsbD 19 = false ∧
      desc.getLsbD 1 ∧ desc.getLsbD 0 = false ∧ ∀ n < 12, desc.getLsbD (20 + n) = i.getLsbD n := by
  obtain ⟨a, rfl⟩ := h
  have hBit := mmuL1SectionAttr_bit a.ap3 a.tex a.c a.b a.domain a.shareable a.xn
  have hLow : ∀ n < 20, (mmuSectionDescriptor (i.setWidth 32 <<< 20) (sectionAttrOf a)).getLsbD n =
      (sectionAttrOf a).getLsbD n := by
    intro n hn
    simp [mmuSectionDescriptor, hn]
  refine ⟨?_, ?_, ?_, ?_, ?_, ?_⟩
  · exact (hLow 17 (by decide)).trans (hBit 17 (by decide))
  · exact (hLow 18 (by decide)).trans (hBit 18 (by decide))
  · exact (hLow 19 (by decide)).trans (hBit 19 (by decide))
  · exact (hLow 1 (by decide)).trans (hBit 1 (by decide))
  · exact (hLow 0 (by decide)).trans (hBit 0 (by decide))
  · intro n hn
    have hHigh : (sectionAttrOf a).getLsbD (20 + n) = false := by
      rw [sectionAttrOf, hBit (20 + n) (by omega)]
      interval_cases n <;> rfl
    simp only [mmuSectionDescriptor, getLsbD_or, hHigh]
    interval_cases n <;> simp [mmuSectionMask]

theorem IdentitySection.type {i : BitVec 12} (h : IdentitySection desc i) : l1Type desc = mmuL1TypeSection := by
  rw [section_iff]
  exact ⟨h.bit.2.2.2.1, h.bit.2.2.2.2.1⟩

theorem extract_eq {x y : U32} {s t len : Nat} (h : ∀ n < len, x.getLsbD (s + n) = y.getLsbD (t + n)) :
    x.extractLsb' s len = y.extractLsb' t len := by
  apply eq_of_getLsbD_eq
  intro n hn
  simp only [BitVec.getLsbD_extractLsb', hn, decide_true, Bool.true_and]
  exact h n hn

theorem section_pa (h : ∀ n < 12, desc.getLsbD (20 + n) = va.getLsbD (20 + n)) :
    desc.extractLsb' 20 12 ++ va.extractLsb' 0 20 = va := by
  rw [extract_eq h]
  apply eq_of_getLsbD_eq
  intro n hn
  rw [BitVec.getLsbD_append]
  obtain hLow | hHigh := lt_or_ge n 20
  · simp [hLow]
  · have hSum : 20 + (n - 20) = n := by omega
    have hNot : ¬ n < 20 := by omega
    have hIn : n - 20 < 12 := by omega
    simp [hNot, hIn, hSum]

theorem page_pa {word : U32} (h : ∀ n < 20, word.getLsbD (12 + n) = va.getLsbD (12 + n)) :
    word.extractLsb' 12 20 ++ va.extractLsb' 0 12 = va := by
  rw [extract_eq h]
  apply eq_of_getLsbD_eq
  intro n hn
  rw [BitVec.getLsbD_append]
  obtain hLow | hHigh := lt_or_ge n 12
  · simp [hLow]
  · have hSum : 12 + (n - 12) = n := by omega
    have hNot : ¬ n < 12 := by omega
    have hIn : n - 12 < 20 := by omega
    simp [hNot, hIn, hSum]

theorem l1Index_bit (va : U32) {n : Nat} (hn : n < 12) : (vmapL1Index va).getLsbD n = va.getLsbD (20 + n) := by
  simp [vmapL1Index, hn]

theorem split_translation {other : U32} (table : U32)
    (hFirst : vmapL1Index other = vmapL1Index va) (hIdentity : IdentitySection desc (vmapL1Index va)) :
    smallPageTranslation (mmuPageTableDescriptor table (decodeSectionAttr desc).domain)
      (mmuSmallPageDescriptor (other &&& mmuPageMask) (pageAttrOf (decodeSectionAttr desc))) other =
    sectionTranslation desc other := by
  obtain ⟨hGlobal, -, hSecure, -, -, hBase⟩ := hIdentity.bit
  have hAttr := pageAttr_bit desc
  have hLow : ∀ n < 12, (mmuSmallPageDescriptor (other &&& mmuPageMask)
      (pageAttrOf (decodeSectionAttr desc))).getLsbD n = (pageAttrOf (decodeSectionAttr desc)).getLsbD n := by
    intro n hn
    simp only [mmuSmallPageDescriptor, getLsbD_or, getLsbD_and, mmuPageMask]
    interval_cases n <;> simp
  have hHigh : ∀ n < 20, (mmuSmallPageDescriptor (other &&& mmuPageMask)
      (pageAttrOf (decodeSectionAttr desc))).getLsbD (12 + n) = other.getLsbD (12 + n) := by
    intro n hn
    simp only [mmuSmallPageDescriptor, getLsbD_or, getLsbD_and, mmuPageMask]
    rw [hAttr (12 + n) (by omega)]
    interval_cases n <;> simp
  have hDomain : ∀ n < 4, (mmuPageTableDescriptor table (decodeSectionAttr desc).domain).getLsbD (5 + n) =
      desc.getLsbD (5 + n) := by
    intro n hn
    simp only [mmuPageTableDescriptor, decodeSectionAttr, getLsbD_or, getLsbD_and, getLsbD_shiftLeft,
      getLsbD_ushiftRight, mmuL2TableMask, mmuL1DomainMask, mmuL1TypePageTable]
    interval_cases n <;> simp
  have hPaSection : desc.extractLsb' 20 12 ++ other.extractLsb' 0 20 = other := by
    apply section_pa
    intro n hn
    rw [hBase n hn, ← hFirst, l1Index_bit other hn]
  simp only [smallPageTranslation, sectionTranslation, hGlobal, hSecure, Translation.mk.injEq]
  refine ⟨?_, ?_, ?_, ?_, ?_, ?_, ?_, ?_, ?_, ?_⟩
  · exact (page_pa hHigh).trans hPaSection.symm
  · rw [(hLow 9 (by decide)).trans (hAttr 9 (by decide))]
    congr 1
    apply extract_eq
    intro n hn
    rw [hLow (4 + n) (by omega), hAttr (4 + n) (by omega)]
    interval_cases n <;> rfl
  · apply extract_eq
    intro n hn
    rw [hLow (6 + n) (by omega), hAttr (6 + n) (by omega)]
    interval_cases n <;> rfl
  · exact (hLow 3 (by decide)).trans (hAttr 3 (by decide))
  · exact (hLow 2 (by decide)).trans (hAttr 2 (by decide))
  · exact (hLow 10 (by decide)).trans (hAttr 10 (by decide))
  · exact (hLow 11 (by decide)).trans (hAttr 11 (by decide))
  · simp [mmuPageTableDescriptor, mmuL2TableMask, mmuL1DomainMask, mmuL1TypePageTable]
  · exact (hLow 0 (by decide)).trans (hAttr 0 (by decide))
  · exact extract_eq hDomain

end OpenXJ380.Vmap
