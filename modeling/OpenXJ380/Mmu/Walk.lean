import Mathlib.Data.BitVec
import Mathlib.Tactic.IntervalCases

/-! # Short-descriptor encodings (`arch/arm32/src/mmu.c`)

First-level sections and second-level small pages hold the same attributes at
different bits. Each attribute word is described by its bits.
-/

namespace OpenXJ380.Mmu

abbrev U32 := BitVec 32

def mmuSectionMask : U32 := 0xFFF00000
def mmuSectionSize : U32 := 1 <<< 20
def mmuPageMask : U32 := 0xFFFFF000
def mmuL2TableMask : U32 := 0xFFFFFC00

def mmuL1TypeFault : U32 := 0x0
def mmuL1TypePageTable : U32 := 0x1
def mmuL1TypeSection : U32 := 0x2

def mmuApLowMask : U32 := 0x3
def mmuApNone : U32 := 0x0
def mmuL1Ap2Bit : U32 := 1 <<< 15
def mmuL2Ap2Bit : U32 := 1 <<< 9
def mmuL1DomainMask : U32 := 0xF
def mmuAttrSBit : U32 := 0x10000

def mmuL1SectionAttr (ap3 tex c b domain : U32) (shareable xn : Bool) : U32 :=
  let attr := mmuL1TypeSection
  let attr := attr ||| (ap3 &&& mmuApLowMask) <<< 10
  let attr := if ap3 &&& 4 ≠ 0 then attr ||| mmuL1Ap2Bit else attr
  let attr := attr ||| (tex &&& 7) <<< 12
  let attr := if c ≠ 0 then attr ||| 1 <<< 3 else attr
  let attr := if b ≠ 0 then attr ||| 1 <<< 2 else attr
  let attr := attr ||| (domain &&& mmuL1DomainMask) <<< 5
  let attr := if shareable then attr ||| mmuAttrSBit else attr
  if xn then attr ||| 1 <<< 4 else attr

def mmuL2SmallPageAttr (ap3 tex c b : U32) (shareable xn : Bool) : U32 :=
  let attr : U32 := 2
  let attr := if xn then attr ||| 1 else attr
  let attr := if b ≠ 0 then attr ||| 1 <<< 2 else attr
  let attr := if c ≠ 0 then attr ||| 1 <<< 3 else attr
  let attr := attr ||| (ap3 &&& mmuApLowMask) <<< 4
  let attr := if ap3 &&& 4 ≠ 0 then attr ||| mmuL2Ap2Bit else attr
  let attr := attr ||| (tex &&& 7) <<< 6
  if shareable then attr ||| 1 <<< 10 else attr

def mmuSectionDescriptor (pa attr : U32) : U32 := pa &&& mmuSectionMask ||| attr

def mmuPageTableDescriptor (l2TablePa domain : U32) : U32 :=
  l2TablePa &&& mmuL2TableMask ||| (domain &&& mmuL1DomainMask) <<< 5 ||| mmuL1TypePageTable

def mmuSmallPageDescriptor (pa attr : U32) : U32 := pa &&& mmuPageMask ||| attr

theorem getLsbD_ite_or (p : Prop) [Decidable p] (a m : U32) (i : Nat) :
    (if p then a ||| m else a).getLsbD i = (a.getLsbD i || (decide p && m.getLsbD i)) := by
  split <;> simp [*]

theorem and_twoPow_ne_zero (a : U32) (k : Nat) (hk : k < 32) : decide (a &&& BitVec.twoPow 32 k ≠ 0) = a.getLsbD k := by
  rw [BitVec.and_twoPow]
  cases hBit : a.getLsbD k with
  | false => simp
  | true =>
    have hNonzero : BitVec.twoPow 32 k ≠ 0#32 := by
      intro hZero
      have hLsb := congrArg (fun w => w.getLsbD k) hZero
      simp [hk] at hLsb
    simp [hNonzero]

theorem mmuL1SectionAttr_bit (ap3 tex c b domain : U32) (shareable xn : Bool) (i : Nat) :
    i < 32 → (mmuL1SectionAttr ap3 tex c b domain shareable xn).getLsbD i = match i with
      | 1 => true
      | 2 => decide (b ≠ 0)
      | 3 => decide (c ≠ 0)
      | 4 => xn
      | 5 => domain.getLsbD 0
      | 6 => domain.getLsbD 1
      | 7 => domain.getLsbD 2
      | 8 => domain.getLsbD 3
      | 10 => ap3.getLsbD 0
      | 11 => ap3.getLsbD 1
      | 12 => tex.getLsbD 0
      | 13 => tex.getLsbD 1
      | 14 => tex.getLsbD 2
      | 15 => ap3.getLsbD 2
      | 16 => shareable
      | _ => false := by
  intro hi
  have hAp2 : decide (ap3 &&& 4 ≠ 0) = ap3.getLsbD 2 := and_twoPow_ne_zero ap3 2 (by decide)
  simp only [mmuL1SectionAttr, getLsbD_ite_or, BitVec.getLsbD_or, hAp2, BitVec.getLsbD_shiftLeft,
    BitVec.getLsbD_and, mmuL1TypeSection, mmuApLowMask, mmuL1Ap2Bit, mmuL1DomainMask, mmuAttrSBit]
  interval_cases i <;> simp [-BitVec.getLsbD_eq_getElem]

theorem mmuL2SmallPageAttr_bit (ap3 tex c b : U32) (shareable xn : Bool) (i : Nat) :
    i < 32 → (mmuL2SmallPageAttr ap3 tex c b shareable xn).getLsbD i = match i with
      | 0 => xn
      | 1 => true
      | 2 => decide (b ≠ 0)
      | 3 => decide (c ≠ 0)
      | 4 => ap3.getLsbD 0
      | 5 => ap3.getLsbD 1
      | 6 => tex.getLsbD 0
      | 7 => tex.getLsbD 1
      | 8 => tex.getLsbD 2
      | 9 => ap3.getLsbD 2
      | 10 => shareable
      | _ => false := by
  intro hi
  have hAp2 : decide (ap3 &&& 4 ≠ 0) = ap3.getLsbD 2 := and_twoPow_ne_zero ap3 2 (by decide)
  simp only [mmuL2SmallPageAttr, getLsbD_ite_or, BitVec.getLsbD_or, hAp2, BitVec.getLsbD_shiftLeft,
    BitVec.getLsbD_and, mmuApLowMask, mmuL2Ap2Bit]
  interval_cases i <;> simp [-BitVec.getLsbD_eq_getElem]

/-! # The short-descriptor translation table walk

What the hardware reads from the two levels of tables, independent of the code
that writes them. `memory` gives the word at a physical address.
-/

/-- A translated address with everything the access checks and the memory system read. -/
structure Translation where
  pa : U32
  ap : BitVec 3
  tex : BitVec 3
  c : Bool
  b : Bool
  shareable : Bool
  notGlobal : Bool
  nonSecure : Bool
  executeNever : Bool
  domain : BitVec 4
  deriving DecidableEq

def l1Index (va : U32) : BitVec 12 := va.extractLsb' 20 12

def l2Index (va : U32) : BitVec 8 := va.extractLsb' 12 8

def sectionTranslation (desc va : U32) : Translation :=
  { pa := desc.extractLsb' 20 12 ++ va.extractLsb' 0 20
    ap := BitVec.ofBool (desc.getLsbD 15) ++ desc.extractLsb' 10 2
    tex := desc.extractLsb' 12 3, c := desc.getLsbD 3, b := desc.getLsbD 2
    shareable := desc.getLsbD 16, notGlobal := desc.getLsbD 17, nonSecure := desc.getLsbD 19
    executeNever := desc.getLsbD 4, domain := desc.extractLsb' 5 4 }

def supersectionTranslation (desc va : U32) : Translation :=
  { sectionTranslation desc va with
    pa := desc.extractLsb' 24 8 ++ va.extractLsb' 0 24, domain := 0 }

def smallPageTranslation (table desc va : U32) : Translation :=
  { pa := desc.extractLsb' 12 20 ++ va.extractLsb' 0 12
    ap := BitVec.ofBool (desc.getLsbD 9) ++ desc.extractLsb' 4 2
    tex := desc.extractLsb' 6 3, c := desc.getLsbD 3, b := desc.getLsbD 2
    shareable := desc.getLsbD 10, notGlobal := desc.getLsbD 11, nonSecure := table.getLsbD 3
    executeNever := desc.getLsbD 0, domain := table.extractLsb' 5 4 }

def largePageTranslation (table desc va : U32) : Translation :=
  { smallPageTranslation table desc va with
    pa := desc.extractLsb' 16 16 ++ va.extractLsb' 0 16
    tex := desc.extractLsb' 12 3, executeNever := desc.getLsbD 15 }

def l2EntryAddress (table va : U32) : U32 :=
  table.extractLsb' 10 22 ++ l2Index va ++ 0#2

/-- The second level: bit 1 marks a small page, `01` a large one, `00` a fault. -/
def walkL2 (table desc va : U32) : Option Translation :=
  if desc.getLsbD 1 then some (smallPageTranslation table desc va)
  else if desc.getLsbD 0 then some (largePageTranslation table desc va)
  else none

def walk (l1 : BitVec 12 → U32) (memory : U32 → U32) (va : U32) : Option Translation :=
  let desc := l1 (l1Index va)
  match desc.getLsbD 1, desc.getLsbD 0 with
  | true, false =>
    some (if desc.getLsbD 18 then supersectionTranslation desc va else sectionTranslation desc va)
  | false, true => walkL2 desc (memory (l2EntryAddress desc va)) va
  | _, _ => none

end OpenXJ380.Mmu
