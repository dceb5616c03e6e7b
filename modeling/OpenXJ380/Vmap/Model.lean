import OpenXJ380.Mmu.Walk

/-! # Fine-grained kernel mappings (`arch/arm32/src/vmap.c`)

The first-level table has an entry for every index of 12 bits. A pointer into
the pool of second-level tables is the index of the word it points to; pointer
arithmetic wraps with the 32-bit address space.
-/

namespace OpenXJ380.Vmap

open Mmu

def vmapPageSize : U32 := 4096
def vmapL2Entries : Nat := 256
def vmapL2Align : U32 := 1024
def vmapResultSection : U32 := 1

structure VmapAttr where
  ap3 : U32
  tex : U32
  c : U32
  b : U32
  domain : U32
  shareable : Bool
  xn : Bool
  deriving DecidableEq, Repr

inductive VmapErr where
  | ok
  | notInit
  | badArgs
  | align
  | outOfRange
  | already
  | notMapped
  | noL2
  | isSection
  deriving DecidableEq, Repr

structure VmapT where
  l1 : BitVec 12 → U32
  l2Pool : Nat → U32
  l2PoolPa : U32
  l2Capacity : U32
  l2Used : U32
  vaBegin : U32
  vaEnd : U32
  statSplit : U32
  statMap : U32
  statUnmap : U32
  inited : Bool

structure L2Pool where
  address : U32
  words : Nat → U32

def vmapL1Index (va : U32) : BitVec 12 := (va >>> 20).setWidth 12

def vmapL2Index (va : U32) : BitVec 8 := (va >>> 12).setWidth 8

def vmapAttrNormal : VmapAttr :=
  { ap3 := 3, tex := 1, c := 1, b := 1, domain := 0, shareable := true, xn := false }

def l1Type (desc : U32) : U32 := desc &&& 3

/-- The pool index behind a physical address, or `none` outside the pool. -/
def l2FromPa (v : VmapT) (pa : U32) : Option Nat :=
  let span := v.l2Capacity * 256 * 4
  if pa < v.l2PoolPa ∨ pa - v.l2PoolPa ≥ span then none else some ((pa - v.l2PoolPa).toNat / 4)

def inRange (v : VmapT) (va : U32) : Bool := va ≥ v.vaBegin ∧ va < v.vaEnd

def decodeSectionAttr (desc : U32) : VmapAttr :=
  let ap3 := desc >>> 10 &&& mmuApLowMask
  { ap3 := if desc &&& mmuL1Ap2Bit ≠ 0 then ap3 ||| 4 else ap3
    tex := desc >>> 12 &&& 7
    c := desc >>> 3 &&& 1
    b := desc >>> 2 &&& 1
    domain := desc >>> 5 &&& mmuL1DomainMask
    shareable := desc &&& mmuAttrSBit ≠ 0
    xn := desc &&& 1 <<< 4 ≠ 0 }

def sectionAttrOf (a : VmapAttr) : U32 := mmuL1SectionAttr a.ap3 a.tex a.c a.b a.domain a.shareable a.xn

def pageAttrOf (a : VmapAttr) : U32 := mmuL2SmallPageAttr a.ap3 a.tex a.c a.b a.shareable a.xn

/-- `l1` and `l2Pool` are `none` for a null pointer. -/
def vmapInit (l1 : Option (BitVec 12 → U32)) (l2Pool : Option L2Pool)
    (l2PoolPa l2Capacity vaBegin vaEnd : U32) : Except VmapErr VmapT :=
  match l1, l2Pool with
  | some l1, some pool =>
    if l2Capacity = 0 ∨ vaBegin ≥ vaEnd then .error .badArgs
    else if pool.address &&& (vmapL2Align - 1) ≠ 0 then .error .align
    else if vaBegin &&& (vmapPageSize - 1) ≠ 0 ∨ vaEnd &&& (vmapPageSize - 1) ≠ 0 then .error .align
    else .ok
      { l1 := l1, l2Pool := pool.words, l2PoolPa := l2PoolPa, l2Capacity := l2Capacity, l2Used := 0
        vaBegin := vaBegin, vaEnd := vaEnd, statSplit := 0, statMap := 0, statUnmap := 0, inited := true }
  | _, _ => .error .badArgs

def vmapL2Of (v : VmapT) (va : U32) : Option Nat :=
  if !v.inited ∨ !inRange v va then none
  else
    let desc := v.l1 (vmapL1Index va)
    if l1Type desc ≠ mmuL1TypePageTable then none else l2FromPa v (desc &&& ~~~0x3FF)

def vmapLookup (v : VmapT) (va : U32) : U32 :=
  if !v.inited ∨ !inRange v va then 0
  else
    let desc := v.l1 (vmapL1Index va)
    if l1Type desc = mmuL1TypeFault then 0
    else if l1Type desc = mmuL1TypeSection then vmapResultSection
    else if l1Type desc ≠ mmuL1TypePageTable then 0
    else
      match l2FromPa v (desc &&& ~~~0x3FF) with
      | none => 0
      | some l2 => v.l2Pool (l2 + (vmapL2Index va).toNat)

def VmapT.write (v : VmapT) (l2 : Nat) (va desc : U32) : VmapT :=
  { v with l2Pool := Function.update v.l2Pool (l2 + (vmapL2Index va).toNat) desc }

/-- `l2_pool + l2_used * VMAP_L2_ENTRIES`. -/
def freshTable (v : VmapT) : Nat := v.l2Used.toNat * vmapL2Entries % 2 ^ 30

def zeroTable (pool : Nat → U32) (l2 : Nat) : Nat → U32 :=
  fun w => if l2 ≤ w ∧ w < l2 + vmapL2Entries then 0 else pool w

def l2Ensure (v : VmapT) (va : U32) : VmapT × Option Nat :=
  let desc := v.l1 (vmapL1Index va)
  if l1Type desc = mmuL1TypePageTable then (v, l2FromPa v (desc &&& ~~~0x3FF))
  else if v.l2Used ≥ v.l2Capacity then (v, none)
  else
    let l2 := freshTable v
    ({ v with l2Used := v.l2Used + 1, l2Pool := zeroTable v.l2Pool l2 }, some l2)

def fillTable (pool : Nat → U32) (l2 : Nat) (sectionBase pageAttr : U32) : Nat → U32 :=
  (List.range vmapL2Entries).foldl
    (fun pool i => Function.update pool (l2 + i)
      (mmuSmallPageDescriptor (sectionBase + BitVec.ofNat 32 i <<< 12) pageAttr))
    pool

def vmapSplitSection (v : VmapT) (va : U32) : VmapT × VmapErr :=
  if !v.inited then (v, .notInit)
  else if !inRange v va then (v, .outOfRange)
  else if va &&& (vmapPageSize - 1) ≠ 0 then (v, .align)
  else
    let idx := vmapL1Index va
    let desc := v.l1 idx
    if l1Type desc = mmuL1TypePageTable then (v, .ok)
    else if l1Type desc ≠ mmuL1TypeSection then (v, .isSection)
    else
      match l2Ensure v va with
      | (v, none) => (v, .noL2)
      | (v, some l2) =>
        let attr := decodeSectionAttr desc
        let pageAttr := pageAttrOf attr
        let sectionBase := va &&& ~~~(mmuSectionSize - 1)
        let v := { v with l2Pool := fillTable v.l2Pool l2 sectionBase pageAttr }
        let l1Entry := v.l2PoolPa + BitVec.ofNat 32 (l2 * 4)
        if l1Entry &&& (vmapL2Align - 1) ≠ 0 then (v, .align)
        else
          ({ v with
              l1 := Function.update v.l1 idx (mmuPageTableDescriptor l1Entry attr.domain)
              statSplit := v.statSplit + 1 }, .ok)

/-- `attr` is `none` for a null pointer. -/
def vmapMap (v : VmapT) (va pa : U32) (attr : Option VmapAttr) : VmapT × VmapErr :=
  match attr with
  | none => (v, .badArgs)
  | some attr =>
    if !v.inited then (v, .badArgs)
    else if !inRange v va then (v, .outOfRange)
    else if va &&& (vmapPageSize - 1) ≠ 0 ∨ pa &&& (vmapPageSize - 1) ≠ 0 then (v, .align)
    else
      let cur := vmapLookup v va
      if cur ≠ 0 ∧ cur ≠ vmapResultSection then (v, .already)
      else
        let (v, e) := if cur = vmapResultSection then vmapClearForMap v va else (v, .ok)
        if e ≠ .ok then (v, e)
        else
          match l2Ensure v va with
          | (v, none) => (v, .noL2)
          | (v, some l2) =>
            let v := v.write l2 va (mmuSmallPageDescriptor pa (pageAttrOf attr))
            ({ v with statMap := v.statMap + 1 }, .ok)
where
  /-- The branch for a section: split it, then clear the page that is to be mapped. -/
  vmapClearForMap (v : VmapT) (va : U32) : VmapT × VmapErr :=
    let (v, e) := vmapSplitSection v va
    if e ≠ .ok then (v, e)
    else
      match vmapL2Of v va with
      | none => (v, .noL2)
      | some l2 => (v.write l2 va 0, .ok)

def vmapUnmap (v : VmapT) (va : U32) : VmapT × VmapErr :=
  if !v.inited then (v, .notInit)
  else if !inRange v va then (v, .outOfRange)
  else if va &&& (vmapPageSize - 1) ≠ 0 then (v, .align)
  else
    let cur := vmapLookup v va
    if cur = 0 then (v, .notMapped)
    else if cur = vmapResultSection then (v, .isSection)
    else
      match vmapL2Of v va with
      | none => (v, .notMapped)
      | some l2 =>
        let v := v.write l2 va 0
        ({ v with statUnmap := v.statUnmap + 1 }, .ok)

def vmapSetAttr (v : VmapT) (va : U32) (attr : Option VmapAttr) : VmapT × VmapErr :=
  match attr with
  | none => (v, .badArgs)
  | some attr =>
    if !v.inited then (v, .badArgs)
    else
      let cur := vmapLookup v va
      if cur = 0 then (v, .notMapped)
      else if cur = vmapResultSection then (v, .isSection)
      else
        match vmapL2Of v va with
        | none => (v, .notMapped)
        | some l2 =>
          (v.write l2 va (mmuSmallPageDescriptor (cur &&& ~~~0xFFF) (pageAttrOf attr)), .ok)

end OpenXJ380.Vmap
