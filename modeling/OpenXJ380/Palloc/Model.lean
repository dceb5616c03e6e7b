import OpenXJ380.Lib.Bits
import OpenXJ380.Lib.Transition
import Mathlib.Data.Finset.Card
import Mathlib.Tactic.IntervalCases

/-! # Physical pages (`arch/arm32/src/palloc.c`)

A pool of pages with two bits for each. Page numbers and counts stay below the number of
pages that a pool may have and are natural numbers; addresses wrap with the 32-bit address space.
-/

namespace OpenXJ380.Palloc

open Transition

abbrev U32 := BitVec 32

def pallocPageShift : Nat := 12
def pallocPageSize : U32 := 4096
def pallocBitsPerPage : Nat := 2
def pallocMaxPages : Nat := 262144
def pallocBitmapWords : Nat := (pallocMaxPages * pallocBitsPerPage + 31) / 32

def pallocStateFree : U32 := 0
def pallocStateUsed : U32 := 1
def pallocStateRsvd : U32 := 2
def pallocStateBad : U32 := 0xFF

inductive PallocErr where
  | ok
  | notInit
  | align
  | range
  | doubleFree
  | reserved
  | alreadyUsed
  | oom
  | tooMany
  | badArgs
  deriving DecidableEq, Repr

/-- `bitmap` is the caller's array. -/
structure PallocT where
  base : U32
  pageCount : Nat
  freePages : Nat
  usedPages : Nat
  reservedPages : Nat
  peakUsed : Nat
  bitmap : Nat → U32
  bitmapWords : Nat
  inited : Bool

def stateShift (index : Nat) : Nat := index % 16 * pallocBitsPerPage

def stateMask : U32 := 3

def bitmapGet (p : PallocT) (index : Nat) : U32 := p.bitmap (index / 16) >>> stateShift index &&& stateMask

def bitmapSet (p : PallocT) (index : Nat) (state : U32) : PallocT :=
  let mask := stateMask <<< stateShift index
  let word := p.bitmap (index / 16) &&& ~~~mask ||| (state &&& stateMask) <<< stateShift index
  { p with bitmap := Function.update p.bitmap (index / 16) word }

def pageAddr (p : PallocT) (index : Nat) : U32 := p.base + BitVec.ofNat 32 index <<< pallocPageShift

def poolEnd (p : PallocT) : U32 := p.base + BitVec.ofNat 32 p.pageCount <<< pallocPageShift

def addrToIndex (p : PallocT) (addr : U32) : Except PallocErr Nat :=
  if !p.inited then .error .notInit
  else if addr &&& (pallocPageSize - 1) ≠ 0 then .error .align
  else if addr < p.base then .error .range
  else
    let offset := addr - p.base
    if offset ≥ BitVec.ofNat 32 p.pageCount <<< pallocPageShift then .error .range
    else .ok (offset >>> pallocPageShift).toNat

/-- The pointers are not null; `bitmap` is the caller's array before it is cleared. -/
def pallocInit (base size : U32) (bitmap : Nat → U32) (bitmapWords : Nat) : Except PallocErr PallocT :=
  if base &&& (pallocPageSize - 1) ≠ 0 then .error .align
  else if size = 0 ∨ size &&& (pallocPageSize - 1) ≠ 0 then .error .align
  else if (size >>> pallocPageShift).toNat > pallocMaxPages then .error .tooMany
  else if bitmapWords < pallocBitmapWords then .error .badArgs
  else .ok
    { base := base, pageCount := (size >>> pallocPageShift).toNat
      freePages := (size >>> pallocPageShift).toNat, usedPages := 0, reservedPages := 0, peakUsed := 0
      bitmap := fun w => if w < bitmapWords then 0 else bitmap w, bitmapWords := bitmapWords, inited := true }

/-- The marking loop from page `i` on, with `n` pages to go. -/
def reserveFrom (p : PallocT) (i : Nat) : Nat → PallocT × PallocErr
  | 0 => (p, .ok)
  | n + 1 =>
    let state := bitmapGet p i
    if state = pallocStateRsvd then reserveFrom p (i + 1) n
    else if state = pallocStateUsed then (p, .alreadyUsed)
    else
      let p := bitmapSet p i pallocStateRsvd
      reserveFrom { p with freePages := p.freePages - 1, reservedPages := p.reservedPages + 1 } (i + 1) n

def pallocReserve (p : PallocT) (addr size : U32) : PallocT × PallocErr :=
  if !p.inited then (p, .notInit)
  else if size = 0 then (p, .badArgs)
  else
    let start := addr &&& ~~~(pallocPageSize - 1)
    let stop := addr + size + pallocPageSize - 1 &&& ~~~(pallocPageSize - 1)
    let start := if start < p.base then p.base else start
    if stop ≤ start then (p, .badArgs)
    else if start ≥ poolEnd p then (p, .ok)
    else
      let stop := if stop > poolEnd p then poolEnd p else stop
      let first := ((start - p.base) >>> pallocPageShift).toNat
      let last := ((stop - p.base) >>> pallocPageShift).toNat
      reserveFrom p first (last - first)

/-- The scan from page `i` on with `rounds` pages to go: the first page of a run of `n` free pages, where the `run`
pages from `start` on are free. -/
def findRun (p : PallocT) (n : Nat) : Nat → Nat → Nat → Nat → Option Nat
  | 0, _, _, _ => none
  | rounds + 1, i, run, start =>
    if bitmapGet p i = pallocStateFree then
      let start := if run = 0 then i else start
      if run + 1 = n then some start else findRun p n rounds (i + 1) (run + 1) start
    else findRun p n rounds (i + 1) 0 start

/-- `n` pages from `k` on. -/
def markUsed (p : PallocT) (k : Nat) : Nat → PallocT
  | 0 => p
  | n + 1 => markUsed (bitmapSet p k pallocStateUsed) (k + 1) n

def pallocAllocPages (p : PallocT) (n : Nat) : PallocT × PallocErr × Option U32 :=
  if !p.inited then (p, .notInit, none)
  else if n = 0 then (p, .badArgs, none)
  else if n > p.freePages then (p, .oom, none)
  else
    match findRun p n p.pageCount 0 0 0 with
    | none => (p, .oom, none)
    | some start =>
      let p := markUsed p start n
      let p := { p with freePages := p.freePages - n, usedPages := p.usedPages + n }
      ({ p with peakUsed := if p.usedPages > p.peakUsed then p.usedPages else p.peakUsed }, .ok,
        some (pageAddr p start))

def pallocAlloc (p : PallocT) : PallocT × PallocErr × Option U32 := pallocAllocPages p 1

def pallocFree (p : PallocT) (addr : U32) : PallocT × PallocErr :=
  match addrToIndex p addr with
  | .error e => (p, e)
  | .ok index =>
    let state := bitmapGet p index
    if state = pallocStateFree then (p, .doubleFree)
    else if state = pallocStateRsvd then (p, .reserved)
    else
      let p := bitmapSet p index pallocStateFree
      ({ p with usedPages := p.usedPages - 1, freePages := p.freePages + 1 }, .ok)

def pallocState (p : PallocT) (addr : U32) : U32 :=
  match addrToIndex p addr with
  | .error _ => pallocStateBad
  | .ok index => bitmapGet p index

inductive Call where
  | reserve (addr size : U32)
  | allocPages (n : Nat)
  | free (addr : U32)

def perform (p : PallocT) : Call → PallocT × PallocErr × Option U32
  | .reserve addr size => let r := pallocReserve p addr size; (r.1, r.2, none)
  | .allocPages n => pallocAllocPages p n
  | .free addr => let r := pallocFree p addr; (r.1, r.2, none)

def pools : Machine PallocT Call (PallocErr × Option U32) where
  step := perform

def Reached (base size : U32) (bitmap : Nat → U32) (bitmapWords : Nat) (p : PallocT) : Prop :=
  ∃ fresh calls, pallocInit base size bitmap bitmapWords = .ok fresh ∧ p = pools.final fresh calls

/-! # The pages of a pool

What the two bits of a page say, how many pages are in a state, and where a page lies.
-/

variable {p : PallocT} {i j n : Nat} {state : U32}

theorem getLsbD_stateMask (b : Nat) : stateMask.getLsbD b = decide (b < 2) := by
  obtain hIn | hOut := lt_or_ge b 32
  · interval_cases b <;> rfl
  · rw [BitVec.getLsbD_of_ge _ _ hOut, decide_eq_false (by omega)]

theorem bitmapGet_set :
    bitmapGet (bitmapSet p i state) j = if j = i then state &&& stateMask else bitmapGet p j := by
  apply BitVec.eq_of_getLsbD_eq
  intro b hb
  have hShift : stateShift j = j % 16 * 2 := rfl
  have hShift' : stateShift i = i % 16 * 2 := rfl
  by_cases hWord : j / 16 = i / 16
  · simp only [bitmapGet, bitmapSet, hWord, Function.update_self, BitVec.getLsbD_and, BitVec.getLsbD_ushiftRight,
      BitVec.getLsbD_or, BitVec.getLsbD_not, BitVec.getLsbD_shiftLeft, getLsbD_stateMask, hShift, hShift']
    by_cases hSame : j = i
    · subst hSame
      rw [if_pos rfl, BitVec.getLsbD_and, getLsbD_stateMask]
      by_cases hLow : b < 2
      · have hRange : j % 16 * 2 + b < 32 := by omega
        simp [hLow, hRange]
      · simp [hLow]
    · rw [if_neg hSame, BitVec.getLsbD_and, BitVec.getLsbD_ushiftRight, getLsbD_stateMask]
      by_cases hLow : b < 2
      · obtain hLess | hMore := lt_or_ge (j % 16) (i % 16)
        · have hBelow : j % 16 * 2 + b < i % 16 * 2 := by omega
          have hRange : j % 16 * 2 + b < 32 := by omega
          simp [hLow, hBelow, hRange]
        · have hNotBelow : ¬ j % 16 * 2 + b < i % 16 * 2 := by omega
          have hAbove : ¬ j % 16 * 2 + b - i % 16 * 2 < 2 := by omega
          have hRange : j % 16 * 2 + b < 32 := by omega
          simp [hLow, hNotBelow, hAbove, hRange]
      · simp [hLow]
  · have hNe : j ≠ i := by
      rintro rfl
      exact hWord rfl
    simp only [bitmapGet, bitmapSet, Function.update_of_ne hWord, if_neg hNe]

def pagesIn (p : PallocT) (state : U32) : Finset Nat :=
  (Finset.range p.pageCount).filter fun i => bitmapGet p i = state

theorem mem_pagesIn : i ∈ pagesIn p state ↔ i < p.pageCount ∧ bitmapGet p i = state := by
  rw [pagesIn, Finset.mem_filter, Finset.mem_range]

structure Counted (p : PallocT) : Prop where
  free : p.freePages = (pagesIn p pallocStateFree).card
  used : p.usedPages = (pagesIn p pallocStateUsed).card
  reserved : p.reservedPages = (pagesIn p pallocStateRsvd).card

def Known (p : PallocT) : Prop :=
  ∀ i < p.pageCount, bitmapGet p i = pallocStateFree ∨ bitmapGet p i = pallocStateUsed ∨ bitmapGet p i = pallocStateRsvd

theorem Known.card (h : Known p) :
    (pagesIn p pallocStateFree).card + (pagesIn p pallocStateUsed).card + (pagesIn p pallocStateRsvd).card =
      p.pageCount := by
  have hDisjoint {a b : U32} (hNe : a ≠ b) : Disjoint (pagesIn p a) (pagesIn p b) := by
    rw [Finset.disjoint_left]
    intro i hA hB
    exact hNe ((mem_pagesIn.mp hA).2.symm.trans (mem_pagesIn.mp hB).2)
  rw [← Finset.card_union_of_disjoint (hDisjoint (by decide)), ← Finset.card_union_of_disjoint]
  · rw [← Finset.card_range p.pageCount]
    congr 1
    ext i
    rw [Finset.mem_union, Finset.mem_union, mem_pagesIn, mem_pagesIn, mem_pagesIn, Finset.mem_range]
    constructor
    · rintro ((⟨hIn, -⟩ | ⟨hIn, -⟩) | ⟨hIn, -⟩) <;> exact hIn
    · intro hIn
      obtain hFree | hUsed | hRsvd := h i hIn
      · exact .inl (.inl ⟨hIn, hFree⟩)
      · exact .inl (.inr ⟨hIn, hUsed⟩)
      · exact .inr ⟨hIn, hRsvd⟩
  · exact Finset.disjoint_union_left.mpr ⟨hDisjoint (by decide), hDisjoint (by decide)⟩

/-- The pages of a set go from one state to another, and nothing else changes. -/
structure Moved (p q : PallocT) (s : Finset Nat) (a b : U32) : Prop where
  base : q.base = p.base
  pageCount : q.pageCount = p.pageCount
  inited : q.inited = p.inited
  before : s ⊆ pagesIn p a
  after : ∀ i, bitmapGet q i = if i ∈ s then b else bitmapGet p i

namespace Moved

variable {q : PallocT} {s : Finset Nat} {a b : U32}

theorem known (h : Moved p q s a b) (hKnown : Known p)
    (hState : b = pallocStateFree ∨ b = pallocStateUsed ∨ b = pallocStateRsvd) : Known q := by
  intro i hi
  rw [h.after]
  split
  · exact hState
  · exact hKnown i (h.pageCount ▸ hi)

theorem card_to (h : Moved p q s a b) (hNe : a ≠ b) : (pagesIn q b).card = (pagesIn p b).card + s.card := by
  have hDisjoint : Disjoint (pagesIn p b) s := by
    rw [Finset.disjoint_left]
    intro i hB hS
    exact hNe ((mem_pagesIn.mp (h.before hS)).2.symm.trans (mem_pagesIn.mp hB).2)
  rw [← Finset.card_union_of_disjoint hDisjoint]
  congr 1
  ext i
  rw [Finset.mem_union, mem_pagesIn, mem_pagesIn, h.pageCount, h.after]
  by_cases hS : i ∈ s
  · rw [if_pos hS]
    exact ⟨fun _ => .inr hS, fun _ => ⟨(mem_pagesIn.mp (h.before hS)).1, rfl⟩⟩
  · rw [if_neg hS]
    exact ⟨.inl, fun hOr => hOr.resolve_right hS⟩

theorem card_from (h : Moved p q s a b) (hNe : a ≠ b) : (pagesIn q a).card + s.card = (pagesIn p a).card := by
  rw [← Finset.card_sdiff_add_card_eq_card h.before]
  congr 2
  ext i
  rw [Finset.mem_sdiff, mem_pagesIn, mem_pagesIn, h.pageCount, h.after]
  by_cases hS : i ∈ s
  · rw [if_pos hS]
    exact ⟨fun hB => absurd hB.2.symm hNe, fun hB => absurd hS hB.2⟩
  · rw [if_neg hS]
    exact ⟨fun hB => ⟨hB, hS⟩, fun hB => hB.1⟩

theorem card_other {c : U32} (h : Moved p q s a b) (hFrom : a ≠ c) (hTo : b ≠ c) :
    (pagesIn q c).card = (pagesIn p c).card := by
  congr 1
  ext i
  rw [mem_pagesIn, mem_pagesIn, h.pageCount, h.after]
  by_cases hS : i ∈ s
  · rw [if_pos hS, (mem_pagesIn.mp (h.before hS)).2]
    exact ⟨fun hB => absurd hB.2 hTo, fun hA => absurd hA.2 hFrom⟩
  · rw [if_neg hS]

end Moved

theorem bitmapSet_moved {a : U32} (hIn : i < p.pageCount) (hState : bitmapGet p i = a)
    (hMask : state &&& stateMask = state) : Moved p (bitmapSet p i state) {i} a state where
  base := rfl
  pageCount := rfl
  inited := rfl
  before := Finset.singleton_subset_iff.mpr (mem_pagesIn.mpr ⟨hIn, hState⟩)
  after := by
    intro j
    rw [bitmapGet_set, hMask]
    simp only [Finset.mem_singleton]

theorem toNat_down (addr : U32) : (addr &&& ~~~(pallocPageSize - 1)).toNat = addr.toNat / 4096 * 4096 :=
  Bits.clear_low_toNat (k := 12) addr rfl

theorem aligned_iff (addr : U32) : addr &&& (pallocPageSize - 1) = 0 ↔ addr.toNat % 4096 = 0 := by
  have hLow : (addr &&& (pallocPageSize - 1)).toNat = addr.toNat % 4096 := by
    rw [BitVec.toNat_and]
    exact Nat.and_two_pow_sub_one_eq_mod addr.toNat 12
  rw [← hLow]
  constructor
  · intro hZero
    rw [hZero]
    rfl
  · intro hZero
    exact BitVec.eq_of_toNat_eq hZero

theorem toNat_page (addr : U32) : (addr >>> pallocPageShift).toNat = addr.toNat / 4096 := by
  rw [BitVec.toNat_ushiftRight, Nat.shiftRight_eq_div_pow]
  rfl

theorem toNat_bytes (hFew : n ≤ pallocMaxPages) : (BitVec.ofNat 32 n <<< pallocPageShift).toNat = n * 4096 := by
  rw [pallocMaxPages] at hFew
  rw [BitVec.toNat_shiftLeft, BitVec.toNat_ofNat, Nat.shiftLeft_eq, pallocPageShift]
  omega

theorem toNat_pageAddr (hFew : i ≤ pallocMaxPages) : (pageAddr p i).toNat = (p.base.toNat + i * 4096) % 2 ^ 32 := by
  rw [pageAddr, BitVec.toNat_add, toNat_bytes hFew]

/-- What `pallocInit` makes sure of, and no call changes. -/
structure Shaped (p : PallocT) : Prop where
  inited : p.inited = true
  aligned : p.base.toNat % 4096 = 0
  few : p.pageCount ≤ pallocMaxPages

def Fits (p : PallocT) : Prop := p.base.toNat + p.pageCount * 4096 ≤ 2 ^ 32

theorem Shaped.pageAddr_toNat (h : Shaped p) (hFits : Fits p) (hIn : i < p.pageCount) :
    (pageAddr p i).toNat = p.base.toNat + i * 4096 := by
  rw [toNat_pageAddr (hIn.le.trans h.few)]
  rw [Fits] at hFits
  omega

theorem Shaped.addrToIndex_iff (h : Shaped p) (addr : U32) :
    addrToIndex p addr = .ok i ↔ i < p.pageCount ∧ addr.toNat = p.base.toNat + i * 4096 := by
  have hFew := h.few
  have hAligned := h.aligned
  rw [pallocMaxPages] at hFew
  rw [addrToIndex, h.inited, if_neg (by decide)]
  by_cases hPage : addr &&& (pallocPageSize - 1) = 0
  · rw [if_neg (not_not.mpr hPage)]
    rw [aligned_iff] at hPage
    by_cases hBelow : addr < p.base
    · rw [if_pos hBelow]
      rw [BitVec.lt_def] at hBelow
      constructor
      · intro hOk
        cases hOk
      · rintro ⟨-, hEq⟩
        omega
    · rw [if_neg hBelow]
      rw [BitVec.lt_def, not_lt] at hBelow
      have hOffset : (addr - p.base).toNat = addr.toNat - p.base.toNat := BitVec.toNat_sub_of_le hBelow
      simp only [ge_iff_le, BitVec.le_def, toNat_bytes h.few, hOffset]
      by_cases hBehind : p.pageCount * 4096 ≤ addr.toNat - p.base.toNat
      · rw [if_pos hBehind]
        constructor
        · intro hOk
          cases hOk
        · rintro ⟨hIn, hEq⟩
          omega
      · rw [if_neg hBehind, toNat_page, hOffset]
        constructor
        · intro hOk
          cases hOk
          constructor <;> omega
        · rintro ⟨-, hEq⟩
          congr 1
          omega
  · rw [if_pos hPage]
    rw [aligned_iff] at hPage
    constructor
    · intro hOk
      cases hOk
    · rintro ⟨-, hEq⟩
      omega

end OpenXJ380.Palloc
