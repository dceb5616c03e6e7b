import OpenXJ380.Lazy.Model

/-! # A fault on a reserved page (`kernel/memory/lazyalloc.cpp`)

The record of the page is cut in up to two pieces, and a frame is mapped for the
page itself. Each step that can fail undoes those before it.
-/

namespace OpenXJ380.Lazy

section

open Frames Paging TableTree

/-- Which calls of `malloc` have memory: for the two pieces and for their nodes. -/
structure Room where
  left : Bool
  right : Bool
  leftNode : Bool
  rightNode : Bool

def enomem : Int := 12

def findRecord (q : LockQueue) (address : U64) : Option MmVirtualPage :=
  q.records.find? fun vpage => address ≥ vpage.start && address < vpage.start + vpage.count * pageSize

def faultIndex (virtPage : MmVirtualPage) (address : U64) : U64 := (address - virtPage.start) / pageSize

def leftPiece (virtPage : MmVirtualPage) (address : U64) : MmVirtualPage :=
  { virtPage with count := faultIndex virtPage address, index := 0 }

def rightPiece (virtPage : MmVirtualPage) (address : U64) : MmVirtualPage :=
  { virtPage with start := virtPage.start + (faultIndex virtPage address + 1) * pageSize
                  count := virtPage.count - faultIndex virtPage address - 1, index := 0 }

def hasLeft (virtPage : MmVirtualPage) (address : U64) : Bool := faultIndex virtPage address > 0

def hasRight (virtPage : MmVirtualPage) (address : U64) : Bool := faultIndex virtPage address + 1 < virtPage.count

/-- A piece that is not needed gets no node; otherwise the queue and whether the piece is in it. -/
def enqueuePiece (needed node : Bool) (q : LockQueue) (piece : MmVirtualPage) : LockQueue × Bool × U64 :=
  if needed then
    let (q, index) := enqueueRecord node q piece
    (q, index ≠ noIndex, index)
  else (q, true, 0)

def mapZeroed (m : Machine) (pagedir : PageDirectory) (pageAddr phys flags : U64) : Machine :=
  pageTableClear (pageMapTo m pagedir pageAddr phys flags) phys

def pageOf (virtPage : MmVirtualPage) (address : U64) : U64 :=
  virtPage.start + faultIndex virtPage address * pageSize

def lazyTryalloc (room : Room) (m : Machine) (pagedir : PageDirectory) (q : LockQueue) (address : U64) :
    Option (Machine × LockQueue × Int) :=
  match findRecord q address with
  | none => some (m, q, -1)
  | some virtPage =>
    if hasLeft virtPage address && !room.left then some (m, q, -enomem)
    else if hasRight virtPage address && !room.right then some (m, q, -enomem)
    else
      let (m, phys) := allocFrame m
      if phys = 0 then some (m, q, -enomem)
      else
        let m := mapZeroed m pagedir (pageOf virtPage address) phys (virtPage.pteFlags ||| pteFrameAllocated)
        let (q, leftIn, leftIndex) :=
          enqueuePiece (hasLeft virtPage address) room.leftNode q (leftPiece virtPage address)
        if !leftIn then (unmapPage m pagedir (pageOf virtPage address)).map fun m => (m, q, -enomem)
        else
          let (q, rightIn, _) :=
            enqueuePiece (hasRight virtPage address) room.rightNode q (rightPiece virtPage address)
          if !rightIn then
            let q := if hasLeft virtPage address then (queueRemoveAt q leftIndex).1 else q
            (unmapPage m pagedir (pageOf virtPage address)).map fun m => (m, q, -enomem)
          else some (m, (queueRemoveAt q virtPage.index).1, 0)

end

/-! # What is left of a record

Its two pieces reserve the pages before and behind the page of the fault. They
take the place of the record once both are in the queue.
-/

open Paging

variable {q q' : LockQueue} {r piece : MmVirtualPage} {address index : U64} {room : Room} {needed node : Bool} {x : Nat}

theorem findRecord_some (hKept : Kept q) (h : findRecord q address = some r) :
    r ∈ q.records ∧ r.Covers address.toNat := by
  rw [findRecord] at h
  have hMem := List.mem_of_find?_eq_some h
  have hFound := List.find?_some h
  obtain ⟨stop, hStop, hHigh⟩ := (hKept.whole r hMem).rangeEnd
  have hSame : r.start + r.count * pageSize = stop := by
    rw [lazyRangeEnd_eq] at hStop
    split_ifs at hStop
    exact Option.some.inj hStop
  rw [hSame] at hFound
  simp only [ge_iff_le, Bool.and_eq_true, decide_eq_true_eq, BitVec.le_def, BitVec.lt_def, hHigh] at hFound
  exact ⟨hMem, hFound⟩

theorem hasLeft_iff : hasLeft r address ↔ 0 < (faultIndex r address).toNat := by
  rw [hasLeft, decide_eq_true_eq, gt_iff_lt, BitVec.lt_def]
  rfl

structure Around (r : MmVirtualPage) (address : U64) : Prop where
  whole : r.Whole
  covers : r.Covers address.toNat

namespace Around

variable (h : Around r address)

include h

theorem index_spec : r.lo + (faultIndex r address).toNat * 4096 = address.toNat / 4096 * 4096 ∧
    (faultIndex r address).toNat < r.count.toNat := by
  have hLow := h.covers.1
  have hHigh := h.covers.2
  have hAligned := h.whole.aligned
  have hIndex : (faultIndex r address).toNat = (address.toNat - r.lo) / 4096 := by
    rw [faultIndex, BitVec.toNat_udiv, BitVec.toNat_sub_of_le (BitVec.le_def.mpr hLow)]
    rfl
  have hEnd : r.hi = r.lo + r.count.toNat * 4096 := rfl
  rw [hIndex]
  omega

theorem page_toNat : (pageOf r address).toNat = address.toNat / 4096 * 4096 := by
  obtain ⟨hAt, hLess⟩ := h.index_spec
  have hFits := h.whole.fits
  have hEnd : r.hi = r.lo + r.count.toNat * 4096 := rfl
  have hStart : r.start.toNat = r.lo := rfl
  rw [pageOf, BitVec.toNat_add, BitVec.toNat_mul, show pageSize.toNat = 4096 from rfl, hStart]
  generalize (faultIndex r address).toNat = k at hAt hLess
  rw [Nat.mod_eq_of_lt (by omega : k * 4096 < 2 ^ 64), Nat.mod_eq_of_lt (by omega), hAt]

theorem next_toNat : (faultIndex r address + 1).toNat = (faultIndex r address).toNat + 1 := by
  obtain ⟨-, hLess⟩ := h.index_spec
  rw [BitVec.toNat_add, show (1 : U64).toNat = 1 from rfl, Nat.mod_eq_of_lt (by omega)]

theorem hasRight_iff : hasRight r address ↔ (faultIndex r address).toNat + 1 < r.count.toNat := by
  rw [hasRight, decide_eq_true_eq, BitVec.lt_def, h.next_toNat]

theorem left_hi : (leftPiece r address).hi = address.toNat / 4096 * 4096 := h.index_spec.1

theorem right_bounds (hRight : hasRight r address) :
    (rightPiece r address).lo = address.toNat / 4096 * 4096 + 4096 ∧ (rightPiece r address).hi = r.hi := by
  have hMore := h.hasRight_iff.mp hRight
  obtain ⟨hAt, hLess⟩ := h.index_spec
  have hFits := h.whole.fits
  have hNext := h.next_toNat
  have hEnd : r.hi = r.lo + r.count.toNat * 4096 := rfl
  have hLe : faultIndex r address ≤ r.count := BitVec.le_def.mpr hLess.le
  have hSub : (r.count - faultIndex r address).toNat = r.count.toNat - (faultIndex r address).toNat :=
    BitVec.toNat_sub_of_le hLe
  have hOne : (1 : U64) ≤ r.count - faultIndex r address := by
    rw [BitVec.le_def, hSub, show (1 : U64).toNat = 1 from rfl]
    omega
  have hSize : (rightPiece r address).count.toNat = r.count.toNat - (faultIndex r address).toNat - 1 := by
    change (r.count - faultIndex r address - 1).toNat = _
    rw [BitVec.toNat_sub_of_le hOne, hSub]
    rfl
  have hStart : (rightPiece r address).lo = (r.lo + (faultIndex r address + 1).toNat * 4096 % 2 ^ 64) % 2 ^ 64 := by
    change (r.start + (faultIndex r address + 1) * pageSize).toNat = _
    rw [BitVec.toNat_add, BitVec.toNat_mul]
    rfl
  have hHi : (rightPiece r address).hi = (rightPiece r address).lo + (rightPiece r address).count.toNat * 4096 := rfl
  rw [hNext] at hStart
  rw [hSize] at hHi
  generalize (faultIndex r address).toNat = k at hAt hLess hMore hHi hStart
  rw [Nat.mod_eq_of_lt (by omega : (k + 1) * 4096 < 2 ^ 64), Nat.mod_eq_of_lt (by omega)] at hStart
  constructor
  · omega
  · omega

end Around

/-- Records that reserve what the record reserves, but for the page of the fault. -/
structure Pieces (r : MmVirtualPage) (address : U64) (pieces : List MmVirtualPage) : Prop where
  whole : ∀ p ∈ pieces, p.Whole
  same : ∀ p ∈ pieces, p.flags = r.flags ∧ p.pteFlags = r.pteFlags
  inside : ∀ p ∈ pieces, r.lo ≤ p.lo ∧ p.hi ≤ r.hi
  apart : pieces.Pairwise Apart
  covers : ∀ x, (∃ p ∈ pieces, p.Covers x) ↔ r.Covers x ∧ x / 4096 ≠ address.toNat / 4096

def placed (needed : Bool) (piece : MmVirtualPage) (index : U64) : List MmVirtualPage :=
  if needed then [{ piece with index := index }] else []

theorem mem_placed {p : MmVirtualPage} :
    p ∈ placed needed piece index ↔ needed ∧ p = { piece with index := index } := by
  rw [placed]
  cases needed with
  | false => simp
  | true => simp

theorem Around.pieces (h : Around r address) (i j : U64) :
    Pieces r address (placed (hasLeft r address) (leftPiece r address) i ++
      placed (hasRight r address) (rightPiece r address) j) := by
  have hWhole := h.whole
  have hAligned := hWhole.aligned
  have hFits := hWhole.fits
  have hHigh := h.covers.2
  have hLeftHi := h.left_hi
  have hLeftLo : (leftPiece r address).lo = r.lo := rfl
  obtain ⟨hAt, hLess⟩ := h.index_spec
  have hEnd : r.hi = r.lo + r.count.toNat * 4096 := rfl
  have hMem : ∀ p, p ∈ placed (hasLeft r address) (leftPiece r address) i ++
      placed (hasRight r address) (rightPiece r address) j ↔
      (hasLeft r address ∧ p = { leftPiece r address with index := i }) ∨
        (hasRight r address ∧ p = { rightPiece r address with index := j }) := by
    intro p
    rw [List.mem_append, mem_placed, mem_placed]
  have hBounds : ∀ p, p ∈ placed (hasLeft r address) (leftPiece r address) i ++
      placed (hasRight r address) (rightPiece r address) j →
      (0 < (faultIndex r address).toNat ∧ p.lo = r.lo ∧ p.hi = address.toNat / 4096 * 4096) ∨
        ((faultIndex r address).toNat + 1 < r.count.toNat ∧ p.lo = address.toNat / 4096 * 4096 + 4096 ∧
            p.hi = r.hi) := by
    intro p hp
    obtain ⟨hLeft, rfl⟩ | ⟨hRight, rfl⟩ := (hMem p).mp hp
    · exact .inl ⟨hasLeft_iff.mp hLeft, hLeftLo, hLeftHi⟩
    · exact .inr ⟨h.hasRight_iff.mp hRight, h.right_bounds hRight⟩
  refine ⟨?_, ?_, ?_, ?_, ?_⟩
  · intro p hp
    obtain ⟨hSome, hLo, hHi⟩ | ⟨hSome, hLo, hHi⟩ := hBounds p hp
    · exact ⟨by omega, by omega, by omega⟩
    · exact ⟨by omega, by omega, by omega⟩
  · intro p hp
    obtain ⟨-, rfl⟩ | ⟨-, rfl⟩ := (hMem p).mp hp
    · exact ⟨rfl, rfl⟩
    · exact ⟨rfl, rfl⟩
  · intro p hp
    obtain ⟨-, hLo, hHi⟩ | ⟨-, hLo, hHi⟩ := hBounds p hp
    · exact ⟨by omega, by omega⟩
    · exact ⟨by omega, by omega⟩
  · rw [List.pairwise_append]
    refine ⟨?_, ?_, ?_⟩
    · rw [placed]
      split_ifs
      · exact List.pairwise_singleton _ _
      · exact .nil
    · rw [placed]
      split_ifs
      · exact List.pairwise_singleton _ _
      · exact .nil
    · intro p hp p' hp'
      obtain ⟨-, rfl⟩ := mem_placed.mp hp
      obtain ⟨hRight, rfl⟩ := mem_placed.mp hp'
      left
      change (leftPiece r address).hi ≤ (rightPiece r address).lo
      rw [hLeftHi, (h.right_bounds hRight).1]
      omega
  · intro x
    constructor
    · rintro ⟨p, hp, hFrom, hTo⟩
      obtain ⟨-, hLo, hHi⟩ | ⟨-, hLo, hHi⟩ := hBounds p hp
      · exact ⟨⟨by omega, by omega⟩, by omega⟩
      · exact ⟨⟨by omega, by omega⟩, by omega⟩
    · rintro ⟨⟨hFrom, hTo⟩, hOther⟩
      by_cases hBelow : x < address.toNat / 4096 * 4096
      · have hLeft : hasLeft r address := hasLeft_iff.mpr (by omega)
        refine ⟨_, (hMem _).mpr (.inl ⟨hLeft, rfl⟩), hFrom, ?_⟩
        change x < (leftPiece r address).hi
        omega
      · have hRight : hasRight r address := h.hasRight_iff.mpr (by omega)
        obtain ⟨hLo, hHi⟩ := h.right_bounds hRight
        refine ⟨_, (hMem _).mpr (.inr ⟨hRight, rfl⟩), ?_, ?_⟩
        · change (rightPiece r address).lo ≤ x
          omega
        · change x < (rightPiece r address).hi
          omega

/-- The piece is in the queue, and can be taken out again, or there was no node for it. -/
inductive Enqueued (needed node : Bool) (q : LockQueue) (piece : MmVirtualPage) : LockQueue × Bool × U64 → Prop
  | done {q' : LockQueue} {index : U64} (hNumbered : Numbered q')
      (hRecords : q'.records = q.records ++ placed needed piece index)
      (hUndo : (if needed then (queueRemoveAt q' index).1 else q').nodes = q.nodes) :
      Enqueued needed node q piece (q', true, index)
  | missing (hNeeded : needed = true) (hNode : node = false ∨ q.nextIndex = noIndex) :
      Enqueued needed node q piece (q, false, noIndex)

theorem queueRemoveAt_last {nodes : List (U64 × MmVirtualPage)} {next : U64}
    (hNew : ∀ current ∈ nodes, current.1 ≠ index) :
    (queueRemoveAt { nodes := nodes ++ [(index, piece)], nextIndex := next } index).1.nodes = nodes := by
  have hOther : ∀ current ∈ nodes, ¬ decide (current.1 = index) := by
    intro current hMem
    rw [decide_eq_true_eq]
    exact hNew current hMem
  have hFind : (nodes ++ [(index, piece)]).find? (fun current => current.1 = index) = some (index, piece) := by
    rw [List.find?_append, List.find?_eq_none.mpr hOther]
    simp
  simp only [queueRemoveAt, hFind]
  rw [List.eraseP_append_right _ hOther]
  simp

theorem Numbered.new (h : Numbered q) : ∀ current ∈ q.nodes, current.1 ≠ q.nextIndex := by
  rintro current hMem hSame
  have hLess := h.given current hMem
  rw [hSame] at hLess
  exact lt_irrefl _ hLess

theorem nextIndex_succ (hNext : q.nextIndex ≠ noIndex) : (q.nextIndex + 1).toNat = q.nextIndex.toNat + 1 := by
  have hLess := q.nextIndex.isLt
  have hNe : q.nextIndex.toNat ≠ 2 ^ 64 - 1 := fun hLast => hNext (BitVec.eq_of_toNat_eq hLast)
  rw [BitVec.toNat_add, show (1 : U64).toNat = 1 from rfl, Nat.mod_eq_of_lt (by omega)]

theorem numbered_enqueued (h : Numbered q) (hNext : q.nextIndex ≠ noIndex) :
    Numbered { nodes := q.nodes ++ [(q.nextIndex, { piece with index := q.nextIndex })]
               nextIndex := q.nextIndex + 1 } := by
  refine ⟨?_, ?_, ?_⟩
  · intro current hMem
    obtain hOld | rfl := List.mem_append.mp hMem |>.imp id List.mem_singleton.mp
    · exact h.numbered current hOld
    · rfl
  · rw [List.map_append, List.nodup_append]
    refine ⟨h.distinct, List.nodup_singleton _, ?_⟩
    intro i hi j hj
    obtain ⟨current, hMem, rfl⟩ := List.mem_map.mp hi
    rw [List.mem_singleton.mp hj]
    exact h.new current hMem
  · intro current hMem
    rw [nextIndex_succ hNext]
    obtain hOld | rfl := List.mem_append.mp hMem |>.imp id List.mem_singleton.mp
    · exact Nat.lt_succ_of_lt (h.given current hOld)
    · exact lt_add_one _

theorem enqueuePiece_spec (h : Numbered q) (needed node : Bool) (piece : MmVirtualPage) :
    Enqueued needed node q piece (enqueuePiece needed node q piece) := by
  rw [enqueuePiece]
  cases needed with
  | false => exact .done h (List.append_nil _).symm rfl
  | true =>
    have hEnqueue := enqueueRecord_eq node q piece
    by_cases hRoom : node ∧ q.nextIndex ≠ noIndex
    · rw [if_pos hRoom] at hEnqueue
      simp only [if_true, hEnqueue, decide_eq_true hRoom.2]
      refine .done (numbered_enqueued h hRoom.2) ?_ ?_
      · rw [LockQueue.records, LockQueue.records, List.map_append]
        rfl
      · rw [if_pos rfl]
        exact queueRemoveAt_last h.new
    · have hMissing : node = false ∨ q.nextIndex = noIndex := by
        cases node with
        | false => exact .inl rfl
        | true => exact .inr (not_not.mp fun hNot => hRoom ⟨rfl, hNot⟩)
      rw [if_neg hRoom] at hEnqueue
      simp only [if_true, hEnqueue]
      exact .missing rfl hMissing

structure Replaced (q : LockQueue) (r : MmVirtualPage) (pieces : List MmVirtualPage) (q' : LockQueue) : Prop where
  numbered : Numbered q'
  records : q'.records.Perm (q.records.erase r ++ pieces)

theorem removed (h : Numbered q) (hMem : r ∈ q.records) :
    ∃ q', queueRemoveAt q r.index = (q', some r) ∧ Numbered q' ∧ q'.records.Perm (q.records.erase r) ∧
      q'.nextIndex = q.nextIndex := by
  obtain ⟨q', hRemove, hNodes, hNext, hPerm⟩ := queueRemoveAt_spec h hMem
  refine ⟨q', hRemove, ?_, ((List.perm_cons_erase hMem).symm.trans hPerm).cons_inv.symm, hNext⟩
  refine ⟨fun current hOld => h.numbered current (hNodes.subset hOld), h.distinct.sublist (hNodes.map Prod.fst), ?_⟩
  intro current hOld
  rw [hNext]
  exact h.given current (hNodes.subset hOld)

theorem replaced {pieces : List MmVirtualPage} {q₂ : LockQueue} (hMem : r ∈ q.records)
    (hNumbered : Numbered q₂) (hRecords : q₂.records = q.records ++ pieces) :
    Replaced q r pieces (queueRemoveAt q₂ r.index).1 := by
  have hIn : r ∈ q₂.records := by
    rw [hRecords]
    exact List.mem_append_left _ hMem
  obtain ⟨q', hRemove, hLeft, hPerm, -⟩ := removed hNumbered hIn
  rw [hRemove]
  refine ⟨hLeft, ?_⟩
  rw [hRecords, List.erase_append_left _ hMem] at hPerm
  exact hPerm

theorem Replaced.mem (h : Replaced q r pieces q') (hKept : Kept q) {p : MmVirtualPage} :
    p ∈ q'.records ↔ (p ≠ r ∧ p ∈ q.records) ∨ p ∈ pieces := by
  rw [h.records.mem_iff, List.mem_append, hKept.nodup.mem_erase_iff]

theorem Replaced.kept {pieces : List MmVirtualPage} (h : Replaced q r pieces q') (hKept : Kept q) (hMem : r ∈ q.records)
    (hPieces : Pieces r address pieces) : Kept q' := by
  refine { toNumbered := h.numbered, whole := ?_, apart := ?_ }
  · intro p hp
    obtain ⟨-, hOld⟩ | hNew := (h.mem hKept).mp hp
    · exact hKept.whole p hOld
    · exact hPieces.whole p hNew
  · rw [h.records.pairwise_iff fun hApart => hApart.symm, List.pairwise_append]
    refine ⟨hKept.apart.sublist List.erase_sublist, hPieces.apart, ?_⟩
    intro p hp p' hp'
    obtain ⟨hNe, hOld⟩ := hKept.nodup.mem_erase_iff.mp hp
    have hAway := hKept.apart_of_mem hOld hMem hNe
    obtain ⟨hLow, hHigh⟩ := hPieces.inside p' hp'
    obtain hBelow | hAbove := hAway
    · exact .inl (by omega)
    · exact .inr (by omega)

end OpenXJ380.Lazy
