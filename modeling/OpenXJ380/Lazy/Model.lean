import OpenXJ380.Paging.Search

/-! # Ranges reserved for later (`kernel/memory/lazyalloc.cpp`, `kernel/lock_queue.cpp`)

The records of a process are the nodes of a queue with numbered nodes. A record
keeps the number of its node. A call is given which of its calls of `malloc`
have memory.
-/

namespace OpenXJ380.Lazy

open Paging

structure MmVirtualPage where
  start : U64
  count : U64
  flags : U64
  pteFlags : U64
  index : U64
deriving DecidableEq

structure LockQueue where
  nodes : List (U64 × MmVirtualPage)
  nextIndex : U64
deriving DecidableEq

/-- `(size_t)-1`. -/
def noIndex : U64 := -1

/-- `node` says whether `malloc` has memory for a node. -/
def queueEnqueue (node : Bool) (q : LockQueue) (data : MmVirtualPage) : LockQueue × U64 :=
  if node = false then (q, noIndex)
  else if q.nextIndex = noIndex then (q, noIndex)
  else ({ nodes := q.nodes ++ [(q.nextIndex, data)], nextIndex := q.nextIndex + 1 }, q.nextIndex)

/-- `record->index = queue_enqueue(queue, record)`, where the record is in the queue already. -/
def enqueueRecord (node : Bool) (q : LockQueue) (record : MmVirtualPage) : LockQueue × U64 :=
  queueEnqueue node q { record with index := (queueEnqueue node q record).2 }

def queueRemoveAt (q : LockQueue) (index : U64) : LockQueue × Option MmVirtualPage :=
  match q.nodes.find? fun current => current.1 = index with
  | none => (q, none)
  | some current => ({ q with nodes := q.nodes.eraseP fun current => current.1 = index }, some current.2)

def LockQueue.records (q : LockQueue) : List MmVirtualPage := q.nodes.map Prod.snd

/-- Where so many pages end, or `none` past the end of the address space. -/
def lazyRangeEnd (start count : U64) : Option U64 :=
  if count > BitVec.allOnes 64 / pageSize then none
  else
    let length := count * pageSize
    if start > BitVec.allOnes 64 - length then none else some (start + length)

/-- The first record with these flags that overlaps the range or ends where it begins. -/
def findNeighbour (q : LockQueue) (newStart newEnd pageFlags flags : U64) : Option MmVirtualPage :=
  q.records.find? fun vpage =>
    !(vpage.flags ≠ flags || vpage.pteFlags ≠ pageFlags) &&
      (lazyRangeEnd vpage.start vpage.count).any fun vpageEnd => !(newEnd < vpage.start || newStart > vpageEnd)

/-- The range grows over its neighbours, which leave the queue; `fuel` bounds the rounds. -/
def absorb (pageFlags flags : U64) : Nat → LockQueue → U64 → U64 → Option (LockQueue × U64 × U64)
  | 0, _, _, _ => none
  | fuel + 1, q, newStart, newEnd =>
    match findNeighbour q newStart newEnd pageFlags flags with
    | none => some (q, newStart, newEnd)
    | some candidate =>
      match queueRemoveAt q candidate.index with
      | (q, none) => absorb pageFlags flags fuel q newStart newEnd
      | (q, some removed) =>
        match lazyRangeEnd removed.start removed.count with
        | none => absorb pageFlags flags fuel q newStart newEnd
        | some removedEnd =>
          absorb pageFlags flags fuel q (if newStart < removed.start then newStart else removed.start)
            (if newEnd > removedEnd then newEnd else removedEnd)

def pageCount (length : U64) : U64 := (length + pageSize - 1) / pageSize

/-- `lazy_infoalloc` without `MAP_FIXED`. `room` says whether `malloc` has memory for the record,
    `node` for its node. -/
def lazyInfoalloc (fuel : Nat) (room node : Bool) (q : LockQueue) (vaddr length pageFlags flags : U64) :
    Option (LockQueue × Bool) :=
  let count := pageCount length
  if count = 0 then some (q, false)
  else
    match lazyRangeEnd vaddr count with
    | none => some (q, false)
    | some stop => do
      let (q, newStart, newEnd) ← absorb pageFlags flags fuel q vaddr stop
      if room = false then some (q, false)
      else
        let record := { start := newStart, count := (newEnd - newStart) / pageSize, flags := flags,
                        pteFlags := pageFlags, index := 0 }
        let (q, index) := enqueueRecord node q record
        if index = noIndex then some (q, false) else some (q, true)

/-! # The records of a process

Which addresses a record reserves, and what the numbers of the nodes are good for.
-/

open BitVec (lt_def toNat_mul)

section

open Paging

variable {q q' : LockQueue} {r r' : MmVirtualPage} {start count length index : U64} {x : Nat} {node : Bool}

def MmVirtualPage.lo (r : MmVirtualPage) : Nat := r.start.toNat

def MmVirtualPage.hi (r : MmVirtualPage) : Nat := r.start.toNat + r.count.toNat * 4096

theorem MmVirtualPage.lo_le_hi (r : MmVirtualPage) : r.lo ≤ r.hi := Nat.le_add_right _ _

def MmVirtualPage.Covers (r : MmVirtualPage) (x : Nat) : Prop := r.lo ≤ x ∧ x < r.hi

def SameFlags (r r' : MmVirtualPage) : Prop := r.flags = r'.flags ∧ r.pteFlags = r'.pteFlags

def Wanted (pageFlags flags : U64) (r : MmVirtualPage) : Prop := r.flags = flags ∧ r.pteFlags = pageFlags

def Reserved (q : LockQueue) (x : Nat) : Prop := ∃ r ∈ q.records, r.Covers x

def ReservedAs (q : LockQueue) (pageFlags flags : U64) (x : Nat) : Prop :=
  ∃ r ∈ q.records, Wanted pageFlags flags r ∧ r.Covers x

def Apart (r r' : MmVirtualPage) : Prop := r.hi ≤ r'.lo ∨ r'.hi ≤ r.lo

def Touches (r r' : MmVirtualPage) : Prop := r.lo ≤ r'.hi ∧ r'.lo ≤ r.hi

structure MmVirtualPage.Whole (r : MmVirtualPage) : Prop where
  aligned : r.lo % 4096 = 0
  nonempty : r.lo < r.hi
  fits : r.hi < 2 ^ 64

/-- Each record has the number of its node, which is one of those already given out. -/
structure Numbered (q : LockQueue) : Prop where
  numbered : ∀ current ∈ q.nodes, current.2.index = current.1
  distinct : (q.nodes.map Prod.fst).Nodup
  given : ∀ current ∈ q.nodes, current.1.toNat < q.nextIndex.toNat

structure Kept (q : LockQueue) : Prop extends Numbered q where
  whole : ∀ r ∈ q.records, r.Whole
  apart : q.records.Pairwise Apart

theorem Apart.symm (h : Apart r r') : Apart r' r := Or.symm h

instance : Std.Symm Apart := ⟨fun _ _ h => h.symm⟩

theorem Apart.not_covers (h : Apart r r') (hCovers : r.Covers x) : ¬ r'.Covers x := by
  rintro ⟨hLow, hHigh⟩
  obtain ⟨hFrom, hTo⟩ := hCovers
  obtain hBelow | hAbove := h
  · omega
  · omega

theorem Kept.apart_of_mem (h : Kept q) (hr : r ∈ q.records) (hr' : r' ∈ q.records) (hNe : r ≠ r') : Apart r r' :=
  h.apart.forall hr hr' hNe

theorem Kept.nodup (h : Kept q) : q.records.Nodup := by
  rw [List.nodup_iff_pairwise_ne]
  refine h.apart.imp_of_mem ?_
  rintro r r' hr - hApart rfl
  have hNonempty := (h.whole r hr).nonempty
  obtain hLe | hLe := hApart
  · omega
  · omega

theorem Kept.sublist (h : Kept q) (hNodes : q'.nodes.Sublist q.nodes) (hNext : q'.nextIndex = q.nextIndex) :
    Kept q' where
  whole := fun r hr => h.whole r ((hNodes.map Prod.snd).subset hr)
  apart := h.apart.sublist (hNodes.map Prod.snd)
  numbered := fun current hMem => h.numbered current (hNodes.subset hMem)
  distinct := h.distinct.sublist (hNodes.map Prod.fst)
  given := fun current hMem => by
    rw [hNext]
    exact h.given current (hNodes.subset hMem)

theorem lazyRangeEnd_eq : lazyRangeEnd start count =
    if start.toNat + count.toNat * 4096 < 2 ^ 64 then some (start + count * pageSize) else none := by
  have hMost : (BitVec.allOnes 64 / pageSize : U64).toNat = (2 ^ 64 - 1) / 4096 := rfl
  rw [lazyRangeEnd]
  by_cases hCount : count > BitVec.allOnes 64 / pageSize
  · rw [if_pos hCount]
    rw [gt_iff_lt, lt_def, hMost] at hCount
    rw [if_neg (by omega)]
  · rw [if_neg hCount]
    rw [gt_iff_lt, lt_def, hMost, not_lt] at hCount
    have hLength : (count * pageSize).toNat = count.toNat * 4096 := by
      rw [toNat_mul, show pageSize.toNat = 4096 from rfl, Nat.mod_eq_of_lt (by omega)]
    have hRest : (BitVec.allOnes 64 - count * pageSize).toNat = 2 ^ 64 - 1 - count.toNat * 4096 := by
      rw [BitVec.toNat_sub_of_le (by rw [BitVec.le_def, hLength, BitVec.toNat_allOnes]; omega), hLength,
        BitVec.toNat_allOnes]
    simp only [gt_iff_lt, lt_def, hRest]
    by_cases hFits : start.toNat + count.toNat * 4096 < 2 ^ 64
    · rw [if_neg (by omega), if_pos hFits]
    · rw [if_pos (by omega), if_neg hFits]

theorem lazyRangeEnd_toNat {stop : U64} (h : lazyRangeEnd start count = some stop) :
    stop.toNat = start.toNat + count.toNat * 4096 := by
  rw [lazyRangeEnd_eq] at h
  split_ifs at h with hFits
  rw [← Option.some.inj h, BitVec.toNat_add, toNat_mul, show pageSize.toNat = 4096 from rfl,
    Nat.mod_eq_of_lt (show count.toNat * 4096 < 2 ^ 64 by omega), Nat.mod_eq_of_lt hFits]

theorem MmVirtualPage.Whole.rangeEnd (h : r.Whole) :
    ∃ stop, lazyRangeEnd r.start r.count = some stop ∧ stop.toNat = r.hi := by
  have hEnd : lazyRangeEnd r.start r.count = some (r.start + r.count * pageSize) := by
    rw [lazyRangeEnd_eq]
    exact if_pos h.fits
  exact ⟨_, hEnd, lazyRangeEnd_toNat hEnd⟩

theorem queueRemoveAt_spec (h : Numbered q) (hr : r ∈ q.records) :
    ∃ q', queueRemoveAt q r.index = (q', some r) ∧ q'.nodes.Sublist q.nodes ∧ q'.nextIndex = q.nextIndex ∧
      q.records.Perm (r :: q'.records) := by
  obtain ⟨current, hMem, rfl⟩ := List.mem_map.mp hr
  have hIndex := h.numbered current hMem
  have hOnly : ∀ other ∈ q.nodes, other.1 = current.2.index → other = current := by
    intro other hOther hSame
    exact List.inj_on_of_nodup_map h.distinct hOther hMem (hSame.trans hIndex)
  have hFind : q.nodes.find? (fun other => other.1 = current.2.index) = some current := by
    rcases hSearch : q.nodes.find? (fun other => other.1 = current.2.index) with _ | other
    · have hNone := List.find?_eq_none.mp hSearch current hMem
      simp [hIndex] at hNone
    · have hFound := List.find?_some hSearch
      exact hSearch.trans (congrArg some (hOnly other (List.mem_of_find?_eq_some hSearch) (of_decide_eq_true hFound)))
  refine ⟨{ q with nodes := q.nodes.eraseP fun other => other.1 = current.2.index }, ?_, List.eraseP_sublist, rfl, ?_⟩
  · rw [queueRemoveAt, hFind]
  · obtain ⟨found, l₁, l₂, -, hFound, hNodes, hErase⟩ := List.exists_of_eraseP
      (p := fun other => decide (other.1 = current.2.index)) hMem (decide_eq_true hIndex.symm)
    have hSame : found = current := by
      refine hOnly found ?_ (of_decide_eq_true hFound)
      rw [hNodes]
      exact List.mem_append_right _ (.head _)
    rw [LockQueue.records, LockQueue.records, hErase, hNodes, hSame, List.map_append, List.map_append, List.map_cons]
    exact List.perm_middle

theorem enqueueRecord_eq (node : Bool) (q : LockQueue) (record : MmVirtualPage) :
    enqueueRecord node q record =
      if node ∧ q.nextIndex ≠ noIndex then
        ({ nodes := q.nodes ++ [(q.nextIndex, { record with index := q.nextIndex })], nextIndex := q.nextIndex + 1 },
          q.nextIndex)
      else (q, noIndex) := by
  rw [enqueueRecord, queueEnqueue, queueEnqueue]
  cases node with
  | false => rfl
  | true =>
    by_cases hFull : q.nextIndex = noIndex
    · simp [hFull]
    · simp [hFull]

end

/-! # Growing over the neighbours

The records that a new range takes in are those it reaches from one neighbour
to the next, in whichever order they are found.
-/

open Paging

variable {q q' : LockQueue} {r r' : MmVirtualPage} {pageFlags flags newStart newEnd : U64} {fuel lo hi lo' hi' x : Nat}

def Reaches (lo hi : Nat) (r : MmVirtualPage) : Prop := r.lo ≤ hi ∧ lo ≤ r.hi

inductive Absorbed (q : LockQueue) (pageFlags flags : U64) (lo hi : Nat) : MmVirtualPage → Prop
  | first {r : MmVirtualPage} (hMem : r ∈ q.records) (hWanted : Wanted pageFlags flags r) (hReaches : Reaches lo hi r) :
      Absorbed q pageFlags flags lo hi r
  | next {r r' : MmVirtualPage} (hBefore : Absorbed q pageFlags flags lo hi r) (hMem : r' ∈ q.records)
      (hWanted : Wanted pageFlags flags r') (hTouches : Touches r r') : Absorbed q pageFlags flags lo hi r'

theorem Absorbed.wanted (h : Absorbed q pageFlags flags lo hi r) : r ∈ q.records ∧ Wanted pageFlags flags r := by
  cases h with
  | first hMem hWanted hReaches => exact ⟨hMem, hWanted⟩
  | next hBefore hMem hWanted hTouches => exact ⟨hMem, hWanted⟩

theorem findNeighbour_some (hKept : Kept q) (h : findNeighbour q newStart newEnd pageFlags flags = some r) :
    r ∈ q.records ∧ Wanted pageFlags flags r ∧ Reaches newStart.toNat newEnd.toNat r := by
  rw [findNeighbour] at h
  have hMem := List.mem_of_find?_eq_some h
  have hFound := List.find?_some h
  obtain ⟨stop, hStop, hHigh⟩ := (hKept.whole r hMem).rangeEnd
  simp only [ne_eq, decide_not, Bool.not_or, Bool.not_not, hStop, Option.any_some, Bool.and_eq_true, decide_eq_true_eq,
    Bool.not_eq_true', decide_eq_false_iff_not, lt_def, gt_iff_lt, not_lt, hHigh] at hFound
  exact ⟨hMem, hFound.1, hFound.2⟩

theorem findNeighbour_none (hKept : Kept q) (h : findNeighbour q newStart newEnd pageFlags flags = none)
    (hMem : r ∈ q.records) (hWanted : Wanted pageFlags flags r) : ¬ Reaches newStart.toNat newEnd.toNat r := by
  rintro ⟨hLow, hHigh⟩
  have hNot := List.find?_eq_none.mp h r hMem
  obtain ⟨stop, hStop, hEnd⟩ := (hKept.whole r hMem).rangeEnd
  rw [← hEnd] at hHigh
  have hBelow : ¬ newEnd < r.start := by
    rw [lt_def]
    exact not_lt.mpr hLow
  have hAbove : ¬ newStart > stop := by
    rw [gt_iff_lt, lt_def]
    omega
  apply hNot
  simp [hWanted.1, hWanted.2, hStop, hBelow, hAbove]

/-- The range has become the one from `lo'` up to `hi'`. -/
structure Swallows (q : LockQueue) (pageFlags flags : U64) (lo hi : Nat) (q' : LockQueue) (lo' hi' : Nat) : Prop where
  nodes : q'.nodes.Sublist q.nodes
  nextIndex : q'.nextIndex = q.nextIndex
  low : lo' ≤ lo
  high : hi ≤ hi'
  whole : lo % 4096 = 0 → hi % 4096 = 0 → lo' % 4096 = 0 ∧ hi' % 4096 = 0
  covered : ∀ x, lo' ≤ x ∧ x < hi' ↔ (lo ≤ x ∧ x < hi) ∨ ∃ r ∈ q.records, r ∉ q'.records ∧ r.Covers x
  gone : ∀ r ∈ q.records, r ∉ q'.records → Absorbed q pageFlags flags lo hi r
  stays : ∀ r ∈ q'.records, Wanted pageFlags flags r → ¬ Reaches lo' hi' r

theorem Swallows.none (hStays : ∀ r ∈ q.records, Wanted pageFlags flags r → ¬ Reaches lo hi r) :
    Swallows q pageFlags flags lo hi q lo hi where
  nodes := List.Sublist.refl _
  nextIndex := rfl
  low := le_rfl
  high := le_rfl
  whole := fun hLow hHigh => ⟨hLow, hHigh⟩
  covered := fun _ => ⟨.inl, fun h => h.resolve_right fun ⟨_, hr, hGone, _⟩ => hGone hr⟩
  gone := fun _ hr hGone => absurd hr hGone
  stays := hStays

theorem Absorbed.widen (hFirst : Absorbed q pageFlags flags lo hi r) (hReaches : Reaches lo hi r)
    (hRecords : ∀ r ∈ q'.records, r ∈ q.records) (h : Absorbed q' pageFlags flags (min lo r.lo) (max hi r.hi) r') :
    Absorbed q pageFlags flags lo hi r' := by
  induction h with
  | @first r' hMem hWanted hReaches' =>
    obtain ⟨hLow, hHigh⟩ := hReaches
    obtain ⟨hLow', hHigh'⟩ := hReaches'
    have hOrder := r'.lo_le_hi
    by_cases hDirect : Reaches lo hi r'
    · exact .first (hRecords r' hMem) hWanted hDirect
    · refine .next hFirst (hRecords r' hMem) hWanted ⟨?_, ?_⟩
      · rw [Reaches] at hDirect
        omega
      · rw [Reaches] at hDirect
        omega
  | next _ hMem hWanted hTouches ih => exact .next ih (hRecords _ hMem) hWanted hTouches

theorem Swallows.cons {q₁ : LockQueue} (hKept : Kept q) (hMem : r ∈ q.records) (hWanted : Wanted pageFlags flags r)
    (hReaches : Reaches lo hi r) (hNodes : q₁.nodes.Sublist q.nodes) (hNext : q₁.nextIndex = q.nextIndex)
    (hPerm : q.records.Perm (r :: q₁.records))
    (h : Swallows q₁ pageFlags flags (min lo r.lo) (max hi r.hi) q' lo' hi') :
    Swallows q pageFlags flags lo hi q' lo' hi' := by
  have hRecords : ∀ r ∈ q₁.records, r ∈ q.records := fun r hr => hPerm.mem_iff.mpr (.tail _ hr)
  have hOut : r ∉ q₁.records := (List.nodup_cons.mp (hPerm.nodup_iff.mp hKept.nodup)).1
  have hFirst : Absorbed q pageFlags flags lo hi r := .first hMem hWanted hReaches
  have hAligned := (hKept.whole r hMem).aligned
  refine { nodes := h.nodes.trans hNodes, nextIndex := h.nextIndex.trans hNext, low := ?_, high := ?_, whole := ?_,
           covered := ?_, gone := ?_, stays := h.stays }
  · exact h.low.trans (min_le_left _ _)
  · exact (le_max_left _ _).trans h.high
  · intro hLow hHigh
    have hEnd : r.hi % 4096 = 0 := by
      change r.start.toNat % 4096 = 0 at hAligned
      rw [MmVirtualPage.hi]
      omega
    exact h.whole (by omega) (by omega)
  · intro x
    rw [h.covered]
    obtain ⟨hLow, hHigh⟩ := hReaches
    constructor
    · rintro (hIn | ⟨r', hr', hGone, hCovers⟩)
      · by_cases hOld : lo ≤ x ∧ x < hi
        · exact .inl hOld
        · refine .inr ⟨r, hMem, fun hStill => hOut ((h.nodes.map Prod.snd).subset hStill), ?_⟩
          constructor
          · omega
          · omega
      · exact .inr ⟨r', hRecords r' hr', hGone, hCovers⟩
    · rintro (hOld | ⟨r', hr', hGone, hCovers⟩)
      · exact .inl (by omega)
      · obtain rfl | hr' := List.mem_cons.mp (hPerm.mem_iff.mp hr')
        · obtain ⟨hFrom, hTo⟩ := hCovers
          exact .inl (by omega)
        · exact .inr ⟨r', hr', hGone, hCovers⟩
  · intro r' hr' hGone
    obtain rfl | hr' := List.mem_cons.mp (hPerm.mem_iff.mp hr')
    · exact hFirst
    · exact hFirst.widen hReaches hRecords (h.gone r' hr' hGone)

theorem toNat_lesser (a b : U64) : (if a < b then a else b).toNat = min a.toNat b.toNat := by
  split_ifs with hLess
  · rw [lt_def] at hLess
    omega
  · rw [lt_def] at hLess
    omega

theorem toNat_greater (a b : U64) : (if a > b then a else b).toNat = max a.toNat b.toNat := by
  split_ifs with hLess
  · rw [gt_iff_lt, lt_def] at hLess
    omega
  · rw [gt_iff_lt, lt_def] at hLess
    omega

theorem absorb_spec (pageFlags flags : U64) (hKept : Kept q) (hLess : newStart.toNat ≤ newEnd.toNat)
    (hFuel : q.nodes.length < fuel) :
    ∃ q' start stop, absorb pageFlags flags fuel q newStart newEnd = some (q', start, stop) ∧
      Swallows q pageFlags flags newStart.toNat newEnd.toNat q' start.toNat stop.toNat := by
  induction fuel generalizing q newStart newEnd with
  | zero => omega
  | succ fuel ih =>
    rw [absorb]
    rcases hFind : findNeighbour q newStart newEnd pageFlags flags with _ | r
    · refine ⟨q, newStart, newEnd, rfl, .none ?_⟩
      exact fun r hr hWanted => findNeighbour_none hKept hFind hr hWanted
    · obtain ⟨hMem, hWanted, hReaches⟩ := findNeighbour_some hKept hFind
      obtain ⟨q₁, hRemove, hNodes, hNext, hPerm⟩ := queueRemoveAt_spec hKept.toNumbered hMem
      obtain ⟨stop, hStop, hHigh⟩ := (hKept.whole r hMem).rangeEnd
      have hMin : (if newStart < r.start then newStart else r.start).toNat = min newStart.toNat r.lo :=
        toNat_lesser newStart r.start
      have hMax : (if newEnd > stop then newEnd else stop).toNat = max newEnd.toNat r.hi := by
        rw [toNat_greater, hHigh]
      have hWider : (if newStart < r.start then newStart else r.start).toNat ≤
          (if newEnd > stop then newEnd else stop).toNat := by
        rw [hMin, hMax]
        omega
      have hLength : q₁.nodes.length < fuel := by
        have hCount := hPerm.length_eq
        rw [LockQueue.records, LockQueue.records, List.length_map, List.length_cons, List.length_map] at hCount
        omega
      obtain ⟨q', start, stop', hRest, hSwallows⟩ := ih (hKept.sublist hNodes hNext) hWider hLength
      refine ⟨q', start, stop', ?_, ?_⟩
      · simp only [hRemove, hStop]
        exact hRest
      · rw [hMin, hMax] at hSwallows
        exact hSwallows.cons hKept hMem hWanted hReaches hNodes hNext hPerm

theorem Swallows.records (h : Swallows q pageFlags flags lo hi q' lo' hi') (hr : r ∈ q'.records) : r ∈ q.records :=
  (h.nodes.map Prod.snd).subset hr

theorem Swallows.gone_iff (h : Swallows q pageFlags flags lo hi q' lo' hi') (hKept : Kept q) (hr : r ∈ q.records) :
    r ∉ q'.records ↔ Absorbed q pageFlags flags lo hi r := by
  refine ⟨h.gone r hr, fun hAbsorbed => ?_⟩
  induction hAbsorbed with
  | first hMem hWanted hReaches =>
    intro hStill
    refine h.stays _ hStill hWanted ⟨?_, ?_⟩
    · exact hReaches.1.trans h.high
    · exact h.low.trans hReaches.2
  | @next r r' hBefore hMem hWanted hTouches ih =>
    intro hStill
    have hOut := ih hBefore.wanted.1
    have hFull := (hKept.whole r hBefore.wanted.1).nonempty
    have hLow := (h.covered r.lo).mpr (.inr ⟨r, hBefore.wanted.1, hOut, ⟨le_rfl, hFull⟩⟩)
    have hHigh := (h.covered (r.hi - 1)).mpr (.inr ⟨r, hBefore.wanted.1, hOut, ⟨by omega, by omega⟩⟩)
    obtain ⟨hFrom, hTo⟩ := hTouches
    exact h.stays _ hStill hWanted ⟨by omega, by omega⟩

end OpenXJ380.Lazy
