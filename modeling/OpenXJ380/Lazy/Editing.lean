import OpenXJ380.Lazy.Demand

/-! # Records that are cut (`kernel/memory/lazyalloc.cpp`, `kernel/syscall/sys.cpp`)

A record that meets a range gives way to pieces of it, until there is none that
has to. Both functions begin again at the head of the queue each time.
-/

namespace OpenXJ380.Lazy

open BitVec (le_of_lt lt_def lt_irrefl toNat_add toNat_udiv)

open Paging

/-- Which calls of `malloc` have memory: for a record on the left, in the middle or on the right, and for its node. -/
inductive Piece where
  | left
  | middle
  | right

structure Allocs where
  record : Piece → Bool
  node : Piece → Bool

def MmVirtualPage.stop (r : MmVirtualPage) : U64 := r.start + r.count * pageSize

def MmVirtualPage.part (r : MmVirtualPage) (start stop : U64) : MmVirtualPage :=
  { r with start := start, count := (stop - start) / pageSize }

/-- One record is edited after the other, as long as there is one to be found.
Nothing is returned where the rounds do not suffice or a null pointer is followed. -/
def editLoop (found : MmVirtualPage → Bool) (edit : Allocs → LockQueue → MmVirtualPage → Option LockQueue)
    (allocs : Nat → Allocs) : Nat → LockQueue → Option LockQueue
  | 0, _ => none
  | fuel + 1, q =>
    match q.records.find? found with
    | none => some q
    | some vpage => do
      let q ← edit (allocs fuel) q vpage
      editLoop found edit allocs fuel q

def meets (vaddr vaddrEnd : U64) (r : MmVirtualPage) : Bool := r.stop > vaddr && r.start < vaddrEnd

def insertPart (allocs : Allocs) (piece : Piece) (q : LockQueue) (r : MmVirtualPage) : Option LockQueue :=
  if allocs.record piece then some (enqueueRecord (allocs.node piece) q r).1 else none

def keepOutside (vaddr vaddrEnd : U64) (allocs : Allocs) (q : LockQueue) (vpage : MmVirtualPage) : Option LockQueue :=
  if vaddr ≤ vpage.start ∧ vaddrEnd ≥ vpage.stop then some q
  else if vaddr ≤ vpage.start ∧ vaddrEnd < vpage.stop then
    insertPart allocs .right q (vpage.part vaddrEnd vpage.stop)
  else if vaddr > vpage.start ∧ vaddrEnd ≥ vpage.stop then
    insertPart allocs .left q (vpage.part vpage.start vaddr)
  else if vaddr > vpage.start ∧ vaddrEnd < vpage.stop then do
    let q ← insertPart allocs .left q (vpage.part vpage.start vaddr)
    insertPart allocs .right q (vpage.part vaddrEnd vpage.stop)
  else some q

def unmapRecord (vaddr vaddrEnd : U64) (allocs : Allocs) (q : LockQueue) (vpage : MmVirtualPage) :
    Option LockQueue := do
  let q ← keepOutside vaddr vaddrEnd allocs q vpage
  some (queueRemoveAt q vpage.index).1

def unmapVirtualPage (allocs : Nat → Allocs) (fuel : Nat) (q : LockQueue) (vaddr length : U64) : Option LockQueue :=
  editLoop (meets vaddr (vaddr + length)) (unmapRecord vaddr (vaddr + length)) allocs fuel q

def meetsOther (start stop pteFlags : U64) (r : MmVirtualPage) : Bool :=
  r.stop > start && r.start < stop && r.pteFlags ≠ pteFlags

def insertCopy (allocs : Allocs) (piece : Piece) (q : LockQueue) (r : MmVirtualPage) : LockQueue :=
  if allocs.record piece then (enqueueRecord (allocs.node piece) q r).1 else q

def MmVirtualPage.overlapStart (old : MmVirtualPage) (start : U64) : U64 :=
  if old.start > start then old.start else start

def MmVirtualPage.overlapEnd (old : MmVirtualPage) (stop : U64) : U64 := if old.stop < stop then old.stop else stop

def updateRecord (start stop pteFlags : U64) (allocs : Allocs) (q : LockQueue) (old : MmVirtualPage) :
    Option LockQueue :=
  let overlapStart := old.overlapStart start
  let overlapEnd := old.overlapEnd stop
  match queueRemoveAt q old.index with
  | (q, none) => some q
  | (q, some removed) =>
    if overlapStart = old.start ∧ overlapEnd = old.stop then
      some (enqueueRecord (allocs.node .middle) q { removed with pteFlags := pteFlags }).1
    else
      let q :=
        if old.start < overlapStart then insertCopy allocs .left q (old.part old.start overlapStart) else q
      let q := insertCopy allocs .middle q { old.part overlapStart overlapEnd with pteFlags := pteFlags }
      some (if overlapEnd < old.stop then insertCopy allocs .right q (old.part overlapEnd old.stop) else q)

def updateLazyPteFlags (allocs : Nat → Allocs) (fuel : Nat) (q : LockQueue) (start stop pteFlags : U64) :
    Option LockQueue :=
  editLoop (meetsOther start stop pteFlags) (updateRecord start stop pteFlags) allocs fuel q

variable {q q' : LockQueue} {r p : MmVirtualPage} {x : Nat} {pteFlags flags : U64}

def Unshared (r r' : MmVirtualPage) : Prop := ∀ x, r.Covers x → ¬ r'.Covers x

theorem Unshared.symm {r' : MmVirtualPage} (h : Unshared r r') : Unshared r' r := fun x hx hx' => h x hx' hx

instance : Std.Symm Unshared := ⟨fun _ _ h => h.symm⟩

/-- Records of whole pages without an address in two of them, each with the number of its node. -/
structure Laid (q : LockQueue) : Prop extends Numbered q where
  aligned : ∀ r ∈ q.records, r.lo % 4096 = 0
  fits : ∀ r ∈ q.records, r.hi < 2 ^ 64
  disjoint : q.records.Pairwise Unshared

theorem Kept.laid (h : Kept q) : Laid q where
  toNumbered := h.toNumbered
  aligned r hr := (h.whole r hr).aligned
  fits r hr := (h.whole r hr).fits
  disjoint := h.apart.imp fun hApart => fun _ hCovers => hApart.not_covers hCovers

theorem Numbered.nodup (h : Numbered q) : q.records.Nodup := by
  have hIndices : q.records.map MmVirtualPage.index = q.nodes.map Prod.fst := by
    rw [LockQueue.records, List.map_map]
    exact List.map_congr_left fun current hMem => h.numbered current hMem
  refine .of_map MmVirtualPage.index ?_
  rw [hIndices]
  exact h.distinct

theorem MmVirtualPage.stop_toNat (h : r.hi < 2 ^ 64) : r.stop.toNat = r.hi := by
  have hEnd : r.hi = r.start.toNat + r.count.toNat * 4096 := rfl
  rw [MmVirtualPage.stop, toNat_add, BitVec.toNat_mul, show pageSize.toNat = 4096 from rfl,
    Nat.mod_eq_of_lt (show r.count.toNat * 4096 < 2 ^ 64 by omega), Nat.mod_eq_of_lt (by omega), hEnd]

theorem MmVirtualPage.hi_aligned (h : r.lo % 4096 = 0) : r.hi % 4096 = 0 := by
  have hEnd : r.hi = r.lo + r.count.toNat * 4096 := rfl
  omega

theorem part_hi {start stop : U64} (r : MmVirtualPage) (hLess : start.toNat ≤ stop.toNat)
    (hStart : start.toNat % 4096 = 0) (hStop : stop.toNat % 4096 = 0) : (r.part start stop).hi = stop.toNat := by
  have hSize : ((stop - start) / pageSize).toNat = (stop.toNat - start.toNat) / 4096 := by
    rw [toNat_udiv, BitVec.toNat_sub_of_le (BitVec.le_def.mpr hLess)]
    rfl
  change start.toNat + ((stop - start) / pageSize).toNat * 4096 = _
  rw [hSize]
  omega

/-- What comes in the place of a record: pieces of it, with the pages that `made` says, of which none has to be edited
again. None is empty where the edit is a `proper` one. -/
structure Cut (found : MmVirtualPage → Bool) (made : MmVirtualPage → U64 → U64 → Nat → Prop) (proper : Prop)
    (r : MmVirtualPage) (pieces : List MmVirtualPage) : Prop where
  aligned : ∀ p ∈ pieces, p.lo % 4096 = 0
  inside : ∀ p ∈ pieces, r.lo ≤ p.lo ∧ p.hi ≤ r.hi
  disjoint : pieces.Pairwise Unshared
  idle : ∀ p ∈ pieces, found p = false
  nonempty : proper → r.lo < r.hi → ∀ p ∈ pieces, p.lo < p.hi
  made : ∀ pteFlags flags x, (∃ p ∈ pieces, Wanted pteFlags flags p ∧ p.Covers x) ↔ made r pteFlags flags x

def Cuts (found : MmVirtualPage → Bool) (made : MmVirtualPage → U64 → U64 → Nat → Prop) (proper : Prop)
    (edit : LockQueue → MmVirtualPage → Option LockQueue) : Prop :=
  ∀ q r, Laid q → r ∈ q.records → found r = true → q.nextIndex.toNat + 3 < 2 ^ 64 →
    ∃ pieces q', edit q r = some q' ∧ Replaced q r pieces q' ∧ Cut found made proper r pieces ∧
      q'.nextIndex.toNat ≤ q.nextIndex.toNat + 3

def Content (found : MmVirtualPage → Bool) (made : MmVirtualPage → U64 → U64 → Nat → Prop) (r : MmVirtualPage)
    (pteFlags flags : U64) (x : Nat) : Prop :=
  if found r then made r pteFlags flags x else Wanted pteFlags flags r ∧ r.Covers x

structure Edited (found : MmVirtualPage → Bool) (made : MmVirtualPage → U64 → U64 → Nat → Prop) (proper : Prop)
    (q q' : LockQueue) : Prop where
  laid : Laid q'
  reserved : ∀ pteFlags flags x,
    ReservedAs q' pteFlags flags x ↔ ∃ r ∈ q.records, Content found made r pteFlags flags x
  nonempty : proper → (∀ r ∈ q.records, r.lo < r.hi) → ∀ r ∈ q'.records, r.lo < r.hi
  nextIndex : q'.nextIndex.toNat ≤ q.nextIndex.toNat + 3 * q.records.countP found

variable {found : MmVirtualPage → Bool} {made : MmVirtualPage → U64 → U64 → Nat → Prop} {proper : Prop}
  {pieces : List MmVirtualPage} {edit : Allocs → LockQueue → MmVirtualPage → Option LockQueue}

theorem Replaced.laid (h : Replaced q r pieces q') (hLaid : Laid q) (hMem : r ∈ q.records)
    (hCut : Cut found made proper r pieces) : Laid q' := by
  have hRecords : ∀ p, p ∈ q'.records ↔ p ∈ q.records.erase r ∨ p ∈ pieces := fun p => by
    rw [h.records.mem_iff, List.mem_append]
  refine { toNumbered := h.numbered, aligned := ?_, fits := ?_, disjoint := ?_ }
  · intro p hp
    obtain hOld | hNew := (hRecords p).mp hp
    · exact hLaid.aligned p (List.mem_of_mem_erase hOld)
    · exact hCut.aligned p hNew
  · intro p hp
    obtain hOld | hNew := (hRecords p).mp hp
    · exact hLaid.fits p (List.mem_of_mem_erase hOld)
    · exact (hCut.inside p hNew).2.trans_lt (hLaid.fits r hMem)
  · rw [h.records.pairwise_iff fun hUnshared => hUnshared.symm, List.pairwise_append]
    refine ⟨hLaid.disjoint.sublist List.erase_sublist, hCut.disjoint, ?_⟩
    intro p hp p' hp' x hx hx'
    obtain ⟨hNe, hOld⟩ := hLaid.nodup.mem_erase_iff.mp hp
    obtain ⟨hLow, hHigh⟩ := hCut.inside p' hp'
    exact hLaid.disjoint.forall hOld hMem hNe x hx ⟨hLow.trans hx'.1, hx'.2.trans_le hHigh⟩

theorem Replaced.content (h : Replaced q r pieces q') (hMem : r ∈ q.records) (hFound : found r)
    (hCut : Cut found made proper r pieces) (pteFlags flags : U64) (x : Nat) :
    (∃ p ∈ q'.records, Content found made p pteFlags flags x) ↔
      ∃ p ∈ q.records, Content found made p pteFlags flags x := by
  have hPieces : (∃ p ∈ pieces, Content found made p pteFlags flags x) ↔ Content found made r pteFlags flags x := by
    rw [Content, if_pos hFound, ← hCut.made]
    refine exists_congr fun p => and_congr_right fun hp => ?_
    rw [Content, hCut.idle p hp, if_neg Bool.false_ne_true]
  have hOld : (∃ p ∈ q.records, Content found made p pteFlags flags x) ↔
      Content found made r pteFlags flags x ∨ ∃ p ∈ q.records.erase r, Content found made p pteFlags flags x := by
    simp only [(List.perm_cons_erase hMem).mem_iff, List.mem_cons, or_and_right, exists_or, exists_eq_left]
  simp only [hOld, ← hPieces, h.records.mem_iff, List.mem_append, or_and_right, exists_or]
  exact or_comm

theorem Replaced.countP (h : Replaced q r pieces q') (hMem : r ∈ q.records) (hFound : found r)
    (hCut : Cut found made proper r pieces) : q'.records.countP found + 1 = q.records.countP found := by
  have hNone : pieces.countP found = 0 := List.countP_eq_zero.mpr fun p hp => by simp [hCut.idle p hp]
  rw [h.records.countP_eq, List.countP_append, hNone, (List.perm_cons_erase hMem).countP_eq,
    List.countP_cons_of_pos hFound]

theorem editLoop_spec {allocs : Nat → Allocs} (h : ∀ i, Cuts found made proper (edit (allocs i))) {fuel : Nat}
    (hLaid : Laid q) (hFuel : q.records.countP found < fuel)
    (hNumbers : q.nextIndex.toNat + 3 * q.records.countP found < 2 ^ 64) :
    ∃ q', editLoop found edit allocs fuel q = some q' ∧ Edited found made proper q q' := by
  induction fuel generalizing q with
  | zero => exact nomatch hFuel
  | succ fuel ih =>
    rw [editLoop]
    cases hFind : q.records.find? found with
    | none =>
      refine ⟨q, rfl, hLaid, fun pteFlags flags x => ?_, fun _ h => h, Nat.le_add_right _ _⟩
      refine exists_congr fun r => and_congr_right fun hr => ?_
      rw [Content, if_neg (List.find?_eq_none.mp hFind r hr)]
    | some r =>
      have hMem := List.mem_of_find?_eq_some hFind
      have hFound := List.find?_some hFind
      have hPos : 0 < q.records.countP found := List.countP_pos_iff.mpr ⟨r, hMem, hFound⟩
      obtain ⟨pieces, q₁, hEdit, hReplaced, hCut, hNext⟩ := h fuel q r hLaid hMem hFound (by omega)
      have hCount := hReplaced.countP hMem hFound hCut
      obtain ⟨q', hLoop, hEdited⟩ := ih (hReplaced.laid hLaid hMem hCut) (by omega) (by omega)
      refine ⟨q', ?_, hEdited.laid, fun pteFlags flags x => ?_, fun hProper hNonempty => ?_, ?_⟩
      · simp only [hEdit, Option.bind_eq_bind, Option.bind_some]
        exact hLoop
      · rw [hEdited.reserved, hReplaced.content hMem hFound hCut]
      · refine hEdited.nonempty hProper fun p hp => ?_
        rw [hReplaced.records.mem_iff, List.mem_append] at hp
        obtain hOld | hNew := hp
        · exact hNonempty p (List.mem_of_mem_erase hOld)
        · exact hCut.nonempty hProper (hNonempty r hMem) p hNew
      · have hLast := hEdited.nextIndex
        omega

variable {start stop : U64} {record : MmVirtualPage} {allocs : Allocs} {piece : Piece}

structure Appended (q : LockQueue) (pieces : List MmVirtualPage) (q' : LockQueue) : Prop where
  numbered : Numbered q'
  records : q'.records = q.records ++ pieces
  nextIndex : q'.nextIndex.toNat = q.nextIndex.toNat + pieces.length

theorem Appended.refl (h : Numbered q) : Appended q [] q := ⟨h, (List.append_nil _).symm, rfl⟩

theorem Appended.trans {q₁ : LockQueue} {pieces' : List MmVirtualPage} (h : Appended q pieces q₁)
    (h' : Appended q₁ pieces' q') : Appended q (pieces ++ pieces') q' where
  numbered := h'.numbered
  records := by rw [h'.records, h.records, List.append_assoc]
  nextIndex := by rw [h'.nextIndex, h.nextIndex, List.length_append, add_assoc]

theorem enqueueRecord_done (h : Numbered q) (hNext : q.nextIndex.toNat + 1 < 2 ^ 64) (record : MmVirtualPage) :
    Appended q [{ record with index := q.nextIndex }] (enqueueRecord true q record).1 := by
  have hSome : q.nextIndex ≠ noIndex := by
    intro hLast
    rw [hLast] at hNext
    exact absurd hNext (by decide)
  rw [enqueueRecord_eq, if_pos ⟨rfl, hSome⟩]
  refine ⟨numbered_enqueued h hSome, ?_, nextIndex_succ hSome⟩
  rw [LockQueue.records, LockQueue.records, List.map_append]
  rfl

/-- Every call of `malloc` has memory. -/
structure Allocs.Succeed (allocs : Allocs) : Prop where
  record : ∀ piece, allocs.record piece = true
  node : ∀ piece, allocs.node piece = true

theorem insertPart_done (hAllocs : allocs.Succeed) (h : Numbered q) (hNext : q.nextIndex.toNat + 1 < 2 ^ 64)
    (piece : Piece) (record : MmVirtualPage) :
    ∃ q', insertPart allocs piece q record = some q' ∧ Appended q [{ record with index := q.nextIndex }] q' := by
  rw [insertPart, if_pos (hAllocs.record piece), hAllocs.node piece]
  exact ⟨_, rfl, enqueueRecord_done h hNext record⟩

theorem insertCopy_done (hAllocs : allocs.Succeed) (h : Numbered q) (hNext : q.nextIndex.toNat + 1 < 2 ^ 64)
    (piece : Piece) (record : MmVirtualPage) :
    ∃ index, Appended q [{ record with index := index }] (insertCopy allocs piece q record) := by
  rw [insertCopy, if_pos (hAllocs.record piece), hAllocs.node piece]
  exact ⟨q.nextIndex, enqueueRecord_done h hNext record⟩

theorem meets_iff (hFits : r.hi < 2 ^ 64) : meets start stop r ↔ start.toNat < r.hi ∧ r.lo < stop.toNat := by
  rw [meets, Bool.and_eq_true, decide_eq_true_eq, decide_eq_true_eq, gt_iff_lt, lt_def, lt_def, r.stop_toNat hFits]
  rfl

theorem meetsOther_iff :
    meetsOther start stop pteFlags r ↔ meets start stop r ∧ r.pteFlags ≠ pteFlags := by
  rw [meetsOther, meets, Bool.and_eq_true, decide_eq_true_eq]

/-- A range of whole pages that does not run past the end of the address space. -/
structure PageRange (start stop : U64) : Prop where
  startAligned : start.toNat % 4096 = 0
  stopAligned : stop.toNat % 4096 = 0
  ordered : start.toNat ≤ stop.toNat

def InRange (start stop : U64) (x : Nat) : Prop := start.toNat ≤ x ∧ x < stop.toNat

/-- What a record becomes in a range: its pages there get the flags, or are given up where there are none. -/
def Remade (start stop : U64) (changed : Option U64) (r : MmVirtualPage) (pteFlags flags : U64) (x : Nat) : Prop :=
  r.Covers x ∧ r.flags = flags ∧
    ((InRange start stop x ∧ changed = some pteFlags) ∨ (¬ InRange start stop x ∧ r.pteFlags = pteFlags))

def middlePiece (r : MmVirtualPage) (start stop pteFlags index : U64) : MmVirtualPage :=
  { r.part (r.overlapStart start) (r.overlapEnd stop) with pteFlags := pteFlags, index := index }

/-- The pages before the range, those in it and those behind it, with the numbers they are given. -/
def remains (r : MmVirtualPage) (start stop : U64) (changed : Option U64) (i j k : U64) : List MmVirtualPage :=
  placed (r.start < start) (r.part r.start start) i ++
    (changed.toList.map fun pteFlags => middlePiece r start stop pteFlags j) ++
      placed (stop < r.stop) (r.part stop r.stop) k

structure Meeting (r : MmVirtualPage) (start stop : U64) : Prop extends PageRange start stop where
  aligned : r.lo % 4096 = 0
  fits : r.hi < 2 ^ 64
  meets : start.toNat < r.hi ∧ r.lo < stop.toNat

theorem MmVirtualPage.overlapStart_toNat : (r.overlapStart start).toNat = max r.lo start.toNat :=
  toNat_greater r.start start

inductive Remains (r : MmVirtualPage) (start stop : U64) (changed : Option U64) (p : MmVirtualPage) : Prop where
  | left (hCut : r.lo < start.toNat) (hLo : p.lo = r.lo) (hHi : p.hi = start.toNat) (hFlags : p.pteFlags = r.pteFlags)
  | middle (hChanged : changed = some p.pteFlags) (hLo : p.lo = max r.lo start.toNat)
      (hHi : p.hi = min r.hi stop.toNat)
  | right (hCut : stop.toNat < r.hi) (hLo : p.lo = stop.toNat) (hHi : p.hi = r.hi) (hFlags : p.pteFlags = r.pteFlags)

namespace Meeting

variable (h : Meeting r start stop)

include h

theorem left_hi (hCut : r.lo < start.toNat) : (r.part r.start start).hi = start.toNat :=
  part_hi r hCut.le h.aligned h.startAligned

theorem right_hi (hCut : stop.toNat < r.hi) : (r.part stop r.stop).hi = r.hi := by
  have hStop := r.stop_toNat h.fits
  rw [← hStop] at hCut ⊢
  exact part_hi r hCut.le h.stopAligned (hStop ▸ r.hi_aligned h.aligned)

theorem overlapEnd_toNat : (r.overlapEnd stop).toNat = min r.hi stop.toNat := by
  rw [← r.stop_toNat h.fits]
  exact toNat_lesser r.stop stop

theorem middle_bounds (pteFlags index : U64) : (middlePiece r start stop pteFlags index).lo = max r.lo start.toNat ∧
    (middlePiece r start stop pteFlags index).hi = min r.hi stop.toNat := by
  have hLo : (r.overlapStart start).toNat = max r.lo start.toNat := MmVirtualPage.overlapStart_toNat
  have hLe : r.lo ≤ r.hi := Nat.le_add_right _ _
  have hHi := h.overlapEnd_toNat
  have hAligned := h.aligned
  have hEnd := r.hi_aligned hAligned
  have hStart := h.startAligned
  have hStop := h.stopAligned
  have hMeets := h.meets
  have hOrdered := h.ordered
  have hPart : (r.part (r.overlapStart start) (r.overlapEnd stop)).hi = (r.overlapEnd stop).toNat :=
    part_hi r (by omega) (by omega) (by omega)
  exact ⟨hLo, hPart.trans hHi⟩

variable {changed : Option U64} {i j k : U64}

theorem remains (hp : p ∈ remains r start stop changed i j k) :
    p.flags = r.flags ∧ Remains r start stop changed p := by
  rw [Lazy.remains, List.mem_append, List.mem_append, mem_placed, mem_placed, List.mem_map, decide_eq_true_eq,
    decide_eq_true_eq, lt_def, lt_def, r.stop_toNat h.fits] at hp
  obtain (⟨hCut, rfl⟩ | ⟨new, hNew, rfl⟩) | ⟨hCut, rfl⟩ := hp
  · exact ⟨rfl, .left hCut rfl (h.left_hi hCut) rfl⟩
  · exact ⟨rfl, .middle (Option.mem_toList.mp hNew) (h.middle_bounds _ _).1 (h.middle_bounds _ _).2⟩
  · exact ⟨rfl, .right hCut rfl (h.right_hi hCut) rfl⟩

theorem remains_made (flags : U64) :
    (∃ p ∈ Lazy.remains r start stop changed i j k, Wanted pteFlags flags p ∧ p.Covers x) ↔
      Remade start stop changed r pteFlags flags x := by
  constructor
  · rintro ⟨p, hp, ⟨hFlags, hPteFlags⟩, hCovers⟩
    obtain ⟨hSame, hRemains⟩ := h.remains hp
    obtain ⟨hFrom, hTo⟩ := hCovers
    have hMeets := h.meets
    refine ⟨?_, hSame.symm.trans hFlags, ?_⟩
    · cases hRemains with
      | left hCut hLo hHi hOld => exact ⟨by omega, by omega⟩
      | middle hChanged hLo hHi => exact ⟨by omega, by omega⟩
      | right hCut hLo hHi hOld => exact ⟨by omega, by omega⟩
    · cases hRemains with
      | left hCut hLo hHi hOld => exact .inr ⟨by rw [InRange]; omega, hOld.symm.trans hPteFlags⟩
      | middle hChanged hLo hHi => exact .inl ⟨⟨by omega, by omega⟩, hPteFlags ▸ hChanged⟩
      | right hCut hLo hHi hOld => exact .inr ⟨by rw [InRange]; omega, hOld.symm.trans hPteFlags⟩
  · rintro ⟨⟨hFrom, hTo⟩, hFlags, ⟨hIn, rfl⟩ | ⟨hOut, hPteFlags⟩⟩
    · obtain ⟨hLo, hHi⟩ := h.middle_bounds pteFlags j
      refine ⟨middlePiece r start stop pteFlags j, ?_, ⟨hFlags, rfl⟩, ?_, ?_⟩
      · simp [Lazy.remains]
      · rw [hLo]
        exact Nat.max_le.mpr ⟨hFrom, hIn.1⟩
      · rw [hHi]
        exact Nat.lt_min.mpr ⟨hTo, hIn.2⟩
    · obtain hBefore | hBehind : x < start.toNat ∨ stop.toNat ≤ x := by
        rw [InRange] at hOut
        omega
      · have hCut : r.lo < start.toNat := hFrom.trans_lt hBefore
        refine ⟨{ r.part r.start start with index := i }, ?_, ⟨hFlags, hPteFlags⟩, hFrom, ?_⟩
        · exact List.mem_append_left _ (List.mem_append_left _
            (mem_placed.mpr ⟨decide_eq_true (BitVec.lt_def.mpr hCut), rfl⟩))
        · exact hBefore.trans_eq (h.left_hi hCut).symm
      · have hCut : stop.toNat < r.hi := hBehind.trans_lt hTo
        have hStop : stop < r.stop := BitVec.lt_def.mpr (hCut.trans_eq (r.stop_toNat h.fits).symm)
        refine ⟨{ r.part stop r.stop with index := k }, ?_, ⟨hFlags, hPteFlags⟩, hBehind, ?_⟩
        · exact List.mem_append_right _ (mem_placed.mpr ⟨decide_eq_true hStop, rfl⟩)
        · exact hTo.trans_eq (h.right_hi hCut).symm

theorem remains_disjoint :
    (Lazy.remains r start stop changed i j k).Pairwise Unshared := by
  have hSingle : ∀ needed piece index, (placed needed piece index).Pairwise Unshared := by
    intro needed piece index
    rw [placed]
    split_ifs
    · exact List.pairwise_singleton _ _
    · exact .nil
  have hMiddle : (changed.toList.map fun new => middlePiece r start stop new j).Pairwise Unshared := by
    cases changed with
    | none => exact .nil
    | some new => exact List.pairwise_singleton _ _
  have hLow : ∀ new, start.toNat ≤ (middlePiece r start stop new j).lo := fun new => by
    rw [(h.middle_bounds _ _).1]
    exact le_max_right _ _
  have hHigh : ∀ new, (middlePiece r start stop new j).hi ≤ stop.toNat := fun new => by
    rw [(h.middle_bounds _ _).2]
    exact min_le_right _ _
  rw [Lazy.remains, List.pairwise_append, List.pairwise_append]
  refine ⟨⟨hSingle _ _ _, hMiddle, ?_⟩, hSingle _ _ _, ?_⟩
  · intro p hp p' hp' x hx hx'
    obtain ⟨hCut, rfl⟩ := mem_placed.mp hp
    obtain ⟨new, -, rfl⟩ := List.mem_map.mp hp'
    have hEnd := h.left_hi (BitVec.lt_def.mp (of_decide_eq_true hCut))
    exact absurd (hx.2.trans_eq hEnd) (not_lt.mpr ((hLow new).trans hx'.1))
  · intro p hp p' hp' x hx hx'
    obtain ⟨-, rfl⟩ := mem_placed.mp hp'
    have hFrom : stop.toNat ≤ x := hx'.1
    obtain hLeft | hNew := List.mem_append.mp hp
    · obtain ⟨hCut, rfl⟩ := mem_placed.mp hLeft
      have hEnd := h.left_hi (BitVec.lt_def.mp (of_decide_eq_true hCut))
      exact absurd (hx.2.trans_eq hEnd) (not_lt.mpr (h.ordered.trans hFrom))
    · obtain ⟨new, -, rfl⟩ := List.mem_map.mp hNew
      exact absurd (hx.2.trans_le (hHigh new)) (not_lt.mpr hFrom)

theorem cut (hIdle : ∀ p, Lazy.meets start stop p = false → found p = false)
    (hNew : ∀ p, changed = some p.pteFlags → found p = false) :
    Cut found (Remade start stop changed) (start.toNat < stop.toNat) r (Lazy.remains r start stop changed i j k) where
  aligned p hp := by
    have hAligned := h.aligned
    have hStart := h.startAligned
    have hStop := h.stopAligned
    obtain ⟨-, hRemains⟩ := h.remains hp
    cases hRemains with
    | left hCut hLo hHi hOld => omega
    | middle hChanged hLo hHi => omega
    | right hCut hLo hHi hOld => omega
  inside p hp := by
    have hMeets := h.meets
    obtain ⟨-, hRemains⟩ := h.remains hp
    cases hRemains with
    | left hCut hLo hHi hOld => omega
    | middle hChanged hLo hHi => omega
    | right hCut hLo hHi hOld => omega
  disjoint := h.remains_disjoint
  idle p hp := by
    have hFits := h.fits
    obtain ⟨-, hRemains⟩ := h.remains hp
    cases hRemains with
    | left hCut hLo hHi hOld =>
      refine hIdle p (Bool.eq_false_iff.mpr fun hSome => ?_)
      have hBoth := (meets_iff (by omega)).mp hSome
      omega
    | middle hChanged hLo hHi => exact hNew p hChanged
    | right hCut hLo hHi hOld =>
      refine hIdle p (Bool.eq_false_iff.mpr fun hSome => ?_)
      have hBoth := (meets_iff (by omega)).mp hSome
      omega
  nonempty hProper hNonempty p hp := by
    have hMeets := h.meets
    obtain ⟨-, hRemains⟩ := h.remains hp
    cases hRemains with
    | left hCut hLo hHi hOld => omega
    | middle hChanged hLo hHi => omega
    | right hCut hLo hHi hOld => omega
  made _ _ _ := h.remains_made _

end Meeting

theorem Laid.meeting (h : Laid q) (hRange : PageRange start stop) (hMem : r ∈ q.records)
    (hMeets : meets start stop r) : Meeting r start stop where
  toPageRange := hRange
  aligned := h.aligned r hMem
  fits := h.fits r hMem
  meets := (meets_iff (h.fits r hMem)).mp hMeets

theorem placed_pos {needed : Prop} [Decidable needed] {index : U64} (h : needed) :
    placed needed p index = [{ p with index := index }] := by
  rw [placed, decide_eq_true h, if_pos rfl]

theorem placed_neg {needed : Prop} [Decidable needed] {index : U64} (h : ¬ needed) : placed needed p index = [] := by
  rw [placed, decide_eq_false h, if_neg Bool.false_ne_true]

theorem keepOutside_done (hAllocs : allocs.Succeed) (h : Numbered q) (hNext : q.nextIndex.toNat + 3 < 2 ^ 64)
    (start stop : U64) (r : MmVirtualPage) :
    ∃ i k q', keepOutside start stop allocs q r = some q' ∧ Appended q (remains r start stop none i 0 k) q' := by
  rw [keepOutside]
  by_cases hLeft : start ≤ r.start
  · have hNoLeft : ¬ r.start < start := BitVec.not_lt.mpr hLeft
    by_cases hRight : stop ≥ r.stop
    · rw [if_pos ⟨hLeft, hRight⟩]
      refine ⟨0, 0, q, rfl, ?_⟩
      rw [remains, placed_neg hNoLeft, placed_neg (BitVec.not_lt.mpr hRight)]
      exact .refl h
    · have hBehind : stop < r.stop := BitVec.not_le.mp hRight
      obtain ⟨q', hInsert, hAppended⟩ := insertPart_done hAllocs h (by omega) .right (r.part stop r.stop)
      rw [if_neg fun hBoth => hRight hBoth.2, if_pos ⟨hLeft, hBehind⟩]
      refine ⟨0, q.nextIndex, q', hInsert, ?_⟩
      rw [remains, placed_neg hNoLeft, placed_pos hBehind]
      exact hAppended
  · have hBefore : r.start < start := BitVec.not_le.mp hLeft
    obtain ⟨q₁, hInsert, hAppended⟩ := insertPart_done hAllocs h (by omega) .left (r.part r.start start)
    rw [if_neg fun hBoth => hLeft hBoth.1, if_neg fun hBoth => hLeft hBoth.1]
    by_cases hRight : stop ≥ r.stop
    · rw [if_pos ⟨hBefore, hRight⟩]
      refine ⟨q.nextIndex, 0, q₁, hInsert, ?_⟩
      rw [remains, placed_pos hBefore, placed_neg (BitVec.not_lt.mpr hRight)]
      exact hAppended
    · have hBehind : stop < r.stop := BitVec.not_le.mp hRight
      have hNumber : q₁.nextIndex.toNat = q.nextIndex.toNat + 1 := hAppended.nextIndex
      obtain ⟨q₂, hInsert', hAppended'⟩ :=
        insertPart_done hAllocs hAppended.numbered (by omega) .right (r.part stop r.stop)
      rw [if_neg fun hBoth => hRight hBoth.2, if_pos ⟨hBefore, hBehind⟩, hInsert]
      refine ⟨q.nextIndex, q₁.nextIndex, q₂, hInsert', ?_⟩
      rw [remains, placed_pos hBefore, placed_pos hBehind]
      exact hAppended.trans hAppended'

theorem length_placed (needed : Bool) (p : MmVirtualPage) (index : U64) : (placed needed p index).length ≤ 1 := by
  rw [placed]
  split_ifs
  · exact le_rfl
  · exact Nat.zero_le _

theorem length_remains (r : MmVirtualPage) (start stop : U64) (changed : Option U64) (i j k : U64) :
    (remains r start stop changed i j k).length ≤ 3 := by
  have hLeft := length_placed (r.start < start) (r.part r.start start) i
  have hRight := length_placed (stop < r.stop) (r.part stop r.stop) k
  have hMiddle := Option.length_toList_le (o := changed)
  rw [remains, List.length_append, List.length_append, List.length_map]
  omega

theorem unmapRecord_cuts (hAllocs : allocs.Succeed) (hRange : PageRange start stop) :
    Cuts (meets start stop) (Remade start stop none) (start.toNat < stop.toNat) (unmapRecord start stop allocs) := by
  intro q r hLaid hMem hFound hNext
  have hMeeting := hLaid.meeting hRange hMem hFound
  obtain ⟨i, k, q₁, hKeep, hAppended⟩ := keepOutside_done hAllocs hLaid.toNumbered hNext start stop r
  have hIn : r ∈ q₁.records := by
    rw [hAppended.records]
    exact List.mem_append_left _ hMem
  obtain ⟨q₂, hRemove, -, -, hSame⟩ := removed hAppended.numbered hIn
  have hReplaced := replaced hMem hAppended.numbered hAppended.records
  rw [hRemove] at hReplaced
  refine ⟨_, q₂, ?_, hReplaced, hMeeting.cut (fun p hIdle => hIdle) nofun, ?_⟩
  · rw [unmapRecord, hKeep]
    simp only [Option.bind_eq_bind, Option.bind_some, hRemove]
  · have hLength := length_remains r start stop none i 0 k
    rw [hSame, hAppended.nextIndex]
    omega

theorem part_self (hFits : r.hi < 2 ^ 64) : r.part r.start r.stop = r := by
  have hEnd : r.hi = r.start.toNat + r.count.toNat * 4096 := rfl
  have hCount : (r.stop - r.start) / pageSize = r.count := by
    refine BitVec.eq_of_toNat_eq ?_
    have hStop := r.stop_toNat hFits
    rw [toNat_udiv, BitVec.toNat_sub_of_le (BitVec.le_def.mpr (by omega)), hStop, show pageSize.toNat = 4096 from rfl]
    omega
  rw [MmVirtualPage.part, hCount]

theorem insertWhere_done (hAllocs : allocs.Succeed) (h : Numbered q) (hNext : q.nextIndex.toNat + 1 < 2 ^ 64)
    (needed : Prop) [Decidable needed] (piece : Piece) (record : MmVirtualPage) :
    ∃ index, Appended q (placed needed record index) (if needed then insertCopy allocs piece q record else q) := by
  by_cases hNeeded : needed
  · obtain ⟨index, hAppended⟩ := insertCopy_done hAllocs h hNext piece record
    refine ⟨index, ?_⟩
    rw [placed_pos hNeeded, if_pos hNeeded]
    exact hAppended
  · refine ⟨0, ?_⟩
    rw [placed_neg hNeeded, if_neg hNeeded]
    exact .refl h

theorem Meeting.outer (h : Meeting r start stop) (i k : U64) :
    placed (r.start < r.overlapStart start) (r.part r.start (r.overlapStart start)) i =
        placed (r.start < start) (r.part r.start start) i ∧
      placed (r.overlapEnd stop < r.stop) (r.part (r.overlapEnd stop) r.stop) k =
        placed (stop < r.stop) (r.part stop r.stop) k := by
  have hFrom : (r.overlapStart start).toNat = max r.lo start.toNat := MmVirtualPage.overlapStart_toNat
  have hTo := h.overlapEnd_toNat
  have hStop := r.stop_toNat h.fits
  constructor
  · by_cases hCut : r.start < start
    · have hSame : r.overlapStart start = start := if_neg (BitVec.not_lt.mpr (le_of_lt hCut))
      rw [hSame]
    · have hNone : ¬ r.start < r.overlapStart start := by
        rw [lt_def, hFrom]
        rw [lt_def] at hCut
        exact not_lt.mpr (Nat.max_le.mpr ⟨le_rfl, not_lt.mp hCut⟩)
      rw [placed_neg hNone, placed_neg hCut]
  · by_cases hCut : stop < r.stop
    · have hSame : r.overlapEnd stop = stop := if_neg (BitVec.not_lt.mpr (le_of_lt hCut))
      rw [hSame]
    · have hNone : ¬ r.overlapEnd stop < r.stop := by
        rw [lt_def, hTo, hStop]
        rw [lt_def, hStop] at hCut
        exact not_lt.mpr (Nat.le_min.mpr ⟨le_rfl, not_lt.mp hCut⟩)
      rw [placed_neg hNone, placed_neg hCut]

theorem updateRecord_done (hAllocs : allocs.Succeed) (h : Laid q) (hMeeting : Meeting r start stop)
    (hMem : r ∈ q.records) (hNext : q.nextIndex.toNat + 3 < 2 ^ 64) (pteFlags : U64) :
    ∃ i j k q₁ q', updateRecord start stop pteFlags allocs q r = some q' ∧ q₁.records.Perm (q.records.erase r) ∧
      q₁.nextIndex = q.nextIndex ∧ Appended q₁ (remains r start stop (some pteFlags) i j k) q' := by
  obtain ⟨q₁, hRemove, hNumbered, hPerm, hSame⟩ := removed h.toNumbered hMem
  rw [← hSame] at hNext
  simp only [updateRecord, hRemove]
  by_cases hAll : r.overlapStart start = r.start ∧ r.overlapEnd stop = r.stop
  · refine ⟨0, q₁.nextIndex, 0, q₁, _, if_pos hAll, hPerm, hSame, ?_⟩
    obtain ⟨hLeft, hRight⟩ := hMeeting.outer 0 0
    rw [remains, ← hLeft, ← hRight, hAll.1, hAll.2, placed_neg (lt_irrefl _), placed_neg (lt_irrefl _),
      Option.toList_some, List.map_singleton, middlePiece, hAll.1, hAll.2, part_self hMeeting.fits, hAllocs.node]
    exact enqueueRecord_done hNumbered (by omega) { r with pteFlags := pteFlags }
  · obtain ⟨i, hFirst⟩ := insertWhere_done hAllocs hNumbered (by omega) (r.start < r.overlapStart start) .left
      (r.part r.start (r.overlapStart start))
    have hLength := length_placed (r.start < r.overlapStart start) (r.part r.start (r.overlapStart start)) i
    have hNumber := hFirst.nextIndex
    obtain ⟨j, hSecond⟩ := insertCopy_done hAllocs hFirst.numbered (by omega) .middle
      { r.part (r.overlapStart start) (r.overlapEnd stop) with pteFlags := pteFlags }
    have hNumber' := hSecond.nextIndex
    rw [List.length_singleton] at hNumber'
    obtain ⟨k, hThird⟩ := insertWhere_done hAllocs hSecond.numbered (by omega) (r.overlapEnd stop < r.stop) .right
      (r.part (r.overlapEnd stop) r.stop)
    obtain ⟨hLeft, hRight⟩ := hMeeting.outer i k
    refine ⟨i, j, k, q₁, _, if_neg hAll, hPerm, hSame, ?_⟩
    rw [remains, ← hLeft, ← hRight]
    exact (hFirst.trans hSecond).trans hThird

theorem updateRecord_cuts (hAllocs : allocs.Succeed) (hRange : PageRange start stop) (pteFlags : U64) :
    Cuts (meetsOther start stop pteFlags) (Remade start stop (some pteFlags)) (start.toNat < stop.toNat)
      (updateRecord start stop pteFlags allocs) := by
  intro q r hLaid hMem hFound hNext
  have hMeeting := hLaid.meeting hRange hMem (meetsOther_iff.mp hFound).1
  obtain ⟨i, j, k, q₁, q', hUpdate, hPerm, hSame, hAppended⟩ :=
    updateRecord_done hAllocs hLaid hMeeting hMem hNext pteFlags
  refine ⟨remains r start stop (some pteFlags) i j k, q', hUpdate, ⟨hAppended.numbered, ?_⟩, hMeeting.cut ?_ ?_, ?_⟩
  · rw [hAppended.records]
    exact hPerm.append_right _
  · intro p hIdle
    refine Bool.eq_false_iff.mpr fun hSome => ?_
    exact Bool.false_ne_true (hIdle.symm.trans (meetsOther_iff.mp hSome).1)
  · intro p hNew
    exact Bool.eq_false_iff.mpr fun hSome => (meetsOther_iff.mp hSome).2 (Option.some.inj hNew).symm
  · have hLength := length_remains r start stop (some pteFlags) i j k
    rw [hAppended.nextIndex, hSame]
    omega

structure Unmapped (q : LockQueue) (start stop : U64) (q' : LockQueue) : Prop where
  laid : Laid q'
  reserved : ∀ pteFlags flags x,
    ReservedAs q' pteFlags flags x ↔ ReservedAs q pteFlags flags x ∧ ¬ InRange start stop x

structure Reflagged (q : LockQueue) (start stop new : U64) (q' : LockQueue) : Prop where
  laid : Laid q'
  reserved : ∀ x, Reserved q' x ↔ Reserved q x
  inside : ∀ pteFlags flags x, InRange start stop x →
    (ReservedAs q' pteFlags flags x ↔ pteFlags = new ∧ ∃ old, ReservedAs q old flags x)
  outside : ∀ pteFlags flags x, ¬ InRange start stop x →
    (ReservedAs q' pteFlags flags x ↔ ReservedAs q pteFlags flags x)

theorem outside_of_not_meets (hFits : r.hi < 2 ^ 64) (hNot : ¬ meets start stop r) (hCovers : r.Covers x) :
    ¬ InRange start stop x := by
  rintro ⟨hFrom, hTo⟩
  exact hNot ((meets_iff hFits).mpr ⟨hFrom.trans_lt hCovers.2, hCovers.1.trans_lt hTo⟩)

theorem content_unmapped (hFits : r.hi < 2 ^ 64) :
    Content (meets start stop) (Remade start stop none) r pteFlags flags x ↔
      (Wanted pteFlags flags r ∧ r.Covers x) ∧ ¬ InRange start stop x := by
  rw [Content]
  split_ifs with hMeets
  · constructor
    · rintro ⟨hCovers, hFlags, ⟨-, hNone⟩ | ⟨hOut, hPteFlags⟩⟩
      · exact nomatch hNone
      · exact ⟨⟨⟨hFlags, hPteFlags⟩, hCovers⟩, hOut⟩
    · rintro ⟨⟨⟨hFlags, hPteFlags⟩, hCovers⟩, hOut⟩
      exact ⟨hCovers, hFlags, .inr ⟨hOut, hPteFlags⟩⟩
  · exact (and_iff_left_of_imp fun hRecord => outside_of_not_meets hFits hMeets hRecord.2).symm

theorem content_reflagged {new : U64} (hFits : r.hi < 2 ^ 64) :
    Content (meetsOther start stop new) (Remade start stop (some new)) r pteFlags flags x ↔
      Remade start stop (some new) r pteFlags flags x := by
  rw [Content]
  split_ifs with hMeets
  · rfl
  · rw [meetsOther_iff, not_and, not_not] at hMeets
    have hSame : r.Covers x → InRange start stop x → r.pteFlags = new := fun hCovers hIn =>
      hMeets (by_contra fun hNot => outside_of_not_meets hFits hNot hCovers hIn)
    constructor
    · rintro ⟨⟨hFlags, hPteFlags⟩, hCovers⟩
      refine ⟨hCovers, hFlags, ?_⟩
      by_cases hIn : InRange start stop x
      · exact .inl ⟨hIn, congrArg some ((hSame hCovers hIn).symm.trans hPteFlags)⟩
      · exact .inr ⟨hIn, hPteFlags⟩
    · rintro ⟨hCovers, hFlags, ⟨hIn, hNew⟩ | ⟨-, hPteFlags⟩⟩
      · exact ⟨⟨hFlags, (hSame hCovers hIn).trans (Option.some.inj hNew)⟩, hCovers⟩
      · exact ⟨⟨hFlags, hPteFlags⟩, hCovers⟩

theorem Edited.unmapped (h : Laid q)
    (hEdited : Edited (meets start stop) (Remade start stop none) proper q q') : Unmapped q start stop q' where
  laid := hEdited.laid
  reserved pteFlags flags x := by
    rw [hEdited.reserved, ReservedAs, exists_and_right.symm]
    refine exists_congr fun r => ?_
    rw [and_assoc]
    exact and_congr_right fun hMem => content_unmapped (h.fits r hMem)

theorem Edited.reflagged {new : U64} (h : Laid q)
    (hEdited : Edited (meetsOther start stop new) (Remade start stop (some new)) proper q q') :
    Reflagged q start stop new q' := by
  have hReserved : ∀ pteFlags flags x,
      ReservedAs q' pteFlags flags x ↔ ∃ r ∈ q.records, Remade start stop (some new) r pteFlags flags x := by
    intro pteFlags flags x
    rw [hEdited.reserved]
    exact exists_congr fun r => and_congr_right fun hMem => content_reflagged (h.fits r hMem)
  have hInside : ∀ pteFlags flags x, InRange start stop x →
      (ReservedAs q' pteFlags flags x ↔ pteFlags = new ∧ ∃ old, ReservedAs q old flags x) := by
    intro pteFlags flags x hIn
    rw [hReserved]
    constructor
    · rintro ⟨r, hMem, hCovers, hFlags, ⟨-, hNew⟩ | ⟨hOut, -⟩⟩
      · exact ⟨(Option.some.inj hNew).symm, r.pteFlags, r, hMem, ⟨hFlags, rfl⟩, hCovers⟩
      · exact absurd hIn hOut
    · rintro ⟨rfl, old, r, hMem, ⟨hFlags, -⟩, hCovers⟩
      exact ⟨r, hMem, hCovers, hFlags, .inl ⟨hIn, rfl⟩⟩
  have hOutside : ∀ pteFlags flags x, ¬ InRange start stop x →
      (ReservedAs q' pteFlags flags x ↔ ReservedAs q pteFlags flags x) := by
    intro pteFlags flags x hOut
    rw [hReserved]
    refine exists_congr fun r => and_congr_right fun _ => ?_
    constructor
    · rintro ⟨hCovers, hFlags, ⟨hIn, -⟩ | ⟨-, hPteFlags⟩⟩
      · exact absurd hIn hOut
      · exact ⟨⟨hFlags, hPteFlags⟩, hCovers⟩
    · rintro ⟨⟨hFlags, hPteFlags⟩, hCovers⟩
      exact ⟨hCovers, hFlags, .inr ⟨hOut, hPteFlags⟩⟩
  refine { laid := hEdited.laid, reserved := ?_, inside := hInside, outside := hOutside }
  intro x
  rw [reserved_iff, reserved_iff]
  by_cases hIn : InRange start stop x
  · constructor
    · rintro ⟨pteFlags, flags, hRecord⟩
      obtain ⟨-, old, hOld⟩ := (hInside pteFlags flags x hIn).mp hRecord
      exact ⟨old, flags, hOld⟩
    · rintro ⟨old, flags, hOld⟩
      exact ⟨new, flags, (hInside new flags x hIn).mpr ⟨rfl, old, hOld⟩⟩
  · exact exists_congr fun pteFlags => exists_congr fun flags => hOutside pteFlags flags x hIn

def NumbersLeft (q : LockQueue) : Prop := q.nextIndex.toNat + 3 * q.records.length < 2 ^ 64

theorem NumbersLeft.countP (h : NumbersLeft q) (found : MmVirtualPage → Bool) :
    q.nextIndex.toNat + 3 * q.records.countP found < 2 ^ 64 := by
  have hCount := List.countP_le_length (p := found) (l := q.records)
  rw [NumbersLeft] at h
  omega

/-- One round more than there are records is enough for both functions. -/
theorem lazy_editing_refines {allocs : Nat → Allocs} {fuel : Nat} (hLaid : Laid q) (hAllocs : ∀ i, (allocs i).Succeed)
    (hNumbers : NumbersLeft q) (hFuel : q.records.length < fuel) :
    (∀ vaddr length : U64, vaddr.toNat % 4096 = 0 → length.toNat % 4096 = 0 → vaddr.toNat + length.toNat < 2 ^ 64 →
      ∃ q', unmapVirtualPage allocs fuel q vaddr length = some q' ∧ Unmapped q vaddr (vaddr + length) q') ∧
    (∀ start stop pteFlags : U64, PageRange start stop →
      ∃ q', updateLazyPteFlags allocs fuel q start stop pteFlags = some q' ∧ Reflagged q start stop pteFlags q') := by
  have hRounds : ∀ found, q.records.countP found < fuel := fun found =>
    (List.countP_le_length).trans_lt hFuel
  constructor
  · intro vaddr length hVaddr hLength hNoWrap
    have hStop : (vaddr + length).toNat = vaddr.toNat + length.toNat := by
      rw [toNat_add, Nat.mod_eq_of_lt hNoWrap]
    have hRange : PageRange vaddr (vaddr + length) := ⟨hVaddr, by omega, by omega⟩
    obtain ⟨q', hLoop, hEdited⟩ := editLoop_spec (fun i => unmapRecord_cuts (hAllocs i) hRange) hLaid (hRounds _)
      (hNumbers.countP _)
    exact ⟨q', hLoop, hEdited.unmapped hLaid⟩
  · intro start stop pteFlags hRange
    obtain ⟨q', hLoop, hEdited⟩ := editLoop_spec (fun i => updateRecord_cuts (hAllocs i) hRange pteFlags) hLaid
      (hRounds _) (hNumbers.countP _)
    exact ⟨q', hLoop, hEdited.reflagged hLaid⟩

def allSucceed : Allocs := { record := fun _ => true, node := fun _ => true }

/-- The middle one of three pages is given up, or gets other flags. -/
theorem lazy_editing_refines_middle :
    (∃ q', unmapVirtualPage (fun _ => allSucceed) 2 sampleQueue 0x10001000 0x1000 = some q' ∧
      Unmapped sampleQueue 0x10001000 0x10002000 q') ∧
    ∃ q', updateLazyPteFlags (fun _ => allSucceed) 2 sampleQueue 0x10001000 0x10002000 5 = some q' ∧
      Reflagged sampleQueue 0x10001000 0x10002000 5 q' := by
  have hAllocs : ∀ _ : Nat, allSucceed.Succeed := fun _ => ⟨fun _ => rfl, fun _ => rfl⟩
  have hNumbers : NumbersLeft sampleQueue := by
    rw [NumbersLeft]
    decide
  have hFuel : sampleQueue.records.length < 2 := by decide
  obtain ⟨hUnmap, hUpdate⟩ := lazy_editing_refines sampleQueue_kept.laid hAllocs hNumbers hFuel
  exact ⟨hUnmap 0x10001000 0x1000 (by decide) (by decide) (by decide),
    hUpdate 0x10001000 0x10002000 5 ⟨by decide, by decide, by decide⟩⟩

end OpenXJ380.Lazy
