import Mathlib.Data.Set.Card
import OpenXJ380.Paging.Search

/-! # The pages of a mapping

Page after page is mapped to the frames of one block. Page after page is
unmapped, and its frame is free again.
-/

namespace OpenXJ380.Paging

open BitVec (and_or_distrib_right eq_of_toNat_eq le_refl ofNat)
open Frames TableTree

variable {site : Site} {m m' : Machine} {directory : PageDirectory} {free held new : Set U64}
  {a b addr frame flags x : U64} {i j k n N : Nat}

theorem samePage_div (h : SamePage a b) : a.toNat / 4096 % 2 ^ 36 = b.toNat / 4096 % 2 ^ 36 := by
  have hIndex : ∀ (c : U64) (k : Nat), ((c >>> k).truncate 9 : BitVec 9).toNat = c.toNat / 2 ^ k % 512 := by
    intro c k
    rw [BitVec.truncate_eq_setWidth, BitVec.toNat_setWidth, BitVec.toNat_ushiftRight, Nat.shiftRight_eq_div_pow]
  obtain ⟨hWay, hLast⟩ := h
  rw [wayTo, wayTo, List.cons.injEq, List.cons.injEq, List.cons.injEq] at hWay
  have h4 := congrArg BitVec.toNat hWay.1
  have h3 := congrArg BitVec.toNat hWay.2.1
  have h2 := congrArg BitVec.toNat hWay.2.2.1
  have h1 := congrArg BitVec.toNat hLast
  rw [l4Index, l4Index, hIndex, hIndex] at h4
  rw [l3Index, l3Index, hIndex, hIndex] at h3
  rw [l2Index, l2Index, hIndex, hIndex] at h2
  rw [l1Index, l1Index, hIndex, hIndex] at h1
  omega

/-- Pages below the end of the address space, and no more than the largest block has. -/
structure Pages (addr : U64) (N : Nat) : Prop where
  aligned : addr.toNat % 4096 = 0
  fits : addr.toNat + N * 4096 < 2 ^ 64
  few : N ≤ 2 ^ 20

theorem Pages.toNat (h : Pages addr N) (hi : i ≤ N) : (addr + offset i).toNat = addr.toNat + i * 4096 := by
  have hFits := h.fits
  rw [offset, BitVec.toNat_add, BitVec.toNat_ofNat]
  omega

theorem Pages.distinct (h : Pages addr N) (hi : i < N) (hj : j < N)
    (hSame : SamePage (addr + offset i) (addr + offset j)) : i = j := by
  have hDiv := samePage_div hSame
  have hFits := h.fits
  have hFew := h.few
  rw [h.toNat hi.le, h.toNat hj.le] at hDiv
  omega

def pageValue (frame flags : U64) (i : Nat) : U64 :=
    (frame + offset i) &&& pteAddrMask ||| (flags ||| pteFrameAllocated)

structure MappedPages (site : Site) (m : Machine) (directory : PageDirectory) (free held : Set U64)
    (addr frame flags : U64)
    (N n : Nat) (m' : Machine) (new : Set U64) : Prop where
  fresh : new ⊆ free
  tree : Tree m'.memory directory.table (free \ new)
  funded : Funded site m' (free \ new) (held ∪ new)
  placed : ∀ t ∈ new, ∃ q, q.length ≤ 3 ∧ tableAt nextTable m'.memory directory.table q = some t
  origin : ∀ q t, q.length ≤ 3 → tableAt nextTable m'.memory directory.table q = some t →
    tableAt nextTable m.memory directory.table q = some t ∨ t ∈ new
  tables : ∀ i < n, ∃ t, tableAt nextTable m'.memory directory.table (wayTo (addr + offset i)) = some t
  values : ∀ i < n, pageEntryValue m'.memory directory (addr + offset i) = pageValue frame flags i
  sane : ∀ i < N, Sane m'.memory directory.table (wayTo (addr + offset i))

theorem mapFrames_exhausted (h : (mapFrames m directory addr frame flags (n + 1)).exhausted = false) :
    (mapFrames m directory addr frame flags n).exhausted = false := pageMapTo_exhausted h

theorem mapFrames_mapped (hPages : Pages addr N) (hFunded : Funded site m free held)
    (hTree : Tree m.memory directory.table free)
    (hSane : ∀ i < N, Sane m.memory directory.table (wayTo (addr + offset i)))
    (hn : n ≤ N) (hEnough : (mapFrames m directory addr frame flags n).exhausted = false) :
    ∃ new, MappedPages site m directory free held addr frame flags N n
        (mapFrames m directory addr frame flags n) new := by
  induction n with
  | zero =>
    refine ⟨∅, Set.empty_subset _, ?_, ?_, fun t ht => absurd ht (Set.notMem_empty t), fun _ _ _ hAt => .inl hAt,
      fun i hi => absurd hi (Nat.not_lt_zero i), fun i hi => absurd hi (Nat.not_lt_zero i), hSane⟩
    · rw [Set.sdiff_empty]
      exact hTree
    · rw [Set.sdiff_empty, Set.union_empty]
      exact hFunded
  | succ n ih =>
    obtain ⟨new, hBefore⟩ := ih (Nat.le_of_succ_le hn) (mapFrames_exhausted hEnough)
    obtain ⟨more, hMapped⟩ := pageMapTo_mapped hBefore.funded hBefore.tree (hBefore.sane n hn) hEnough
    have hSet : (free \ new) \ more = free \ (new ∪ more) := Set.sdiff_sdiff
    refine ⟨new ∪ more, ?_, ?_, ?_, ?_, ?_, ?_, ?_, ?_⟩
    · exact Set.union_subset hBefore.fresh fun x hx => (hMapped.fresh hx).1
    · rw [← hSet]
      exact hMapped.tree
    · rw [← hSet, ← Set.union_assoc]
      exact hMapped.funded
    · rintro t (ht | ht)
      · obtain ⟨q, hq, hAt⟩ := hBefore.placed t ht
        exact ⟨q, hq, hMapped.kept hq hAt⟩
      · exact hMapped.placed ht
    · intro q t hq hAt
      obtain hOld | hIn := hMapped.tables hq hAt
      · exact (hBefore.origin q t hq hOld).imp id .inl
      · exact .inr (.inr hIn)
    · intro i hi
      obtain hLess | rfl := Nat.lt_or_eq_of_le (Nat.le_of_lt_succ hi)
      · obtain ⟨t, hAt⟩ := hBefore.tables i hLess
        exact ⟨t, hMapped.kept (Nat.le_refl 3) hAt⟩
      · obtain ⟨t, hAt, -⟩ := hMapped.table
        exact ⟨t, hAt⟩
    · intro i hi
      refine (hMapped.entries _).trans ?_
      split_ifs with hSame
      · rw [hPages.distinct hn (hi.trans_le hn) hSame]
        rfl
      · refine hBefore.values i (lt_of_le_of_ne (Nat.le_of_lt_succ hi) ?_)
        rintro rfl
        exact hSame ⟨rfl, rfl⟩
    · exact fun i hi => hMapped.sane (Nat.le_refl 3) (hBefore.sane i hi)

theorem pageValue_present (hFrame : FrameAddress (frame + offset i)) :
    isPresent (pageValue frame flags i) = isPresent flags := by
  have hApart : (frame + offset i) &&& ptePresent = 0 := masked_and hFrame.masked (by decide)
  rw [isPresent, isPresent, pageValue, hFrame.masked, and_or_distrib_right, and_or_distrib_right, hApart,
    show pteFrameAllocated &&& ptePresent = 0 by decide]
  simp

theorem pageValue_allocated : pageValue frame flags i &&& pteFrameAllocated ≠ 0 := by
  intro hZero
  have hBit := congrArg (·.getLsbD 62) hZero
  simp [pageValue, pteFrameAllocated] at hBit

theorem pageValue_addr (hFrame : FrameAddress (frame + offset i)) (hPlain : flags &&& pteAddrMask = 0) :
    pageValue frame flags i &&& pteAddrMask = frame + offset i := by
  rw [pageValue, hFrame.masked, and_or_distrib_right, and_or_distrib_right, hFrame.masked, hPlain,
    show pteFrameAllocated &&& pteAddrMask = 0 by decide]
  simp

structure UnmappedPages (site : Site) (m : Machine) (directory : PageDirectory) (free held : Set U64)
    (addr frame flags : U64)
    (N k : Nat) (m' : Machine) : Prop where
  tree : Tree m'.memory directory.table free
  funded : Funded site m' (free ∪ framesFrom frame k) (held \ framesFrom frame k)
  reached : ∀ q, q.length ≤ 3 →
      tableAt nextTable m'.memory directory.table q = tableAt nextTable m.memory directory.table q
  values : ∀ i, k ≤ i → i < N → pageEntryValue m'.memory directory (addr + offset i) = pageValue frame flags i

theorem framesFrom_succ (h : Pages frame N) (hk : k < N) :
    framesFrom frame (k + 1) = framesFrom frame k ∪ {frame + offset k} := by
  have hAligned := h.aligned
  have hAt := h.toNat hk.le
  ext b
  rw [Set.mem_union, Set.mem_singleton_iff, framesFrom, framesFrom, Set.mem_ofPred_eq, Set.mem_ofPred_eq, blockFrames,
      blockFrames, Finset.mem_Ico, Finset.mem_Ico, Buddy.pageSize]
  constructor
  · rintro ⟨hB, hLow, hHigh⟩
    by_cases hLast : b.toNat / 4096 = frame.toNat / 4096 + k
    · right
      apply eq_of_toNat_eq
      omega
    · exact .inl ⟨hB, hLow, by omega⟩
  · rintro (⟨hB, hLow, hHigh⟩ | rfl)
    · exact ⟨hB, hLow, by omega⟩
    · rw [hAt]
      exact ⟨by omega, by omega, by omega⟩

theorem unmapPages_step (hAddr : Pages addr N) (hFrames : Pages frame N) (hk : k < N)
    (hFrame : FrameAddress (frame + offset k)) (hPlain : flags &&& pteAddrMask = 0) (hPresent : isPresent flags)
    (hHeld : frame + offset k ∈ held)
    (hTable : ∃ t, tableAt nextTable m.memory directory.table (wayTo (addr + offset k)) = some t)
    (h : UnmappedPages site m directory free held addr frame flags N k m') :
    ∃ m'', unmapPage m' directory (addr + offset k) = some m'' ∧
      UnmappedPages site m directory free held addr frame flags N (k + 1) m'' := by
  obtain ⟨t, hReached⟩ := hTable
  have hAt : tableAt nextTable m'.memory directory.table (wayTo (addr + offset k)) = some t :=
    (h.reached (wayTo (addr + offset k)) (Nat.le_refl 3)).trans hReached
  have hEntry : m'.memory t (l1Index (addr + offset k)) = pageValue frame flags k := by
    rw [← pageEntryValue_at hAt]
    exact h.values k le_rfl hk
  have hNotYet : frame + offset k ∉ framesFrom frame k := by
    rintro ⟨-, hIn⟩
    rw [blockFrames, Finset.mem_Ico, Buddy.pageSize, hFrames.toNat hk.le] at hIn
    omega
  obtain ⟨frames, hUnmap, hFunded⟩ :=
    unmapPage_releases h.funded hAt (by rw [hEntry, pageValue_present hFrame, hPresent])
    (by rw [hEntry]; exact pageValue_allocated) (by rw [hEntry, pageValue_addr hFrame hPlain]; exact ⟨hHeld, hNotYet⟩)
  rw [hEntry, pageValue_addr hFrame hPlain] at hFunded
  obtain ⟨hTree, hTables⟩ :=
    setEntry_tree (m := { m' with frames := frames }) (i := l1Index (addr + offset k)) h.tree hAt rfl 0
  refine ⟨_, hUnmap, hTree, ?_, ?_, ?_⟩
  · rw [framesFrom_succ hFrames hk, ← Set.union_assoc, Set.union_singleton, ← Set.sdiff_sdiff]
    exact hFunded
  · exact fun q hq => (hTables q hq).trans (h.reached q hq)
  · intro i hLow hHigh
    rw [setEntry_value (m := { m' with frames := frames }) h.tree hAt, if_neg]
    · exact h.values i (Nat.le_of_succ_le hLow) hHigh
    · intro hSame
      have hEq := hAddr.distinct hk hHigh hSame
      omega

theorem unmapFrom_pages {stop : U64} {fuel : Nat} (hAddr : Pages addr N) (hStop : stop.toNat ≤ addr.toNat + N * 4096)
    (hLast : ∀ k < N, addr.toNat + k * 4096 < stop.toNat) {P : Nat → Machine → Prop}
    (hStep : ∀ k m, k < N → P k m → ∃ m', unmapPage m directory (addr + offset k) = some m' ∧ P (k + 1) m')
    (hk : k ≤ N) (hStart : P k m) (hFuel : N - k < fuel) :
    ∃ m', unmapFrom directory stop fuel m (addr + offset k) = some m' ∧ P N m' := by
  induction fuel generalizing k m with
  | zero => exact nomatch hFuel
  | succ fuel ih =>
    rw [unmapFrom]
    have hAt := hAddr.toNat hk
    obtain hLess | rfl := Nat.lt_or_eq_of_le hk
    · have hBelow := hLast k hLess
      rw [if_pos (BitVec.lt_def.mpr (by omega))]
      obtain ⟨m', hUnmap, hNext⟩ := hStep k m hLess hStart
      have hVa : addr + offset k + pageSize = addr + offset (k + 1) := by
        apply eq_of_toNat_eq
        have hFits := hAddr.fits
        rw [BitVec.toNat_add, hAt, hAddr.toNat hLess, show pageSize.toNat = 4096 from rfl]
        omega
      rw [hUnmap, hVa]
      exact ih hLess hNext (by omega)
    · rw [if_neg (by rw [BitVec.lt_def]; omega)]
      exact ⟨m, rfl, hStart⟩

/-! # What a mapping is granted

A call is refused, or it takes a block of frames and finds addresses for as many
pages as the length has. The block can be larger.
-/

open Buddy (countToBlockPages)
open Frames TableTree

variable {site : Site} {m m' : Machine} {directory : PageDirectory} {free held : Set U64}
  {pcbGroupQueue : List (Option Mapper)} {a addr frame length flags : U64} {k n fuel : Nat}

noncomputable def freeFrameCount (s : FrameState) : Nat := Set.ncard {f | OnFreeList s f}

def newTables (m m' : Machine) (directory : PageDirectory) : Set U64 :=
  {t | t.toNat % 4096 = 0 ∧ OnFreeList m.frames (t.toNat / 4096) ∧
    ∃ q, q.length ≤ 3 ∧ tableAt nextTable m'.memory directory.table q = some t}

def NothingLost (m m' : Machine) (directory : PageDirectory) : Prop :=
  freeFrameCount m'.frames + (newTables m m' directory).ncard = freeFrameCount m.frames

instance : Finite U64 := Finite.of_injective (fun b : U64 => b.toFin) fun _ _ => BitVec.eq_of_toFin_eq

theorem Funded.onFreeList (h : Funded site m free held) :
    a ∈ free ↔ a.toNat % 4096 = 0 ∧ OnFreeList m.frames (a.toNat / 4096) := by
  obtain ⟨W, H, hStock, hFree, -⟩ := h.stock
  rw [hFree]
  refine and_congr_right fun hAligned => ?_
  rw [hStock.ledger.onFreeList, page_mul hAligned]

theorem Funded.counted (h : Funded site m free held) : freeFrameCount m.frames = free.ncard := by
  obtain ⟨W, H, hStock, hFree, -⟩ := h.stock
  have hPhysical := h.physical
  rw [addressLimit] at hPhysical
  symm
  refine Set.ncard_congr (fun b _ => b.toNat / 4096) ?_ ?_ ?_
  · intro b hb
    exact (h.onFreeList.mp hb).2
  · intro b c hb hc hSame
    have hB := ((hFree b).mp hb).1
    have hC := ((hFree c).mp hc).1
    apply eq_of_toNat_eq
    omega
  · intro f hf
    have hIn : f * 4096 ∈ W := hStock.ledger.onFreeList.mp hf
    have hManaged := hStock.ledger.pages _ hIn
    have hBound := (hStock.bound hManaged).1
    have hSize := hStock.ledger.memorySize
    have hNat : (ofNat 64 (f * 4096)).toNat = f * 4096 := by
      rw [BitVec.toNat_ofNat]
      omega
    refine ⟨ofNat 64 (f * 4096), ?_, ?_⟩
    · rw [hFree, hNat]
      exact ⟨by omega, hIn⟩
    · rw [hNat, Nat.mul_div_cancel _ (by decide)]

theorem framesFrom_count (hAligned : a.toNat % 4096 = 0) (hFits : a.toNat + n * 4096 ≤ 2 ^ 64) :
    (framesFrom a n).ncard = n := by
  have hCongr : (framesFrom a n).ncard = (↑(blockFrames a.toNat n) : Set Nat).ncard := by
    refine Set.ncard_congr (fun b _ => b.toNat / 4096) (fun b hb => hb.2) ?_ ?_
    · intro b c hb hc hSame
      have hB := hb.1
      have hC := hc.1
      apply eq_of_toNat_eq
      omega
    · intro f hf
      have hBounds := Finset.mem_Ico.mp (Finset.mem_coe.mp hf)
      rw [Buddy.pageSize] at hBounds
      have hNat : (ofNat 64 (f * 4096)).toNat = f * 4096 := by
        rw [BitVec.toNat_ofNat]
        omega
      refine ⟨ofNat 64 (f * 4096), ?_, ?_⟩
      · rw [framesFrom, Set.mem_ofPred_eq, hNat, Nat.mul_div_cancel _ (by decide)]
        exact ⟨by omega, hf⟩
      · rw [hNat, Nat.mul_div_cancel _ (by decide)]
  rw [hCongr, Set.ncard_coe_finset, blockFrames, Nat.card_Ico]
  omega

def pagesOf (length : U64) : Nat := (pageAlignUp length / pageSize).toNat

theorem pagesOf_spec (h : pageAlignUp length ≠ 0) :
    (pageAlignUp length).toNat = pagesOf length * 4096 ∧ 0 < pagesOf length ∧ length.toNat ≤ pagesOf length * 4096 ∧
      ∀ k < pagesOf length, k * 4096 < length.toNat := by
  have hAligned := pageAlignUp_toNat length
  have hLess := length.isLt
  have hNonzero : (pageAlignUp length).toNat ≠ 0 := fun hZero => h (eq_of_toNat_eq hZero)
  have hPages : pagesOf length = (pageAlignUp length).toNat / 4096 := BitVec.toNat_udiv
  rw [alignedLength] at hAligned
  rw [hPages]
  refine ⟨by omega, by omega, by omega, fun k hk => by omega⟩

theorem countToBlockPages_spec (hPositive : 0 < n) (hSmall : n < 2 ^ 53) :
    n ≤ countToBlockPages n ∧ (countToBlockPages n = n ↔ ∃ k, n = 2 ^ k) := by
  rw [Buddy.countToBlockPages, Buddy.nextPowerOf2]
  have hTop := Nat.lt_log2_self (n := n)
  split_ifs with hOne hPower
  · refine ⟨hOne, ?_⟩
    have hSame : n = 1 := by omega
    rw [hSame]
    exact ⟨fun _ => ⟨0, rfl⟩, fun _ => rfl⟩
  · exact ⟨le_rfl, fun _ => (Nat.and_sub_one_eq_zero_iff_isPowerOfTwo (by omega)).mp hPower, fun _ => rfl⟩
  · have hLog : Nat.log2 n < 53 := (Nat.log2_lt (by omega)).mpr hSmall
    rw [Buddy.log2FloorU64, if_neg (by omega), Nat.mod_eq_of_lt (by omega)]
    refine ⟨hTop.le, fun hSame => absurd hSame (by omega), ?_⟩
    rintro hPowerOf
    exact absurd ((Nat.and_sub_one_eq_zero_iff_isPowerOfTwo (by omega)).mpr hPowerOf) hPower

/-- Where the pages of a mapping can be: anywhere in the user's range, or at the frames themselves. -/
def InArea (site : Site) (flags a : U64) : Prop :=
  if isUser flags then userMmapStart.toNat ≤ a.toNat ∧ a.toNat < userBrkStart.toNat else a.toNat < site.memorySize

structure Ready (site : Site) (m : Machine) (directory : PageDirectory) (flags : U64) (free held : Set U64) : Prop where
  funded : Funded site m free held
  tree : Tree m.memory directory.table free
  sane : ∀ a, InArea site flags a → Sane m.memory directory.table (wayTo a)
  plain : flags &&& pteAddrMask = 0

def Refused (m : Machine) (pcbGroupQueue : List (Option Mapper)) (directory : PageDirectory) (length flags : U64) :
    Prop :=
  pageAlignUp length = 0 ∨ (allocFrames m.frames (pagesOf length)).2 = 0 ∨
    (isUser flags = true ∧ ∀ a, ¬ Suitable m.memory directory (findProcessByPagedir (owners pcbGroupQueue) directory)
      userMmapStart (pageAlignUp length) a)

def TablesSuffice (m : Machine) (pcbGroupQueue : List (Option Mapper)) (fuel : Nat) (directory : PageDirectory)
    (length flags : U64) : Prop :=
  ∀ m' queue' addr, pageAllocRandom m pcbGroupQueue fuel directory length flags = some (m', queue', addr) → addr ≠ 0 →
    m'.exhausted = false

theorem searchStart_ge (owner : Option Mapper) : userMmapStart ≤ searchStart owner := by
  cases owner with
  | none => exact le_refl _
  | some pcb =>
    rw [searchStart]
    split_ifs with hGe
    · exact hGe
    · exact le_refl _

theorem searchTwice_spec (memory : Memory) (pcbGroupQueue : List (Option Mapper)) (directory : PageDirectory)
    (hLength : length ≠ 0) (hFuel : userBrkStart.toNat < fuel) :
    ∃ r, searchTwice memory pcbGroupQueue fuel directory length = some r ∧
      (r = 0 ↔ ∀ a, ¬ Suitable memory directory (findProcessByPagedir (owners pcbGroupQueue) directory)
        userMmapStart length a) ∧ (r ≠ 0 → Suitable memory directory
          (findProcessByPagedir (owners pcbGroupQueue) directory) userMmapStart length r) := by
  have hStart := searchStart_ge (findMapper pcbGroupQueue directory)
  have hWhole : userMmapStart.toNat / 4096 * 4096 = userMmapStart.toNat := by decide
  rw [searchTwice]
  generalize searchStart (findMapper pcbGroupQueue directory) = start at hStart ⊢
  obtain ⟨r, hSearch, hFirst⟩ := findFreeUserRange_spec memory (owners pcbGroupQueue) directory start length hFuel
  obtain ⟨r', hAgain, hFirst'⟩ :=
    findFreeUserRange_spec memory (owners pcbGroupQueue) directory userMmapStart length hFuel
  have hZero : r' = 0 ↔ _ := hFirst'.zero.trans (or_iff_right hLength)
  simp only [hSearch, Option.bind_eq_bind, Option.bind_some]
  split_ifs with hRetry
  · exact ⟨r', hAgain, hZero, fun hNe => (hFirst'.least hNe).1⟩
  · refine ⟨r, rfl, ?_⟩
    by_cases hNe : r = 0
    · have hSame : start = userMmapStart := not_not.mp fun hOther => hRetry ⟨hNe, hOther⟩
      subst hSame
      rw [hFirst.unique hFirst']
      exact ⟨hZero, fun hNe => (hFirst'.least hNe).1⟩
    · obtain ⟨hSuits, -⟩ := hFirst.least hNe
      have hLow := hSuits.low
      have hSuits' : Suitable memory directory (findProcessByPagedir (owners pcbGroupQueue) directory) userMmapStart
          length r := by
        refine { hSuits with low := ?_ }
        rw [hWhole, Nat.max_self]
        exact (le_max_right _ _).trans hLow
      exact ⟨⟨(absurd · hNe), fun hNone => absurd hSuits' (hNone r)⟩, fun _ => hSuits'⟩

theorem pageAllocRandom_nothing (h : pageAlignUp length = 0) :
    pageAllocRandom m pcbGroupQueue fuel directory length flags = some (m, pcbGroupQueue, 0) := if_pos (.inr h)

theorem pageAllocRandom_block {frames : FrameState} {frame : U64} (h : pageAlignUp length ≠ 0)
    (hBlock : allocFrames m.frames (pagesOf length) = (frames, frame.toNat)) (hNonzero : frame ≠ 0) :
    pageAllocRandom m pcbGroupQueue fuel directory length flags = if isUser flags then do
        let addr ← searchTwice m.memory pcbGroupQueue fuel directory (pageAlignUp length) if addr = 0 then
          let frames ← freeFrames frames frame.toNat (pagesOf length)
          some ({ m with frames := frames }, pcbGroupQueue, 0) else
          some (mapFrames { m with frames := frames } directory addr frame flags (pagesOf length),
            setMmapStart directory (addr + pageAlignUp length) pcbGroupQueue, addr)
      else some (mapFrames { m with frames := frames } directory frame frame flags
          (pagesOf length), pcbGroupQueue, frame) := by
  have hLength : length ≠ 0 := by
    rintro rfl
    exact h rfl
  have hNat : frame.toNat ≠ 0 := fun hZero => hNonzero (eq_of_toNat_eq hZero)
  rw [pagesOf] at hBlock ⊢
  simp only [pageAllocRandom, hBlock]
  rw [if_neg (not_or.mpr ⟨hLength, h⟩), if_neg hNat, BitVec.ofNat_toNat, BitVec.setWidth_eq]

theorem pageAllocRandom_noBlock (h : pageAlignUp length ≠ 0)
    (hNone : allocFrames m.frames (pagesOf length) = (m.frames, 0)) :
    pageAllocRandom m pcbGroupQueue fuel directory length flags = some (m, pcbGroupQueue, 0) := by
  have hLength : length ≠ 0 := by
    rintro rfl
    exact h rfl
  rw [pagesOf] at hNone
  simp only [pageAllocRandom, hNone]
  rw [if_neg (not_or.mpr ⟨hLength, h⟩), if_pos trivial]

theorem Ready.refused (h : Ready site m directory flags free held) (hFuel : userBrkStart.toNat < fuel)
    (hRefused : Refused m pcbGroupQueue directory length flags) :
    ∃ m', pageAllocRandom m pcbGroupQueue fuel directory length flags = some (m', pcbGroupQueue, 0) ∧
      Funded site m' free held ∧ m'.memory = m.memory := by
  by_cases hNothing : pageAlignUp length = 0
  · exact ⟨m, pageAllocRandom_nothing hNothing, h.funded, rfl⟩
  · obtain hNone | ⟨frame, hFrame, hTaken⟩ := h.funded.allocBlock (pagesOf length)
    · exact ⟨m, pageAllocRandom_noBlock hNothing hNone, h.funded, rfl⟩
    · have hBlock : allocFrames m.frames (pagesOf length) =
        ((allocFrames m.frames (pagesOf length)).1, frame.toNat) := by
        rw [← hFrame]
      obtain hEmpty | hNoBlock | ⟨hUser, hNone⟩ := hRefused
      · exact absurd hEmpty hNothing
      · rw [hNoBlock] at hFrame
        exact absurd (eq_of_toNat_eq hFrame.symm) hTaken.nonzero
      · obtain ⟨r, hSearch, hZero, -⟩ := searchTwice_spec m.memory pcbGroupQueue directory hNothing hFuel
        rw [hZero.mpr hNone] at hSearch
        have hFunded := hTaken.funded { m with frames := (allocFrames m.frames (pagesOf length)).1 } rfl
        obtain ⟨-, hPositive, -⟩ := pagesOf_spec hNothing
        obtain ⟨frames, hFree, hAfter⟩ := hFunded.releaseBlock Set.subset_union_right hPositive.ne'
          hTaken.whole hTaken.valid hTaken.inside
        have hApart : Disjoint held (framesFrom frame (countToBlockPages (pagesOf length))) :=
          Set.disjoint_left.mpr fun b hb hIn => h.funded.apart hb (hTaken.wasFree hIn)
        rw [Set.sdiff_union_of_subset hTaken.wasFree, Set.union_sdiff_right, hApart.sdiff_eq_left] at hAfter
        rw [pageAllocRandom_block hNothing hBlock hTaken.nonzero, if_pos hUser]
        simp only [hSearch, Option.bind_eq_bind, Option.bind_some, if_pos]
        rw [hFree]
        exact ⟨_, rfl, hAfter _ rfl, rfl⟩

structure Granted (site : Site) (m : Machine) (free held : Set U64) (flags : U64) (n : Nat) (frame addr : U64) :
    Prop where
  taken : TakenBlock site m free held n frame
  addresses : Pages addr n
  frames : Pages frame n
  inArea : ∀ i < n, InArea site flags (addr + offset i)
  nonzero : addr ≠ 0

theorem TakenBlock.pages (h : TakenBlock site m free held n frame) (hPhysical : site.memorySize ≤ addressLimit)
    (hPositive : 0 < n) (hSmall : n < 2 ^ 53) : Pages frame n ∧ frame.toNat + n * 4096 ≤ site.memorySize := by
  obtain ⟨hLe, -⟩ := countToBlockPages_spec hPositive hSmall
  obtain ⟨k, hBlock, hOrder⟩ := blockPages_eq n
  have hInside := h.inside
  have hBounds := Buddy.orderValid_iff.mp h.valid
  have hDvd : 4096 ∣ frame.toNat := (Nat.pow_dvd_pow 2 hBounds.1).trans h.whole
  have hFew : 2 ^ k ≤ 2 ^ 20 := by
    refine Nat.pow_le_pow_right (by decide) ?_
    have hTop := hBounds.2
    rw [hOrder, Buddy.maxOrder, Buddy.minOrder] at hTop
    omega
  rw [addressLimit] at hPhysical
  rw [← hBlock] at hFew
  have hEnd : frame.toNat + n * 4096 ≤ site.memorySize :=
    (Nat.add_le_add_left (Nat.mul_le_mul_right 4096 hLe) _).trans hInside
  refine ⟨⟨Nat.mod_eq_zero_of_dvd hDvd, ?_, hLe.trans hFew⟩, hEnd⟩
  exact (Nat.le_trans hEnd hPhysical).trans_lt (by decide)

theorem Ready.granted (h : Ready site m directory flags free held) (hFuel : userBrkStart.toNat < fuel)
    (hRefused : ¬ Refused m pcbGroupQueue directory length flags) :
    ∃ frame addr queue', Granted site m free held flags (pagesOf length) frame addr ∧
      pageAllocRandom m pcbGroupQueue fuel directory length flags =
        some (mapFrames { m with frames := (allocFrames m.frames (pagesOf length)).1 } directory addr frame flags
          (pagesOf length), queue', addr) := by
  rw [Refused, not_or, not_or, not_and, not_forall_not] at hRefused
  obtain ⟨hSome, hBlock, hSuits⟩ := hRefused
  obtain ⟨hAligned, hPositive, -⟩ := pagesOf_spec hSome
  have hLess := (pageAlignUp length).isLt
  obtain hNone | ⟨frame, hFrame, hTaken⟩ := h.funded.allocBlock (pagesOf length)
  · rw [hNone] at hBlock
    exact absurd rfl hBlock
  · have hAlloc : allocFrames m.frames (pagesOf length) = ((allocFrames m.frames (pagesOf length)).1, frame.toNat) := by
      rw [← hFrame]
    obtain ⟨hFrames, hEnd⟩ := hTaken.pages h.funded.physical hPositive (by omega)
    rw [pageAllocRandom_block hSome hAlloc hTaken.nonzero]
    by_cases hUser : isUser flags
    · obtain ⟨r, hSearch, hZero, hFound⟩ := searchTwice_spec m.memory pcbGroupQueue directory hSome hFuel
      have hNonzero : r ≠ 0 := by
        intro hNo
        obtain ⟨a, ha⟩ := hSuits hUser
        exact hZero.mp hNo a ha
      have hFit := hFound hNonzero
      have hHigh := hFit.high
      have hBrk : userBrkStart.toNat < 2 ^ 64 := userBrkStart.isLt
      have hSame : alignedLength (pageAlignUp length) = pagesOf length * 4096 := by
        rw [alignedLength, hAligned]
        omega
      rw [hSame] at hHigh
      have hPages : Pages r (pagesOf length) := ⟨hFit.aligned, hHigh.trans_lt hBrk, hFrames.few⟩
      refine ⟨frame, r, setMmapStart directory (r + pageAlignUp length) pcbGroupQueue,
        ⟨hTaken, hPages, hFrames, ?_, hNonzero⟩, ?_⟩
      · intro i hi
        have hLow := (le_max_right _ _).trans hFit.low
        rw [InArea, if_pos hUser, hPages.toNat hi.le]
        refine ⟨hLow.trans le_self_add, Nat.lt_of_lt_of_le ?_ hHigh⟩
        omega
      · rw [if_pos hUser]
        simp only [hSearch, Option.bind_eq_bind, Option.bind_some, if_neg hNonzero]
    · refine ⟨frame, frame, pcbGroupQueue, ⟨hTaken, hFrames, hFrames, ?_, hTaken.nonzero⟩, if_neg hUser⟩
      intro i hi
      rw [InArea, if_neg hUser, hFrames.toNat hi.le]
      omega

end OpenXJ380.Paging
