import OpenXJ380.Lazy.Pieces

/-! # Demand paging

A fault takes exactly its page out of what is reserved. Where it fails nothing is
lost but the frames of new page tables, which stay in the directory.
-/

namespace OpenXJ380.Lazy

open Frames Paging TableTree

variable {site : Site} {m m₁ m₂ m' : Machine} {pagedir : PageDirectory} {q q' : LockQueue} {r : MmVirtualPage}
  {address page phys flags : U64} {free held new : Set U64} {room : Room} {e : Int}

theorem Around.samePage (h : Around r address) : SamePage address (pageOf r address) :=
  samePage_of_div (by rw [h.page_toNat]; omega)

theorem SamePage.value {a b : U64} (h : SamePage a b) (memory : Memory) :
    pageEntryValue memory pagedir b = pageEntryValue memory pagedir a := by
  obtain ⟨hWay, hIndex⟩ := h
  rw [wayTo, wayTo, List.cons.injEq, List.cons.injEq, List.cons.injEq] at hWay
  rw [pageEntryValue_eq, pageEntryValue_eq, hWay.1, hWay.2.1, hWay.2.2.1, hIndex]

def demandFlags (r : MmVirtualPage) : U64 := r.pteFlags ||| pteFrameAllocated

structure ZeroMapped (site : Site) (m : Machine) (pagedir : PageDirectory) (free held : Set U64) (page phys flags : U64)
    (m' : Machine) (new : Set U64) : Prop where
  fresh : new ⊆ free \ {phys}
  tree : Tree m'.memory pagedir.table ((free \ {phys}) \ new)
  funded : Funded site m' ((free \ {phys}) \ new) (insert phys held ∪ new)
  table : ∃ t, tableAt nextTable m'.memory pagedir.table (wayTo page) = some t ∧
      m'.memory t (l1Index page) = phys ||| flags
  entries : ∀ other, pageEntryValue m'.memory pagedir other =
    if SamePage page other then phys ||| flags else pageEntryValue m.memory pagedir other
  zeroed : ∀ i, m'.memory phys i = 0
  placed : ∀ t ∈ new, ∃ q, q.length ≤ 3 ∧ tableAt nextTable m'.memory pagedir.table q = some t

theorem mapZeroed_made (hFunded : Funded site m free held) (hTree : Tree m.memory pagedir.table free)
    (hSane : Sane m.memory pagedir.table (wayTo page)) (hTaken : Taken site m free held phys m₁)
    (hEnough : (pageMapTo m₁ pagedir page phys flags).exhausted = false) :
    ∃ new m₂, Mapped site m₁ pagedir (free \ {phys}) (insert phys held) page (phys ||| flags) m₂ new ∧
      (∀ q, q.length ≤ 3 → tableAt nextTable m₂.memory pagedir.table q ≠ some phys) ∧
      mapZeroed m₁ pagedir page phys flags = pageTableClear m₂ phys := by
  have hAddress := hFunded.free_address hTaken.wasFree
  have hTree₁ : Tree m₁.memory pagedir.table (free \ {phys}) := by
    rw [hTaken.memory]
    exact ⟨hTree.distinct, fun q t hq hAt hIn => hTree.used q t hq hAt hIn.1⟩
  have hSane₁ : Sane m₁.memory pagedir.table (wayTo page) := by
    rw [hTaken.memory]
    exact hSane
  obtain ⟨new, hMapped⟩ := pageMapTo_mapped hTaken.funded hTree₁ hSane₁ hEnough
  rw [hAddress.masked] at hMapped
  refine ⟨new, _, hMapped, fun q hq hAt => ?_, rfl⟩
  obtain hOld | hNew := hMapped.tables hq hAt
  · rw [hTaken.memory] at hOld
    exact hTree.used q phys hq hOld hTaken.wasFree
  · exact (hMapped.fresh hNew).2 rfl

theorem mapZeroed_spec (hFunded : Funded site m free held) (hTree : Tree m.memory pagedir.table free)
    (hSane : Sane m.memory pagedir.table (wayTo page)) (hTaken : Taken site m free held phys m₁)
    (hEnough : (pageMapTo m₁ pagedir page phys flags).exhausted = false) :
    ∃ new, ZeroMapped site m pagedir free held page phys flags (mapZeroed m₁ pagedir page phys flags) new := by
  obtain ⟨new, m₂, hMapped, hNoTable, hMade⟩ := mapZeroed_made hFunded hTree hSane hTaken hEnough
  rw [hMade]
  obtain ⟨hTree₂, hTables, hEntries⟩ := clear_tree hMapped.tree hNoTable (fun _ => 0)
  refine ⟨new, hMapped.fresh, hTree₂, hMapped.funded.congr rfl, ?_, ?_, ?_, ?_⟩
  · obtain ⟨t, hAt, hValue⟩ := hMapped.table
    have hNe : t ≠ phys := by
      rintro rfl
      exact hNoTable (wayTo page) (Nat.le_refl 3) hAt
    refine ⟨t, (hTables (wayTo page) (Nat.le_refl 3)).trans hAt, ?_⟩
    rw [← hValue]
    exact congrFun (Function.update_of_ne hNe _ _) _
  · intro other
    rw [pageEntryValue_eq]
    refine (hEntries _ _ rfl).trans ?_
    rw [← pageEntryValue_eq, hMapped.entries, hTaken.memory]
  · intro i
    change Function.update m₂.memory phys (fun _ => 0) phys i = 0
    rw [Function.update_self]
  · intro t ht
    obtain ⟨q, hq, hAt⟩ := hMapped.placed ht
    exact ⟨q, hq, (hTables q hq).trans hAt⟩

/-- The mappings are as before, and no frame is lost but those of new tables. -/
structure Undone (site : Site) (m : Machine) (pagedir : PageDirectory) (free : Set U64) (m' : Machine) : Prop where
  mappings : ∀ other, pageEntryValue m'.memory pagedir other = pageEntryValue m.memory pagedir other
  frames : ∃ tables held', tables ⊆ free ∧ Funded site m' (free \ tables) held' ∧
    ∀ t ∈ tables, ∃ q, q.length ≤ 3 ∧ tableAt nextTable m'.memory pagedir.table q = some t

theorem unmap_demand (hMapped : ZeroMapped site m pagedir free held page phys (demandFlags r) m₂ new)
    (hAddress : FrameAddress phys) (hFree : phys ∈ free) (hPlain : r.pteFlags &&& pteAddrMask = 0) :
    ∃ m', unmapPage m₂ pagedir page = some m' ∧
      (isPresent r.pteFlags → pageEntryValue m.memory pagedir page = 0 → Undone site m pagedir free m') := by
  obtain ⟨t, hAt, hValue⟩ := hMapped.table
  have hAddr : (phys ||| demandFlags r) &&& pteAddrMask = phys := by
    rw [demandFlags, BitVec.and_or_distrib_right, BitVec.and_or_distrib_right, hAddress.masked, hPlain,
      show pteFrameAllocated &&& pteAddrMask = 0 by decide]
    simp
  have hAllocated : (phys ||| demandFlags r) &&& pteFrameAllocated ≠ 0 := by
    intro hZero
    have hBit := congrArg (·.getLsbD 62) hZero
    simp [demandFlags, pteFrameAllocated] at hBit
  by_cases hPresent : isPresent (phys ||| demandFlags r)
  · have hHeld : m₂.memory t (l1Index page) &&& pteAddrMask ∈ insert phys held ∪ new := by
      rw [hValue, hAddr]
      exact .inl (Set.mem_insert _ _)
    obtain ⟨frames, hUnmap, hFunded⟩ := unmapPage_releases hMapped.funded hAt (by rw [hValue]; exact hPresent)
      (by rw [hValue]; exact hAllocated) hHeld
    rw [hValue, hAddr] at hFunded
    refine ⟨_, hUnmap, fun _ hZero => ⟨?_, new, (insert phys held ∪ new) \ {phys}, fun x hx =>
        (hMapped.fresh hx).1, ?_, ?_⟩⟩
    · intro other
      rw [setEntry_value (m := { m₂ with frames := frames }) hMapped.tree hAt, hMapped.entries]
      split_ifs with hSame
      · rw [SamePage.value hSame, hZero]
      · rfl
    · have hSet : insert phys ((free \ {phys}) \ new) = free \ new := by
        ext x
        simp only [Set.mem_insert_iff, Set.mem_sdiff, Set.mem_singleton_iff]
        constructor
        · rintro (rfl | ⟨⟨hx, -⟩, hNew⟩)
          · exact ⟨hFree, fun hNew => (hMapped.fresh hNew).2 rfl⟩
          · exact ⟨hx, hNew⟩
        · rintro ⟨hx, hNew⟩
          by_cases hSame : x = phys
          · exact .inl hSame
          · exact .inr ⟨⟨hx, hSame⟩, hNew⟩
      rw [← hSet]
      exact hFunded
    · intro s hs
      obtain ⟨q, hq, hReached⟩ := hMapped.placed s hs
      refine ⟨q, hq, ?_⟩
      rw [(setEntry_tree (m := { m₂ with frames := frames }) hMapped.tree hAt rfl 0).2 q hq]
      exact hReached
  · refine ⟨m₂, ?_, ?_⟩
    · rw [unmapPage_eq, hAt]
      simp only [unmapEntry, hValue, Bool.eq_false_iff.mpr hPresent, Bool.not_false, if_true]
    · intro hFlag
      refine absurd ?_ hPresent
      rw [isPresent, decide_eq_true_eq] at hFlag ⊢
      intro hZero
      apply hFlag
      have hApart : phys &&& ptePresent = 0 := masked_and hAddress.masked (by decide)
      rw [demandFlags, BitVec.and_or_distrib_right, BitVec.and_or_distrib_right, hApart,
        show pteFrameAllocated &&& ptePresent = 0 by decide] at hZero
      simpa using hZero

structure Space (site : Site) (m : Machine) (pagedir : PageDirectory) (q : LockQueue) (address : U64)
    (free held : Set U64) : Prop where
  kept : Kept q
  plain : ∀ r ∈ q.records, r.pteFlags &&& pteAddrMask = 0
  funded : Funded site m free held
  tree : Tree m.memory pagedir.table free
  sane : Sane m.memory pagedir.table (wayTo address)

def TablesSuffice (m : Machine) (pagedir : PageDirectory) (q : LockQueue) (address : U64) : Prop :=
  ∀ r, findRecord q address = some r → (allocFrame m).2 ≠ 0 →
    (pageMapTo (allocFrame m).1 pagedir (pageOf r address) (allocFrame m).2 (demandFlags r)).exhausted = false

def FailsEarly (room : Room) (m : Machine) (q : LockQueue) (address : U64) : Prop :=
  ∀ r, findRecord q address = some r → (hasLeft r address = true ∧ room.left = false) ∨
    (hasRight r address = true ∧ room.right = false) ∨ (allocFrame m).2 = 0

/-- The page of the address is mapped to a frame that was free, and no longer reserved. -/
structure Resolved (site : Site) (m : Machine) (pagedir : PageDirectory) (q : LockQueue) (address : U64)
    (free held : Set U64) (m' : Machine) (q' : LockQueue) : Prop where
  kept : Kept q'
  removed : ∀ x, Reserved q' x ↔ Reserved q x ∧ x / 4096 ≠ address.toNat / 4096
  flags : ∀ pageFlags flags x, ReservedAs q' pageFlags flags x ↔
    ReservedAs q pageFlags flags x ∧ x / 4096 ≠ address.toNat / 4096
  mapped : ∃ r ∈ q.records, r.Covers address.toNat ∧ ∃ phys new,
    ZeroMapped site m pagedir free held address phys (demandFlags r) m' new ∧ phys ∈ free

theorem Around.covers_page (h : Around r address) {x : Nat} (hSame : x / 4096 = address.toNat / 4096) : r.Covers x := by
  have hAligned := h.whole.aligned
  have hLow := h.covers.1
  have hHigh := h.covers.2
  have hEnd : r.hi = r.lo + r.count.toNat * 4096 := rfl
  exact ⟨by omega, by omega⟩

theorem Replaced.reserves {pieces : List MmVirtualPage} (h : Replaced q r pieces q') (hKept : Kept q)
    (hMem : r ∈ q.records)
    (hAround : Around r address) (hPieces : Pieces r address pieces) (pageFlags flags : U64) (x : Nat) :
    ReservedAs q' pageFlags flags x ↔ ReservedAs q pageFlags flags x ∧ x / 4096 ≠ address.toNat / 4096 := by
  constructor
  · rintro ⟨p, hp, hWanted, hCovers⟩
    obtain ⟨hNe, hOld⟩ | hNew := (h.mem hKept).mp hp
    · refine ⟨⟨p, hOld, hWanted, hCovers⟩, fun hSame => ?_⟩
      exact (hKept.apart_of_mem hOld hMem hNe).not_covers hCovers (hAround.covers_page hSame)
    · obtain ⟨hIn, hOther⟩ := (hPieces.covers x).mp ⟨p, hNew, hCovers⟩
      obtain ⟨hFlags, hPteFlags⟩ := hPieces.same p hNew
      exact ⟨⟨r, hMem, ⟨hFlags.symm.trans hWanted.1, hPteFlags.symm.trans hWanted.2⟩, hIn⟩, hOther⟩
  · rintro ⟨⟨p, hOld, hWanted, hCovers⟩, hOther⟩
    by_cases hNe : p = r
    · subst hNe
      obtain ⟨piece, hNew, hIn⟩ := (hPieces.covers x).mpr ⟨hCovers, hOther⟩
      obtain ⟨hFlags, hPteFlags⟩ := hPieces.same piece hNew
      exact ⟨piece, (h.mem hKept).mpr (.inr hNew), ⟨hFlags.trans hWanted.1, hPteFlags.trans hWanted.2⟩, hIn⟩
    · exact ⟨p, (h.mem hKept).mpr (.inl ⟨hNe, hOld⟩), hWanted, hCovers⟩

theorem reserved_iff (q : LockQueue) (x : Nat) : Reserved q x ↔ ∃ pageFlags flags, ReservedAs q pageFlags flags x := by
  constructor
  · rintro ⟨r, hMem, hCovers⟩
    exact ⟨r.pteFlags, r.flags, r, hMem, ⟨rfl, rfl⟩, hCovers⟩
  · rintro ⟨pageFlags, flags, r, hMem, -, hCovers⟩
    exact ⟨r, hMem, hCovers⟩

theorem ZeroMapped.samePage {a : U64} (h : ZeroMapped site m pagedir free held page phys flags m' new)
    (hSame : SamePage a page) : ZeroMapped site m pagedir free held a phys flags m' new where
  __ := h
  table := by
    rw [← hSame.1, ← hSame.2]
    exact h.table
  entries := by
    intro other
    have hIff : SamePage page other ↔ SamePage a other := by
      rw [SamePage, SamePage, hSame.1, hSame.2]
    rw [h.entries other]
    exact if_congr hIff rfl rfl

structure Restored (site : Site) (room : Room) (m : Machine) (pagedir : PageDirectory) (q : LockQueue) (address : U64)
    (free : Set U64) (m' : Machine) (q' : LockQueue) : Prop where
  nodes : q'.nodes = q.nodes
  early : FailsEarly room m q address → m'.memory = m.memory ∧ m'.frames = m.frames
  undone : ∀ r, findRecord q address = some r → isPresent r.pteFlags = true →
      pageEntryValue m.memory pagedir address = 0 →
    Undone site m pagedir free m'

section

variable (h : Space site m pagedir q address free held)

include h

theorem Space.restored (room : Room) (hMemory : m'.memory = m.memory)
    (hFrames : m'.frames = m.frames) : Restored site room m pagedir q address free m' q where
  nodes := rfl
  early := fun _ => ⟨hMemory, hFrames⟩
  undone := fun _ _ _ _ => by
    refine ⟨fun other => by rw [hMemory], ∅, held, Set.empty_subset _, ?_, fun t ht => absurd ht (Set.notMem_empty t)⟩
    rw [Set.sdiff_empty]
    exact h.funded.congr hFrames

theorem Space.unmapped (hFind : findRecord q address = some r)
    (hMapped : ZeroMapped site m pagedir free held (pageOf r address) phys (demandFlags r) m₂ new) (hFree : phys ∈ free)
    (hLate : ¬ FailsEarly room m q address) (hNodes : q'.nodes = q.nodes) :
    ∃ m', unmapPage m₂ pagedir (pageOf r address) = some m' ∧ Restored site room m pagedir q address free m' q' := by
  obtain ⟨hMem, hCovers⟩ := findRecord_some h.kept hFind
  have hAround : Around r address := ⟨h.kept.whole r hMem, hCovers⟩
  obtain ⟨m', hUnmap, hUndone⟩ := unmap_demand hMapped (h.funded.free_address hFree) hFree (h.plain r hMem)
  refine ⟨m', hUnmap, hNodes, (absurd · hLate), ?_⟩
  intro r' hFound hPresent hZero
  rw [hFind] at hFound
  cases hFound
  refine hUndone hPresent ?_
  rw [SamePage.value hAround.samePage]
  exact hZero

theorem Space.resolved {i j : U64} {q₂ : LockQueue}
    (hFind : findRecord q address = some r)
    (hMapped : ZeroMapped site m pagedir free held (pageOf r address) phys (demandFlags r) m₂ new) (hFree : phys ∈ free)
    (hNumbered : Numbered q₂)
        (hRecords : q₂.records = q.records ++ (placed (hasLeft r address) (leftPiece r address) i ++
      placed (hasRight r address) (rightPiece r address) j)) :
    Resolved site m pagedir q address free held m₂ (queueRemoveAt q₂ r.index).1 := by
  obtain ⟨hMem, hCovers⟩ := findRecord_some h.kept hFind
  have hAround : Around r address := ⟨h.kept.whole r hMem, hCovers⟩
  have hReplaced := replaced hMem hNumbered hRecords
  have hPieces := hAround.pieces i j
  have hFlags := hReplaced.reserves h.kept hMem hAround hPieces
  refine ⟨hReplaced.kept h.kept hMem hPieces, ?_, hFlags, r, hMem, hCovers, phys, new,
    hMapped.samePage hAround.samePage, hFree⟩
  intro x
  rw [reserved_iff, reserved_iff]
  simp only [hFlags, exists_and_right]

end

theorem lazyTryalloc_resolves (h : Space site m pagedir q address free held)
    (hTables : TablesSuffice m pagedir q address)
    (room : Room) :
    ∃ m' q' e, lazyTryalloc room m pagedir q address = some (m', q', e) ∧
      (e = 0 → Resolved site m pagedir q address free held m' q') ∧
      (e ≠ 0 → Restored site room m pagedir q address free m' q') := by
  have hEnomem : ∀ P : Prop, (-enomem : Int) = 0 → P := fun P hZero => absurd hZero (by decide)
  rw [lazyTryalloc]
  rcases hFind : findRecord q address with _ | r
  · exact ⟨m, q, -1, rfl, fun hZero => absurd hZero (by decide), fun _ => h.restored room rfl rfl⟩
  · simp only
    by_cases hLeft : (hasLeft r address && !room.left) = true
    · rw [if_pos hLeft]
      exact ⟨m, q, -enomem, rfl, hEnomem _, fun _ => h.restored room rfl rfl⟩
    rw [if_neg hLeft]
    by_cases hRight : (hasRight r address && !room.right) = true
    · rw [if_pos hRight]
      exact ⟨m, q, -enomem, rfl, hEnomem _, fun _ => h.restored room rfl rfl⟩
    rw [if_neg hRight]
    obtain ⟨hNone, hMachine⟩ | hTaken := h.funded.alloc
    · rw [if_pos hNone]
      exact ⟨_, q, -enomem, rfl, hEnomem _, fun _ => h.restored room (by rw [hMachine]) (by rw [hMachine])⟩
    have hNonzero := (h.funded.free_address hTaken.wasFree).nonzero
    rw [if_neg hNonzero]
    have hLate : ¬ FailsEarly room m q address := by
      intro hEarly
      obtain ⟨hPiece, hRoom⟩ | ⟨hPiece, hRoom⟩ | hZero := hEarly r hFind
      · exact hLeft (by rw [hPiece, hRoom]; rfl)
      · exact hRight (by rw [hPiece, hRoom]; rfl)
      · exact hNonzero hZero
    have hAround : Around r address := by
      obtain ⟨hMem, hCovers⟩ := findRecord_some h.kept hFind
      exact ⟨h.kept.whole r hMem, hCovers⟩
    have hSane : Sane m.memory pagedir.table (wayTo (pageOf r address)) := by
      rw [hAround.samePage.1]
      exact h.sane
    obtain ⟨new, hMapped⟩ := mapZeroed_spec h.funded h.tree hSane hTaken (hTables r hFind hNonzero)
    rw [demandFlags] at hMapped
    generalize mapZeroed (allocFrame m).1 pagedir (pageOf r address) (allocFrame m).2
        (r.pteFlags ||| pteFrameAllocated) =
      m₂ at hMapped
    have hFirst := enqueuePiece_spec h.kept.toNumbered (hasLeft r address) room.leftNode (leftPiece r address)
    generalize enqueuePiece (hasLeft r address) room.leftNode q (leftPiece r address) = first at hFirst
    cases hFirst with
    | missing =>
      obtain ⟨m', hUnmap, hRestored⟩ := h.unmapped hFind hMapped hTaken.wasFree hLate rfl
      exact ⟨m', q, -enomem, by rw [hUnmap]; rfl, hEnomem _, fun _ => hRestored⟩
    | @done q₁ i hNumbered hRecords hUndo =>
      have hSecond := enqueuePiece_spec hNumbered (hasRight r address) room.rightNode (rightPiece r address)
      simp only [Bool.not_true, Bool.false_eq_true, if_false]
      generalize enqueuePiece (hasRight r address) room.rightNode q₁ (rightPiece r address) = second at hSecond
      cases hSecond with
      | missing =>
        obtain ⟨m', hUnmap, hRestored⟩ := h.unmapped hFind hMapped hTaken.wasFree hLate hUndo
        exact ⟨m', _, -enomem, by rw [hUnmap]; rfl, hEnomem _, fun _ => hRestored⟩
      | @done q₂ j hNumbered₂ hRecords₂ =>
        rw [hRecords, List.append_assoc] at hRecords₂
        exact ⟨m₂, _, 0, rfl, fun _ => h.resolved hFind hMapped hTaken.wasFree hNumbered₂ hRecords₂,
          fun hNot => absurd rfl hNot⟩

def sampleRecord : MmVirtualPage :=
  { start := 0x10000000, count := 3, flags := 0, pteFlags := ptePresent ||| pteWriteable ||| pteUser, index := 0 }

def sampleQueue : LockQueue := { nodes := [(0, sampleRecord)], nextIndex := 1 }

def sampleMachine : Machine := { memory := fun _ _ => 0, frames := sampleBoot, exhausted := false }

def sampleDirectory : PageDirectory := { self := 0, table := 0x1000 }

theorem sampleQueue_kept : Kept sampleQueue where
  numbered := by
    intro current hMem
    obtain rfl := List.mem_singleton.mp hMem
    rfl
  distinct := List.nodup_singleton _
  given := by
    intro current hMem
    obtain rfl := List.mem_singleton.mp hMem
    decide
  whole := by
    intro r hMem
    obtain rfl := List.mem_singleton.mp hMem
    exact ⟨by decide, by decide, by decide⟩
  apart := List.pairwise_singleton _ _

theorem sampleSpace (address : U64) :
    ∃ free, Space sampleSite sampleMachine sampleDirectory sampleQueue address free ∅ := by
  obtain ⟨free, hFunded, hManaged⟩ := @boot_funded sampleSite sampleMachine (fun _ => 0) (by decide) sampleBoot_eq
  refine ⟨free, sampleQueue_kept, ?_, hFunded, empty_tree ?_, fun _ _ _ _ _ => .inl rfl⟩
  · intro r hMem
    obtain rfl := List.mem_singleton.mp hMem
    decide
  · intro hFree
    obtain ⟨r, hMem, hLow, -⟩ := hManaged _ hFree
    obtain rfl := List.mem_singleton.mp hMem
    exact absurd hLow (by decide)

theorem sampleTables : TablesSuffice sampleMachine sampleDirectory sampleQueue 0x10001000 := by
  intro r hFind _
  obtain rfl : sampleRecord = r := Option.some.inj hFind
  decide +kernel

/-- The page in the middle of three. -/
theorem lazyTryalloc_resolves_middle : ∃ free m' q',
    lazyTryalloc ⟨true, true, true, true⟩ sampleMachine sampleDirectory sampleQueue 0x10001000 = some (m', q', 0) ∧
      Resolved sampleSite sampleMachine sampleDirectory sampleQueue 0x10001000 free ∅ m' q' := by
  obtain ⟨free, hSpace⟩ := sampleSpace 0x10001000
  obtain ⟨m', q', e, hCall, hDone, -⟩ := lazyTryalloc_resolves hSpace sampleTables ⟨true, true, true, true⟩
  have hZero : (lazyTryalloc ⟨true, true, true, true⟩ sampleMachine sampleDirectory sampleQueue 0x10001000).map
      (fun result => result.2.2) = some 0 := by
    decide +kernel
  rw [hCall] at hZero
  obtain rfl : e = 0 := Option.some.inj hZero
  exact ⟨free, m', q', hCall, hDone rfl⟩

def framesTaken (s : FrameState) : Nat := (List.range (s.memorySize / 4096)).countP fun f => bitmapGet s.usingRegions f

/-- No node for the left piece: the new page tables stay. -/
theorem lazyTryalloc_keeps_tables :
    ¬ ∀ (site : Site) (m : Machine) (pagedir : PageDirectory) (q : LockQueue) (address : U64) (free held : Set U64)
        (room : Room),
      Space site m pagedir q address free held → TablesSuffice m pagedir q address →
        ∀ m' q' e, lazyTryalloc room m pagedir q address = some (m', q', e) → e ≠ 0 →
          (∀ x, Reserved q' x ↔ Reserved q x) ∧
            (∀ other, pageEntryValue m'.memory pagedir other = pageEntryValue m.memory pagedir other) ∧
            framesTaken m'.frames = framesTaken m.frames := by
  intro hAlways
  obtain ⟨free, hSpace⟩ := sampleSpace 0x10001000
  have hResult : (lazyTryalloc ⟨true, true, false, true⟩ sampleMachine sampleDirectory sampleQueue 0x10001000).map
      (fun result => (result.2.2, framesTaken result.1.frames)) = some (-enomem, 3) := by
    decide +kernel
  obtain ⟨⟨m', q', e⟩, hCall, hPair⟩ := Option.map_eq_some_iff.mp hResult
  rw [Prod.mk.injEq] at hPair
  have hError : e = -enomem := hPair.1
  have hTaken : framesTaken m'.frames = 3 := hPair.2
  obtain ⟨-, -, hSame⟩ := hAlways _ _ _ _ _ _ _ _ hSpace sampleTables m' q' e hCall (by rw [hError]; decide)
  rw [hTaken] at hSame
  exact absurd hSame (by decide +kernel)

end OpenXJ380.Lazy
