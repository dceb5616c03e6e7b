import OpenXJ380.Lazy.Model

/-! # Reserving is not all or nothing

The neighbours are gone before the new record is known to have memory, so that
a refusal after the first of them has been taken in loses their pages.
-/

namespace OpenXJ380.Lazy

open Paging

variable {q q' : LockQueue} {r r' : MmVirtualPage} {vaddr length pageFlags flags : U64} {room node ok : Bool}
  {fuel lo hi x : Nat}

def rangeEnd (vaddr length : U64) : Nat := vaddr.toNat + alignedLength length

def Separate (r r' : MmVirtualPage) : Prop := SameFlags r r' → ¬ Touches r r'

instance : Std.Symm Separate := ⟨fun _ _ h hFlags hTouches => h ⟨hFlags.1.symm, hFlags.2.symm⟩ ⟨hTouches.2, hTouches.1⟩⟩

structure Granted (q : LockQueue) (vaddr length pageFlags flags : U64) (q' : LockQueue) : Prop where
  added : ∀ x, ReservedAs q' pageFlags flags x ↔
    ReservedAs q pageFlags flags x ∨ vaddr.toNat ≤ x ∧ x < rangeEnd vaddr length
  others : ∀ r, ¬ Wanted pageFlags flags r → (r ∈ q'.records ↔ r ∈ q.records)
  apart : q'.records.Pairwise Apart
  joined : q'.records.Pairwise Separate

def AllOrNothing (q : LockQueue) (vaddr length pageFlags flags : U64) (q' : LockQueue) (ok : Bool) : Prop :=
  if ok = true then Granted q vaddr length pageFlags flags q' else ∀ x, Reserved q' x ↔ Reserved q x

def Refused (vaddr length : U64) : Prop := pageCount length = 0 ∨ lazyRangeEnd vaddr (pageCount length) = none

def Storable (q : LockQueue) (room node : Bool) : Prop := room = true ∧ node = true ∧ q.nextIndex ≠ noIndex

/-- The range meets no record with other flags, and touching records with equal flags all join the new one. -/
structure Joins (q : LockQueue) (vaddr length pageFlags flags : U64) : Prop where
  others : ∀ r ∈ q.records, ¬ Wanted pageFlags flags r → r.hi ≤ vaddr.toNat ∨ rangeEnd vaddr length ≤ r.lo
  pairs : ∀ r ∈ q.records, ∀ r' ∈ q.records, r ≠ r' → SameFlags r r' → Touches r r' →
    Absorbed q pageFlags flags vaddr.toNat (rangeEnd vaddr length) r

def Clear (q : LockQueue) (vaddr length pageFlags flags : U64) (room node : Bool) : Prop :=
  Refused vaddr length ∨ (Storable q room node ∧ Joins q vaddr length pageFlags flags) ∨
    (¬ Storable q room node ∧
      ∀ r ∈ q.records, Wanted pageFlags flags r → ¬ Reaches vaddr.toNat (rangeEnd vaddr length) r)

theorem pageCount_toNat (hCount : pageCount length ≠ 0) : (pageCount length).toNat * 4096 = alignedLength length := by
  have hDiv : ∀ y : U64, (y / pageSize).toNat = y.toNat / 4096 := fun y => BitVec.toNat_udiv
  rw [alignedLength]
  by_cases hFits : length.toNat + 4095 < 2 ^ 64
  · have hSum : (length + pageSize - 1).toNat = length.toNat + 4095 := by
      rw [pageSize]
      bv_omega
    rw [pageCount, hDiv, hSum]
  · have hWrap : (length + pageSize - 1).toNat = length.toNat + 4095 - 2 ^ 64 := by
      rw [pageSize]
      bv_omega
    refine absurd (BitVec.eq_of_toNat_eq ?_) hCount
    rw [pageCount, hDiv, hWrap]
    change _ = 0
    omega

theorem rangeEnd_toNat {stop : U64} (hCount : pageCount length ≠ 0)
    (hStop : lazyRangeEnd vaddr (pageCount length) = some stop) : stop.toNat = rangeEnd vaddr length := by
  rw [lazyRangeEnd_toNat hStop, pageCount_toNat hCount, rangeEnd]

def grown (start stop pageFlags flags index : U64) : MmVirtualPage :=
  { start := start, count := (stop - start) / pageSize, flags := flags, pteFlags := pageFlags, index := index }

theorem grown_hi {start stop : U64} (pageFlags flags index : U64) (hLess : start.toNat ≤ stop.toNat)
    (hStart : start.toNat % 4096 = 0)
    (hStop : stop.toNat % 4096 = 0) : (grown start stop pageFlags flags index).hi = stop.toNat := by
  have hSize : ((stop - start) / pageSize).toNat = (stop.toNat - start.toNat) / 4096 := by
    rw [BitVec.toNat_udiv, BitVec.toNat_sub_of_le (BitVec.le_def.mpr hLess)]
    rfl
  change start.toNat + ((stop - start) / pageSize).toNat * 4096 = _
  rw [hSize]
  omega

/-- What a call leaves: the old queue where it is refused at once, and otherwise the queue without the neighbours,
with the new record behind it where there is room. -/
inductive Outcome (q : LockQueue) (vaddr length pageFlags flags : U64) (room node : Bool) : LockQueue → Bool → Prop
  | refused (hRefused : Refused vaddr length) : Outcome q vaddr length pageFlags flags room node q false
  | stored {q' : LockQueue} {start stop : U64} (hNot : ¬ Refused vaddr length) (hStorable : Storable q room node)
      (hSwallows : Swallows q pageFlags flags vaddr.toNat (rangeEnd vaddr length) q' start.toNat stop.toNat) :
      Outcome q vaddr length pageFlags flags room node
        { nodes := q'.nodes ++ [(q'.nextIndex, grown start stop pageFlags flags q'.nextIndex)]
          nextIndex := q'.nextIndex + 1 } true
  | lost {q' : LockQueue} {start stop : U64} (hNot : ¬ Refused vaddr length) (hStorable : ¬ Storable q room node)
      (hSwallows : Swallows q pageFlags flags vaddr.toNat (rangeEnd vaddr length) q' start.toNat stop.toNat) :
      Outcome q vaddr length pageFlags flags room node q' false

theorem lazyInfoalloc_outcome (room node : Bool) (vaddr length pageFlags flags : U64) (hKept : Kept q)
    (hFuel : q.nodes.length < fuel) :
    ∃ q' ok, lazyInfoalloc fuel room node q vaddr length pageFlags flags = some (q', ok) ∧
      Outcome q vaddr length pageFlags flags room node q' ok := by
  simp only [lazyInfoalloc]
  by_cases hCount : pageCount length = 0
  · exact ⟨q, false, if_pos hCount, .refused (.inl hCount)⟩
  · rw [if_neg hCount]
    rcases hStop : lazyRangeEnd vaddr (pageCount length) with _ | stop
    · exact ⟨q, false, rfl, .refused (.inr hStop)⟩
    · have hEnd := rangeEnd_toNat hCount hStop
      have hNot : ¬ Refused vaddr length := by
        rintro (hZero | hNone)
        · exact hCount hZero
        · rw [hStop] at hNone
          cases hNone
      have hLess : vaddr.toNat ≤ stop.toNat := by
        rw [hEnd]
        exact Nat.le_add_right _ _
      obtain ⟨q', start', stop', hAbsorb, hSwallows⟩ := absorb_spec pageFlags flags hKept hLess hFuel
      rw [hEnd] at hSwallows
      simp only [hAbsorb, Option.bind_eq_bind, Option.bind_some]
      by_cases hRoom : room
      · rw [if_neg (by rw [hRoom]; decide), enqueueRecord_eq]
        by_cases hNode : node ∧ q'.nextIndex ≠ noIndex
        · simp only [if_pos hNode, if_neg hNode.2]
          refine ⟨_, true, rfl, .stored hNot ⟨hRoom, hNode.1, ?_⟩ hSwallows⟩
          rw [← hSwallows.nextIndex]
          exact hNode.2
        · simp only [if_neg hNode, if_true]
          refine ⟨_, false, rfl, .lost hNot ?_ hSwallows⟩
          rintro ⟨-, hFirst, hNext⟩
          rw [← hSwallows.nextIndex] at hNext
          exact hNode ⟨hFirst, hNext⟩
      · rw [if_pos (Bool.eq_false_iff.mpr hRoom)]
        exact ⟨_, false, rfl, .lost hNot (fun h => hRoom h.1) hSwallows⟩

theorem Wanted.same (h : Wanted pageFlags flags r) (hSame : SameFlags r r') : Wanted pageFlags flags r' :=
  ⟨hSame.1.symm.trans h.1, hSame.2.symm.trans h.2⟩

theorem Swallows.unwanted {hi' lo' : Nat} (h : Swallows q pageFlags flags lo hi q' lo' hi') (hr : r ∈ q.records)
    (hNot : ¬ Wanted pageFlags flags r) : r ∈ q'.records := by
  by_contra hGone
  exact hNot (h.gone r hr hGone).wanted.2

theorem Swallows.apart {hi' lo' : Nat} (h : Swallows q pageFlags flags lo hi q' lo' hi') (hKept : Kept q)
    (hLess : lo ≤ hi) (hr : r ∈ q'.records) (hApart : r.hi ≤ lo ∨ hi ≤ r.lo) : r.hi ≤ lo' ∨ hi' ≤ r.lo := by
  have hIn := h.records hr
  have hFull := (hKept.whole r hIn).nonempty
  by_contra hMeet
  rw [not_or, not_le, not_le] at hMeet
  obtain ⟨hLow, hHigh⟩ := hMeet
  have hCommon : ∃ x, (lo' ≤ x ∧ x < hi') ∧ r.Covers x := by
    by_cases hOrder : r.lo ≤ lo'
    · have hOuterLow := h.low
      have hOuterHigh := h.high
      exact ⟨lo', ⟨le_rfl, by omega⟩, hOrder, hLow⟩
    · exact ⟨r.lo, ⟨by omega, hHigh⟩, le_rfl, hFull⟩
  obtain ⟨x, hRange, hCovers⟩ := hCommon
  obtain ⟨hFrom, hTo⟩ | ⟨r', hr', hGone, hCovers'⟩ := (h.covered x).mp hRange
  · obtain ⟨hCoverLow, hCoverHigh⟩ := hCovers
    omega
  · have hNe : r ≠ r' := by
      rintro rfl
      exact hGone hr
    exact (hKept.apart_of_mem hIn hr' hNe).not_covers hCovers hCovers'

theorem Swallows.reservedAs {hi' lo' : Nat} (h : Swallows q pageFlags flags lo hi q' lo' hi') {q₁ : LockQueue}
    {new : MmVirtualPage} (hRecords : q₁.records = q'.records ++ [new]) (hWanted : Wanted pageFlags flags new)
    (hLo : new.lo = lo') (hHi : new.hi = hi') (x : Nat) :
    ReservedAs q₁ pageFlags flags x ↔ ReservedAs q pageFlags flags x ∨ lo ≤ x ∧ x < hi := by
  have hCovered := h.covered x
  have hMem : ∀ r, r ∈ q₁.records ↔ r ∈ q'.records ∨ r = new := by
    intro r
    rw [hRecords, List.mem_append, List.mem_singleton]
  constructor
  · rintro ⟨r, hr, hFlags, hCovers⟩
    rw [hMem] at hr
    obtain hr | rfl := hr
    · exact .inl ⟨r, h.records hr, hFlags, hCovers⟩
    · rw [MmVirtualPage.Covers, hLo, hHi, hCovered] at hCovers
      obtain hRange | ⟨r', hr', hGone, hCovers⟩ := hCovers
      · exact .inr hRange
      · exact .inl ⟨r', hr', (h.gone r' hr' hGone).wanted.2, hCovers⟩
  · have hIn : lo' ≤ x ∧ x < hi' → ReservedAs q₁ pageFlags flags x := by
      intro hRange
      refine ⟨new, (hMem new).mpr (.inr rfl), hWanted, ?_⟩
      rw [MmVirtualPage.Covers, hLo, hHi]
      exact hRange
    rintro (⟨r, hr, hFlags, hCovers⟩ | hRange)
    · by_cases hStill : r ∈ q'.records
      · exact ⟨r, (hMem r).mpr (.inl hStill), hFlags, hCovers⟩
      · exact hIn (hCovered.mpr (.inr ⟨r, hr, hStill, hCovers⟩))
    · exact hIn (hCovered.mpr (.inl hRange))

section

variable {start stop : U64}

theorem granted_iff (hKept : Kept q) (hVaddr : vaddr.toNat % 4096 = 0)
    (h : Swallows q pageFlags flags vaddr.toNat (rangeEnd vaddr length) q' start.toNat stop.toNat) :
    Granted q vaddr length pageFlags flags
        { nodes := q'.nodes ++ [(q'.nextIndex, grown start stop pageFlags flags q'.nextIndex)]
          nextIndex := q'.nextIndex + 1 } ↔
      Joins q vaddr length pageFlags flags := by
  have hEndAligned : rangeEnd vaddr length % 4096 = 0 := by
    rw [rangeEnd, alignedLength]
    omega
  have hRangeLess : vaddr.toNat ≤ rangeEnd vaddr length := Nat.le_add_right _ _
  have hLess : start.toNat ≤ stop.toNat := h.low.trans (hRangeLess.trans h.high)
  obtain ⟨hStart, hStop⟩ := h.whole hVaddr hEndAligned
  have hHi := grown_hi pageFlags flags q'.nextIndex hLess hStart hStop
  generalize hNew : grown start stop pageFlags flags q'.nextIndex = new at hHi
  have hLo : new.lo = start.toNat := by
    rw [← hNew]
    rfl
  have hWanted : Wanted pageFlags flags new := by
    rw [← hNew]
    exact ⟨rfl, rfl⟩
  have hRecords : LockQueue.records { nodes := q'.nodes ++ [(q'.nextIndex, new)], nextIndex := q'.nextIndex + 1 } =
      q'.records ++ [new] := by
    rw [LockQueue.records, List.map_append]
    rfl
  have hMem : ∀ r, r ∈ q'.records ++ [new] ↔ r ∈ q'.records ∨ r = new := by
    intro r
    rw [List.mem_append, List.mem_singleton]
  have hKept' : Kept q' := hKept.sublist h.nodes h.nextIndex
  constructor
  · intro hGranted
    have hApart := hGranted.apart
    have hJoined := hGranted.joined
    rw [hRecords] at hApart hJoined
    rw [List.pairwise_append] at hApart
    constructor
    · intro r hr hNot
      have hAway := hApart.2.2 r (h.unwanted hr hNot) new (List.mem_singleton_self new)
      rw [Apart, hHi, hLo] at hAway
      have hLow := h.low
      have hHigh := h.high
      omega
    · intro r hr r' hr' hNe hSame hTouches
      by_contra hNot
      have hStill : r ∈ q'.records := by
        by_contra hGone
        exact hNot (h.gone r hr hGone)
      have hStill' : r' ∈ q'.records := by
        by_contra hGone
        have hAbsorbed := h.gone r' hr' hGone
        exact hNot (.next hAbsorbed hr (hAbsorbed.wanted.2.same ⟨hSame.1.symm, hSame.2.symm⟩) ⟨hTouches.2, hTouches.1⟩)
      exact (List.pairwise_append.mp hJoined).1.forall hStill hStill' hNe hSame hTouches
  · intro hJoins
    refine ⟨?_, ?_, ?_, ?_⟩
    · exact fun x => h.reservedAs hRecords hWanted hLo hHi x
    · intro r hNot
      rw [hRecords, hMem]
      constructor
      · rintro (hr | rfl)
        · exact h.records hr
        · exact absurd hWanted hNot
      · exact fun hr => .inl (h.unwanted hr hNot)
    · rw [hRecords, List.pairwise_append]
      refine ⟨hKept'.apart, List.pairwise_singleton _ _, ?_⟩
      intro r hr _ hLast
      rw [List.mem_singleton.mp hLast, Apart, hHi, hLo]
      by_cases hFlags : Wanted pageFlags flags r
      · have hAway := h.stays r hr hFlags
        rw [Reaches] at hAway
        omega
      · exact h.apart hKept hRangeLess hr (hJoins.others r (h.records hr) hFlags)
    · rw [hRecords, List.pairwise_append]
      refine ⟨?_, List.pairwise_singleton _ _, ?_⟩
      · have hNodup : q'.records.Pairwise (· ≠ ·) := List.nodup_iff_pairwise_ne.mp hKept'.nodup
        refine hNodup.imp_of_mem ?_
        intro r r' hr hr' hNe hSame hTouches
        have hAbsorbed := hJoins.pairs r (h.records hr) r' (h.records hr') hNe hSame hTouches
        exact (h.gone_iff hKept (h.records hr)).mpr hAbsorbed hr
      · intro r hr _ hLast hSame hTouches
        rw [List.mem_singleton.mp hLast] at hSame hTouches
        refine h.stays r hr (hWanted.same ⟨hSame.1.symm, hSame.2.symm⟩) ⟨?_, ?_⟩
        · rw [← hHi]
          exact hTouches.1
        · rw [← hLo]
          exact hTouches.2

theorem absorbed_none (hNone : ∀ r ∈ q.records, Wanted pageFlags flags r → ¬ Reaches lo hi r) :
    ¬ Absorbed q pageFlags flags lo hi r := by
  intro hAbsorbed
  induction hAbsorbed with
  | first hMem hWanted hReaches => exact hNone _ hMem hWanted hReaches
  | next _ _ _ _ ih => exact ih

theorem unchanged_iff {lo' hi' : Nat} (hKept : Kept q) (h : Swallows q pageFlags flags lo hi q' lo' hi') :
    (∀ x, Reserved q' x ↔ Reserved q x) ↔ ∀ r ∈ q.records, Wanted pageFlags flags r → ¬ Reaches lo hi r := by
  constructor
  · intro hSame r hr hWanted hReaches
    have hGone := (h.gone_iff hKept hr).mpr (.first hr hWanted hReaches)
    have hFull := (hKept.whole r hr).nonempty
    have hCovers : r.Covers r.lo := ⟨le_rfl, hFull⟩
    obtain ⟨r', hr', hCovers'⟩ := (hSame r.lo).mpr ⟨r, hr, hCovers⟩
    have hNe : r' ≠ r := by
      rintro rfl
      exact hGone hr'
    exact (hKept.apart_of_mem (h.records hr') hr hNe).not_covers hCovers' hCovers
  · intro hNone x
    constructor
    · rintro ⟨r, hr, hCovers⟩
      exact ⟨r, h.records hr, hCovers⟩
    · rintro ⟨r, hr, hCovers⟩
      refine ⟨r, ?_, hCovers⟩
      by_contra hGone
      exact absorbed_none hNone (h.gone r hr hGone)

end

/-- The rounds are never more than one past the number of records. -/
theorem allOrNothing_iff (hKept : Kept q) (hVaddr : vaddr.toNat % 4096 = 0) (hFuel : q.nodes.length < fuel) :
    ∃ q' ok, lazyInfoalloc fuel room node q vaddr length pageFlags flags = some (q', ok) ∧
      (AllOrNothing q vaddr length pageFlags flags q' ok ↔ Clear q vaddr length pageFlags flags room node) := by
  obtain ⟨q', ok, hCall, hOutcome⟩ := lazyInfoalloc_outcome room node vaddr length pageFlags flags hKept hFuel
  refine ⟨q', ok, hCall, ?_⟩
  cases hOutcome with
  | refused hRefused => exact ⟨fun _ => .inl hRefused, fun _ _ => Iff.rfl⟩
  | stored hNot hStorable hSwallows =>
    rw [AllOrNothing, if_pos rfl, granted_iff hKept hVaddr hSwallows]
    constructor
    · exact fun hJoins => .inr (.inl ⟨hStorable, hJoins⟩)
    · rintro (hRefused | ⟨-, hJoins⟩ | ⟨hNone, -⟩)
      · exact absurd hRefused hNot
      · exact hJoins
      · exact absurd hStorable hNone
  | lost hNot hStorable hSwallows =>
    rw [AllOrNothing, if_neg (by decide), unchanged_iff hKept hSwallows]
    constructor
    · exact fun hNone => .inr (.inr ⟨hStorable, hNone⟩)
    · rintro (hRefused | ⟨hSome, -⟩ | ⟨-, hNone⟩)
      · exact absurd hRefused hNot
      · exact absurd hSome hStorable
      · exact hNone

def onePage : LockQueue := { nodes := [(0, ⟨0x400000000000, 1, 0x22, 7, 0⟩)], nextIndex := 1 }

theorem onePage_kept : Kept onePage where
  whole := by
    intro r hr
    rw [List.mem_singleton.mp hr]
    exact ⟨rfl, by decide, by decide⟩
  apart := List.pairwise_singleton _ _
  numbered := by
    intro current hMem
    rw [List.mem_singleton.mp hMem]
  distinct := List.nodup_singleton _
  given := by
    intro current hMem
    rw [List.mem_singleton.mp hMem]
    decide

/-- The page behind it is reserved with other page flags, and the one page stays. -/
theorem allOrNothing_other :
    Kept onePage ∧ ∃ q' ok, lazyInfoalloc 2 true true onePage 0x400000001000 4096 5 0x22 = some (q', ok) ∧
    (AllOrNothing onePage 0x400000001000 4096 5 0x22 q' ok ↔ Clear onePage 0x400000001000 4096 5 0x22 true true) :=
  ⟨onePage_kept, allOrNothing_iff onePage_kept (by decide) (by decide)⟩

/-- The page behind it is refused for want of memory, and the one page is lost. -/
theorem allOrNothing_loses : ∃ q', lazyInfoalloc 2 false true onePage 0x400000001000 4096 7 0x22 = some (q', false) ∧
    ¬ AllOrNothing onePage 0x400000001000 4096 7 0x22 q' false := by
  refine ⟨⟨[], 1⟩, by decide, ?_⟩
  intro hSame
  obtain ⟨r, hr, -⟩ := (hSame 0x400000000000).mpr ⟨_, List.mem_singleton_self _, by decide, by decide⟩
  cases hr

end OpenXJ380.Lazy
