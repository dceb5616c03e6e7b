import OpenXJ380.Palloc.FirstFit

/-! # Reserving an interval

The interval is rounded outwards to pages and cut to the pool before its pages are marked.
-/

namespace OpenXJ380.Palloc

open BitVec (eq_of_toNat_eq le_def lt_def)

variable {p q : PallocT} {i j n : Nat} {addr size : U32}

def intervalStart (addr : U32) : Nat := addr.toNat / 4096 * 4096

def intervalEnd (addr size : U32) : Nat := (addr.toNat + size.toNat + 4095) / 4096 * 4096

structure Covered (p : PallocT) (addr size : U32) (i : Nat) : Prop where
  inPool : i < p.pageCount
  start_le : intervalStart addr ≤ (pageAddr p i).toNat
  lt_end : (pageAddr p i).toNat < intervalEnd addr size

theorem toNat_intervalEnd (addr size : U32) :
    (addr + size + pallocPageSize - 1 &&& ~~~(pallocPageSize - 1)).toNat = intervalEnd addr size % 2 ^ 32 := by
  have hSum : addr + size + pallocPageSize - 1 = addr + size + 4095 := by
    rw [pallocPageSize]
    bv_omega
  rw [hSum, toNat_down, intervalEnd, BitVec.toNat_add, BitVec.toNat_add]
  change ((addr.toNat + size.toNat) % 2 ^ 32 + 4095) % 2 ^ 32 / 4096 * 4096 = _
  omega

theorem toNat_poolEnd (h : Shaped p) : (poolEnd p).toNat = (p.base.toNat + p.pageCount * 4096) % 2 ^ 32 := by
  rw [poolEnd, BitVec.toNat_add, toNat_bytes h.few]

def firstPage (p : PallocT) (addr : U32) : Nat := (max (intervalStart addr) p.base.toNat - p.base.toNat) / 4096

def endPage (p : PallocT) (addr size : U32) : Nat :=
  (min (intervalEnd addr size % 2 ^ 32) (p.base.toNat + p.pageCount * 4096) - p.base.toNat) / 4096

theorem pallocReserve_eq (h : Shaped p) (hSize : size ≠ 0) :
    pallocReserve p addr size =
      if intervalEnd addr size % 2 ^ 32 ≤ max (intervalStart addr) p.base.toNat then (p, .badArgs)
      else if 2 ^ 32 ≤ p.base.toNat + p.pageCount * 4096 ∨
          p.base.toNat + p.pageCount * 4096 ≤ max (intervalStart addr) p.base.toNat then (p, .ok)
      else reserveFrom p (firstPage p addr) (endPage p addr size - firstPage p addr) := by
  have hFew := h.few
  have hBase := p.base.isLt
  rw [pallocMaxPages] at hFew
  simp only [pallocReserve, h.inited, if_neg hSize]
  rw [if_neg (by decide)]
  generalize hStart : (if (addr &&& ~~~(pallocPageSize - 1)) < p.base then p.base
    else addr &&& ~~~(pallocPageSize - 1)) = start
  have hStartNat : start.toNat = max (intervalStart addr) p.base.toNat := by
    rw [← hStart, intervalStart, ← toNat_down]
    split_ifs with hLess
    · rw [lt_def] at hLess
      omega
    · rw [lt_def] at hLess
      omega
  have hStop := toNat_intervalEnd addr size
  generalize (addr + size + pallocPageSize - 1 &&& ~~~(pallocPageSize - 1)) = stop at hStop
  have hEnd := toNat_poolEnd h
  simp only [ge_iff_le, le_def, hStop, hStartNat, hEnd, gt_iff_lt, lt_def]
  by_cases hBad : intervalEnd addr size % 2 ^ 32 ≤ max (intervalStart addr) p.base.toNat
  · rw [if_pos hBad, if_pos hBad]
  · rw [if_neg hBad, if_neg hBad]
    by_cases hOut : 2 ^ 32 ≤ p.base.toNat + p.pageCount * 4096 ∨
        p.base.toNat + p.pageCount * 4096 ≤ max (intervalStart addr) p.base.toNat
    · rw [if_pos hOut, if_pos (by omega)]
    · rw [if_neg hOut, if_neg (by omega)]
      have hLe : p.base ≤ start := by
        rw [le_def]
        omega
      have hLe' : p.base ≤ if (p.base.toNat + p.pageCount * 4096) % 2 ^ 32 < intervalEnd addr size % 2 ^ 32 then
          poolEnd p else stop := by
        rw [le_def]
        split_ifs <;> omega
      have hLast : (if (p.base.toNat + p.pageCount * 4096) % 2 ^ 32 < intervalEnd addr size % 2 ^ 32 then
          poolEnd p else stop).toNat = min (intervalEnd addr size % 2 ^ 32) (p.base.toNat + p.pageCount * 4096) := by
        split_ifs <;> omega
      rw [toNat_page, toNat_page, BitVec.toNat_sub_of_le hLe, BitVec.toNat_sub_of_le hLe', hLast, hStartNat]
      rfl

theorem endPage_le : endPage p addr size ≤ p.pageCount := by
  rw [endPage]
  omega

theorem firstPage_le (hIn : max (intervalStart addr) p.base.toNat < p.base.toNat + p.pageCount * 4096) :
    firstPage p addr ≤ p.pageCount := by
  rw [firstPage]
  omega

structure Kept (p q : PallocT) : Prop extends Sound q where
  base_eq : q.base = p.base
  pageCount_eq : q.pageCount = p.pageCount

theorem Sound.kept (h : Sound p) : Kept p p := { h with base_eq := rfl, pageCount_eq := rfl }

theorem pallocReserve_cases (h : Sound p) (addr size : U32) :
    ∃ i k, (∀ j, i ≤ j → j < k → bitmapGet p j ≠ pallocStateUsed) ∧ Reserves p (pallocReserve p addr size).1 i k := by
  have hIdle : ∃ i k, (∀ j, i ≤ j → j < k → bitmapGet p j ≠ pallocStateUsed) ∧ Reserves p p i k :=
    ⟨0, 0, fun j _ _ => by omega, .none p 0⟩
  by_cases hSize : size = 0
  · rwa [pallocReserve, h.inited, if_neg (by decide), if_pos hSize]
  · rw [pallocReserve_eq h.toShaped hSize]
    split_ifs with hBad hOut
    · exact hIdle
    · exact hIdle
    · have hFirst := @firstPage_le p addr (by omega)
      have hLast := @endPage_le p addr size
      obtain ⟨k, -, hNone, -, hReserves⟩ := reserveFrom_spec h.known (i := firstPage p addr)
        (n := endPage p addr size - firstPage p addr) (by omega)
      exact ⟨_, k, hNone, hReserves⟩

theorem Sound.reserve (h : Sound p) (addr size : U32) : Kept p (pallocReserve p addr size).1 := by
  obtain ⟨i, k, -, hReserves⟩ := pallocReserve_cases h addr size
  exact { hReserves.sound h with base_eq := hReserves.base, pageCount_eq := hReserves.pageCount }

/-- A page in use means that nothing is done; without one, the pages of the interval are reserved and no others. -/
structure ReservedWhole (p : PallocT) (addr size : U32) : Prop where
  conflict : (∃ i, Covered p addr size i ∧ bitmapGet p i = pallocStateUsed) →
    pallocReserve p addr size = (p, .alreadyUsed)
  done : (¬ ∃ i, Covered p addr size i ∧ bitmapGet p i = pallocStateUsed) → (pallocReserve p addr size).2 = .ok
  reserved : (¬ ∃ i, Covered p addr size i ∧ bitmapGet p i = pallocStateUsed) → ∀ i, Covered p addr size i →
    bitmapGet (pallocReserve p addr size).1 i = pallocStateRsvd
  others : (¬ ∃ i, Covered p addr size i ∧ bitmapGet p i = pallocStateUsed) → ∀ i, ¬ Covered p addr size i →
    bitmapGet (pallocReserve p addr size).1 i = bitmapGet p i
  outside : (∀ i, ¬ Covered p addr size i) → (pallocReserve p addr size).1 = p

/-- The interval ends behind the beginning of the pool and before the last page of the address space. Where the pool
ends before that too, no free page of the interval lies below its used ones; where it does not, there is nothing left
to reserve. -/
structure Reservable (p : PallocT) (addr size : U32) : Prop where
  reaches : p.base.toNat < intervalEnd addr size
  ends : intervalEnd addr size < 2 ^ 32
  unmixed : p.base.toNat + p.pageCount * 4096 < 2 ^ 32 →
    ∀ i j, Covered p addr size i → bitmapGet p i = pallocStateUsed →
      Covered p addr size j → bitmapGet p j = pallocStateFree →
        ∃ k < j, Covered p addr size k ∧ bitmapGet p k = pallocStateUsed
  settled : 2 ^ 32 ≤ p.base.toNat + p.pageCount * 4096 →
    ∀ i, Covered p addr size i → bitmapGet p i = pallocStateRsvd

theorem intervalStart_lt (hSize : size ≠ 0) : intervalStart addr < intervalEnd addr size := by
  have hPos : 0 < size.toNat := Nat.pos_of_ne_zero fun hZero => hSize (eq_of_toNat_eq hZero)
  rw [intervalStart, intervalEnd]
  omega

theorem covered_iff (h : Shaped p) (hEnds : intervalEnd addr size < 2 ^ 32)
    (hPool : p.base.toNat + p.pageCount * 4096 < 2 ^ 32) :
    Covered p addr size i ↔ firstPage p addr ≤ i ∧ i < endPage p addr size := by
  have hAligned := h.aligned
  have hMod : intervalEnd addr size % 2 ^ 32 = intervalEnd addr size := Nat.mod_eq_of_lt hEnds
  have hStart : intervalStart addr % 4096 = 0 := Nat.mul_mod_left _ _
  have hEnd : intervalEnd addr size % 4096 = 0 := Nat.mul_mod_left _ _
  have hAddr := h.pageAddr_toNat (i := i) hPool.le
  rw [firstPage, endPage, hMod]
  clear hMod hEnds hPool
  constructor
  · rintro ⟨hIn, hLe, hLt⟩
    rw [hAddr hIn] at hLe hLt
    constructor <;> omega
  · rintro ⟨hLe, hLt⟩
    have hIn : i < p.pageCount := by omega
    refine ⟨hIn, ?_, ?_⟩ <;> rw [hAddr hIn] <;> omega

/-- The marking goes up to page `k`. -/
structure MarkedUpTo (p : PallocT) (addr size : U32) (k : Nat) : Prop where
  unused : ∀ j < k, Covered p addr size j → bitmapGet p j ≠ pallocStateUsed
  stops : (pallocReserve p addr size).2 = .ok ∧ (∀ j, Covered p addr size j → j < k) ∨
    (pallocReserve p addr size).2 = .alreadyUsed ∧ Covered p addr size k ∧ bitmapGet p k = pallocStateUsed
  marked : ∀ j < k, Covered p addr size j → bitmapGet (pallocReserve p addr size).1 j = pallocStateRsvd
  others : ∀ j, ¬ Covered p addr size j → bitmapGet (pallocReserve p addr size).1 j = bitmapGet p j
  idle : (∀ j < k, Covered p addr size j → bitmapGet p j = pallocStateRsvd) → (pallocReserve p addr size).1 = p

theorem Sound.marking (h : Sound p) (hSize : size ≠ 0) (hReaches : p.base.toNat < intervalEnd addr size)
    (hEnds : intervalEnd addr size < 2 ^ 32) (hPool : p.base.toNat + p.pageCount * 4096 < 2 ^ 32) :
    ∃ k, MarkedUpTo p addr size k := by
  have hLess := @intervalStart_lt addr size hSize
  have hMod : intervalEnd addr size % 2 ^ 32 = intervalEnd addr size := Nat.mod_eq_of_lt hEnds
  have hCovered (i : Nat) := covered_iff (i := i) h.toShaped hEnds hPool
  have hEq := @pallocReserve_eq p addr size h.toShaped hSize
  rw [if_neg (by omega)] at hEq
  by_cases hOut : 2 ^ 32 ≤ p.base.toNat + p.pageCount * 4096 ∨
      p.base.toNat + p.pageCount * 4096 ≤ max (intervalStart addr) p.base.toNat
  · rw [if_pos hOut] at hEq
    have hNone (i : Nat) : ¬ Covered p addr size i := by
      rw [hCovered, firstPage, endPage, hMod]
      omega
    refine ⟨0, fun j hj => by omega, ?_, fun j hj => by omega, fun j _ => ?_, fun _ => ?_⟩
    · rw [hEq]
      exact .inl ⟨rfl, fun j hCov => absurd hCov (hNone j)⟩
    · rw [hEq]
    · rw [hEq]
  · rw [if_neg hOut] at hEq
    have hFirst := @firstPage_le p addr (by omega)
    have hLast := @endPage_le p addr size
    obtain ⟨k, hLe, hUnused, hStops, hReserves⟩ := reserveFrom_spec h.known (i := firstPage p addr)
      (n := endPage p addr size - firstPage p addr) (by omega)
    rw [← hEq] at hStops hReserves
    refine ⟨k, fun j hj hCov => hUnused j ((hCovered j).mp hCov).1 hj, ?_, fun j hj hCov => ?_, fun j hCov => ?_,
      fun hAll => hReserves.idle fun j hj hjk => hAll j hjk ((hCovered j).mpr ⟨hj, ?_⟩)⟩
    · generalize (pallocReserve p addr size).2 = e at hStops
      cases hStops with
      | done hEnd =>
        refine .inl ⟨rfl, fun j hCov => ?_⟩
        rw [hCovered] at hCov
        omega
      | used hBefore hUsed => exact .inr ⟨rfl, (hCovered k).mpr ⟨hLe, by omega⟩, hUsed⟩
    · rw [hReserves.after, if_pos ⟨((hCovered j).mp hCov).1, hj⟩]
    · rw [hReserves.after, if_neg]
      rintro ⟨hj, hjk⟩
      refine hCov ((hCovered j).mpr ⟨hj, ?_⟩)
      generalize (pallocReserve p addr size).2 = e at hStops
      cases hStops <;> omega
    · generalize (pallocReserve p addr size).2 = e at hStops
      cases hStops <;> omega

theorem MarkedUpTo.whole {k : Nat} (h : MarkedUpTo p addr size k) (hKnown : Known p)
    (hUnmixed : ∀ i j, Covered p addr size i → bitmapGet p i = pallocStateUsed → Covered p addr size j →
      bitmapGet p j = pallocStateFree → ∃ k < j, Covered p addr size k ∧ bitmapGet p k = pallocStateUsed) :
    ReservedWhole p addr size where
  conflict := by
    rintro ⟨i, hCov, hUsed⟩
    obtain ⟨-, hAll⟩ | ⟨hErr, hCovK, hUsedK⟩ := h.stops
    · exact absurd hUsed (h.unused i (hAll i hCov) hCov)
    · refine Prod.ext (h.idle fun j hj hCovJ => ?_) hErr
      obtain hFree | hUsedJ | hRsvd := hKnown j hCovJ.inPool
      · obtain ⟨m, hm, hCovM, hUsedM⟩ := hUnmixed k j hCovK hUsedK hCovJ hFree
        exact absurd hUsedM (h.unused m (hm.trans hj) hCovM)
      · exact absurd hUsedJ (h.unused j hj hCovJ)
      · exact hRsvd
  done := by
    intro hNone
    obtain ⟨hOk, -⟩ | ⟨-, hCovK, hUsedK⟩ := h.stops
    · exact hOk
    · exact absurd ⟨k, hCovK, hUsedK⟩ hNone
  reserved := by
    intro hNone i hCov
    obtain ⟨-, hAll⟩ | ⟨-, hCovK, hUsedK⟩ := h.stops
    · exact h.marked i (hAll i hCov) hCov
    · exact absurd ⟨k, hCovK, hUsedK⟩ hNone
  others := fun _ => h.others
  outside := fun hNone => h.idle fun j _ hCov => absurd hCov (hNone j)

theorem ReservedWhole.of_idle (hIdle : pallocReserve p addr size = (p, .ok))
    (hSettled : ∀ i, Covered p addr size i → bitmapGet p i = pallocStateRsvd) : ReservedWhole p addr size where
  conflict := by
    rintro ⟨i, hCov, hUsed⟩
    rw [hSettled i hCov] at hUsed
    cases hUsed
  done := fun _ => by rw [hIdle]
  reserved := by
    intro _ i hCov
    rw [hIdle]
    exact hSettled i hCov
  others := by
    intro _ i _
    rw [hIdle]
  outside := by
    intro _
    rw [hIdle]

theorem ReservedWhole.not_badArgs (h : ReservedWhole p addr size) : pallocReserve p addr size ≠ (p, .badArgs) := by
  intro hBad
  by_cases hUsed : ∃ i, Covered p addr size i ∧ bitmapGet p i = pallocStateUsed
  · have hConflict := h.conflict hUsed
    rw [hBad] at hConflict
    cases hConflict
  · have hDone := h.done hUsed
    rw [hBad] at hDone
    cases hDone

theorem Sound.reservable (h : Sound p) (hSize : size ≠ 0) (hSpace : addr.toNat + size.toNat ≤ 2 ^ 32)
    (hWhole : ReservedWhole p addr size) : Reservable p addr size := by
  have hEq := @pallocReserve_eq p addr size h.toShaped hSize
  have hArgs : max (intervalStart addr) p.base.toNat < intervalEnd addr size % 2 ^ 32 := by
    by_contra hNot
    rw [if_pos (not_lt.mp hNot)] at hEq
    exact hWhole.not_badArgs hEq
  have hTop : intervalEnd addr size ≤ 2 ^ 32 := by
    rw [intervalEnd]
    omega
  have hEnds : intervalEnd addr size < 2 ^ 32 := by
    by_contra hNot
    rw [hTop.antisymm (not_lt.mp hNot), Nat.mod_self] at hArgs
    omega
  have hMod : intervalEnd addr size % 2 ^ 32 = intervalEnd addr size := Nat.mod_eq_of_lt hEnds
  rw [if_neg (not_le.mpr hArgs)] at hEq
  refine ⟨by omega, hEnds, fun hPool i j hCovI hUsed hCovJ hFree => ?_, fun hPool i hCov => ?_⟩
  · obtain ⟨k, hMarked⟩ := h.marking hSize (by omega) hEnds hPool
    have hConflict := hWhole.conflict ⟨i, hCovI, hUsed⟩
    obtain ⟨hOk, -⟩ | ⟨-, hCovK, hUsedK⟩ := hMarked.stops
    · rw [hConflict] at hOk
      cases hOk
    · refine ⟨k, not_le.mp fun hLe => ?_, hCovK, hUsedK⟩
      obtain hSame | hBefore := eq_or_lt_of_le hLe
      · rw [hSame, hUsedK] at hFree
        cases hFree
      · have hRsvd := hMarked.marked j hBefore hCovJ
        rw [hConflict, hFree] at hRsvd
        cases hRsvd
  · rw [if_pos (.inl hPool)] at hEq
    by_cases hUsed : ∃ i, Covered p addr size i ∧ bitmapGet p i = pallocStateUsed
    · have hConflict := hWhole.conflict hUsed
      rw [hEq] at hConflict
      cases hConflict
    · have hRsvd := hWhole.reserved hUsed i hCov
      rw [hEq] at hRsvd
      exact hRsvd

theorem Sound.reservedWhole (h : Sound p) (hSize : size ≠ 0) (hReservable : Reservable p addr size) :
    ReservedWhole p addr size := by
  by_cases hPool : p.base.toNat + p.pageCount * 4096 < 2 ^ 32
  · obtain ⟨k, hMarked⟩ := h.marking hSize hReservable.reaches hReservable.ends hPool
    exact hMarked.whole h.known (hReservable.unmixed hPool)
  · have hEq := @pallocReserve_eq p addr size h.toShaped hSize
    have hLess := @intervalStart_lt addr size hSize
    rw [Nat.mod_eq_of_lt hReservable.ends, if_neg (by have := hReservable.reaches; omega),
      if_pos (.inl (not_lt.mp hPool))] at hEq
    exact .of_idle hEq (hReservable.settled (not_lt.mp hPool))

theorem pallocInit_free {base : U32} {bitmap : Nat → U32} {words : Nat}
    (h : pallocInit base size bitmap words = .ok p) :
    p.base = base ∧ p.pageCount * 4096 = size.toNat ∧ Sound p ∧
      ∀ i < p.pageCount, bitmapGet p i = pallocStateFree := by
  rw [pallocInit] at h
  split_ifs at h with hBase hEmpty hMany hWords
  cases h
  have hGet (i : Nat) (hi : i < (size >>> pallocPageShift).toNat) : bitmapGet
      { base := base, pageCount := (size >>> pallocPageShift).toNat
        freePages := (size >>> pallocPageShift).toNat, usedPages := 0, reservedPages := 0, peakUsed := 0
        bitmap := fun w => if w < words then 0 else bitmap w, bitmapWords := words, inited := true } i =
        pallocStateFree := by
    have hFew : (size >>> pallocPageShift).toNat ≤ 262144 := not_lt.mp hMany
    have hEnough : 16384 ≤ words := not_lt.mp hWords
    have hWord : i / 16 < words := by omega
    simp [bitmapGet, hWord, pallocStateFree]
  have hPages : (size >>> pallocPageShift).toNat * 4096 = size.toNat := by
    rw [not_or, not_not, aligned_iff] at hEmpty
    rw [toNat_page]
    omega
  refine ⟨rfl, hPages,
    { inited := rfl, aligned := (aligned_iff base).mp (not_not.mp hBase), few := not_lt.mp hMany
      known := fun i hi => .inl (hGet i hi), counted := ⟨?_, ?_, ?_⟩ }, hGet⟩
  · rw [pagesIn, Finset.filter_true_of_mem fun i hi => hGet i (Finset.mem_range.mp hi), Finset.card_range]
  · rw [pagesIn, Finset.filter_false_of_mem, Finset.card_empty]
    intro i hi
    rw [hGet i (Finset.mem_range.mp hi)]
    decide
  · rw [pagesIn, Finset.filter_false_of_mem, Finset.card_empty]
    intro i hi
    rw [hGet i (Finset.mem_range.mp hi)]
    decide

theorem Sound.perform (h : Sound p) (call : Call) : Kept p (perform p call).1 := by
  cases call with
  | reserve addr size => exact h.reserve addr size
  | allocPages n =>
    obtain ⟨s, hRun, -, hEq⟩ | ⟨-, e, -, hEq⟩ := pallocAllocPages_cases h n
    · rw [Palloc.perform, hEq]
      exact { h.handOut hRun with base_eq := markUsed_same.1, pageCount_eq := markUsed_same.2.1 }
    · rw [Palloc.perform, hEq]
      exact h.kept
  | free addr =>
    simp only [Palloc.perform]
    obtain ⟨i, -, hUsed, hEq⟩ | ⟨-, e, -, hEq⟩ := pallocFree_cases h addr
    · rw [hEq]
      exact { h.takeBack hUsed with base_eq := rfl, pageCount_eq := rfl }
    · rw [hEq]
      exact h.kept

theorem Sound.final (h : Sound p) (calls : List Call) : Kept p (pools.final p calls) := by
  refine Transition.Machine.final_invariant pools (fun q call hKept => ?_) h.kept calls
  have hStep := hKept.toSound.perform call
  exact { hStep with
          base_eq := hStep.base_eq.trans hKept.base_eq
          pageCount_eq := hStep.pageCount_eq.trans hKept.pageCount_eq }

theorem Reached.sound {base : U32} {bitmap : Nat → U32} {words : Nat}
    (h : Reached base size bitmap words p) : Sound p := by
  obtain ⟨fresh, calls, hInit, rfl⟩ := h
  exact ((pallocInit_free hInit).2.2.1.final calls).toSound

theorem reservedWhole_iff {base poolSize : U32} {bitmap : Nat → U32} {words : Nat}
    (h : Reached base poolSize bitmap words p) (hSize : size ≠ 0) (hSpace : addr.toNat + size.toNat ≤ 2 ^ 32) :
    ReservedWhole p addr size ↔ Reservable p addr size :=
  ⟨h.sound.reservable hSize hSpace, h.sound.reservedWhole hSize⟩

def smallPool : PallocT :=
  { base := 0x10000000, pageCount := 64, freePages := 64, usedPages := 0, reservedPages := 0, peakUsed := 0
    bitmap := fun w => if w < pallocBitmapWords then 0 else 0, bitmapWords := pallocBitmapWords, inited := true }

theorem reservedWhole_small : Reached 0x10000000 0x40000 (fun _ => 0) pallocBitmapWords smallPool ∧
    (ReservedWhole smallPool 0x10001800 0x1000 ↔ Reservable smallPool 0x10001800 0x1000) := by
  have hReached : Reached 0x10000000 0x40000 (fun _ => 0) pallocBitmapWords smallPool := ⟨smallPool, [], rfl, rfl⟩
  exact ⟨hReached, reservedWhole_iff hReached (by decide) (by decide)⟩

/-- Two pages are handed out and the lower one comes back: reserving both then marks the lower one and refuses the
other. An interval below the pool is refused, and so is one that ends with the last page of the address space. -/
theorem not_reservedWhole :
    ¬ (∀ (base poolSize : U32) (bitmap : Nat → U32) (words : Nat) (p : PallocT) (addr size : U32),
      Reached base poolSize bitmap words p → size ≠ 0 → addr.toNat + size.toNat ≤ 2 ^ 32 →
        ReservedWhole p addr size) ∧
      (pallocReserve smallPool 0x1000 0x1000).2 = .badArgs ∧
      (pallocReserve smallPool 0x10000000 0xF0000000).2 = .badArgs := by
  refine ⟨fun hAll => ?_, by decide +kernel, by decide +kernel⟩
  let p := pools.final smallPool [.allocPages 2, .free 0x10000000]
  have hWhole := hAll 0x10000000 0x40000 (fun _ => 0) pallocBitmapWords p 0x10000000 0x2000
    ⟨smallPool, _, rfl, rfl⟩ (by decide) (by decide)
  have hUsed : bitmapGet p 1 = pallocStateUsed := by decide +kernel
  have hConflict := hWhole.conflict ⟨1, ⟨by decide +kernel, by decide +kernel, by decide +kernel⟩, hUsed⟩
  have hMarked : bitmapGet (pallocReserve p 0x10000000 0x2000).1 0 = pallocStateRsvd := by decide +kernel
  have hFree : bitmapGet p 0 = pallocStateFree := by decide +kernel
  rw [hConflict, hFree] at hMarked
  cases hMarked

/-! # What the calls answer

A run of free pages is found wherever there is one, and a page that was handed out can be
given back, in every pool that ends within the address space.
-/

variable {p : PallocT} {i n : Nat} {addr : U32}

structure ExactFirstFit (p : PallocT) : Prop where
  counted : Counted p
  total : p.freePages + p.usedPages + p.reservedPages = p.pageCount
  served : ∀ n, (pallocAllocPages p n).2.1 = .ok ↔ ∃ t, FreeRun p t n
  lowest : ∀ n, (pallocAllocPages p n).2.1 = .ok → ∃ s, FreeRun p s n ∧
    (pallocAllocPages p n).2.2 = some (pageAddr p s) ∧ (∀ t, FreeRun p t n → s ≤ t ∧ pageAddr p s ≤ pageAddr p t) ∧
      ∀ j, bitmapGet (pallocAllocPages p n).1 j = if s ≤ j ∧ j < s + n then pallocStateUsed else bitmapGet p j
  freed : ∀ addr, (pallocFree p addr).2 = .ok ↔ ∃ i ∈ pagesIn p pallocStateUsed, pageAddr p i = addr
  released : ∀ i ∈ pagesIn p pallocStateUsed, ∀ j, bitmapGet (pallocFree p (pageAddr p i)).1 j =
    if j = i then pallocStateFree else bitmapGet p j
  refused : ∀ addr, (pallocFree p addr).2 ≠ .ok → (pallocFree p addr).1 = p

theorem Shaped.addrToIndex_pageAddr (h : Shaped p) (hFits : Fits p) (hIn : i < p.pageCount) :
    addrToIndex p (pageAddr p i) = .ok i :=
  (h.addrToIndex_iff _).mpr ⟨hIn, h.pageAddr_toNat hFits hIn⟩

theorem Shaped.pageAddr_of_index (h : Shaped p) (hFits : Fits p) (hIndex : addrToIndex p addr = .ok i) :
    pageAddr p i = addr := by
  obtain ⟨hIn, hAddr⟩ := (h.addrToIndex_iff addr).mp hIndex
  apply eq_of_toNat_eq
  rw [h.pageAddr_toNat hFits hIn, hAddr]

theorem Sound.exactFirstFit (h : Sound p) (hFits : Fits p) : ExactFirstFit p where
  counted := h.counted
  total := by
    rw [h.counted.free, h.counted.used, h.counted.reserved]
    exact h.known.card
  served := by
    intro n
    obtain ⟨s, hRun, -, hEq⟩ | ⟨hNone, e, hErr, hEq⟩ := pallocAllocPages_cases h n
    · rw [hEq]
      exact ⟨fun _ => ⟨s, hRun⟩, fun _ => rfl⟩
    · rw [hEq]
      exact ⟨(absurd · hErr), fun ⟨t, hRun⟩ => absurd hRun (hNone t)⟩
  lowest := by
    intro n hOk
    obtain ⟨s, hRun, hFirst, hEq⟩ | ⟨-, e, hErr, hEq⟩ := pallocAllocPages_cases h n
    · rw [hEq]
      refine ⟨s, hRun, rfl, fun t ht => ⟨hFirst t ht, ?_⟩, fun j => markUsed_get j⟩
      have hInside := hRun.inside
      have hInside' := ht.inside
      have hPositive := hRun.positive
      have hLe := hFirst t ht
      rw [le_def, h.pageAddr_toNat hFits (by omega), h.pageAddr_toNat hFits (by omega)]
      omega
    · rw [hEq] at hOk
      exact absurd hOk hErr
  freed := by
    intro addr
    obtain ⟨i, hIndex, hUsed, hEq⟩ | ⟨hNone, e, hErr, hEq⟩ := pallocFree_cases h addr
    · rw [hEq]
      exact ⟨fun _ => ⟨i, hUsed, h.pageAddr_of_index hFits hIndex⟩, fun _ => rfl⟩
    · rw [hEq]
      refine ⟨(absurd · hErr), ?_⟩
      rintro ⟨i, hUsed, rfl⟩
      obtain ⟨hIn, hState⟩ := mem_pagesIn.mp hUsed
      exact absurd hState (hNone i (h.addrToIndex_pageAddr hFits hIn))
  released := by
    intro i hUsed j
    obtain ⟨hIn, hState⟩ := mem_pagesIn.mp hUsed
    have hIndex := h.addrToIndex_pageAddr hFits hIn
    obtain ⟨k, hIndex', -, hEq⟩ | ⟨hNone, -⟩ := pallocFree_cases h (pageAddr p i)
    · rw [hIndex] at hIndex'
      cases hIndex'
      rw [hEq]
      exact bitmapGet_set
    · exact absurd hState (hNone i hIndex)
  refused := by
    intro addr hRefused
    obtain ⟨i, -, -, hEq⟩ | ⟨-, e, -, hEq⟩ := pallocFree_cases h addr
    · rw [hEq] at hRefused
      exact absurd rfl hRefused
    · rw [hEq]

theorem Sound.fits_of_exact (h : Sound p) (hAll : ∀ i < p.pageCount, bitmapGet p i = pallocStateFree)
    (hExact : ExactFirstFit (pools.final p [.allocPages p.pageCount])) : Fits p := by
  by_contra hNot
  rw [Fits, not_le] at hNot
  have hFew := h.few
  rw [pallocMaxPages] at hFew
  have hAligned := h.aligned
  have hRun : FreeRun p 0 p.pageCount := ⟨by omega, by omega, fun j _ hj => hAll j (by omega)⟩
  have hKept := h.final [.allocPages p.pageCount]
  -- the page at address zero
  have hIn : (2 ^ 32 - p.base.toNat) / 4096 < p.pageCount := by omega
  have hUsed : (2 ^ 32 - p.base.toNat) / 4096 ∈ pagesIn (pools.final p [.allocPages p.pageCount]) pallocStateUsed := by
    rw [mem_pagesIn, hKept.pageCount_eq]
    refine ⟨hIn, ?_⟩
    obtain ⟨s, hRun', -, hEq⟩ | ⟨hNone, -⟩ := pallocAllocPages_cases h p.pageCount
    · change bitmapGet (pallocAllocPages p p.pageCount).1 _ = _
      have hInside := hRun'.inside
      rw [hEq]
      exact (markUsed_get _).trans (if_pos (by omega))
    · exact absurd hRun (hNone 0)
  have hAddr : pageAddr (pools.final p [.allocPages p.pageCount]) ((2 ^ 32 - p.base.toNat) / 4096) = 0 := by
    apply eq_of_toNat_eq
    rw [toNat_pageAddr (by rw [pallocMaxPages]; omega), hKept.base_eq]
    change _ = 0
    omega
  have hFreed := (hExact.freed 0).mpr ⟨_, hUsed, hAddr⟩
  obtain ⟨i, hIndex, -⟩ | ⟨-, e, hErr, hEq⟩ := pallocFree_cases hKept.toSound 0
  · obtain ⟨-, hZero⟩ := (hKept.addrToIndex_iff 0).mp hIndex
    rw [hKept.base_eq] at hZero
    change 0 = _ at hZero
    omega
  · rw [hEq] at hFreed
    exact hErr hFreed

theorem Kept.fits {q : PallocT} (h : Kept p q) : Fits q ↔ Fits p := by
  rw [Fits, Fits, h.base_eq, h.pageCount_eq]

/-- For every history of calls. -/
theorem exactFirstFit_iff {base size : U32} {bitmap : Nat → U32} {words : Nat} {fresh : PallocT}
    (hInit : pallocInit base size bitmap words = .ok fresh) :
    (∀ calls, ExactFirstFit (pools.final fresh calls)) ↔ base.toNat + size.toNat ≤ 2 ^ 32 := by
  obtain ⟨hBase, hSize, hSound, hFree⟩ := pallocInit_free hInit
  have hFits : Fits fresh ↔ base.toNat + size.toNat ≤ 2 ^ 32 := by
    rw [Fits, hBase, hSize]
  rw [← hFits]
  constructor
  · intro hAll
    exact hSound.fits_of_exact hFree (hAll _)
  · intro hFits' calls
    have hKept := hSound.final calls
    exact hKept.exactFirstFit (hKept.fits.mpr hFits')

theorem exactFirstFit_small : pallocInit 0x10000000 0x40000 (fun _ => 0) pallocBitmapWords = .ok smallPool ∧
    ((∀ calls, ExactFirstFit (pools.final smallPool calls)) ↔
      (0x10000000 : U32).toNat + (0x40000 : U32).toNat ≤ 2 ^ 32) :=
  ⟨rfl, @exactFirstFit_iff _ _ (fun _ => 0) pallocBitmapWords _ rfl⟩

/-- Two pages, of which the second one lies at address zero. -/
theorem not_exactFirstFit :
    ¬ ∀ (base size : U32) (bitmap : Nat → U32) (words : Nat) (p : PallocT),
      Reached base size bitmap words p → ExactFirstFit p := by
  intro hAll
  let fresh : PallocT :=
    { base := 0xFFFFF000, pageCount := 2, freePages := 2, usedPages := 0, reservedPages := 0, peakUsed := 0
      bitmap := fun w => if w < pallocBitmapWords then 0 else 0, bitmapWords := pallocBitmapWords, inited := true }
  have hExact := hAll 0xFFFFF000 0x2000 (fun _ => 0) pallocBitmapWords (pools.final fresh [.allocPages 2])
    ⟨fresh, _, rfl, rfl⟩
  have hUsed : 1 ∈ pagesIn (pools.final fresh [.allocPages 2]) pallocStateUsed := by
    rw [mem_pagesIn]
    decide +kernel
  have hFreed := (hExact.freed 0).mpr ⟨1, hUsed, by decide +kernel⟩
  have hRange : (pallocFree (pools.final fresh [.allocPages 2]) 0).2 = .range := by decide +kernel
  rw [hRange] at hFreed
  cases hFreed

theorem pallocState_used : pallocState p addr = pallocStateUsed ↔
    ∃ i, addrToIndex p addr = .ok i ∧ bitmapGet p i = pallocStateUsed := by
  rw [pallocState]
  cases addrToIndex p addr with
  | error e => exact ⟨fun hBad => (by cases hBad), fun ⟨_, hOk, _⟩ => (by cases hOk)⟩
  | ok i => exact ⟨fun hUsed => ⟨i, rfl, hUsed⟩, fun ⟨_, hOk, hUsed⟩ => (by cases hOk; exact hUsed)⟩

theorem Sound.held (h : Sound p) {call : Call} (hNever : call ≠ .free addr)
    (hUsed : pallocState p addr = pallocStateUsed) :
    pallocState (Palloc.perform p call).1 addr = pallocStateUsed := by
  have hKept := h.perform call
  obtain ⟨i, hIndex, hState⟩ := pallocState_used.mp hUsed
  rw [h.addrToIndex_iff] at hIndex
  refine pallocState_used.mpr ⟨i, ?_, ?_⟩
  · rw [hKept.addrToIndex_iff, hKept.base_eq, hKept.pageCount_eq]
    exact hIndex
  cases call with
  | reserve start size =>
    obtain ⟨first, k, hNone, hReserves⟩ := pallocReserve_cases h start size
    exact (hReserves.after i).trans ((if_neg fun hMarked => hNone i hMarked.1 hMarked.2 hState).trans hState)
  | allocPages n =>
    rw [Palloc.perform]
    obtain ⟨s, -, -, hEq⟩ | ⟨-, e, -, hEq⟩ := pallocAllocPages_cases h n
    · rw [hEq]
      refine (markUsed_get i).trans ?_
      rw [hState, ite_self]
    · rw [hEq, hState]
  | free other =>
    change bitmapGet (pallocFree p other).1 i = _
    obtain ⟨k, hOther, -, hEq⟩ | ⟨-, e, -, hEq⟩ := pallocFree_cases h other
    · have hApart : i ≠ k := by
        rintro rfl
        rw [h.addrToIndex_iff, ← hIndex.2] at hOther
        exact hNever (congrArg _ (eq_of_toNat_eq hOther.2))
      rw [hEq]
      exact bitmapGet_set.trans ((if_neg hApart).trans hState)
    · rw [hEq, hState]

theorem Sound.held_final (h : Sound p) {calls : List Call} (hNever : .free addr ∉ calls)
    (hUsed : pallocState p addr = pallocStateUsed) : pallocState (pools.final p calls) addr = pallocStateUsed := by
  induction calls generalizing p with
  | nil => exact hUsed
  | cons call calls ih =>
    rw [List.mem_cons, not_or] at hNever
    exact ih (h.perform call).toSound hNever.2 (h.held (Ne.symm hNever.1) hUsed)

/-- A page in use is nobody else's until it is given back, and it can be given back at any time. -/
theorem palloc_page_held {base size : U32} {bitmap : Nat → U32} {words : Nat} (h : Reached base size bitmap words p)
    {page : U32} (hUsed : pallocState p page = pallocStateUsed) {calls : List Call} (hNever : .free page ∉ calls) :
    pallocState (pools.final p calls) page = pallocStateUsed ∧ (pallocFree (pools.final p calls) page).2 = .ok ∧
      ∀ n addr, (pallocAllocPages (pools.final p calls) n).2.2 = some addr →
        page.toNat < addr.toNat ∨ addr.toNat + n * 4096 ≤ page.toNat := by
  have hHeld := h.sound.held_final hNever hUsed
  have hSound := (h.sound.final calls).toSound
  obtain ⟨i, hIndex, hState⟩ := pallocState_used.mp hHeld
  refine ⟨hHeld, ?_, fun n addr hSome => ?_⟩
  · obtain ⟨k, -, -, hEq⟩ | ⟨hNone, -⟩ := pallocFree_cases hSound page
    · rw [hEq]
    · exact absurd hState (hNone i hIndex)
  · obtain ⟨s, hRun, -, hEq⟩ | ⟨-, e, -, hEq⟩ := pallocAllocPages_cases hSound n
    · rw [hEq] at hSome
      cases hSome
      have hInside := hRun.inside
      have hPositive := hRun.positive
      have hFew := hSound.few
      rw [pallocMaxPages] at hFew
      have hOutside : ¬ (s ≤ i ∧ i < s + n) := by
        rintro ⟨hLow, hHigh⟩
        have hFree := hRun.free i hLow hHigh
        rw [hState] at hFree
        cases hFree
      -- the run may begin behind the end of the address space
      rw [hSound.addrToIndex_iff] at hIndex
      rw [toNat_pageAddr (by rw [pallocMaxPages]; omega)]
      omega
    · rw [hEq] at hSome
      cases hSome

theorem palloc_page_held_small :
    pallocState (pools.final (pools.final smallPool [.allocPages 2])
      [.reserve 0x10000000 0x1000, .free 0x10000000, .allocPages 3]) 0x10001000 = pallocStateUsed :=
  (@palloc_page_held _ 0x10000000 0x40000 (fun _ => 0) pallocBitmapWords ⟨smallPool, [.allocPages 2], rfl, rfl⟩
    0x10001000 (by decide +kernel) _ (by simp)).1

end OpenXJ380.Palloc
