import OpenXJ380.Palloc.Model
import Mathlib.Order.Interval.Finset.Nat

/-! # First fit

The counters of a pool tell the truth whatever is called, and the lowest run of free pages
is handed out.
-/

namespace OpenXJ380.Palloc

variable {p q : PallocT} {i k n : Nat} {addr : U32}

structure Sound (p : PallocT) : Prop extends Shaped p where
  known : Known p
  counted : Counted p

/-- The pages from `i` to `k` are reserved, and nothing is written where they were before. -/
structure Reserves (p q : PallocT) (i k : Nat) : Prop where
  base : q.base = p.base
  pageCount : q.pageCount = p.pageCount
  inited : q.inited = p.inited
  after : ∀ j, bitmapGet q j = if i ≤ j ∧ j < k then pallocStateRsvd else bitmapGet p j
  idle : (∀ j, i ≤ j → j < k → bitmapGet p j = pallocStateRsvd) → q = p
  sound : Sound p → Sound q

theorem Reserves.none (p : PallocT) (i : Nat) : Reserves p p i i where
  base := rfl
  pageCount := rfl
  inited := rfl
  after := fun j => (if_neg (by omega)).symm
  idle := fun _ => rfl
  sound := id

theorem Reserves.first (hState : bitmapGet p i = pallocStateRsvd) (hLess : i < k) (h : Reserves p q (i + 1) k) :
    Reserves p q i k := by
  refine { h with after := fun j => ?_, idle := fun hAll => h.idle fun j hj hjk => hAll j (by omega) hjk }
  rw [h.after]
  by_cases hSame : j = i
  · subst hSame
    rw [if_neg (by omega), if_pos ⟨le_rfl, hLess⟩, hState]
  · simp only [show i + 1 ≤ j ↔ i ≤ j by omega]

def marked (p : PallocT) (i : Nat) : PallocT :=
  { bitmapSet p i pallocStateRsvd with freePages := p.freePages - 1, reservedPages := p.reservedPages + 1 }

theorem Sound.mark (h : Sound p) (hIn : i < p.pageCount) (hState : bitmapGet p i = pallocStateFree) :
    Sound (marked p i) := by
  have hMoved : Moved p (bitmapSet p i pallocStateRsvd) {i} pallocStateFree pallocStateRsvd :=
    bitmapSet_moved hIn hState (by decide)
  have hFree := hMoved.card_from (by decide)
  have hRsvd := hMoved.card_to (by decide)
  have hUsed := hMoved.card_other (c := pallocStateUsed) (by decide) (by decide)
  rw [Finset.card_singleton] at hFree hRsvd
  refine { inited := h.inited, aligned := h.aligned, few := h.few
           known := hMoved.known h.known (.inr (.inr rfl)), counted := ⟨?_, ?_, ?_⟩ }
  · change p.freePages - 1 = (pagesIn (bitmapSet p i pallocStateRsvd) pallocStateFree).card
    rw [h.counted.free]
    omega
  · exact h.counted.used.trans hUsed.symm
  · change p.reservedPages + 1 = (pagesIn (bitmapSet p i pallocStateRsvd) pallocStateRsvd).card
    rw [h.counted.reserved]
    omega

theorem Reserves.mark (hIn : i < p.pageCount) (hLess : i < k) (hState : bitmapGet p i = pallocStateFree)
    (h : Reserves (marked p i) q (i + 1) k) : Reserves p q i k where
  __ := h
  after := by
    intro j
    rw [h.after]
    change (if i + 1 ≤ j ∧ j < k then pallocStateRsvd else bitmapGet (bitmapSet p i pallocStateRsvd) j) = _
    rw [bitmapGet_set]
    by_cases hSame : j = i
    · subst hSame
      rw [if_neg (by omega), if_pos rfl, if_pos ⟨le_rfl, hLess⟩]
      rfl
    · rw [if_neg hSame]
      simp only [show i + 1 ≤ j ↔ i ≤ j by omega]
  idle := by
    intro hAll
    have hRsvd := hAll i le_rfl hLess
    rw [hState] at hRsvd
    cases hRsvd
  sound := fun hSound => h.sound (hSound.mark hIn hState)

/-- Where the marking stops: behind its last page, or at a page that is used. -/
inductive Stops (p : PallocT) (i n k : Nat) : PallocErr → Prop
  | done (hEnd : k = i + n) : Stops p i n k .ok
  | used (hLess : k < i + n) (hUsed : bitmapGet p k = pallocStateUsed) : Stops p i n k .alreadyUsed

theorem reserveFrom_spec (hKnown : Known p) (hIn : i + n ≤ p.pageCount) :
    ∃ k, i ≤ k ∧ (∀ j, i ≤ j → j < k → bitmapGet p j ≠ pallocStateUsed) ∧ Stops p i n k (reserveFrom p i n).2 ∧
      Reserves p (reserveFrom p i n).1 i k := by
  induction n generalizing p i with
  | zero => exact ⟨i, le_rfl, fun j _ _ => by omega, .done rfl, .none p i⟩
  | succ n ih =>
    simp only [reserveFrom]
    by_cases hRsvd : bitmapGet p i = pallocStateRsvd
    · rw [if_pos hRsvd]
      obtain ⟨k, hLe, hNone, hStops, hReserves⟩ := ih hKnown (i := i + 1) (by omega)
      refine ⟨k, by omega, ?_, ?_, hReserves.first hRsvd hLe⟩
      · intro j hj hjk hUsed
        by_cases hSame : j = i
        · rw [hSame, hRsvd] at hUsed
          cases hUsed
        · exact hNone j (by omega) hjk hUsed
      · generalize (reserveFrom p (i + 1) n).2 = e at hStops
        cases hStops with
        | done hEnd => exact .done (by omega)
        | used hLess hUsed => exact .used (by omega) hUsed
    · rw [if_neg hRsvd]
      by_cases hUsed : bitmapGet p i = pallocStateUsed
      · rw [if_pos hUsed]
        exact ⟨i, le_rfl, fun j _ _ => by omega, .used (by omega) hUsed, .none p i⟩
      · rw [if_neg hUsed]
        have hFree : bitmapGet p i = pallocStateFree := (hKnown i (by omega)).resolve_right fun h => h.elim hUsed hRsvd
        have hKnown' : Known (marked p i) :=
          (bitmapSet_moved (by omega) hFree (by decide)).known hKnown (.inr (.inr rfl))
        obtain ⟨k, hLe, hNone, hStops, hReserves⟩ := ih hKnown' (i := i + 1) (by change _ ≤ p.pageCount; omega)
        have hGet (j : Nat) (hj : i + 1 ≤ j) : bitmapGet (marked p i) j = bitmapGet p j := by
          change bitmapGet (bitmapSet p i pallocStateRsvd) j = _
          rw [bitmapGet_set, if_neg (by omega)]
        refine ⟨k, by omega, ?_, ?_, hReserves.mark (by omega) hLe hFree⟩
        · intro j hj hjk
          by_cases hSame : j = i
          · rw [hSame, hFree]
            decide
          · rw [← hGet j (by omega)]
            exact hNone j (by omega) hjk
        · change Stops p i (n + 1) k (reserveFrom (marked p i) (i + 1) n).2
          generalize (reserveFrom (marked p i) (i + 1) n).2 = e at hStops
          cases hStops with
          | done hEnd => exact .done (by omega)
          | used hLess hUsed =>
            rw [hGet k hLe] at hUsed
            exact .used (by omega) hUsed

/-- `n` free pages from `s` on. -/
structure FreeRun (p : PallocT) (s n : Nat) : Prop where
  positive : 0 < n
  inside : s + n ≤ p.pageCount
  free : ∀ j, s ≤ j → j < s + n → bitmapGet p j = pallocStateFree

/-- The scan at page `i`: the `run` pages before it are free, and no run of `n` pages begins before them. -/
structure Scanned (p : PallocT) (n i run start : Nat) : Prop where
  short : run < n
  inside : run ≤ i
  start_eq : 0 < run → start + run = i
  free : ∀ j, i - run ≤ j → j < i → bitmapGet p j = pallocStateFree
  none : ∀ t, FreeRun p t n → i - run ≤ t

theorem findRun_spec {rounds run start : Nat} (h : Scanned p n i run start) (hEnd : i + rounds = p.pageCount) :
    (findRun p n rounds i run start = none → ∀ t, ¬ FreeRun p t n) ∧
      ∀ s, findRun p n rounds i run start = some s → FreeRun p s n ∧ ∀ t, FreeRun p t n → s ≤ t := by
  induction rounds generalizing i run start with
  | zero =>
    refine ⟨fun _ t hRun => ?_, fun s hSome => ?_⟩
    · have hStart := h.none t hRun
      have hInside := hRun.inside
      have hShort := h.short
      omega
    · cases hSome
  | succ rounds ih =>
    rw [findRun]
    by_cases hFree : bitmapGet p i = pallocStateFree
    · rw [if_pos hFree]
      have hStart : (if run = 0 then i else start) + run = i := by
        by_cases hZero : run = 0
        · rw [if_pos hZero, hZero, add_zero]
        · rw [if_neg hZero]
          exact h.start_eq (Nat.pos_of_ne_zero hZero)
      have hHere (j : Nat) (hj : i - run ≤ j) (hji : j < i + 1) : bitmapGet p j = pallocStateFree := by
        by_cases hSame : j = i
        · rw [hSame, hFree]
        · exact h.free j hj (by omega)
      by_cases hLast : run + 1 = n
      · simp only [hLast, if_true]
        refine ⟨fun hNone => (by cases hNone), fun s hSome => ?_⟩
        cases hSome
        refine ⟨⟨by omega, by omega, fun j hj hjn => hHere j (by omega) (by omega)⟩, fun t hRun => ?_⟩
        have hFirst := h.none t hRun
        omega
      · simp only [hLast, if_false]
        refine ih ⟨by have := h.short; omega, by have := h.inside; omega, fun _ => by omega, ?_, ?_⟩ (by omega)
        · intro j hj hji
          exact hHere j (by omega) hji
        · intro t hRun
          have hFirst := h.none t hRun
          omega
    · rw [if_neg hFree]
      refine ih ⟨Nat.zero_lt_of_lt h.short, Nat.zero_le _, (absurd · (Nat.lt_irrefl 0)), ?_, ?_⟩ (by omega)
      · intro j hj hji
        omega
      · intro t hRun
        -- a run that begins before the page ends behind it, so that the page would be free
        by_contra hBefore
        have hFirst := h.none t hRun
        have hShort := h.short
        exact hFree (hRun.free i (by omega) (by omega))

theorem findRun_first (hPositive : 0 < n) :
    (findRun p n p.pageCount 0 0 0 = none → ∀ t, ¬ FreeRun p t n) ∧
      ∀ s, findRun p n p.pageCount 0 0 0 = some s → FreeRun p s n ∧ ∀ t, FreeRun p t n → s ≤ t :=
  findRun_spec ⟨hPositive, Nat.le_refl 0, (absurd · (lt_irrefl 0)), fun j _ h => by omega,
    fun _ _ => Nat.zero_le _⟩ (zero_add _)

theorem FreeRun.le_card {s : Nat} (h : FreeRun p s n) : n ≤ (pagesIn p pallocStateFree).card := by
  have hSubset : Finset.Ico s (s + n) ⊆ pagesIn p pallocStateFree := by
    intro j hj
    rw [Finset.mem_Ico] at hj
    exact mem_pagesIn.mpr ⟨hj.2.trans_le h.inside, h.free j hj.1 hj.2⟩
  have hCard := Finset.card_le_card hSubset
  rw [Nat.card_Ico] at hCard
  omega

theorem markUsed_get (j : Nat) :
    bitmapGet (markUsed p k n) j = if k ≤ j ∧ j < k + n then pallocStateUsed else bitmapGet p j := by
  induction n generalizing p k with
  | zero => rw [markUsed, if_neg (by omega)]
  | succ n ih =>
    rw [markUsed, ih, bitmapGet_set]
    split_ifs <;> first | rfl | omega

theorem markUsed_same : (markUsed p k n).base = p.base ∧ (markUsed p k n).pageCount = p.pageCount ∧
    (markUsed p k n).inited = p.inited ∧ (markUsed p k n).usedPages = p.usedPages ∧
    (markUsed p k n).freePages = p.freePages ∧ (markUsed p k n).reservedPages = p.reservedPages := by
  induction n generalizing p k with
  | zero => exact ⟨rfl, rfl, rfl, rfl, rfl, rfl⟩
  | succ n ih => exact ih

theorem FreeRun.moved {s : Nat} (h : FreeRun p s n) :
    Moved p (markUsed p s n) (Finset.Ico s (s + n)) pallocStateFree pallocStateUsed where
  base := markUsed_same.1
  pageCount := markUsed_same.2.1
  inited := markUsed_same.2.2.1
  before := by
    intro j hj
    rw [Finset.mem_Ico] at hj
    exact mem_pagesIn.mpr ⟨hj.2.trans_le h.inside, h.free j hj.1 hj.2⟩
  after := by
    intro j
    rw [markUsed_get]
    simp only [Finset.mem_Ico]

/-- The pool behind a successful `pallocAllocPages`. -/
def handOut (p : PallocT) (s n : Nat) : PallocT :=
  let p := markUsed p s n
  let p := { p with freePages := p.freePages - n, usedPages := p.usedPages + n }
  { p with peakUsed := if p.usedPages > p.peakUsed then p.usedPages else p.peakUsed }

theorem pallocAllocPages_cases (h : Sound p) (n : Nat) :
    (∃ s, FreeRun p s n ∧ (∀ t, FreeRun p t n → s ≤ t) ∧
        pallocAllocPages p n = (handOut p s n, .ok, some (pageAddr p s))) ∨
      (∀ t, ¬ FreeRun p t n) ∧ ∃ e ≠ .ok, pallocAllocPages p n = (p, e, none) := by
  rw [pallocAllocPages, h.inited, if_neg (by decide)]
  by_cases hZero : n = 0
  · rw [if_pos hZero]
    exact .inr ⟨fun t hRun => by have := hRun.positive; omega, .badArgs, by decide, rfl⟩
  · rw [if_neg hZero]
    obtain ⟨hNone, hSome⟩ := findRun_first (p := p) (Nat.pos_of_ne_zero hZero)
    by_cases hMany : n > p.freePages
    · rw [if_pos hMany]
      refine .inr ⟨fun t hRun => ?_, .oom, by decide, rfl⟩
      have hCard := hRun.le_card
      rw [h.counted.free] at hMany
      omega
    · rw [if_neg hMany]
      cases hFind : findRun p n p.pageCount 0 0 0 with
      | none => exact .inr ⟨hNone hFind, .oom, by decide, rfl⟩
      | some s =>
        refine .inl ⟨s, (hSome s hFind).1, (hSome s hFind).2, ?_⟩
        simp only [handOut, pageAddr, markUsed_same.1]

theorem Sound.handOut {s : Nat} (h : Sound p) (hRun : FreeRun p s n) : Sound (handOut p s n) := by
  have hMoved := hRun.moved
  have hFree := hMoved.card_from (by decide)
  have hUsed := hMoved.card_to (by decide)
  have hRsvd := hMoved.card_other (c := pallocStateRsvd) (by decide) (by decide)
  obtain ⟨hBase, hCount, hInited, hOldUsed, hOldFree, hOldRsvd⟩ := @markUsed_same p s n
  rw [Nat.card_Ico, Nat.add_sub_cancel_left] at hFree hUsed
  have hKnown : Known (markUsed p s n) := hMoved.known h.known (.inr (.inl rfl))
  refine { inited := hInited.trans h.inited, aligned := ?_, few := ?_, known := hKnown, counted := ⟨?_, ?_, ?_⟩ }
  · change (markUsed p s n).base.toNat % 4096 = 0
    rw [hBase]
    exact h.aligned
  · change (markUsed p s n).pageCount ≤ _
    rw [hCount]
    exact h.few
  · change (markUsed p s n).freePages - n = (pagesIn (markUsed p s n) pallocStateFree).card
    rw [hOldFree, h.counted.free]
    omega
  · change (markUsed p s n).usedPages + n = (pagesIn (markUsed p s n) pallocStateUsed).card
    rw [hOldUsed, h.counted.used]
    omega
  · change (markUsed p s n).reservedPages = (pagesIn (markUsed p s n) pallocStateRsvd).card
    rw [hOldRsvd, h.counted.reserved]
    exact hRsvd.symm

/-- The pool behind a successful `pallocFree`. -/
def takeBack (p : PallocT) (i : Nat) : PallocT :=
  let p := bitmapSet p i pallocStateFree
  { p with usedPages := p.usedPages - 1, freePages := p.freePages + 1 }

theorem pallocFree_cases (h : Sound p) (addr : U32) :
    (∃ i, addrToIndex p addr = .ok i ∧ i ∈ pagesIn p pallocStateUsed ∧ pallocFree p addr = (takeBack p i, .ok)) ∨
      (∀ i, addrToIndex p addr = .ok i → bitmapGet p i ≠ pallocStateUsed) ∧
        ∃ e ≠ .ok, pallocFree p addr = (p, e) := by
  rw [pallocFree]
  cases hIndex : addrToIndex p addr with
  | error e =>
    refine .inr ⟨fun i hOk => (by cases hOk), e, ?_, rfl⟩
    simp only [addrToIndex] at hIndex
    split_ifs at hIndex <;> cases hIndex <;> decide
  | ok i =>
    obtain ⟨hIn, -⟩ := (h.addrToIndex_iff addr).mp hIndex
    simp only
    obtain hFree | hUsed | hRsvd := h.known i hIn
    · rw [if_pos hFree]
      refine .inr ⟨fun k hOk => ?_, _, by decide, rfl⟩
      cases hOk
      rw [hFree]
      decide
    · rw [hUsed, if_neg (by decide), if_neg (by decide)]
      exact .inl ⟨i, rfl, mem_pagesIn.mpr ⟨hIn, hUsed⟩, rfl⟩
    · rw [hRsvd, if_neg (by decide), if_pos rfl]
      refine .inr ⟨fun k hOk => ?_, _, by decide, rfl⟩
      cases hOk
      rw [hRsvd]
      decide

theorem Sound.takeBack (h : Sound p) (hUsed : i ∈ pagesIn p pallocStateUsed) : Sound (takeBack p i) := by
  obtain ⟨hIn, hState⟩ := mem_pagesIn.mp hUsed
  have hMoved : Moved p (bitmapSet p i pallocStateFree) {i} pallocStateUsed pallocStateFree :=
    bitmapSet_moved hIn hState (by decide)
  have hFrom := hMoved.card_from (by decide)
  have hTo := hMoved.card_to (by decide)
  have hRsvd := hMoved.card_other (c := pallocStateRsvd) (by decide) (by decide)
  rw [Finset.card_singleton] at hFrom hTo
  refine { inited := h.inited, aligned := h.aligned, few := h.few
           known := hMoved.known h.known (.inl rfl), counted := ⟨?_, ?_, ?_⟩ }
  · change p.freePages + 1 = (pagesIn (bitmapSet p i pallocStateFree) pallocStateFree).card
    rw [h.counted.free]
    omega
  · change p.usedPages - 1 = (pagesIn (bitmapSet p i pallocStateFree) pallocStateUsed).card
    rw [h.counted.used]
    omega
  · exact h.counted.reserved.trans hRsvd.symm

end OpenXJ380.Palloc
