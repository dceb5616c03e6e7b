import OpenXJ380.Frames.Runs

/-! # Frames that are held

A frame that is taken is counted once, and can be given back by itself, whatever
size of block it came with.
-/

namespace OpenXJ380.Frames

open Function

open Buddy Dyadic

/-- `W` is free, and the frames of `H` are each referred to once. -/
structure Stock (site : Site) (s : FrameState) (W : Set Nat) (H : Set Nat) : Prop where
  ledger : Ledger site site.regions s W
  idle : ∀ f, f * 4096 ∈ W → s.refcount f = 0
  managed : ∀ f ∈ H, Managed site.regions f
  taken : ∀ f ∈ H, f * 4096 ∉ W
  counted : ∀ f ∈ H, s.refcount f = 1

variable {site : Site} {s s' : FrameState} {W H : Set Nat} {f g n addr count : Nat}

theorem getPage_frame (hIn : f * 4096 < s.memorySize) : getPage s (f * 4096) = some f := by
  rw [getPage, if_neg (by omega), pageSize, Nat.mul_div_cancel _ (by decide)]

theorem refPages_refcount (hIn : (f + n) * 4096 ≤ s.memorySize) :
    (refPages n s (f * 4096)).refcount g = if f ≤ g ∧ g < f + n then s.refcount g + 1 else s.refcount g := by
  induction n generalizing s f with
  | zero => rw [refPages, if_neg (by omega)]
  | succ n ih =>
    have hBound : (f + 1 + n) * 4096 ≤ s.memorySize := by rwa [show f + 1 + n = f + (n + 1) by omega]
    have hPage : (addressRef s (f * 4096)).refcount = update s.refcount f (s.refcount f + 1) := by
      rw [addressRef, getPage_frame (by omega)]
    have hSize : (addressRef s (f * 4096)).memorySize = s.memorySize := by
      rw [addressRef, getPage_frame (by omega)]
    rw [refPages, pageSize, show f * 4096 + 4096 = (f + 1) * 4096 by omega, ih (hBound.trans_eq hSize.symm), hPage]
    by_cases hFirst : g = f
    · rw [hFirst, if_neg (by omega), if_pos (by omega), update_self]
    · rw [update_of_ne hFirst]
      simp only [show (f + 1 ≤ g ∧ g < f + 1 + n) ↔ (f ≤ g ∧ g < f + (n + 1)) by omega]

theorem unrefPages_refcount (hIn : (f + n) * 4096 ≤ s.memorySize) :
    (unrefPages n s (f * 4096)).refcount g = if f ≤ g ∧ g < f + n then s.refcount g - 1 else s.refcount g := by
  induction n generalizing s f with
  | zero => rw [unrefPages, if_neg (by omega)]
  | succ n ih =>
    have hBound : (f + 1 + n) * 4096 ≤ s.memorySize := by rwa [show f + 1 + n = f + (n + 1) by omega]
    have hPage : (addressUnref s (f * 4096)).refcount = update s.refcount f (s.refcount f - 1) := by
      rw [addressUnref, getPage_frame (by omega)]
    have hSize : (addressUnref s (f * 4096)).memorySize = s.memorySize := by
      rw [addressUnref, getPage_frame (by omega)]
    rw [unrefPages, pageSize, show f * 4096 + 4096 = (f + 1) * 4096 by omega, ih (hBound.trans_eq hSize.symm), hPage]
    by_cases hFirst : g = f
    · rw [hFirst, if_neg (by omega), if_pos (by omega), update_self]
    · rw [update_of_ne hFirst]
      simp only [show (f + 1 ≤ g ∧ g < f + 1 + n) ↔ (f ≤ g ∧ g < f + (n + 1)) by omega]

theorem canFreePages_of_zero (h : ∀ g, f ≤ g → g < f + n → s.refcount g = 0) : canFreePages s n (f * 4096) := by
  induction n generalizing f with
  | zero => rfl
  | succ n ih =>
    have hFirst : addressCanFree s (f * 4096) := by
      rw [addressCanFree]
      split
      · rfl
      · rename_i page hPage
        rw [getPage] at hPage
        split_ifs at hPage
        rw [← Option.some.inj hPage, pageSize, Nat.mul_div_cancel _ (by decide), h f le_rfl (by omega)]
        rfl
    rw [canFreePages, hFirst, pageSize, show f * 4096 + 4096 = (f + 1) * 4096 by omega,
      ih fun g hLow hHigh => h g (by omega) (by omega)]
    rfl

theorem Stock.bound (h : Stock site s W H) (hManaged : Managed site.regions f) :
    (f + 1) * 4096 ≤ s.memorySize ∧ f ≠ 0 := by
  have hLess := Ledger.managed_lt hManaged
  rw [pageSize] at hLess
  obtain ⟨r, hr, hLow, -⟩ := hManaged
  have hAbove := (site.fits r hr).low
  rw [h.ledger.memorySize]
  omega

structure Handed (site : Site) (s s' : FrameState) (W H : Set Nat) (count addr : Nat) : Prop where
  whole : 2 ^ countToOrder count ∣ addr
  valid : orderValid (countToOrder count) = true
  free : ∀ f ∈ blockFrames addr (countToBlockPages count), f * 4096 ∈ W
  stock : ∃ V, Stock site s' V (H ∪ blockFrames addr (countToBlockPages count)) ∧
    ∀ f, f * 4096 ∈ V ↔ f * 4096 ∈ W ∧ f ∉ blockFrames addr (countToBlockPages count)

theorem Stock.mark (h : Stock site s W H) (hFound : FrameBlock s W count s' addr) :
    Handed site s (markFrames s' addr (countToBlockPages count)) W H count addr := by
  obtain ⟨V, hSub, hAfter, hFrames⟩ := h.ledger.mark hFound
  obtain ⟨type, z, m', z', -, rfl, hTaken⟩ := hFound.found
  have hLow : minOrder ≤ countToOrder count := (orderValid_iff.mp hTaken.valid).1
  have hDvd : 4096 ∣ addr := (Nat.pow_dvd_pow 2 hLow).trans hTaken.aligned
  have hFree : ∀ f ∈ blockFrames addr (countToBlockPages count), f * 4096 ∈ W := fun f hf => hSub ((hFrames f).mp hf)
  have hManaged : ∀ f ∈ blockFrames addr (countToBlockPages count), Managed site.regions f := by
    intro f hf
    have hPages := h.ledger.pages _ (hFree f hf)
    rwa [Nat.mul_div_cancel _ (by decide)] at hPages
  refine ⟨hTaken.aligned, hTaken.valid, hFree, W \ V, ?_, ?_⟩
  · have hPositive : 0 < countToBlockPages count := by
      obtain ⟨k, hPages, -⟩ := blockPages_eq count
      rw [hPages]
      exact Nat.two_pow_pos k
    have hLast : addr / pageSize + countToBlockPages count - 1 ∈ blockFrames addr (countToBlockPages count) := by
      rw [blockFrames, Finset.mem_Ico, pageSize]
      omega
    have hEnd := (h.bound (hManaged _ hLast)).1
    have hSmall := site.small
    have hSize := h.ledger.memorySize
    have hAddr : addr / pageSize * 4096 = addr := by
      rw [pageSize, Nat.div_mul_cancel hDvd]
    have hInside : (addr / pageSize + countToBlockPages count) * 4096 ≤ s.memorySize := by
      rwa [Nat.sub_add_cancel (by omega)] at hEnd
    have hRounds : rounds addr (countToBlockPages count) = countToBlockPages count := rounds_eq (by omega)
    have hCount : ∀ g, (markFrames (setZone s type m' z' s.usingRegions) addr (countToBlockPages count)).refcount g =
        if g ∈ blockFrames addr (countToBlockPages count) then s.refcount g + 1 else s.refcount g := by
      intro g
      have hRef := refPages_refcount (f := addr / pageSize) (n := countToBlockPages count) (g := g)
        (s := { setZone s type m' z' s.usingRegions with
          usingRegions := bitmapSetRange s.usingRegions (addr / pageSize)
            (addr / pageSize + countToBlockPages count) true }) hInside
      rw [hAddr] at hRef
      rw [markFrames, hRounds, blockFrames]
      simp only [Finset.mem_Ico]
      exact hRef
    refine ⟨hAfter, ?_, ?_, ?_, ?_⟩
    · intro f hf
      have hOut : f ∉ blockFrames addr (countToBlockPages count) := fun hIn => hf.2 ((hFrames f).mp hIn)
      rw [hCount, if_neg hOut]
      exact h.idle f hf.1
    · rintro f (hf | hf)
      · exact h.managed f hf
      · exact hManaged f hf
    · rintro f (hf | hf) hIn
      · exact h.taken f hf hIn.1
      · exact hIn.2 ((hFrames f).mp hf)
    · rintro f (hf | hf)
      · have hOut : f ∉ blockFrames addr (countToBlockPages count) := fun hIn => h.taken f hf (hFree f hIn)
        rw [hCount, if_neg hOut]
        exact h.counted f hf
      · rw [hCount, if_pos (Finset.mem_coe.mp hf), h.idle f (hFree f hf)]
        rfl
  · intro f
    rw [Set.mem_sdiff, hFrames]

theorem Stock.alloc (h : Stock site s W H) (count : Nat) : allocFrames s count = (s, 0) ∨
      (allocFrames s count).2 ≠ 0 ∧ Handed site s (allocFrames s count).1 W H count (allocFrames s count).2 := by
  rw [allocFrames, allocFrom]
  split
  · exact .inl rfl
  · obtain hNone | ⟨s', addr, hTry, hFound⟩ := tryZones_spec h.ledger count [.normal, .dma32, .dma]
    · rw [hNone]
      exact .inl rfl
    · rw [hTry]
      simp only [if_neg hFound.nonzero]
      exact .inr ⟨hFound.nonzero, h.mark hFound⟩

theorem addRegions_refcount {regions : List (Nat × Nat)} (h : addRegions regions s = some s') :
    s'.refcount = s.refcount := by
  induction regions generalizing s with
  | nil =>
    cases h
    rfl
  | cons r regions ih =>
    rw [addRegions, Option.bind_eq_bind, Option.bind_eq_some_iff] at h
    obtain ⟨t, hRegion, hRest⟩ := h
    rw [ih hRest]
    rw [addRegion] at hRegion
    split at hRegion
    · cases hRegion
      rfl
    · rw [Option.bind_eq_bind, Option.bind_eq_some_iff] at hRegion
      obtain ⟨added, -, hSome⟩ := hRegion
      cases hSome
      rfl

theorem boot_stock {memory : Memory}
    (h : addRegions site.regions (buddyInit memory site.usable site.memorySize) = some s) : ∃ W, Stock site s W ∅ := by
  obtain ⟨s', W, hBoot, hLedger⟩ := boot_spec site memory
  rw [h] at hBoot
  cases hBoot
  refine ⟨W, hLedger, ?_, ?_, ?_, ?_⟩
  · intro f _
    rw [addRegions_refcount h]
    rfl
  · exact fun f hf => absurd hf (Set.notMem_empty f)
  · exact fun f hf => absurd hf (Set.notMem_empty f)
  · exact fun f hf => absurd hf (Set.notMem_empty f)

theorem freeFrames_refcount (h : Reaches s addr count) (hFree : freeFrames s addr count = some s') :
    s'.refcount = (unrefPages (rounds addr (countToBlockPages count)) s addr).refcount := by
  obtain ⟨z, hZone⟩ := Option.isSome_iff_exists.mp h.zone
  have hCan := h.canFree
  simp only [freeFrames] at hFree
  rw [if_neg (by simp [h.nonzero.1, h.nonzero.2]), h.valid, h.inUse, hZone] at hFree
  simp only [Bool.not_true, Bool.false_eq_true, if_false, hCan] at hFree
  obtain ⟨r, -, hResult⟩ := Option.bind_eq_some_iff.mp hFree
  rw [← Option.some.inj hResult]

theorem Stock.reaches (h : Stock site s W H) (hHeld : ↑(blockFrames addr (countToBlockPages count)) ⊆ H)
    (hCount : count ≠ 0) (hWhole : 2 ^ countToOrder count ∣ addr) (hValid : orderValid (countToOrder count)) :
    Reaches s addr count ∧ ∀ g, (unrefPages (rounds addr (countToBlockPages count)) s addr).refcount g =
      if g ∈ blockFrames addr (countToBlockPages count) then 0 else s.refcount g := by
  obtain ⟨k, hPages, -⟩ := blockPages_eq count
  have hPositive : 0 < countToBlockPages count := by
    rw [hPages]
    exact Nat.two_pow_pos k
  have hLow : minOrder ≤ countToOrder count := (orderValid_iff.mp hValid).1
  have hDvd : 4096 ∣ addr := (Nat.pow_dvd_pow 2 hLow).trans hWhole
  have hAddr : addr / pageSize * 4096 = addr := by
    rw [pageSize, Nat.div_mul_cancel hDvd]
  have hMem : ∀ f, addr / pageSize ≤ f → f < addr / pageSize + countToBlockPages count → f ∈ H := by
    intro f hFrom hTo
    exact hHeld (Finset.mem_coe.mpr (Finset.mem_Ico.mpr ⟨hFrom, hTo⟩))
  have hFirst := h.bound (h.managed _ (hMem _ le_rfl (by omega)))
  have hLast := h.bound (h.managed _ (hMem (addr / pageSize + countToBlockPages count - 1) (by omega) (by omega)))
  have hSmall := site.small
  have hSize := h.ledger.memorySize
  have hRounds : rounds addr (countToBlockPages count) = countToBlockPages count := rounds_eq (by omega)
  have hUnref : ∀ g, (unrefPages (rounds addr (countToBlockPages count)) s addr).refcount g =
      if g ∈ blockFrames addr (countToBlockPages count) then 0 else s.refcount g := by
    intro g
    have hRef := unrefPages_refcount (f := addr / pageSize) (n := countToBlockPages count) (g := g) (s := s) (by omega)
    rw [hAddr] at hRef
    rw [hRounds, hRef, blockFrames]
    simp only [Finset.mem_Ico]
    split_ifs with hIn
    · rw [h.counted g (hMem g hIn.1 hIn.2)]
      rfl
    · rfl
  refine ⟨⟨⟨by omega, hCount⟩, hValid, ?_, ?_, ?_⟩, hUnref⟩
  · rw [framesInUse_iff]
    intro f hFrom hTo
    have hHolds := hMem f hFrom hTo
    obtain ⟨r, hr, hAbove, hBelow⟩ := h.managed f hHolds
    refine ⟨h.ledger.used_iff.mpr ⟨h.managed f hHolds, h.taken f hHolds⟩, ?_⟩
    rw [h.ledger.usable]
    exact (site.fits r hr).usable f hAbove hBelow
  · obtain ⟨z, hZone⟩ := h.ledger.present _ (h.managed _ (hMem _ le_rfl (by omega)))
    rw [hAddr] at hZone
    rw [hZone]
    rfl
  · have hZero := canFreePages_of_zero (f := addr / pageSize) (n := countToBlockPages count)
      (s := unrefPages (rounds addr (countToBlockPages count)) s addr) (fun g hFrom hTo => by
        have hIn : g ∈ blockFrames addr (countToBlockPages count) := Finset.mem_Ico.mpr ⟨hFrom, hTo⟩
        rw [hUnref, if_pos hIn])
    rw [hAddr] at hZero
    rw [hRounds] at hZero ⊢
    exact hZero

theorem Stock.release (h : Stock site s W H) (hHeld : ↑(blockFrames addr (countToBlockPages count)) ⊆ H)
    (hCount : count ≠ 0) (hWhole : 2 ^ countToOrder count ∣ addr) (hValid : orderValid (countToOrder count)) :
    ∃ s' V, freeFrames s addr count = some s' ∧ Stock site s' V (H \ blockFrames addr (countToBlockPages count)) ∧
      ∀ f, f * 4096 ∈ V ↔ f * 4096 ∈ W ∨ f ∈ blockFrames addr (countToBlockPages count) := by
  obtain ⟨hReaches, hUnref⟩ := h.reaches hHeld hCount hWhole hValid
  obtain ⟨s', V, hFree, hAfter, hFrames⟩ := h.ledger.release hReaches hWhole
  have hCounters := freeFrames_refcount hReaches hFree
  have hFreed : ∀ f, f * 4096 ∈ W ∪ V ↔ f * 4096 ∈ W ∨ f ∈ blockFrames addr (countToBlockPages count) := by
    intro f
    rw [Set.mem_union, hFrames]
  refine ⟨s', W ∪ V, hFree, ⟨hAfter, ?_, fun f hf => h.managed f hf.1, ?_, ?_⟩, hFreed⟩
  · intro f hf
    rw [hCounters, hUnref]
    split_ifs with hIn
    · rfl
    · exact h.idle f (((hFreed f).mp hf).resolve_right hIn)
  · intro f hf hIn
    obtain hOld | hNew := (hFreed f).mp hIn
    · exact h.taken f hf.1 hOld
    · exact hf.2 hNew
  · intro f hf
    have hOut : f ∉ blockFrames addr (countToBlockPages count) := fun hIn => hf.2 (Finset.mem_coe.mpr hIn)
    rw [hCounters, hUnref, if_neg hOut]
    exact h.counted f hf.1

end OpenXJ380.Frames
