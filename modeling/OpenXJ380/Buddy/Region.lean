import OpenXJ380.Buddy.Blocks

/-! # Adding a region

A region is cut into the largest aligned blocks from its start on. The block at
address 0, where there is one, is refused by the release and stays out.
-/

namespace OpenXJ380.Buddy

section

open LinkedList Dyadic

variable {m : Memory} {z : ZoneT} {lists : Nat → List Nat} {U : Set Nat} {start stop : Nat}

theorem Stocked.managed {extra : Int} (h : Stocked m z lists U extra) (n : Nat) :
    Stocked m { z with managedPages := n } lists U extra :=
  { h with listed := ⟨h.listed.family, h.listed.nonzero⟩ }

structure Fits (start stop order : Nat) : Prop where
  low : minOrder ≤ order
  fits : 2 ^ order ∣ start ∧ start + 2 ^ order ≤ stop

/-- `start + block_size` does not wrap on the way through the region. -/
def NoWrap (start stop : Nat) : Prop :=
  ∀ k, minOrder ≤ k → k < maxOrder → 2 ^ 64 - 2 ^ k < start ∨ stop ≤ 2 ^ 64 - 2 ^ k

theorem NoWrap.mono {start' : Nat} (h : NoWrap start stop) (hLe : start ≤ start') : NoWrap start' stop := by
  intro k hLow hHigh
  obtain hAbove | hBelow := h k hLow hHigh
  · exact .inl (hAbove.trans_le hLe)
  · exact .inr hBelow

theorem NoWrap.end_lt {k : Nat} (h : NoWrap start stop) (hLow : minOrder ≤ k) (hHigh : k < maxOrder)
    (hAligned : 2 ^ k ∣ start) (hLess : start < stop) (hStop : stop < 2 ^ 64) : start + 2 ^ k < 2 ^ 64 := by
  have hTop : 2 ^ k ∣ 2 ^ 64 := Nat.pow_dvd_pow 2 (Nat.le_of_lt (Nat.lt_trans hHigh (by decide)))
  have hStep := Nat.sub_le_sub_right (Block.add_le_of_dvd hAligned hTop (Nat.lt_trans hLess hStop)) (2 ^ k)
  rw [Nat.add_sub_cancel] at hStep
  have hCase := h k hLow hHigh
  omega

theorem regionOrder_spec (hStart : 4096 ∣ start) (hStop : 4096 ∣ stop) (hLess : start < stop)
    (hEnd : stop < 2 ^ 64) (hWrap : NoWrap start stop) (order : Nat) (hLow : minOrder ≤ order)
    (hHigh : order < maxOrder) :
    regionOrder start stop order ≤ order ∧ Fits start stop (regionOrder start stop order) := by
  induction order with
  | zero => exact absurd hLow (by decide)
  | succ order ih =>
    rw [regionOrder, orderToBlockSize, Nat.and_two_pow_sub_one_eq_mod]
    split
    · rename_i hSkip
      obtain ⟨hLe, hFits⟩ := ih (Nat.le_of_lt_succ hSkip.1) (Nat.lt_of_succ_lt hHigh)
      exact ⟨Nat.le_succ_of_le hLe, hFits⟩
    · rename_i hStay
      refine ⟨le_rfl, hLow, ?_⟩
      obtain hAbove | hLeast := Nat.lt_or_eq_of_le hLow
      · obtain ⟨hMod, hFits⟩ := not_not.mp fun hNot => hStay ⟨hAbove, hNot⟩
        have hAligned := Nat.dvd_of_mod_eq_zero hMod
        rw [u64, Nat.mod_eq_of_lt (hWrap.end_lt hLow hHigh hAligned hLess hEnd)] at hFits
        exact ⟨hAligned, hFits⟩
      · rw [← hLeast]
        exact ⟨hStart, Block.add_le_of_dvd hStart hStop hLess⟩

theorem addBlocks_spec (fuel : Nat) (hFuel : stop - start < fuel) (h : Stocked m z lists U 0) (hNonzero : start ≠ 0)
    (hStart : 4096 ∣ start) (hStop : 4096 ∣ stop) (hLow : zoneStart z ≤ start) (hHigh : stop ≤ zoneEnd z)
    (hTop : NoWrap start stop) (hApart : Disjoint (Set.Ico start stop) U) :
    ∃ m' z' lists', addBlocks stop fuel m z start = some (m', z') ∧
      Stocked m' z' lists' (U ∪ Set.Ico start stop) 0 ∧ Within m z m' z' := by
  induction fuel generalizing m z lists U start with
  | zero => exact nomatch hFuel
  | succ fuel ih =>
    rw [addBlocks]
    split
    · rename_i hLess
      have hEnd := zoneEnd_lt z
      obtain ⟨hOrder, hFits⟩ := regionOrder_spec hStart hStop hLess (by omega) hTop 30 (by decide) (by decide)
      simp only [show maxOrder - 1 = 30 from rfl]
      generalize regionOrder start stop 30 = order at hOrder hFits
      obtain ⟨hAligned, hEnds⟩ := hFits.fits
      have hWrap : u64 (start + orderToBlockSize order) = start + 2 ^ order := u64_of_lt (by
        rw [orderToBlockSize]
        omega)
      have hCells : Block.cells ⟨start, order⟩ ⊆ Set.Ico start stop := Set.Ico_subset_Ico_right hEnds
      have hContains : zoneContainsBlock z start order :=
        zoneContainsBlock_iff.mpr ⟨orderValid_iff.mpr ⟨hFits.low, by simp only [maxOrder]; omega⟩, hLow, by omega⟩
      obtain ⟨m₁, z₁, hFree, ⟨lists₁, hGiven⟩, hWithin⟩ :=
        buddyFreeZone_spec (x := ⟨start, order⟩) h hNonzero hAligned hContains (hApart.mono_left hCells)
      have hRest : Disjoint (Set.Ico (start + 2 ^ order) stop) (U ∪ Block.cells ⟨start, order⟩) := by
        rw [Set.disjoint_union_right]
        refine ⟨hApart.mono_left (Set.Ico_subset_Ico_left le_self_add), ?_⟩
        rw [Set.disjoint_left]
        intro a ha hb
        rw [Set.mem_Ico] at ha
        rw [Block.mem_cells] at hb
        simp only at hb
        omega
      have hMultiple : 4096 ∣ start + 2 ^ order := Nat.dvd_add hStart (Nat.pow_dvd_pow 2 hFits.low)
      have hJoin : U ∪ Block.cells ⟨start, order⟩ ∪ Set.Ico (start + 2 ^ order) stop = U ∪ Set.Ico start stop := by
        rw [Set.union_assoc]
        congr 1
        exact Set.Ico_union_Ico_eq_Ico le_self_add hEnds
      have hLess' : stop - (start + 2 ^ order) < fuel := by omega
      obtain ⟨m', z', lists', hLoop, hAfter, hLater⟩ := ih hLess'
        (hGiven.managed (u64 (z₁.managedPages + orderToPages order))) (by omega) hMultiple
        (by change zoneStart z₁ ≤ _; rw [hWithin.start]; omega) (by change _ ≤ zoneEnd z₁; rw [hWithin.stop]; omega)
        (hTop.mono le_self_add) hRest
      rw [hJoin] at hAfter
      refine ⟨m', z', lists', ?_, hAfter, hWithin.trans { hLater with }⟩
      rw [hFree]
      simp only [Option.bind_eq_bind, Option.bind_some, hWrap]
      exact hLoop
    · rename_i hDone
      refine ⟨m, z, lists, rfl, ?_, Within.refl m z⟩
      rw [Set.Ico_eq_empty (by omega), Set.union_empty]
      exact h

def firstKept (start stop : Nat) : Nat := if start = 0 then 2 ^ regionOrder 0 stop (maxOrder - 1) else start

structure Clipped (z : ZoneT) (s e : Nat) : Prop where
  start : 4096 ∣ s
  stop : 4096 ∣ e
  nonempty : s < e
  low : zoneStart z ≤ s
  high : e ≤ zoneEnd z

theorem paddingDown_dvd (n k : Nat) : k ∣ paddingDown n k := Dvd.intro_left _ rfl

theorem u64_page_dvd (pfn : Nat) : 4096 ∣ u64 (pfn * pageSize) := by
  rw [u64, pageSize]
  omega

theorem clipRegion_spec {s e : Nat} (h : clipRegion z start stop = some (s, e)) : Clipped z s e := by
  simp only [clipRegion] at h
  split_ifs at h with hEmpty hOutside
  cases h
  refine ⟨?_, ?_, not_le.mp hOutside, le_max_right _ _, min_le_right _ _⟩
  · obtain hLe | hLe := Nat.le_total (paddingUp start pageSize) (u64 (z.zoneStartPfn * pageSize))
    · rw [max_eq_right hLe]
      exact u64_page_dvd _
    · rw [max_eq_left hLe]
      exact paddingDown_dvd _ _
  · obtain hLe | hLe := Nat.le_total (paddingDown stop pageSize) (u64 (z.zoneEndPfn * pageSize))
    · rw [min_eq_left hLe]
      exact paddingDown_dvd _ _
    · rw [min_eq_right hLe]
      exact u64_page_dvd _

theorem addMemoryRegion_spec {s e : Nat} (h : Stocked m z lists U 0) (hClip : clipRegion z start stop = some (s, e))
    (hTop : NoWrap s e) (hApart : Disjoint (Set.Ico s e) U) :
    ∃ m' z' lists', addMemoryRegion m z start stop = some (m', z') ∧
      Stocked m' z' lists' (U ∪ Set.Ico (firstKept s e) e) 0 ∧ Within m z m' z' := by
  obtain ⟨hStart, hStop, hLess, hLow, hHigh⟩ := clipRegion_spec hClip
  have hEnd := zoneEnd_lt z
  have hFuel : e - s < regionFuel := by
    rw [regionFuel]
    omega
  rw [addMemoryRegion, hClip, firstKept]
  by_cases hZero : s = 0
  · subst hZero
    rw [if_pos rfl]
    obtain ⟨fuel, hSucc⟩ : ∃ fuel, regionFuel = fuel + 1 := Nat.exists_eq_succ_of_ne_zero (by decide)
    obtain ⟨-, hFits⟩ := regionOrder_spec hStart hStop hLess (by omega) hTop 30 (by decide) (by decide)
    have hEnds := hFits.fits.2
    have hPos := Nat.two_pow_pos (regionOrder 0 e 30)
    have hDvd : 4096 ∣ 2 ^ regionOrder 0 e 30 := Nat.pow_dvd_pow 2 hFits.low
    have hWrap : u64 (0 + orderToBlockSize (regionOrder 0 e 30)) = 2 ^ regionOrder 0 e 30 := by
      rw [zero_add]
      exact u64_of_lt (by rw [orderToBlockSize]; omega)
    have hRest : Disjoint (Set.Ico (2 ^ regionOrder 0 e 30) e) U :=
      hApart.mono_left (Set.Ico_subset_Ico_left (Nat.zero_le _))
    obtain ⟨m', z', lists', hLoop, hAfter⟩ := addBlocks_spec fuel (by omega)
      (h.managed (u64 (z.managedPages + orderToPages (regionOrder 0 e 30)))) (by omega) hDvd hStop
      (by change zoneStart z ≤ _; omega) hHigh (hTop.mono (Nat.zero_le _)) hRest
    refine ⟨m', z', lists', ?_, hAfter.1, hAfter.2.start, hAfter.2.stop, hAfter.2.memory⟩
    rw [hSucc]
    simp only [addBlocks, if_pos hLess]
    simp only [show maxOrder - 1 = 30 from rfl, buddyFreeZone_refused m z (.inl rfl), Option.bind_eq_bind,
      Option.bind_some, hWrap]
    exact hLoop
  · rw [if_neg hZero]
    exact addBlocks_spec regionFuel hFuel h hZero hStart hStop hLow hHigh hTop hApart

def regionPages (z : ZoneT) (start stop : Nat) : Set Nat :=
  {a | ∃ p, 4096 ∣ p ∧ max start (zoneStart z) ≤ p ∧ p + 4096 ≤ min stop (zoneEnd z) ∧ p ≤ a ∧ a < p + 4096}

def refusedPages (z : ZoneT) (start stop : Nat) : Set Nat :=
  match clipRegion z start stop with
  | some (0, e) => Set.Ico 0 (2 ^ regionOrder 0 e (maxOrder - 1))
  | _ => ∅

theorem regionPages_subset (z : ZoneT) (start stop : Nat) : regionPages z start stop ⊆ Set.Ico start stop := by
  rintro a ⟨p, -, hLow, hHigh, hFirst, hLast⟩
  rw [Set.mem_Ico]
  omega

theorem paddingUp_eq (h : start + 4095 < 2 ^ 64) : paddingUp start pageSize = (start + 4095) / 4096 * 4096 := by
  rw [paddingUp, paddingDown, pageSize, u64_of_lt (by omega)]
  rfl

theorem clipRegion_eq (z : ZoneT) (h : start + 4095 < 2 ^ 64) : clipRegion z start stop =
      if (start + 4095) / 4096 * 4096 ≥ stop / 4096 * 4096 then none
      else if max ((start + 4095) / 4096 * 4096) (zoneStart z) ≥ min (stop / 4096 * 4096) (zoneEnd z) then none
      else some (max ((start + 4095) / 4096 * 4096) (zoneStart z), min (stop / 4096 * 4096) (zoneEnd z)) := by
  rw [clipRegion, paddingUp_eq h]
  rfl

theorem mem_regionPages {a : Nat} : a ∈ regionPages z start stop ↔
      max ((start + 4095) / 4096 * 4096) (zoneStart z) ≤ a ∧ a < min (stop / 4096 * 4096) (zoneEnd z) := by
  have hStart : 4096 ∣ zoneStart z := u64_page_dvd _
  have hStop : 4096 ∣ zoneEnd z := u64_page_dvd _
  constructor
  · rintro ⟨p, hPage, hLow, hHigh, hFirst, hLast⟩
    omega
  · rintro ⟨hLow, hHigh⟩
    exact ⟨a / 4096 * 4096, Nat.dvd_mul_left _ _, by omega, by omega, by omega, by omega⟩

theorem regionPages_none (h : start + 4095 < 2 ^ 64) (hClip : clipRegion z start stop = none) :
    regionPages z start stop = ∅ := by
  rw [clipRegion_eq z h] at hClip
  rw [Set.eq_empty_iff_forall_notMem]
  intro a ha
  rw [mem_regionPages] at ha
  split_ifs at hClip with hEmpty hOutside
  · omega
  · omega

theorem regionPages_some {s e : Nat} (h : start + 4095 < 2 ^ 64) (hClip : clipRegion z start stop = some (s, e)) :
    regionPages z start stop = Set.Ico s e := by
  rw [clipRegion_eq z h] at hClip
  ext a
  rw [mem_regionPages, Set.mem_Ico]
  split_ifs at hClip
  cases hClip
  rfl

theorem keptPages_some {s e : Nat} (h : start + 4095 < 2 ^ 64) (hClip : clipRegion z start stop = some (s, e)) :
    regionPages z start stop \ refusedPages z start stop = Set.Ico (firstKept s e) e := by
  rw [regionPages_some h hClip, refusedPages, hClip, firstKept]
  cases s with
  | zero =>
    ext a
    simp only [Set.mem_sdiff, Set.mem_Ico, if_true]
    omega
  | succ s => exact Set.sdiff_empty

theorem NoWrap.clip {s e : Nat} (hWrap : NoWrap (max start (zoneStart z)) (min stop (zoneEnd z)))
    (h : start + 4095 < 2 ^ 64) (hClip : clipRegion z start stop = some (s, e)) : NoWrap s e := by
  rw [clipRegion_eq z h] at hClip
  split_ifs at hClip
  cases hClip
  intro k hLow hHigh
  obtain hAbove | hBelow := hWrap k hLow hHigh
  · left
    omega
  · right
    omega

end

/-! # The list of the top order

Only a release of the top order itself reaches it: merging stops one below, and
so does the cutting of a region.
-/

open LinkedList Dyadic

def TopEmpty (z : ZoneT) : Prop := z.freeArea (orderToIndex maxOrder) = 0

variable {m m' : Memory} {z z' : ZoneT} {lists : Nat → List Nat} {U : Set Nat} {extra : Int}
  {order base addr count start stop : Nat}

theorem index_ne_top (hLow : minOrder ≤ order) (hHigh : order < maxOrder) :
    orderToIndex maxOrder ≠ orderToIndex order := by
  intro hEq
  exact hHigh.ne' (index_inj (by decide) hLow hEq)

theorem TopEmpty.counters (h : TopEmpty z) (managed free : Nat) :
    TopEmpty { z with managedPages := managed, freePages := free } := h

theorem TopEmpty.update {w : Nat} (h : TopEmpty z) (hLow : minOrder ≤ order) (hHigh : order < maxOrder)
    (hSame : z'.freeArea = Function.update z.freeArea (orderToIndex order) w) : TopEmpty z' := by
  rw [TopEmpty, hSame, Function.update_of_ne (index_ne_top hLow hHigh)]
  exact h

theorem TopEmpty.popBlock (h : TopEmpty z) (hLow : minOrder ≤ order) (hHigh : order < maxOrder) :
    TopEmpty (popBlock m z order).2.1 := by
  simp only [Buddy.popBlock]
  split
  · exact h
  · exact h.update hLow hHigh rfl

theorem TopEmpty.popFrom (n : Nat) (h : TopEmpty z) (hLow : minOrder ≤ order) (hHigh : order + n ≤ maxOrder) :
    TopEmpty (popFrom m z n order).2.1 ∧
      ((popFrom m z n order).2.2.1 ≠ 0 → (popFrom m z n order).2.2.2 < maxOrder) := by
  induction n generalizing m z order with
  | zero => exact ⟨h, fun hNever => absurd rfl hNever⟩
  | succ n ih =>
    have hPop := h.popBlock (m := m) hLow (by omega)
    simp only [Buddy.popFrom]
    by_cases hHead : (Buddy.popBlock m z order).2.2 = 0
    · rw [if_neg (not_not.mpr hHead)]
      exact ih hPop (by omega) (by omega)
    · rw [if_pos hHead]
      exact ⟨hPop, fun _ => by simp only; omega⟩

theorem TopEmpty.splitDown (n : Nat) (h : TopEmpty z) (hLow : minOrder ≤ order) (hHigh : order + n ≤ maxOrder) :
    TopEmpty (splitDown addr order n m z).2 := by
  induction n generalizing m z with
  | zero => exact h
  | succ n ih => exact ih (h.update (by omega) (by omega) rfl) (by omega)

theorem TopEmpty.buddyAllocZone (h : TopEmpty z) : TopEmpty (buddyAllocZone m z count).2.1 := by
  rw [Buddy.buddyAllocZone]
  split
  · exact h
  · simp only
    split
    · exact h
    · rename_i hInvalid
      have hOrder : orderValid (countToOrder count) := by simpa using hInvalid
      generalize countToOrder count = order at hOrder
      have hBounds := orderValid_iff.mp hOrder
      obtain ⟨hPop, hFound⟩ := h.popFrom (m := m) (maxOrder - order) hBounds.1 (by omega)
      generalize Buddy.popFrom m z (maxOrder - order) order = r at hPop hFound ⊢
      split
      · exact hPop
      · rename_i hNonzero
        have hTop := hFound hNonzero
        have hSplit : TopEmpty (Buddy.splitDown r.2.2.1 order (r.2.2.2 - order) r.1 r.2.1).2 :=
          hPop.splitDown _ hBounds.1 (by omega)
        exact hSplit.counters _ _

theorem buddyAllocZone_top (m : Memory) (z : ZoneT) (hTop : countToOrder count = maxOrder) :
    (buddyAllocZone m z count).2.2 = 0 := by
  rw [Buddy.buddyAllocZone, hTop]
  split
  · rfl
  · dsimp only
    split
    · rfl
    · rfl

theorem TopEmpty.removeBlock {removed : Bool} (h : TopEmpty z) (hLow : minOrder ≤ order) (hHigh : order < maxOrder)
    (hRemove : removeBlock m z order base = some (m', z', removed)) : TopEmpty z' := by
  simp only [Buddy.removeBlock, Option.bind_eq_bind] at hRemove
  obtain ⟨r, -, hRest⟩ := Option.bind_eq_some_iff.mp hRemove
  cases r with
  | inl a =>
    cases hRest
    exact h
  | inr prev =>
    simp only at hRest
    split at hRest
    · cases hRest
      exact h.update hLow hHigh rfl
    · cases hRest
      exact h

theorem TopEmpty.mergeUp {top last : Nat} (n : Nat) (h : TopEmpty z) (hLow : minOrder ≤ order)
    (hHigh : order + n < maxOrder) (hMerge : mergeUp n m z order base = some (m', z', top, last)) :
    TopEmpty z' ∧ minOrder ≤ top ∧ top < maxOrder := by
  induction n generalizing m z order base with
  | zero =>
    cases hMerge
    exact ⟨h, hLow, hHigh⟩
  | succ n ih =>
    simp only [Buddy.mergeUp, Option.bind_eq_bind] at hMerge
    split at hMerge
    · cases hMerge
      exact ⟨h, hLow, by omega⟩
    · obtain ⟨⟨m₁, z₁, removed⟩, hRemove, hRest⟩ := Option.bind_eq_some_iff.mp hMerge
      have hAfter := h.removeBlock hLow (by omega) hRemove
      cases removed with
      | false =>
        cases hRest
        exact ⟨hAfter, hLow, by omega⟩
      | true => exact ih hAfter (by omega) (by omega) hRest

theorem TopEmpty.buddyFreeZone (h : TopEmpty z) (hHigh : order < maxOrder)
    (hFree : buddyFreeZone m z base order = some (m', z')) : TopEmpty z' := by
  rw [Buddy.buddyFreeZone] at hFree
  split_ifs at hFree with hNone hMask hOutside
  · cases hFree
    exact h
  · cases hFree
    exact h
  · cases hFree
    exact h
  · have hOrder : orderValid order := by simpa using (not_or.mp hNone).2
    have hBounds := orderValid_iff.mp hOrder
    simp only [Option.bind_eq_bind] at hFree
    obtain ⟨⟨m₁, z₁, top, last⟩, hMerge, hRest⟩ := Option.bind_eq_some_iff.mp hFree
    obtain ⟨hAfter, hLow, hLess⟩ := h.mergeUp _ hBounds.1 (by omega) hMerge
    cases hRest
    exact .counters (z := (pushBlock m₁ z₁ top last).2) (hAfter.update hLow hLess rfl) _ _

theorem regionOrder_le (start stop order : Nat) : regionOrder start stop order ≤ order := by
  induction order with
  | zero => exact le_rfl
  | succ order ih =>
    rw [regionOrder]
    split
    · exact Nat.le_succ_of_le ih
    · exact le_rfl

theorem TopEmpty.addBlocks (fuel : Nat) (h : TopEmpty z) (hAdd : addBlocks stop fuel m z start = some (m', z')) :
    TopEmpty z' := by
  induction fuel generalizing m z start with
  | zero => cases hAdd
  | succ fuel ih =>
    simp only [Buddy.addBlocks, Option.bind_eq_bind] at hAdd
    split at hAdd
    · obtain ⟨⟨m₁, z₁⟩, hFree, hRest⟩ := Option.bind_eq_some_iff.mp hAdd
      have hLess : regionOrder start stop (maxOrder - 1) < maxOrder := (regionOrder_le _ _ _).trans_lt (by decide)
      exact ih ((h.buddyFreeZone hLess hFree).counters _ _) hRest
    · cases hAdd
      exact h

theorem TopEmpty.addMemoryRegion (h : TopEmpty z) (hAdd : addMemoryRegion m z start stop = some (m', z')) :
    TopEmpty z' := by
  rw [Buddy.addMemoryRegion] at hAdd
  split at hAdd
  · cases hAdd
    exact h
  · exact h.addBlocks _ hAdd

theorem Stocked.order_lt (h : Stocked m z lists U extra) (hTop : TopEmpty z) {x : Block} (hx : x ∈ freeBlocks lists) :
    x.order < maxOrder := by
  have hBounds := orderValid_iff.mp (h.inside x hx).1
  refine lt_of_le_of_ne hBounds.2 ?_
  intro hEq
  have hHead := h.listed.head (orderToIndex maxOrder)
  rw [hTop, pointer_none, List.head?_eq_none_iff] at hHead
  have hMem := hx.2
  rw [hEq, hHead] at hMem
  cases hMem

end OpenXJ380.Buddy
