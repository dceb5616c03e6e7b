import OpenXJ380.Buddy.Lists

/-! # Taking and giving back a block

Allocation takes the block of an aligned place out of the free addresses, and
release puts it back and merges it with its buddies.
-/

namespace OpenXJ380.Buddy

open LinkedList Dyadic

structure Within (m : Memory) (z : ZoneT) (m' : Memory) (z' : ZoneT) : Prop where
  start : zoneStart z' = zoneStart z
  stop : zoneEnd z' = zoneEnd z
  memory : ∀ a, a < zoneStart z ∨ zoneEnd z ≤ a → m' a = m a

variable {m m' m'' : Memory} {z z' z'' : ZoneT} {lists : Nat → List Nat} {U : Set Nat} {extra : Int}
  {order base count : Nat}

theorem Within.refl (m : Memory) (z : ZoneT) : Within m z m z := ⟨rfl, rfl, fun _ _ => rfl⟩

theorem Within.trans (h : Within m z m' z') (h' : Within m' z' m'' z'') : Within m z m'' z'' := by
  refine ⟨h'.start.trans h.start, h'.stop.trans h.stop, ?_⟩
  intro a ha
  rw [h'.memory a (by rw [h.start, h.stop]; exact ha), h.memory a ha]

theorem Within.recount (h : Within m z m' z') (n : Nat) : Within m z m' { z' with freePages := n } :=
  { h with }

theorem within_of_same (h : SameZone z z') (hMemory : ∀ a, a < zoneStart z ∨ zoneEnd z ≤ a → m' a = m a) :
    Within m z m' z' :=
  ⟨h.zoneStart, h.zoneEnd, hMemory⟩

theorem Stocked.within (h : Stocked m z lists U extra) (hZone : SameZone z z')
    (hMemory : ∀ a, (∀ i, a ∉ lists i) → m' a = m a) : Within m z m' z' := by
  apply within_of_same hZone
  intro a ha
  apply hMemory
  intro i hMem
  have hBlock : (⟨a, i + 12⟩ : Block) ∈ freeBlocks lists := ⟨Nat.le_add_left _ _, hMem⟩
  have hInside := h.cells_lt (h.carved.subset hBlock (Block.base_mem _))
  simp only at hInside
  omega

theorem pushBlock_within (m : Memory) (z : ZoneT) (order : Nat) (hLow : zoneStart z ≤ base) (hHigh : base < zoneEnd z) :
    Within m z (pushBlock m z order base).1 (pushBlock m z order base).2 := by
  apply within_of_same (pushBlock_zone m z order base)
  intro a ha
  apply pushBlock_other
  omega

theorem popFrom_spec (h : Stocked m z lists U extra) (n : Nat) (hOrder : minOrder ≤ order)
    (hTop : order + n ≤ maxOrder) : popFrom m z n order = (m, z, 0, order + n) ∨
      ∃ m' z' lists', ∃ x ∈ freeBlocks lists, order ≤ x.order ∧ x.order < order + n ∧
        popFrom m z n order = (m', z', x.base, x.order) ∧
        Stocked m' z' lists' (U \ x.cells) (extra + orderToPages x.order) ∧ Within m z m' z' := by
  induction n generalizing order with
  | zero => exact .inl rfl
  | succ n ih =>
    rw [popFrom]
    cases hList : lists (orderToIndex order) with
    | nil =>
      rw [popBlock_empty h.listed hList]
      simp only [ne_eq, not_true_eq_false, if_false]
      have hNext : minOrder ≤ order + 1 := Nat.le_succ_of_le hOrder
      obtain hNone | ⟨m', z', lists', x, hx, hLow, hHigh, hPop, hAfter⟩ := ih hNext (by omega)
      · left
        rw [hNone, Nat.add_assoc, Nat.add_comm 1 n]
      · exact .inr ⟨m', z', lists', x, hx, by omega, by omega, hPop, hAfter⟩
    | cons base l =>
      right
      obtain ⟨m', z', hPop, hListed, hZone, hMemory⟩ := popBlock_cons h.listed hList
      have hMem : base ∈ lists (orderToIndex order) := by
        rw [hList]
        exact .head _
      have hx : (⟨base, order⟩ : Block) ∈ freeBlocks lists := ⟨hOrder, hMem⟩
      have hNodup := (h.listed.family.linked (orderToIndex order)).nodup
      rw [hList, List.nodup_cons] at hNodup
      have hRest : ∀ a, a ∈ l ↔ a ∈ lists (orderToIndex order) ∧ a ≠ base := by
        intro a
        rw [hList, List.mem_cons]
        constructor
        · intro ha
          exact ⟨.inr ha, fun hEq => hNodup.1 (hEq ▸ ha)⟩
        · rintro ⟨hHere | ha, hNe⟩
          · exact absurd hHere hNe
          · exact ha
      refine ⟨m', z', _, ⟨base, order⟩, hx, le_rfl, by simp only; omega, ?_,
        h.taken hx hListed hZone hRest (by rw [hList, List.length_cons]), h.within hZone ?_⟩
      · rw [hPop]
        simp only [ne_eq, (h.listed.nonzero _ base hMem).1, not_false_eq_true, if_true]
      · intro a hFree
        apply hMemory
        rintro rfl
        exact hFree _ hMem

theorem splitDown_spec {V : Set Nat} (n : Nat) {addr : Nat} (hAligned : (⟨addr, order + n⟩ : Block).Aligned)
    (hOrder : minOrder ≤ order) (hTop : order + n ≤ maxOrder) (hLow : zoneStart z ≤ addr)
    (hHigh : addr + 2 ^ (order + n) ≤ zoneEnd z) (hInside : (⟨addr, order + n⟩ : Block).cells ⊆ V)
    (h : Stocked m z lists (V \ (⟨addr, order + n⟩ : Block).cells) (orderToPages (order + n))) :
    ∃ m' z' lists', splitDown addr order n m z = (m', z') ∧
      Stocked m' z' lists' (V \ (⟨addr, order⟩ : Block).cells) (orderToPages order) ∧ Within m z m' z' := by
  induction n generalizing m z lists with
  | zero => exact ⟨m, z, lists, rfl, h, Within.refl m z⟩
  | succ n ih =>
    have hEnd := zoneEnd_lt z
    have hDouble : 2 ^ (order + (n + 1)) = 2 ^ (order + n) + 2 ^ (order + n) := by
      rw [← Nat.add_assoc, pow_succ]
      ring
    have hPos := Nat.two_pow_pos (order + n)
    have hWrap : u64 (addr + orderToBlockSize (order + n)) = addr + 2 ^ (order + n) := by
      rw [u64, orderToBlockSize, Nat.mod_eq_of_lt (by omega)]
    have hWhole := Block.halves_cells (x := ⟨addr, order + (n + 1)⟩) (by simp only; omega)
    have hParts := Block.halves_disjoint ⟨addr, order + (n + 1)⟩
    have hBuddy := hAligned.right_buddy (by simp only; omega)
    have hRight := hAligned.right
    change _ = Block.cells ⟨addr, order + n⟩ ∪ Block.cells ⟨addr + 2 ^ (order + n), order + n⟩ at hWhole
    change Disjoint (Block.cells ⟨addr, order + n⟩) (Block.cells ⟨addr + 2 ^ (order + n), order + n⟩) at hParts
    change Block.buddy ⟨addr + 2 ^ (order + n), order + n⟩ = ⟨addr, order + n⟩ at hBuddy
    change (⟨addr + 2 ^ (order + n), order + n⟩ : Block).Aligned at hRight
    rw [hWhole] at h hInside
    rw [Set.union_subset_iff] at hInside
    have hApart : Disjoint (Block.cells ⟨addr + 2 ^ (order + n), order + n⟩)
        (V \ (Block.cells ⟨addr, order + n⟩ ∪ Block.cells ⟨addr + 2 ^ (order + n), order + n⟩)) := by
      rw [Set.disjoint_left]
      exact fun a ha hb => hb.2 (.inr ha)
    have hAlone : (⟨addr, order + n⟩ : Block) ∉ freeBlocks lists := fun hx =>
      (h.carved.subset hx (Block.base_mem _)).2 (.inl (Block.base_mem _))
    have hPages : orderToPages (order + (n + 1)) = orderToPages (order + n) + orderToPages (order + n) := by
      rw [orderToPages, orderToPages, show order + (n + 1) - minOrder = order + n - minOrder + 1 by omega, pow_succ]
      ring
    have hPushed := h.push (x := ⟨addr + 2 ^ (order + n), order + n⟩) hRight
      (orderValid_iff.mpr ⟨by simp only; omega, by simp only; omega⟩) (by simp only; omega) (by simp only; omega)
      (by simp only; omega) hApart (fun _ => by rw [hBuddy]; exact hAlone)
    rw [hPages, Nat.cast_add, Int.add_sub_cancel] at hPushed
    rw [sdiff_union_part hParts hInside.2] at hPushed
    have hZone := pushBlock_zone m z (order + n) (addr + 2 ^ (order + n))
    have hUpper : zoneStart z ≤ addr + 2 ^ (order + n) := by omega
    have hStep := pushBlock_within m z (order + n) hUpper (by omega)
    obtain ⟨m', z', lists', hSplit, hAfter, hWithin⟩ := ih hAligned.left (by omega) (by rw [hZone.zoneStart]; exact hLow)
      (by rw [hZone.zoneEnd]; omega) hInside.1 hPushed
    refine ⟨m', z', lists', ?_, hAfter, hStep.trans hWithin⟩
    rw [splitDown, hWrap]
    exact hSplit

theorem Stocked.recount (h : Stocked m z lists U extra) {n : Nat} (hCounted : n = listedPages lists) :
    Stocked m { z with freePages := n } lists U 0 := by
  refine { h with listed := ⟨h.listed.family, h.listed.nonzero⟩, counted := ?_ }
  rw [Int.add_zero]
  exact congrArg Nat.cast hCounted

theorem u64_of_lt {n : Nat} (h : n < 2 ^ 64) : u64 n = n := Nat.mod_eq_of_lt h

theorem u64_sub {n k : Nat} (h : n < 2 ^ 64) : u64 (n + k + 2 ^ 64 - k) = n := by
  have hSum : n + k + 2 ^ 64 - k = n + 2 ^ 64 := by omega
  rw [hSum, u64, Nat.add_mod_right]
  exact Nat.mod_eq_of_lt h

/-- A block of `2 ^ order` bytes at `addr` taken out of the free addresses. -/
structure Taken (m : Memory) (z : ZoneT) (U : Set Nat) (order addr : Nat) (m' : Memory) (z' : ZoneT) : Prop where
  nonzero : addr ≠ 0
  valid : orderValid order = true
  aligned : (⟨addr, order⟩ : Block).Aligned
  inside : (⟨addr, order⟩ : Block).cells ⊆ U
  stocked : ∃ lists, Stocked m' z' lists (U \ (⟨addr, order⟩ : Block).cells) 0
  within : Within m z m' z'

theorem buddyAllocZone_spec (h : Stocked m z lists U 0) (count : Nat) : buddyAllocZone m z count = (m, z, 0) ∨
      ∃ m' z' addr, buddyAllocZone m z count = (m', z', addr) ∧ Taken m z U (countToOrder count) addr m' z' := by
  rw [buddyAllocZone]
  split
  · exact .inl rfl
  · simp only
    split
    · exact .inl rfl
    · rename_i hInvalid
      have hOrder : orderValid (countToOrder count) := by simpa using hInvalid
      have hBounds := orderValid_iff.mp hOrder
      generalize countToOrder count = order at hOrder hBounds
      obtain hNone | ⟨m₁, z₁, lists₁, ⟨base, top⟩, hx, hLow, -, hPop, hPopped, hWithin₁⟩ :=
        popFrom_spec h (maxOrder - order) hBounds.1 (by omega)
      · left
        simp only [hNone, if_true]
      · right
        have hInside := h.inside _ hx
        have hTop := orderValid_iff.mp hInside.1
        have hNonzero := (h.listed.nonzero _ _ hx.2).1
        have hSum : order + (top - order) = top := Nat.add_sub_of_le hLow
        simp only at hInside hTop hNonzero hPop hPopped
        rw [← hSum] at hInside hPopped hx
        rw [Int.zero_add] at hPopped
        obtain ⟨m₂, z₂, lists₂, hSplit, hAfter, hWithin₂⟩ := splitDown_spec (top - order) (h.carved.aligned _ hx)
          hBounds.1 (by omega) (by rw [hWithin₁.start]; exact hInside.2.1) (by rw [hWithin₁.stop]; exact hInside.2.2)
          (h.carved.subset hx) hPopped
        have hPages := hAfter.pages_lt
        have hEnd := zoneEnd_lt z₂
        have hCounted := hAfter.counted
        have hFree : u64 (z₂.freePages + 2 ^ 64 - orderToPages order) = listedPages lists₂ := by
          rw [show z₂.freePages = listedPages lists₂ + orderToPages order by omega]
          exact u64_sub (by omega)
        have hLess : (⟨base, order⟩ : Block).cells ⊆ (⟨base, order + (top - order)⟩ : Block).cells := by
          intro a ha
          have hPow : 2 ^ order ≤ 2 ^ (order + (top - order)) := Nat.pow_le_pow_right (by decide) (by omega)
          rw [Block.mem_cells] at ha ⊢
          simp only at ha ⊢
          omega
        refine ⟨m₂, _, base, ?_, hNonzero, hOrder, ?_, hLess.trans (h.carved.subset hx),
          ⟨lists₂, hAfter.recount hFree⟩, (hWithin₁.trans hWithin₂).recount _⟩
        · rw [hPop]
          simp only [if_neg hNonzero, hSplit]
        · exact (Nat.pow_dvd_pow 2 le_self_add).trans (h.carved.aligned _ hx)

structure Merged (m : Memory) (z : ZoneT) (W : Set Nat) (extra : Int) (m' : Memory) (z' : ZoneT) (y : Block) :
    Prop where
  aligned : y.Aligned
  valid : orderValid y.order = true
  nonzero : y.base ≠ 0
  low : zoneStart z' ≤ y.base
  high : y.base + 2 ^ y.order ≤ zoneEnd z'
  within : Within m z m' z'
  stocked : ∃ lists V, Stocked m' z' lists V (extra + orderToPages y.order) ∧ Disjoint y.cells V ∧
    V ∪ y.cells = W ∧ (y.order < maxOrder - 1 → y.buddy ∉ freeBlocks lists)

theorem parent_bounds {x : Block} (hAligned : x.Aligned) {lo hi : Nat} (hx : lo ≤ x.base ∧ x.base + 2 ^ x.order ≤ hi)
    (hBuddy : lo ≤ x.buddy.base ∧ x.buddy.base + 2 ^ x.buddy.order ≤ hi) :
    lo ≤ x.parent.base ∧ x.parent.base + 2 ^ x.parent.order ≤ hi := by
  have hPos := Nat.two_pow_pos x.parent.order
  have hCells := hAligned.parent_cells
  have hIn : ∀ a ∈ x.parent.cells, lo ≤ a ∧ a < hi := by
    intro a ha
    rw [hCells, Set.mem_union, Block.mem_cells, Block.mem_cells] at ha
    omega
  have hFirst := hIn x.parent.base x.parent.base_mem
  have hLast := hIn (x.parent.base + 2 ^ x.parent.order - 1) (by rw [Block.mem_cells]; omega)
  omega

theorem merged_done {x : Block} {R : Int} (h : Stocked m z lists U (R + orderToPages x.order)) (hAligned : x.Aligned)
    (hValid : orderValid x.order) (hNonzero : x.base ≠ 0)
    (hInside : zoneStart z ≤ x.base ∧ x.base + 2 ^ x.order ≤ zoneEnd z) (hApart : Disjoint x.cells U)
    (hAlone : x.order < maxOrder - 1 → x.buddy ∉ freeBlocks lists) : Merged m z (U ∪ x.cells) R m z x :=
  ⟨hAligned, hValid, hNonzero, hInside.1, hInside.2, Within.refl m z, lists, U, h, hApart, rfl, hAlone⟩

theorem mergeUp_spec (n : Nat) {x : Block} {R : Int} (h : Stocked m z lists U (R + orderToPages x.order))
    (hAligned : x.Aligned) (hValid : orderValid x.order) (hNonzero : x.base ≠ 0)
    (hInside : zoneStart z ≤ x.base ∧ x.base + 2 ^ x.order ≤ zoneEnd z) (hApart : Disjoint x.cells U)
    (hCount : n = maxOrder - 1 - x.order) : ∃ m' z' y, mergeUp n m z x.order x.base = some (m', z', y.order, y.base) ∧
      Merged m z (U ∪ x.cells) R m' z' y := by
  induction n generalizing m z lists U x with
  | zero => exact ⟨m, z, x, rfl, merged_done h hAligned hValid hNonzero hInside hApart fun hBelow => by omega⟩
  | succ n ih =>
    have hBounds := orderValid_iff.mp hValid
    have hDone := merged_done h hAligned hValid hNonzero hInside hApart
    rw [mergeUp]
    have hBuddy : x.base ^^^ orderToBlockSize x.order = x.buddy.base := rfl
    simp only [hBuddy]
    cases hContains : zoneContainsBlock z x.buddy.base x.order with
    | false =>
      refine ⟨m, z, x, rfl, hDone fun _ hFree => ?_⟩
      have hOther := zoneContainsBlock_iff.mpr (h.inside x.buddy hFree)
      rw [Block.buddy_order, hContains] at hOther
      cases hOther
    | true =>
      simp only [Bool.not_true, Bool.false_eq_true, if_false]
      obtain hPresent | hAbsent := Classical.em (x.buddy.base ∈ lists (orderToIndex x.order))
      · have hFree : x.buddy ∈ freeBlocks lists := ⟨hBounds.1, hPresent⟩
        obtain ⟨m₁, z₁, l, hRemove, hListed, hRest, hLength, hZone, hMemory⟩ := removeBlock_present h.listed hPresent
        have hTaken := h.taken hFree hListed hZone hRest hLength
        have hWithin := h.within hZone hMemory
        have hOther := h.inside x.buddy hFree
        have hPages : (R + orderToPages x.order + orderToPages x.buddy.order : Int) =
            R + orderToPages x.parent.order := by
          have hDouble : orderToPages x.parent.order = orderToPages x.order + orderToPages x.order := by
            rw [orderToPages, orderToPages, show x.parent.order - minOrder = x.order - minOrder + 1 by
              change x.order + 1 - minOrder = _; omega, pow_succ]
            ring
          rw [hDouble, Block.buddy_order]
          push_cast
          ring
        rw [hPages] at hTaken
        have hParentInside := parent_bounds hAligned hInside hOther.2
        have hParentApart : Disjoint x.parent.cells (U \ x.buddy.cells) := by
          rw [hAligned.parent_cells, Set.disjoint_union_left]
          exact ⟨hApart.mono_right Set.sdiff_subset, Set.disjoint_sdiff_right⟩
        have hWhole : U \ x.buddy.cells ∪ x.parent.cells = U ∪ x.cells := by
          rw [hAligned.parent_cells, Set.union_comm x.cells, ← Set.union_assoc,
            Set.sdiff_union_of_subset (h.carved.subset hFree)]
        have hOrder : x.parent.order = x.order + 1 := rfl
        have hParentNonzero : x.parent.base ≠ 0 := by
          have hBuddyNonzero := (h.listed.nonzero _ _ hFree.2).1
          change min x.base x.buddy.base ≠ 0
          omega
        have hParentValid : orderValid x.parent.order := orderValid_iff.mpr ⟨by omega, by omega⟩
        rw [hZone.zoneStart.symm, hZone.zoneEnd.symm] at hParentInside
        obtain ⟨m', z', y, hMerge, hMerged⟩ := ih hTaken hAligned.parent hParentValid hParentNonzero hParentInside
          hParentApart (by omega)
        rw [hWhole] at hMerged
        refine ⟨m', z', y, ?_, { hMerged with within := hWithin.trans hMerged.within }⟩
        rw [hRemove]
        exact hMerge
      · refine ⟨m, z, x, ?_, hDone fun _ hFree => hAbsent hFree.2⟩
        rw [removeBlock_absent h.listed hAbsent]
        rfl

structure Given (m : Memory) (z : ZoneT) (U : Set Nat) (x : Block) (m' : Memory) (z' : ZoneT) : Prop where
  stocked : ∃ lists, Stocked m' z' lists (U ∪ x.cells) 0
  within : Within m z m' z'

theorem buddyFreeZone_spec (h : Stocked m z lists U 0) {x : Block} (hNonzero : x.base ≠ 0) (hAligned : x.Aligned)
    (hContains : zoneContainsBlock z x.base x.order) (hApart : Disjoint x.cells U) :
    ∃ m' z', buddyFreeZone m z x.base x.order = some (m', z') ∧ Given m z U x m' z' := by
  have hInside := zoneContainsBlock_iff.mp hContains
  have hOwed : Stocked m z lists U (-(orderToPages x.order : Int) + orderToPages x.order) := by
    rw [Int.add_left_neg]
    exact h
  obtain ⟨m₁, z₁, y, hMerge, hMerged⟩ := mergeUp_spec (maxOrder - 1 - x.order) hOwed hAligned hInside.1 hNonzero
    hInside.2 hApart rfl
  obtain ⟨lists₁, V, hStocked, hyApart, hWhole, hAlone⟩ := hMerged.stocked
  have hPushed := hStocked.push hMerged.aligned hMerged.valid hMerged.nonzero hMerged.low hMerged.high hyApart hAlone
  have hPos := Nat.two_pow_pos y.order
  have hLow := hMerged.low
  have hHigh := hMerged.high
  have hStep := pushBlock_within m₁ z₁ y.order hLow (by omega)
  rw [hWhole, Int.add_sub_cancel] at hPushed
  have hPages := hPushed.pages_lt
  have hEnd := zoneEnd_lt (pushBlock m₁ z₁ y.order y.base).2
  have hCounted := hPushed.counted
  have hMask : x.base &&& (orderToBlockSize x.order - 1) = 0 := by
    rw [orderToBlockSize, Nat.and_two_pow_sub_one_eq_mod]
    exact Nat.mod_eq_zero_of_dvd hAligned
  have hFree : u64 ((pushBlock m₁ z₁ y.order y.base).2.freePages + orderToPages x.order) =
      listedPages (Function.update lists₁ (orderToIndex y.order) (y.base :: lists₁ (orderToIndex y.order))) := by
    rw [show (pushBlock m₁ z₁ y.order y.base).2.freePages + orderToPages x.order = listedPages
      (Function.update lists₁ (orderToIndex y.order) (y.base :: lists₁ (orderToIndex y.order))) by omega]
    exact u64_of_lt (by omega)
  refine ⟨_, _, ?_, ⟨_, hPushed.recount hFree⟩, (hMerged.within.trans hStep).recount _⟩
  rw [buddyFreeZone, if_neg (by simp [hNonzero, hInside.1]), hMask, hContains]
  simp only [ne_eq, not_true_eq_false, if_false, Bool.not_true, Bool.false_eq_true, hMerge, Option.bind_eq_bind,
    Option.bind_some]

theorem buddyFreeZone_refused (m : Memory) (z : ZoneT)
    (hRefused : base = 0 ∨ base % 2 ^ order ≠ 0 ∨ zoneContainsBlock z base order = false) :
    buddyFreeZone m z base order = some (m, z) := by
  rw [buddyFreeZone]
  split
  · rfl
  · split
    · rfl
    · rename_i hNone hMask
      rw [orderToBlockSize, Nat.and_two_pow_sub_one_eq_mod, not_not] at hMask
      rw [not_or] at hNone
      obtain hZero | hMisaligned | hOutside := hRefused
      · exact absurd hZero hNone.1
      · exact absurd hMask hMisaligned
      · rw [hOutside]
        rfl

end OpenXJ380.Buddy
