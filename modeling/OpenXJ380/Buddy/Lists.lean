import Mathlib.Algebra.BigOperators.Ring.Finset
import Mathlib.Algebra.Group.Action.Defs
import Mathlib.Order.Interval.Finset.Nat
import OpenXJ380.Buddy.Model
import OpenXJ380.Lib.Dyadic

/-! # The free lists of a zone

A list for every order, held in the blocks themselves. Pushing, popping and
removing are the same operations on the lists.
-/

namespace OpenXJ380.Buddy

open Finset (card_biUnion card_le_card mem_Ico mem_biUnion range sum_congr)
open Function

section

open LinkedList Dyadic

/-- The lists by their index; a block lies below the top of the address space. -/
structure Listed (m : Memory) (zone : ZoneT) (lists : Nat → List Nat) : Prop where
  family : Family (blockListNext m) (fun i => pointer (zone.freeArea i)) lists
  nonzero : ∀ i, ∀ a ∈ lists i, a ≠ 0 ∧ a < 2 ^ 64

def freeBlocks (lists : Nat → List Nat) : Set Block :=
  {x | minOrder ≤ x.order ∧ x.base ∈ lists (orderToIndex x.order)}

theorem mem_freeBlocks {lists : Nat → List Nat} {x : Block} :
    x ∈ freeBlocks lists ↔ minOrder ≤ x.order ∧ x.base ∈ lists (orderToIndex x.order) := Iff.rfl

structure SameZone (z z' : ZoneT) : Prop where
  startPfn : z'.zoneStartPfn = z.zoneStartPfn
  endPfn : z'.zoneEndPfn = z.zoneEndPfn
  free : z'.freePages = z.freePages

theorem SameZone.refl (z : ZoneT) : SameZone z z := ⟨rfl, rfl, rfl⟩

variable {m : Memory} {z : ZoneT} {lists : Nat → List Nat} {order base : Nat}

variable {a : Nat} {l : List Nat}

theorem pointer_some (h : a ≠ 0) : pointer a = some a := if_neg h

theorem pointer_none : pointer 0 = none := rfl

theorem blockListNext_update (m : Memory) (a w : Nat) :
    blockListNext (update m a w) = update (blockListNext m) a (pointer w) :=
  comp_update pointer m a w

theorem heads_update (f : Nat → Nat) (i w : Nat) :
    (fun j => pointer (update f i w j)) = update (fun j => pointer (f j)) i (pointer w) :=
  comp_update pointer f i w

theorem mem_update_lists {i j : Nat} (hNe : j ≠ i) : a ∈ update lists i l j ↔ a ∈ lists j := by
  rw [update_of_ne hNe]

theorem index_inj {o p : Nat} (ho : minOrder ≤ o) (hp : minOrder ≤ p) (h : orderToIndex o = orderToIndex p) :
    o = p := by
  rw [orderToIndex, orderToIndex] at h
  omega

theorem mem_freeBlocks_update (hOrder : minOrder ≤ order) (x : Block) :
    x ∈ freeBlocks (update lists (orderToIndex order) l) ↔
      if x.order = order then x.base ∈ l else x ∈ freeBlocks lists := by
  rw [mem_freeBlocks]
  split
  · rename_i hEq
    rw [hEq, update_self]
    exact and_iff_right hOrder
  · rename_i hNe
    rw [mem_freeBlocks]
    apply and_congr_right
    intro hx
    rw [update_of_ne]
    exact fun hIndex => hNe (index_inj hx hOrder hIndex)

theorem pushBlock_listed (h : Listed m z lists) (hFresh : ∀ i, base ∉ lists i) (hBase : base ≠ 0)
    (hFits : base < 2 ^ 64) : Listed (pushBlock m z order base).1 (pushBlock m z order base).2
      (update lists (orderToIndex order) (base :: lists (orderToIndex order))) := by
  constructor
  · have hPushed := h.family.push hFresh (orderToIndex order)
    simp only [pushBlock, blockListSetNext, blockListNext_update, heads_update, pointer_some hBase]
    exact hPushed
  · intro i a ha
    obtain rfl | hNe := eq_or_ne i (orderToIndex order)
    · rw [update_self, List.mem_cons] at ha
      obtain rfl | ha := ha
      · exact ⟨hBase, hFits⟩
      · exact h.nonzero _ a ha
    · exact h.nonzero i a ((mem_update_lists hNe).mp ha)

theorem pushBlock_zone (m : Memory) (z : ZoneT) (order base : Nat) : SameZone z (pushBlock m z order base).2 :=
  ⟨rfl, rfl, rfl⟩

theorem pushBlock_other (m : Memory) (z : ZoneT) (order : Nat) (hNe : a ≠ base) :
    (pushBlock m z order base).1 a = m a := update_of_ne hNe _ _

theorem freeBlocks_push (hOrder : minOrder ≤ order) :
    freeBlocks (update lists (orderToIndex order) (base :: lists (orderToIndex order))) =
      insert ⟨base, order⟩ (freeBlocks lists) := by
  ext x
  rw [mem_freeBlocks_update hOrder, Set.mem_insert_iff]
  obtain ⟨b, o⟩ := x
  simp only [Block.mk.injEq]
  split
  · rename_i hEq
    subst hEq
    simp only [List.mem_cons, and_true, mem_freeBlocks, hOrder, true_and]
  · rename_i hNe
    simp only [hNe, and_false, false_or]

theorem Listed.head (h : Listed m z lists) (i : Nat) : (lists i).head? = pointer (z.freeArea i) :=
  (h.family.linked i).head?_eq

theorem popBlock_empty (h : Listed m z lists) (hEmpty : lists (orderToIndex order) = []) :
    popBlock m z order = (m, z, 0) := by
  have hHead := h.head (orderToIndex order)
  rw [hEmpty, List.head?_nil, pointer] at hHead
  split at hHead
  · rename_i hZero
    simp only [popBlock, hZero, if_true]
  · cases hHead

theorem popBlock_cons (h : Listed m z lists) (hList : lists (orderToIndex order) = base :: l) :
    ∃ m' z', popBlock m z order = (m', z', base) ∧ Listed m' z' (update lists (orderToIndex order) l) ∧
      SameZone z z' ∧ ∀ a, a ≠ base → m' a = m a := by
  have hBase := h.nonzero (orderToIndex order) base (by rw [hList]; exact .head _)
  have hHead := h.head (orderToIndex order)
  rw [hList, List.head?_cons, pointer] at hHead
  split at hHead
  · cases hHead
  · rename_i hNonzero
    have hFirst : z.freeArea (orderToIndex order) = base := (Option.some.inj hHead).symm
    refine ⟨blockListSetNext m base 0,
      { z with freeArea := update z.freeArea (orderToIndex order) (m base) }, ?_, ⟨?_, ?_⟩,
      ⟨rfl, rfl, rfl⟩, fun a hNe => update_of_ne hNe _ _⟩
    · simp only [popBlock, hFirst, if_neg hBase.1]
    · have hPopped := h.family.pop hList none
      simp only [blockListSetNext, blockListNext_update, heads_update]
      exact hPopped
    · intro i a ha
      apply h.nonzero i a
      obtain rfl | hNe := eq_or_ne i (orderToIndex order)
      · rw [update_self] at ha
        rw [hList]
        exact .tail _ ha
      · exact (mem_update_lists hNe).mp ha

theorem freeBlocks_remove (hOrder : minOrder ≤ order) (hList : ∀ a, a ∈ l ↔ a ∈ lists (orderToIndex order) ∧ a ≠ base) :
    freeBlocks (update lists (orderToIndex order) l) = freeBlocks lists \ {⟨base, order⟩} := by
  ext x
  rw [mem_freeBlocks_update hOrder, Set.mem_sdiff, Set.mem_singleton_iff]
  obtain ⟨b, o⟩ := x
  simp only [Block.mk.injEq]
  split
  · rename_i hEq
    subst hEq
    rw [hList]
    simp only [and_true, mem_freeBlocks, hOrder, true_and, ne_eq]
  · rename_i hNe
    simp only [hNe, and_false, not_false_eq_true, and_true]

theorem Listed.short (h : Listed m z lists) (i : Nat) : (lists i).length < walkFuel := by
  have hSubset : (lists i).toFinset ⊆ Finset.Ico 1 (2 ^ 64) := by
    intro a ha
    have hBounds := h.nonzero i a (List.mem_toFinset.mp ha)
    rw [mem_Ico]
    omega
  have hCard := card_le_card hSubset
  rw [List.toFinset_card_of_nodup (h.family.linked i).nodup, Nat.card_Ico] at hCard
  rw [walkFuel]
  omega

theorem searchList_absent (hAbsent : base ∉ l) (prev : Nat) :
    ∃ last, searchList (fun prev curr => if curr = base then .inr prev else .inl curr) l prev =
      (.inl last : Nat ⊕ Nat) := by
  induction l generalizing prev with
  | nil => exact ⟨prev, rfl⟩
  | cons a l ih =>
    rw [List.mem_cons, not_or] at hAbsent
    obtain ⟨last, hRest⟩ := ih hAbsent.2 a
    refine ⟨last, ?_⟩
    rw [searchList, if_neg (Ne.symm hAbsent.1)]
    exact hRest

theorem searchList_present {pre post : List Nat} (hFirst : base ∉ pre) (prev : Nat) :
    searchList (fun prev curr => if curr = base then .inr prev else .inl curr) (pre ++ base :: post) prev =
      (.inr (pre.getLastD prev) : Nat ⊕ Nat) := by
  induction pre generalizing prev with
  | nil => rw [List.nil_append, searchList, if_pos rfl, List.getLastD_nil]
  | cons a pre ih =>
    rw [List.mem_cons, not_or] at hFirst
    rw [List.cons_append, searchList, if_neg (Ne.symm hFirst.1), List.getLastD_cons]
    exact ih hFirst.2 a

theorem removeBlock_absent (h : Listed m z lists) (hAbsent : base ∉ lists (orderToIndex order)) :
    removeBlock m z order base = some (m, z, false) := by
  obtain ⟨last, hSearch⟩ := searchList_absent hAbsent 0
  simp only [removeBlock]
  rw [search_linked (h.family.linked (orderToIndex order)) _ (h.short _), hSearch]
  rfl

theorem removeBlock_present (h : Listed m z lists) (hPresent : base ∈ lists (orderToIndex order)) :
    ∃ m' z' l, removeBlock m z order base = some (m', z', true) ∧ Listed m' z' (update lists (orderToIndex order) l) ∧
      (∀ a, a ∈ l ↔ a ∈ lists (orderToIndex order) ∧ a ≠ base) ∧
      (lists (orderToIndex order)).length = l.length + 1 ∧ SameZone z z' ∧ ∀ a, (∀ i, a ∉ lists i) → m' a = m a := by
  obtain ⟨pre, post, hList⟩ := List.append_of_mem hPresent
  have hNodup := (h.family.linked (orderToIndex order)).nodup
  rw [hList] at hNodup
  have hBeside : base ∉ pre ∧ base ∉ post := by
    rw [List.nodup_append] at hNodup
    obtain ⟨-, hBehind, hApart⟩ := hNodup
    exact ⟨fun hPre => hApart base hPre base List.mem_cons_self rfl, (List.nodup_cons.mp hBehind).1⟩
  have hRest : ∀ a, a ∈ pre ++ post ↔ a ∈ lists (orderToIndex order) ∧ a ≠ base := by
    intro a
    rw [hList, List.mem_append, List.mem_append, List.mem_cons]
    constructor
    · rintro (hPre | hPost)
      · exact ⟨.inl hPre, fun hEq => hBeside.1 (hEq ▸ hPre)⟩
      · exact ⟨.inr (.inr hPost), fun hEq => hBeside.2 (hEq ▸ hPost)⟩
    · rintro ⟨hPre | hHere | hPost, hNe⟩
      · exact .inl hPre
      · exact absurd hHere hNe
      · exact .inr hPost
  have hLength : (lists (orderToIndex order)).length = (pre ++ post).length + 1 := by
    rw [hList, List.length_append, List.length_append, List.length_cons]
    omega
  have hNonzero : ∀ i, ∀ a ∈ update lists (orderToIndex order) (pre ++ post) i, a ≠ 0 ∧ a < 2 ^ 64 := by
    intro i a ha
    apply h.nonzero i a
    obtain rfl | hNe := eq_or_ne i (orderToIndex order)
    · rw [update_self] at ha
      exact ((hRest a).mp ha).1
    · exact (mem_update_lists hNe).mp ha
  have hApart : ∀ a, (∀ i, a ∉ lists i) → ∀ c ∈ lists (orderToIndex order), a ≠ c := by
    rintro a hFree c hc rfl
    exact hFree _ hc
  have hSearch := search_linked (h.family.linked (orderToIndex order))
    (fun prev curr => if curr = base then Sum.inr prev else Sum.inl curr) (h.short (orderToIndex order)) 0
  rw [hList, searchList_present hBeside.1] at hSearch
  simp only [removeBlock]
  rw [hSearch]
  simp only [Option.bind_eq_bind, Option.bind_some]
  cases pre using List.reverseRecOn with
  | nil =>
    simp only [List.getLastD_nil, if_true]
    refine ⟨_, _, _, rfl, ⟨?_, hNonzero⟩, hRest, hLength, ⟨rfl, rfl, rfl⟩, ?_⟩
    · have hPopped := h.family.pop hList none
      simp only [blockListSetNext, blockListNext_update, heads_update]
      exact hPopped
    · intro a hFree
      exact update_of_ne (hApart a hFree base hPresent) _ _
  | append_singleton pre b =>
    have hLast : (pre ++ [b]).getLastD 0 = b := by simp
    have hb : b ∈ lists (orderToIndex order) := by
      rw [hList]
      simp
    have hPrev : b ≠ 0 := (h.nonzero _ b hb).1
    simp only [hLast, if_neg hPrev]
    refine ⟨_, _, _, rfl, ⟨?_, hNonzero⟩, hRest, hLength, SameZone.refl z, ?_⟩
    · have hUnlinked := h.family.unlink (by rw [hList, List.append_assoc]; rfl) none
      rw [List.append_assoc]
      simp only [blockListSetNext, blockListNext_update]
      exact hUnlinked
    · intro a hFree
      rw [blockListSetNext, blockListSetNext, update_of_ne (hApart a hFree base hPresent),
        update_of_ne (hApart a hFree b hb)]

end

/-! # A stocked zone

The free blocks of a zone carve up a set of addresses, no two buddies among them,
and the counter is their size. `extra` is what the counter is ahead of the lists
while an operation works.
-/

open LinkedList Dyadic

def zoneStart (z : ZoneT) : Nat := u64 (z.zoneStartPfn * pageSize)

def zoneEnd (z : ZoneT) : Nat := u64 (z.zoneEndPfn * pageSize)

def listedPages (lists : Nat → List Nat) : Nat := ∑ i ∈ Finset.range 20, (lists i).length * 2 ^ i

structure Stocked (m : Memory) (z : ZoneT) (lists : Nat → List Nat) (U : Set Nat) (extra : Int) : Prop where
  listed : Listed m z lists
  inside : ∀ x ∈ freeBlocks lists, orderValid x.order ∧ zoneStart z ≤ x.base ∧ x.base + 2 ^ x.order ≤ zoneEnd z
  short : ∀ i, 20 ≤ i → lists i = []
  carved : Carved (freeBlocks lists) U
  reduced : Reduced (maxOrder - 1) (freeBlocks lists)
  counted : (z.freePages : Int) = listedPages lists + extra

variable {m m' : Memory} {z z' : ZoneT} {lists : Nat → List Nat} {U : Set Nat} {extra : Int}
  {order base : Nat}

theorem orderValid_iff : orderValid order ↔ minOrder ≤ order ∧ order ≤ maxOrder := by
  rw [orderValid, decide_eq_true_eq]

theorem zoneContainsBlock_iff : zoneContainsBlock z base order ↔
      orderValid order ∧ zoneStart z ≤ base ∧ base + 2 ^ order ≤ zoneEnd z := by
  have hPos := Nat.two_pow_pos order
  rw [zoneContainsBlock, decide_eq_true_eq, orderToBlockSize, zoneStart, zoneEnd]
  constructor
  · rintro ⟨hOrder, hLow, hHigh, hRoom⟩
    exact ⟨hOrder, by omega, by omega⟩
  · rintro ⟨hOrder, hLow, hHigh⟩
    exact ⟨hOrder, by omega, by omega, by omega⟩

theorem SameZone.zoneStart (h : SameZone z z') : Buddy.zoneStart z' = Buddy.zoneStart z := by
  rw [Buddy.zoneStart, h.startPfn, Buddy.zoneStart]

theorem SameZone.zoneEnd (h : SameZone z z') : Buddy.zoneEnd z' = Buddy.zoneEnd z := by
  rw [Buddy.zoneEnd, h.endPfn, Buddy.zoneEnd]

theorem zoneEnd_lt (z : ZoneT) : zoneEnd z < 2 ^ 64 := Nat.mod_lt _ (by decide)

theorem listedPages_update {i : Nat} (hi : i < 20) (l : List Nat) :
    listedPages (update lists i l) + (lists i).length * 2 ^ i = listedPages lists + l.length * 2 ^ i := by
  have hMem : i ∈ range 20 := Finset.mem_range.mpr hi
  have hRest : ∑ j ∈ (range 20).erase i, (update lists i l j).length * 2 ^ j =
      ∑ j ∈ (range 20).erase i, (lists j).length * 2 ^ j := by
    apply sum_congr rfl
    intro j hj
    rw [update_of_ne (Finset.ne_of_mem_erase hj)]
  rw [listedPages, listedPages, ← Finset.add_sum_erase _ _ hMem, ← Finset.add_sum_erase _ _ hMem, hRest, update_self]
  omega

theorem index_lt (hOrder : orderValid order) : orderToIndex order < 20 := by
  have hBounds := orderValid_iff.mp hOrder
  rw [orderToIndex]
  simp only [minOrder, maxOrder] at hBounds ⊢
  omega

theorem Stocked.cells_lt (h : Stocked m z lists U extra) {a : Nat} (ha : a ∈ U) : zoneStart z ≤ a ∧ a < zoneEnd z := by
  obtain ⟨x, hx, hax⟩ := (h.carved.cover a).mp ha
  have hInside := h.inside x hx
  rw [Block.mem_cells] at hax
  omega

variable {x : Block}

variable (h : Stocked m z lists U extra)

include h

theorem Stocked.block_bounds (hx : x.cells ⊆ U) : zoneStart z ≤ x.base ∧ x.base + 2 ^ x.order ≤ zoneEnd z := by
  have hPos := Nat.two_pow_pos x.order
  have hFirst := h.cells_lt (hx x.base_mem)
  have hLast := h.cells_lt (hx (a := x.base + 2 ^ x.order - 1) (by rw [Block.mem_cells]; omega))
  omega

theorem Stocked.pages_lt : listedPages lists * 4096 ≤ zoneEnd z := by
  classical
  have hBlock : ∀ i, ∀ b ∈ lists i, (⟨b, i + 12⟩ : Block) ∈ freeBlocks lists := fun i b hb =>
    ⟨Nat.le_add_left _ _, hb⟩
  have hCard : ∀ i, ((lists i).toFinset.biUnion fun b => Finset.Ico b (b + 2 ^ (i + 12))).card =
      (lists i).length * 2 ^ i * 4096 := by
    intro i
    rw [card_biUnion]
    · simp only [Nat.card_Ico, Nat.add_sub_cancel_left, Finset.sum_const, smul_eq_mul]
      rw [List.toFinset_card_of_nodup (h.listed.family.linked i).nodup, pow_add]
      ring
    · intro b hb c hc hNe
      rw [onFun, Finset.disjoint_left]
      intro a hab hac
      rw [mem_Ico] at hab hac
      have hEq := h.carved.eq_of_mem (hBlock i b (List.mem_toFinset.mp hb)) (hBlock i c (List.mem_toFinset.mp hc))
        hab hac
      exact hNe (congrArg Block.base hEq)
  have hUnion : ((range 20).biUnion fun i =>
      (lists i).toFinset.biUnion fun b => Finset.Ico b (b + 2 ^ (i + 12))).card = listedPages lists * 4096 := by
    rw [card_biUnion, listedPages, Finset.sum_mul]
    · exact sum_congr rfl fun i _ => hCard i
    · intro i _ j _ hNe
      rw [onFun, Finset.disjoint_left]
      intro a hai haj
      simp only [mem_biUnion, List.mem_toFinset, mem_Ico] at hai haj
      obtain ⟨b, hb, hab⟩ := hai
      obtain ⟨c, hc, hac⟩ := haj
      have hEq := h.carved.eq_of_mem (hBlock i b hb) (hBlock j c hc) hab hac
      have hOrder := congrArg Block.order hEq
      simp only at hOrder
      exact hNe (by omega)
  rw [← hUnion, ← Finset.card_range (zoneEnd z)]
  apply card_le_card
  intro a ha
  simp only [mem_biUnion, List.mem_toFinset, mem_Ico, Finset.mem_range] at ha ⊢
  obtain ⟨i, -, b, hb, hab⟩ := ha
  have hInside := h.inside _ (hBlock i b hb)
  simp only at hInside
  omega

theorem Stocked.elsewhere (hSame : ∀ a ∈ U, m' a = m a) : Stocked m' z lists U extra := by
  refine { h with listed := ⟨⟨?_, h.listed.family.apart⟩, h.listed.nonzero⟩ }
  intro i
  apply (h.listed.family.linked i).congr
  intro a ha
  have hBlock : (⟨a, i + 12⟩ : Block) ∈ freeBlocks lists := ⟨Nat.le_add_left _ _, ha⟩
  rw [blockListNext, blockListNext, hSame a (h.carved.subset hBlock (Block.base_mem _))]

theorem Stocked.push (hAligned : x.Aligned)
    (hOrder : orderValid x.order) (hBase : x.base ≠ 0) (hLow : zoneStart z ≤ x.base)
    (hHigh : x.base + 2 ^ x.order ≤ zoneEnd z) (hApart : Disjoint x.cells U)
    (hAlone : x.order < maxOrder - 1 → x.buddy ∉ freeBlocks lists) :
    Stocked (pushBlock m z x.order x.base).1 (pushBlock m z x.order x.base).2
      (update lists (orderToIndex x.order) (x.base :: lists (orderToIndex x.order)))
      (U ∪ x.cells) (extra - orderToPages x.order) := by
  have hValid := orderValid_iff.mp hOrder
  have hIndex := index_lt hOrder
  have hZone := pushBlock_zone m z x.order x.base
  have hEnd := zoneEnd_lt z
  have hFresh : ∀ i, x.base ∉ lists i := by
    intro i hMem
    have hBlock : (⟨x.base, i + 12⟩ : Block) ∈ freeBlocks lists := ⟨Nat.le_add_left _ _, hMem⟩
    exact Set.disjoint_left.mp hApart x.base_mem (h.carved.subset hBlock (Block.base_mem _))
  have hPos := Nat.two_pow_pos x.order
  have hPush := @freeBlocks_push lists x.order x.base hValid.1
  refine ⟨pushBlock_listed h.listed hFresh hBase (by omega), ?_, ?_, ?_, ?_, ?_⟩
  · rw [hPush, hZone.zoneStart, hZone.zoneEnd]
    rintro y (rfl | hy)
    · exact ⟨hOrder, hLow, hHigh⟩
    · exact h.inside y hy
  · intro i hi
    rw [update_of_ne (by omega)]
    exact h.short i hi
  · rw [hPush]
    exact h.carved.insert hAligned hApart
  · rw [hPush]
    exact h.reduced.insert hAligned hAlone
  · have hUpdate := @listedPages_update lists _ hIndex (x.base :: lists (orderToIndex x.order))
    rw [List.length_cons, Nat.add_mul, Nat.one_mul] at hUpdate
    have hMore : listedPages (update lists (orderToIndex x.order)
        (x.base :: lists (orderToIndex x.order))) = listedPages lists + orderToPages x.order := by
      rw [orderToPages, ← orderToIndex]
      omega
    rw [hZone.free, h.counted, hMore]
    omega

theorem Stocked.taken {l : List Nat} (hx : x ∈ freeBlocks lists)
    (hListed : Listed m' z' (update lists (orderToIndex x.order) l)) (hZone : SameZone z z')
    (hRest : ∀ a, a ∈ l ↔ a ∈ lists (orderToIndex x.order) ∧ a ≠ x.base)
    (hLength : (lists (orderToIndex x.order)).length = l.length + 1) :
    Stocked m' z' (update lists (orderToIndex x.order) l) (U \ x.cells) (extra + orderToPages x.order) := by
  have hInside := h.inside x hx
  have hIndex := index_lt hInside.1
  have hRemove := freeBlocks_remove (orderValid_iff.mp hInside.1).1 hRest
  refine ⟨hListed, ?_, ?_, ?_, ?_, ?_⟩
  · rw [hRemove, hZone.zoneStart, hZone.zoneEnd]
    exact fun y hy => h.inside y hy.1
  · intro i hi
    rw [update_of_ne (by omega)]
    exact h.short i hi
  · rw [hRemove]
    exact h.carved.remove hx
  · rw [hRemove]
    exact h.reduced.mono Set.sdiff_subset
  · have hUpdate := @listedPages_update lists _ hIndex l
    rw [hLength, Nat.add_mul, Nat.one_mul] at hUpdate
    have hLess : listedPages (update lists (orderToIndex x.order) l) + orderToPages x.order = listedPages lists := by
      rw [orderToPages, ← orderToIndex]
      omega
    rw [hZone.free, h.counted, ← hLess]
    omega

end OpenXJ380.Buddy
