import OpenXJ380.Heap.Chain

/-! # What the walks over the blocks compute

Every loop of the source visits the blocks in address order, so on a chain it is
a fold over the list of blocks.
-/

namespace OpenXJ380.Heap

open BitVec (lt_def ofNat)

section

open ByteMemory LinkedList Tiling

def addresses (a : Nat) (l : List Block) : List U32 := (placed 24 a l).map fun p => ofNat 32 p.1

@[simp] theorem addresses_cons (a : Nat) (b : Block) (l : List Block) :
    addresses a (b :: l) = ofNat 32 a :: addresses (a + 24 + b.size) l := rfl

theorem addresses_append (a : Nat) (l l' : List Block) :
    addresses a (l ++ l') = addresses a l ++ addresses (a + span 24 l) l' := by
  rw [addresses, placed_append, List.map_append]
  rfl

theorem addresses_length (a : Nat) (l : List Block) : 24 * (addresses a l).length ≤ span 24 l := by
  induction l generalizing a with
  | nil => exact Nat.zero_le _
  | cons b l ih =>
    have hRest := ih (a + 24 + b.size)
    rw [addresses_cons, List.length_cons, span_cons]
    omega

theorem stateOf_free (b : Block) : stateOf b = heapStateFree ↔ b.free := by
  rw [stateOf]
  cases b.free with
  | true => exact ⟨fun _ => rfl, fun _ => rfl⟩
  | false => exact ⟨fun hEq => absurd hEq (by decide), nofun⟩

theorem pointer_ofNat {a : Nat} (hPos : 0 < a) (hFits : a < 2 ^ 32) : pointer (ofNat 32 a) = some (ofNat 32 a) := by
  rw [pointer, if_neg]
  intro hZero
  have hNat := congrArg BitVec.toNat hZero
  rw [pointer_toNat hFits] at hNat
  exact absurd hNat hPos.ne'

variable {m : Memory} {prev a : Nat} {l : List Block}

theorem Chain.linked (h : Chain m prev a l 0) (hPos : 0 < a) (hFits : a + span 24 l ≤ 2 ^ 32) :
    Linked (nextBlock m) (pointer (ofNat 32 (startOf a l))) (addresses a l) := by
  induction l generalizing prev a with
  | nil => exact .nil
  | cons b l ih =>
    rw [span_cons] at hFits
    rw [startOf, if_neg (List.cons_ne_nil b l), pointer_ofNat hPos (by omega)]
    apply Linked.cons
    rw [nextBlock, h.1.next]
    exact ih h.2 (by omega) (by omega)

theorem addresses_short (hFits : a + span 24 l ≤ 2 ^ 32) : (addresses a l).length < walkFuel := by
  have hLength := addresses_length a l
  rw [walkFuel]
  omega

theorem foldl_largest (h : Chain m prev a l 0) (hFits : a + span 24 l ≤ 2 ^ 32) {n : Nat} (hn : n < 2 ^ 32) :
    (addresses a l).foldl (fun largest b =>
          if field m b .state = heapStateFree ∧ field m b .size > largest then field m b .size else largest)
        (ofNat 32 n) = ofNat 32 (max n (largest l)) := by
  induction l generalizing prev a n with
  | nil =>
    rw [largest, Nat.max_zero]
    rfl
  | cons b l ih =>
    rw [span_cons] at hFits
    have hStep : (if field m (ofNat 32 a) .state = heapStateFree ∧
          field m (ofNat 32 a) .size > ofNat 32 n then field m (ofNat 32 a) .size
        else ofNat 32 n) = ofNat 32 (max n (if b.free then b.size else 0)) := by
      have hSize := pointer_toNat (a := b.size) (by omega)
      simp only [h.1.state, h.1.size, stateOf_free, gt_iff_lt, lt_def, pointer_toNat hn, hSize]
      cases b.free with
      | false => simp
      | true =>
        simp only [true_and, if_true]
        split
        · rw [max_eq_right (by omega)]
        · rw [max_eq_left (by omega)]
    have hBound : max n (if b.free then b.size else 0) < 2 ^ 32 := by
      split <;> omega
    rw [addresses_cons, List.foldl_cons, hStep, ih h.2 (by omega) hBound, largest, Nat.max_assoc]

def blockFits (n : Nat) (b : Block) : Bool := b.free && decide (n ≤ b.size)

def found : Option (Nat × Block) → Unit ⊕ U32
  | none => .inl ()
  | some p => .inr (ofNat 32 p.1)

theorem searchList_find (h : Chain m prev a l 0) (hFits : a + span 24 l ≤ 2 ^ 32) {n : Nat} (hn : n < 2 ^ 32) :
    searchList (fun _ b => if field m b .state ≠ heapStateFree ∨ field m b .size < ofNat 32 n then .inl () else .inr b)
        (addresses a l) () = found ((placed 24 a l).find? fun p => blockFits n p.2) := by
  induction l generalizing prev a with
  | nil => rfl
  | cons b l ih =>
    rw [span_cons] at hFits
    have hSkip : (field m (ofNat 32 a) .state ≠ heapStateFree ∨
        field m (ofNat 32 a) .size < ofNat 32 n) ↔ blockFits n b = false := by
      rw [h.1.state, h.1.size, ne_eq, stateOf_free, lt_def, pointer_toNat hn,
        pointer_toNat (a := b.size) (by omega), blockFits]
      cases b.free <;> simp
    rw [addresses_cons, searchList, placed, List.find?_cons]
    cases hFit : blockFits n b with
    | true =>
      rw [if_neg (by rw [hSkip, hFit]; decide)]
      rfl
    | false =>
      rw [if_pos (hSkip.mpr hFit)]
      exact ih h.2 (by omega)

theorem foldl_last (l : List U32) (b : U32) : (l.foldl (fun _ c => c) b) = l.getLastD b := by
  induction l generalizing b with
  | nil => rfl
  | cons c l ih =>
    rw [List.foldl_cons, ih, List.getLastD_cons]

theorem searchList_check (h : Chain m prev a l 0) (hFits : a + span 24 l ≤ 2 ^ 32)
    (hSizes : ∀ b ∈ l, 8 ≤ b.size ∧ b.size % 8 = 0) (hCoalesced : Coalesced l)
    (hBefore : ∀ b ∈ l.head?, b.free → ofNat 32 prev ≠ 0 →
      field m (ofNat 32 prev) .state ≠ heapStateFree) (x y : Nat) {n : Nat} (hn : n < 2 ^ 32) :
    searchList (checkBlock m) (addresses a l) ⟨ofNat 32 prev, ofNat 32 a, ofNat 32 x, ofNat 32 y, ofNat 32 n⟩ =
      .inl ⟨ofNat 32 (lastAddress 24 prev a l), ofNat 32 (a + span 24 l),
        ofNat 32 (x + freeTotal l), ofNat 32 (y + usedTotal l), ofNat 32 (max n (largest l))⟩ := by
  induction l generalizing prev a x y n with
  | nil => rw [freeTotal, usedTotal, largest, Nat.max_zero]; rfl
  | cons b l ih =>
    rw [span_cons] at hFits
    obtain ⟨hNode, hChain⟩ := h
    obtain ⟨hLarge, hMultiple⟩ := hSizes b (.head _)
    have hSize : (ofNat 32 b.size).toNat = b.size := pointer_toNat (by omega)
    have hWhole : ¬ (ofNat 32 b.size = 0 ∨ ofNat 32 b.size &&& (heapAlign - 1) ≠ 0) := by
      rintro (hZero | hOdd)
      · rw [hZero] at hSize
        change 0 = b.size at hSize
        omega
      · apply hOdd
        apply BitVec.eq_of_toNat_eq
        rw [BitVec.toNat_and, hSize]
        exact (Nat.and_two_pow_sub_one_eq_mod b.size 3).trans hMultiple
    have hExpect : ofNat 32 a + heapHeaderSize + ofNat 32 b.size = ofNat 32 (a + 24 + b.size) := by
      rw [header_eq, ofNat_add, ofNat_add]
    have hAfter : ∀ c ∈ l.head?, c.free → ofNat 32 a ≠ 0 → field m (ofNat 32 a) .state ≠ heapStateFree := by
      intro c hc hFree _ hState
      rw [hNode.state, stateOf_free] at hState
      rw [hCoalesced.head_used hState c hc] at hFree
      cases hFree
    have hRest := fun (x y n : Nat) (hn : n < 2 ^ 32) => ih hChain (by omega)
      (fun c hc => hSizes c (.tail b hc)) (hCoalesced.right (l := [b])) hAfter x y hn
    have hVisit : checkBlock m ⟨ofNat 32 prev, ofNat 32 a, ofNat 32 x, ofNat 32 y, ofNat 32 n⟩ (ofNat 32 a) =
        .inl ⟨ofNat 32 a, ofNat 32 (a + 24 + b.size),
          ofNat 32 (x + if b.free then b.size else 0), ofNat 32 (y + if b.free then 0 else b.size),
          ofNat 32 (max n (if b.free then b.size else 0))⟩ := by
      simp only [checkBlock]
      rw [if_neg (not_not.mpr hNode.magic), if_neg (by simp), if_neg (not_not.mpr hNode.prev), hNode.size,
        if_neg hWhole, hExpect, hNode.state]
      cases hFree : b.free with
      | true =>
        rw [if_pos ((stateOf_free b).mpr hFree), if_neg fun hTwo => hBefore b rfl hFree hTwo.1 hTwo.2]
        simp only [if_true, add_zero, ofNat_add, gt_iff_lt, lt_def, pointer_toNat hn, hSize]
        congr 2
        split
        · rw [max_eq_right (by omega)]
        · rw [max_eq_left (by omega)]
      | false =>
        have hUsed : stateOf b = heapStateUsed := by
          rw [stateOf, hFree]
          rfl
        rw [if_neg (by rw [stateOf_free, hFree]; decide), if_pos hUsed]
        simp [ofNat_add]
    have hBound : max n (if b.free then b.size else 0) < 2 ^ 32 := by
      split <;> omega
    rw [addresses_cons, searchList, hVisit]
    simp only
    rw [hRest _ _ _ hBound, lastAddress, span_cons, freeTotal, usedTotal, largest, Nat.max_assoc, add_assoc x,
      add_assoc y]
    have hEnd : a + 24 + b.size + span 24 l = a + (24 + b.size + span 24 l) := by omega
    rw [hEnd]

end

/-! # A heap tiled by its blocks

`Tiled` is what every edit keeps; `Sound` adds what holds between the calls, when
neighbours are joined and the largest free block is up to date.
-/

open ByteMemory LinkedList Tiling

structure Tiled (h : HeapT) (l : List Block) : Prop where
  inited : h.inited = true
  head : h.head = h.base
  aligned : h.base.toNat % 8 = 0
  positive : 0 < h.base.toNat
  size : h.size.toNat = span 24 l
  fits : h.base.toNat + span 24 l < 2 ^ 32
  chain : Chain h.mem 0 h.base.toNat l 0
  sizes : ∀ b ∈ l, 8 ≤ b.size ∧ b.size % 8 = 0
  nonempty : l ≠ []
  used : h.usedBytes.toNat = usedTotal l
  free : h.freeBytes.toNat = freeTotal l

structure Sound (h : HeapT) (l : List Block) : Prop extends Tiled h l where
  coalesced : Coalesced l
  largest : h.largestFree.toNat = Tiling.largest l

structure SameRegion (h h' : HeapT) : Prop where
  inited : h'.inited = h.inited
  head : h'.head = h.head
  base : h'.base = h.base
  size : h'.size = h.size
  grow : h'.grow = h.grow

theorem SameRegion.refl (h : HeapT) : SameRegion h h := ⟨rfl, rfl, rfl, rfl, rfl⟩

theorem SameRegion.trans {h h' h'' : HeapT} (hFirst : SameRegion h h') (hSecond : SameRegion h' h'') :
    SameRegion h h'' :=
  ⟨hSecond.inited.trans hFirst.inited, hSecond.head.trans hFirst.head, hSecond.base.trans hFirst.base,
    hSecond.size.trans hFirst.size, hSecond.grow.trans hFirst.grow⟩

variable {h h' : HeapT} {l pre old new : List Block}

section

variable (hTiled : Tiled h l)

include hTiled

theorem Tiled.start : pointer h.head = pointer (ofNat 32 (startOf h.base.toNat l)) := by
  rw [hTiled.head, startOf, if_neg hTiled.nonempty, BitVec.ofNat_toNat, BitVec.setWidth_eq]

theorem Tiled.linked : Linked (nextBlock h.mem) (pointer h.head) (addresses h.base.toNat l) := by
  rw [hTiled.start]
  exact hTiled.chain.linked hTiled.positive hTiled.fits.le

theorem Tiled.heapLargestFree : heapLargestFree h = some (ofNat 32 (Tiling.largest l)) := by
  have hNot : ¬ (!h.inited) := by simp [hTiled.inited]
  have hFits := hTiled.fits.le
  have hFold := foldl_largest hTiled.chain hFits (n := 0) (by decide)
  rw [Nat.zero_max] at hFold
  rw [Heap.heapLargestFree, if_neg hNot, walk_linked hTiled.linked _ (addresses_short hFits)]
  exact congrArg some hFold

theorem Tiled.withLargest : withLargest h = some { h with largestFree := ofNat 32 (Tiling.largest l) } := by
  rw [Heap.withLargest, hTiled.heapLargestFree]
  rfl

theorem Tiled.largest_lt : Tiling.largest l < 2 ^ 32 := by
  have hTotal := @totals_le_span 24 l
  have hLargest := largest_le_freeTotal l
  have hFits := hTiled.fits
  omega

theorem Tiled.sound (hCoalesced : Coalesced l) : Sound { h with largestFree := ofNat 32 (Tiling.largest l) } l := by
  refine ⟨{ hTiled with }, hCoalesced, ?_⟩
  exact pointer_toNat hTiled.largest_lt

theorem Tiled.heapFind {n : Nat} (hn : n < 2 ^ 32) :
    heapFind h (ofNat 32 n) = some (found ((placed 24 h.base.toNat l).find? fun p => blockFits n p.2)) := by
  have hFits := hTiled.fits.le
  rw [Heap.heapFind, search_linked hTiled.linked _ (addresses_short hFits), searchList_find hTiled.chain hFits hn]

end

theorem Tiled.lastBlock {b : Block} (hTiled : Tiled h (pre ++ [b])) :
    lastBlock h = some (ofNat 32 (h.base.toNat + span 24 pre)) := by
  have hFits := hTiled.fits.le
  have hLinked := hTiled.linked
  have hShort := addresses_short hFits
  have hEnds : addresses h.base.toNat (pre ++ [b]) =
      addresses h.base.toNat pre ++ [ofNat 32 (h.base.toNat + span 24 pre)] := addresses_append _ _ _
  obtain ⟨first, rest, hList⟩ : ∃ first rest, addresses h.base.toNat (pre ++ [b]) = first :: rest :=
    List.exists_cons_of_ne_nil (by rw [hEnds]; simp)
  rw [hList] at hLinked hShort
  have hHead := hLinked.head?_eq
  have hFirst : first = h.head := by
    rw [List.head?_cons, pointer] at hHead
    split at hHead
    · cases hHead
    · exact Option.some.inj hHead
  rw [← hHead, List.head?_cons] at hLinked
  cases hLinked with
  | cons hRest =>
    rw [hFirst] at hRest
    have hLast : (first :: rest).getLastD first = rest.getLastD first := List.getLastD_cons
    rw [Heap.lastBlock, walk_linked hRest _ (Nat.lt_of_succ_lt hShort), foldl_last, ← hFirst, ← hLast, ← hList,
      hEnds, List.getLastD_concat]

theorem Sound.heapCheck (hSound : Sound h l) : heapCheck h = some .ok := by
  have hNot : ¬ (!h.inited) := by simp [hSound.inited]
  have hFits := hSound.fits.le
  have hEnd : ofNat 32 (h.base.toNat + span 24 l) = h.base + h.size := by
    rw [← hSound.size, ← ofNat_add]
    simp
  have hFree : ofNat 32 (0 + freeTotal l) = h.freeBytes := by
    rw [zero_add, ← hSound.free]
    simp
  have hUsed : ofNat 32 (0 + usedTotal l) = h.usedBytes := by
    rw [zero_add, ← hSound.used]
    simp
  have hLargest : ofNat 32 (max 0 (Tiling.largest l)) = h.largestFree := by
    rw [Nat.zero_max, ← hSound.largest]
    simp
  have hCheck := searchList_check hSound.chain hFits hSound.sizes hSound.coalesced
    (fun _ _ _ hNonzero => absurd rfl hNonzero) 0 0 (n := 0) (by decide)
  rw [hEnd, hFree, hUsed, hLargest] at hCheck
  have hStart : ofNat 32 h.base.toNat = h.base := by simp
  rw [hStart] at hCheck
  change searchList _ _ (⟨0, h.base, 0, 0, 0⟩ : CheckState) = _ at hCheck
  rw [Heap.heapCheck, if_neg hNot, search_linked hSound.linked _ (addresses_short hFits), hCheck]
  simp

theorem Tiled.suffix (hTiled : Tiled h (pre ++ old)) :
    Chain h.mem (lastAddress 24 0 h.base.toNat pre) (h.base.toNat + span 24 pre) old 0 :=
  ((chain_append pre old).mp hTiled.chain).2

theorem Tiled.suffix_fits (hTiled : Tiled h (pre ++ old)) : h.base.toNat + span 24 pre + span 24 old < 2 ^ 32 := by
  have hFits := hTiled.fits
  rw [span_append] at hFits
  omega

theorem Tiled.replace (hTiled : Tiled h (pre ++ old)) (hRegion : SameRegion h h')
    (hAgree : Agree h.mem h'.mem h.base.toNat (h.base.toNat + span 24 pre))
    (hChain : Chain h'.mem (lastAddress 24 0 h.base.toNat pre) (h.base.toNat + span 24 pre) new 0)
    (hOld : old ≠ []) (hNew : new ≠ []) (hSpan : span 24 new = span 24 old)
    (hSizes : ∀ b ∈ new, 8 ≤ b.size ∧ b.size % 8 = 0)
    (hUsed : h'.usedBytes.toNat = usedTotal (pre ++ new)) (hFree : h'.freeBytes.toNat = freeTotal (pre ++ new)) :
    Tiled h' (pre ++ new) := by
  have hSuffix := hTiled.suffix_fits
  refine ⟨?_, ?_, ?_, ?_, ?_, ?_, ?_, ?_, ?_, hUsed, hFree⟩
  · rw [hRegion.inited]
    exact hTiled.inited
  · rw [hRegion.head, hRegion.base]
    exact hTiled.head
  · rw [hRegion.base]
    exact hTiled.aligned
  · rw [hRegion.base]
    exact hTiled.positive
  · rw [hRegion.size, hTiled.size, span_append, span_append, hSpan]
  · rw [hRegion.base, span_append, hSpan]
    omega
  · have hPre := ((chain_append pre old).mp hTiled.chain).1
    rw [if_neg hOld] at hPre
    rw [hRegion.base, chain_append, if_neg hNew]
    exact ⟨hPre.congr_region (by omega) hAgree, hChain⟩
  · intro b hMem
    obtain hBefore | hHere := List.mem_append.mp hMem
    · exact hTiled.sizes b (List.mem_append_left _ hBefore)
    · exact hSizes b hHere
  · exact List.append_ne_nil_of_right_ne_nil pre hNew

theorem Tiled.totals_lt (hTiled : Tiled h l) : freeTotal l + usedTotal l < 2 ^ 32 := by
  have hTotal := @totals_le_span 24 l
  have hFits := hTiled.fits
  omega

end OpenXJ380.Heap
