import OpenXJ380.Heap.Tiled

/-! # The steps of allocation and release

Each step takes a tiled heap to a tiled heap and says which bytes it leaves
alone.
-/

namespace OpenXJ380.Heap

open BitVec (le_def ofNat)

section

open ByteMemory Tiling

variable {h : HeapT} {pre post : List Block} {s t n : Nat}

theorem add_toNat {x y : U32} {u v : Nat} (hx : x.toNat = u) (hy : y.toNat = v) (hFits : u + v < 2 ^ 32) :
    (x + y).toNat = u + v := by
  rw [BitVec.toNat_add, hx, hy]
  omega

theorem sub_toNat {x y : U32} {u v : Nat} (hx : x.toNat = u) (hy : y.toNat = v) (hLe : v ≤ u) :
    (x - y).toNat = u - v := by
  rw [BitVec.toNat_sub_of_le (by rw [le_def]; omega), hx, hy]

theorem heapGiveBack_region (h : HeapT) (b : U32) : SameRegion h (heapGiveBack h b) := ⟨rfl, rfl, rfl, rfl, rfl⟩

theorem heapTake_region (h : HeapT) (b : U32) : SameRegion h (heapTake h b) := ⟨rfl, rfl, rfl, rfl, rfl⟩

theorem heapSplit_region (h : HeapT) (b size leftover : U32) : SameRegion h (heapSplit h b size leftover) :=
  ⟨rfl, rfl, rfl, rfl, rfl⟩

theorem heapAbsorb_region (h : HeapT) (keep victim : U32) : SameRegion h (heapAbsorb h keep victim) :=
  ⟨rfl, rfl, rfl, rfl, rfl⟩

theorem heapGiveBack_agree (hTiled : Tiled h (pre ++ ⟨s, false⟩ :: post)) {lo hi : Nat}
    (hApart : hi ≤ h.base.toNat + span 24 pre ∨ h.base.toNat + span 24 pre + 24 ≤ lo) :
    Agree h.mem (heapGiveBack h (ofNat 32 (h.base.toNat + span 24 pre))).mem lo hi := by
  have hFits := hTiled.suffix_fits
  rw [span_cons] at hFits
  exact setField_agree_at h.mem (by omega) .state heapStateFree hApart

theorem heapGiveBack_tiled (hTiled : Tiled h (pre ++ ⟨s, false⟩ :: post)) :
    Tiled (heapGiveBack h (ofNat 32 (h.base.toNat + span 24 pre))) (pre ++ ⟨s, true⟩ :: post) := by
  have hFits := hTiled.suffix_fits
  have hTotals := hTiled.totals_lt
  have hUsed := hTiled.used
  have hFree := hTiled.free
  have hAgree := @heapGiveBack_agree h pre post s hTiled h.base.toNat (h.base.toNat + span 24 pre) (.inl le_rfl)
  have hChain : Chain (heapGiveBack h (ofNat 32 (h.base.toNat + span 24 pre))).mem
      (lastAddress 24 0 h.base.toNat pre) (h.base.toNat + span 24 pre) (⟨s, true⟩ :: post) 0 :=
    setState_chain hTiled.suffix hFits.le true
  rw [span_cons] at hFits
  simp only [usedTotal_append, freeTotal_append, usedTotal, freeTotal, Bool.false_eq_true,
    if_false] at hUsed hFree hTotals
  have hSize := congrArg BitVec.toNat hChain.1.size
  rw [pointer_toNat (by simp only at hFits ⊢; omega)] at hSize
  change _ = s at hSize
  apply hTiled.replace (heapGiveBack_region _ _) hAgree hChain (List.cons_ne_nil _ _) (List.cons_ne_nil _ _) rfl
  · intro b hMem
    obtain rfl | hRest := List.mem_cons.mp hMem
    · exact hTiled.sizes ⟨s, false⟩ (by simp)
    · exact hTiled.sizes b (by simp [hRest])
  · simp only [usedTotal_append, usedTotal, if_true]
    exact (sub_toNat hUsed hSize (by omega)).trans (by omega)
  · simp only [freeTotal_append, freeTotal, if_true]
    exact (add_toNat hFree hSize (by omega)).trans (by omega)

section

variable (hTiled : Tiled h (pre ++ ⟨s, true⟩ :: post))

include hTiled

theorem heapTake_agree {lo hi : Nat} (hApart : hi ≤ h.base.toNat + span 24 pre ∨ h.base.toNat + span 24 pre + 24 ≤ lo) :
    Agree h.mem (heapTake h (ofNat 32 (h.base.toNat + span 24 pre))).mem lo hi := by
  have hFits := hTiled.suffix_fits
  rw [span_cons] at hFits
  exact setField_agree_at h.mem (by omega) .state heapStateUsed hApart

theorem heapTake_tiled : Tiled (heapTake h (ofNat 32 (h.base.toNat + span 24 pre))) (pre ++ ⟨s, false⟩ :: post) := by
  have hFits := hTiled.suffix_fits
  have hTotals := hTiled.totals_lt
  have hUsed := hTiled.used
  have hFree := hTiled.free
  have hAgree := @heapTake_agree h pre post s hTiled h.base.toNat (h.base.toNat + span 24 pre) (.inl le_rfl)
  have hChain : Chain (heapTake h (ofNat 32 (h.base.toNat + span 24 pre))).mem
      (lastAddress 24 0 h.base.toNat pre) (h.base.toNat + span 24 pre) (⟨s, false⟩ :: post) 0 :=
    setState_chain hTiled.suffix hFits.le false
  rw [span_cons] at hFits
  simp only [usedTotal_append, freeTotal_append, usedTotal, freeTotal, if_true] at hUsed hFree hTotals
  have hSize := congrArg BitVec.toNat hChain.1.size
  rw [pointer_toNat (by simp only at hFits ⊢; omega)] at hSize
  change _ = s at hSize
  apply hTiled.replace (heapTake_region _ _) hAgree hChain (List.cons_ne_nil _ _) (List.cons_ne_nil _ _) rfl
  · intro b hMem
    obtain rfl | hRest := List.mem_cons.mp hMem
    · exact hTiled.sizes ⟨s, true⟩ (by simp)
    · exact hTiled.sizes b (by simp [hRest])
  · simp only [usedTotal_append, usedTotal, Bool.false_eq_true, if_false]
    exact (add_toNat hUsed hSize (by omega)).trans (by omega)
  · simp only [freeTotal_append, freeTotal, Bool.false_eq_true, if_false]
    exact (sub_toNat hFree hSize (by omega)).trans (by omega)

theorem heapSplit_tiled (hLe : n + 32 ≤ s) (hLarge : 8 ≤ n) (hMultiple : n % 8 = 0) :
    Tiled (heapSplit h (ofNat 32 (h.base.toNat + span 24 pre)) (ofNat 32 n) (ofNat 32 (s - n)))
      (pre ++ ⟨n, true⟩ :: ⟨s - n - 24, true⟩ :: post) := by
  have hFits := hTiled.suffix_fits
  have hTotals := hTiled.totals_lt
  have hUsed := hTiled.used
  have hFree := hTiled.free
  have hSizes := hTiled.sizes ⟨s, true⟩ (by simp)
  have hAgree : Agree h.mem (heapSplit h (ofNat 32 (h.base.toNat + span 24 pre)) (ofNat 32 n)
      (ofNat 32 (s - n))).mem h.base.toNat (h.base.toNat + span 24 pre) :=
    heapSplit_agree hTiled.suffix hFits.le (by omega) (.inl le_rfl) (.inl (by omega))
  have hChain := heapSplit_chain hTiled.suffix hFits.le (by omega : n + 24 ≤ s)
  simp only [usedTotal_append, freeTotal_append, usedTotal, freeTotal, if_true] at hUsed hFree hTotals
  apply hTiled.replace (heapSplit_region _ _ _ _) hAgree hChain (List.cons_ne_nil _ _) (List.cons_ne_nil _ _)
  · simp only [span_cons]
    omega
  · intro b hMem
    simp only [List.mem_cons] at hMem
    obtain rfl | rfl | hRest := hMem
    · exact ⟨hLarge, hMultiple⟩
    · simp only at hSizes ⊢
      omega
    · exact hTiled.sizes b (by simp [hRest])
  · simp only [usedTotal_append, usedTotal, if_true]
    exact hUsed.trans (by omega)
  · simp only [freeTotal_append, freeTotal, if_true]
    exact (sub_toNat hFree (by decide : heapHeaderSize.toNat = 24) (by omega)).trans (by omega)

end

theorem heapAbsorb_tiled (hTiled : Tiled h (pre ++ ⟨s, true⟩ :: ⟨t, true⟩ :: post)) :
    Tiled (heapAbsorb h (ofNat 32 (h.base.toNat + span 24 pre))
      (ofNat 32 (h.base.toNat + span 24 pre + 24 + s))) (pre ++ ⟨s + (24 + t), true⟩ :: post) := by
  have hFits := hTiled.suffix_fits
  have hTotals := @totals_le_span 24 (pre ++ ⟨s, true⟩ :: ⟨t, true⟩ :: post)
  have hUsed := hTiled.used
  have hFree := hTiled.free
  have hKeep := hTiled.sizes ⟨s, true⟩ (by simp)
  have hVictim := hTiled.sizes ⟨t, true⟩ (by simp)
  have hRegion := hTiled.fits
  have hAgree : Agree h.mem (heapAbsorb h (ofNat 32 (h.base.toNat + span 24 pre))
      (ofNat 32 (h.base.toNat + span 24 pre + 24 + s))).mem h.base.toNat (h.base.toNat + span 24 pre) :=
    heapAbsorb_agree hTiled.suffix hFits.le (.inl le_rfl) (.inl (by omega))
  have hChain := heapAbsorb_chain hTiled.suffix hFits.le
  simp only [usedTotal_append, freeTotal_append, usedTotal, freeTotal, if_true, List.length_append,
    List.length_cons] at hUsed hFree hTotals
  apply hTiled.replace (heapAbsorb_region _ _ _) hAgree hChain (List.cons_ne_nil _ _) (List.cons_ne_nil _ _)
  · simp only [span_cons]
    omega
  · intro b hMem
    simp only [List.mem_cons] at hMem
    obtain rfl | hRest := hMem
    · simp only at hKeep hVictim ⊢
      omega
    · exact hTiled.sizes b (by simp [hRest])
  · simp only [usedTotal_append, usedTotal, if_true]
    exact hUsed.trans (by omega)
  · simp only [freeTotal_append, freeTotal, if_true]
    exact (add_toNat hFree (by decide : heapHeaderSize.toNat = 24) (by omega)).trans (by omega)

end

/-! # Allocation on a sound heap

A scan finds the first block that fits, and where there is none the region grows
at most once. The heap stays sound, and no byte of a block in use changes.
-/

open ByteMemory Tiling

def PayloadsKept (h h' : HeapT) (l : List Block) : Prop :=
  ∀ d n, UsedAt 24 h.base.toNat l d n → Agree h.mem h'.mem (d + 24) (d + 24 + n)

theorem usedAt_bounds {start : Nat} {l : List Block} {d n : Nat} (hUsed : UsedAt 24 start l d n) :
    start ≤ d ∧ d + 24 + n ≤ start + span 24 l :=
  placed_bounds hUsed

/-- What a successful allocation of at least `n` bytes at `c` does. -/
structure Allocated (h h' : HeapT) (l l' : List Block) (n c : Nat) : Prop where
  sound : Sound h' l'
  base : h'.base = h.base
  grow : h'.grow = h.grow
  kept : PayloadsKept h h' l
  used : ∃ m, n ≤ m ∧ ∀ d k, UsedAt 24 h.base.toNat l' d k ↔ d = c ∧ k = m ∨ UsedAt 24 h.base.toNat l d k
  fresh : ∀ k, ¬ UsedAt 24 h.base.toNat l c k

variable {h : HeapT} {l pre post : List Block} {s n : Nat}

theorem heapTake_sound (hSound : Sound h (pre ++ ⟨s, true⟩ :: post)) :
    ∃ h', withLargest (heapTake h (ofNat 32 (h.base.toNat + span 24 pre))) = some h' ∧
      Sound h' (pre ++ ⟨s, false⟩ :: post) ∧ h'.base = h.base ∧ h'.grow = h.grow ∧
      h'.mem = (heapTake h (ofNat 32 (h.base.toNat + span 24 pre))).mem := by
  have hTiled := heapTake_tiled hSound.toTiled
  exact ⟨_, hTiled.withLargest, hTiled.sound (hSound.coalesced.marked s), rfl, rfl, rfl⟩

theorem heapSplit_take_sound (hSound : Sound h (pre ++ ⟨s, true⟩ :: post)) (hLe : n + 32 ≤ s) (hLarge : 8 ≤ n)
    (hMultiple : n % 8 = 0) :
    ∃ h', withLargest (heapTake (heapSplit h (ofNat 32 (h.base.toNat + span 24 pre)) (ofNat 32 n)
        (ofNat 32 (s - n))) (ofNat 32 (h.base.toNat + span 24 pre))) = some h' ∧
      Sound h' (pre ++ ⟨n, false⟩ :: ⟨s - n - 24, true⟩ :: post) ∧ h'.base = h.base ∧ h'.grow = h.grow ∧
      h'.mem = (heapTake (heapSplit h (ofNat 32 (h.base.toNat + span 24 pre)) (ofNat 32 n)
        (ofNat 32 (s - n))) (ofNat 32 (h.base.toNat + span 24 pre))).mem := by
  have hTiled := heapTake_tiled (heapSplit_tiled hSound.toTiled hLe hLarge hMultiple)
  have hPre : Coalesced (pre ++ [⟨n, false⟩]) := by
    have hMarked := hSound.coalesced.marked n
    rw [← List.singleton_append, ← List.append_assoc] at hMarked
    exact hMarked.left
  have hHead := hSound.coalesced.right.head_used rfl
  have hPost : Coalesced post := Coalesced.right (l := [⟨s, true⟩]) hSound.coalesced.right
  have hJoined := Coalesced.freed hPre hPost (by simp) hHead ⟨s - n - 24, true⟩
  rw [List.append_assoc, List.singleton_append] at hJoined
  exact ⟨_, hTiled.withLargest, hTiled.sound hJoined, rfl, rfl, rfl⟩

theorem beside_free {d k : Nat} (hUsed : UsedAt 24 h.base.toNat (pre ++ ⟨s, true⟩ :: post) d k) :
    (d + 24 + k ≤ h.base.toNat + span 24 pre ∨ h.base.toNat + span 24 pre + 24 + s ≤ d) := by
  rw [usedAt_append, usedAt_free] at hUsed
  obtain hPre | hPost := hUsed
  · exact .inl (usedAt_bounds hPre).2
  · exact .inr (usedAt_bounds hPost).1

def heapTakeFit (h : HeapT) (b size : U32) : Option HeapT :=
  let leftover := field h.mem b .size - size
  let h := if leftover ≥ heapMinBlock then heapSplit h b size leftover else h
  withLargest (heapTake h b)

theorem heapTakeFit_allocated (hSound : Sound h (pre ++ ⟨s, true⟩ :: post)) (hLe : n ≤ s) (hLarge : 8 ≤ n)
    (hMultiple : n % 8 = 0) : ∃ h' l', heapTakeFit h (ofNat 32 (h.base.toNat + span 24 pre)) (ofNat 32 n) = some h' ∧
      Allocated h h' (pre ++ ⟨s, true⟩ :: post) l' n (h.base.toNat + span 24 pre) := by
  have hTiled := hSound.toTiled
  have hFits := hTiled.suffix_fits
  have hNode := hTiled.suffix.1
  rw [span_cons] at hFits
  simp only at hFits
  have hLeftover : field h.mem (ofNat 32 (h.base.toNat + span 24 pre)) .size - ofNat 32 n = ofNat 32 (s - n) := by
    rw [hNode.size, ofNat_sub hLe (by omega)]
  have hFresh : ∀ k, ¬ UsedAt 24 h.base.toNat (pre ++ ⟨s, true⟩ :: post) (h.base.toNat + span 24 pre) k := by
    intro k hUsed
    have hBeside := beside_free hUsed
    omega
  simp only [heapTakeFit, hLeftover]
  obtain hSmall | hSplit := lt_or_ge (s - n) 32
  · have hNot : ¬ (ofNat 32 (s - n) ≥ heapMinBlock) := by
      rw [ge_iff_le, le_def, pointer_toNat (by omega)]
      exact not_le.mpr hSmall
    rw [if_neg hNot]
    obtain ⟨h', hResult, hAfter, hBase, hGrow, hMem⟩ := heapTake_sound hSound
    refine ⟨h', _, hResult, hAfter, hBase, hGrow, ?_, ⟨s, hLe, ?_⟩, hFresh⟩
    · intro d k hUsed
      rw [hMem]
      apply heapTake_agree hTiled
      have hBeside := beside_free hUsed
      omega
    · intro d k
      rw [usedAt_append, usedAt_append, usedAt_used, usedAt_free]
      exact or_left_comm
  · have hYes : ofNat 32 (s - n) ≥ heapMinBlock := by
      rw [ge_iff_le, le_def, pointer_toNat (by omega)]
      exact hSplit
    rw [if_pos hYes]
    obtain ⟨h', hResult, hAfter, hBase, hGrow, hMem⟩ := heapSplit_take_sound hSound (by omega) hLarge hMultiple
    refine ⟨h', _, hResult, hAfter, hBase, hGrow, ?_, ⟨n, le_rfl, ?_⟩, hFresh⟩
    · intro d k hUsed
      have hBeside := beside_free hUsed
      have hSplitKept := heapSplit_agree hTiled.suffix hTiled.suffix_fits.le (by omega : n + 24 ≤ s)
        (by omega : d + 24 + k ≤ h.base.toNat + span 24 pre ∨ h.base.toNat + span 24 pre + 24 + s ≤ d + 24)
        (by omega)
      rw [hMem]
      apply hSplitKept.trans
      apply heapTake_agree (heapSplit_tiled hTiled (by omega) hLarge hMultiple)
      rw [(heapSplit_region h _ _ _).base]
      omega
    · have hEnd : h.base.toNat + span 24 pre + 24 + n + 24 + (s - n - 24) = h.base.toNat + span 24 pre + 24 + s := by
        omega
      intro d k
      rw [usedAt_append, usedAt_append, usedAt_used, usedAt_free, usedAt_free, hEnd]
      exact or_left_comm

end OpenXJ380.Heap
