import OpenXJ380.Heap.Alloc
import OpenXJ380.Lib.Bits

/-! # Growing the region

The new memory becomes a free block behind the last one and joins it where that
one is free.
-/

namespace OpenXJ380.Heap

open BitVec (eq_of_toNat_eq le_def lt_def ofNat)

section

open ByteMemory Tiling

variable {h : HeapT} {pre : List Block} {b : Block} {n : Nat}

theorem heapAppend_mem (h : HeapT) {a e : Nat} (hFits : n + 24 < 2 ^ 32) :
    (heapAppend h (ofNat 32 a) (ofNat 32 e) (ofNat 32 (n + 24))).mem =
      setField (setField (initHeader h.mem (ofNat 32 e) heapStateFree (ofNat 32 n))
        (ofNat 32 e) .prev (ofNat 32 a)) (ofNat 32 a) .next (ofNat 32 e) := by
  have hSize : ofNat 32 (n + 24) - heapHeaderSize = ofNat 32 n := by
    rw [header_eq, ofNat_sub (by omega) hFits, Nat.add_sub_cancel]
  simp only [heapAppend, hSize]

theorem heapAppend_agree (h : HeapT) {a e : Nat} (hEnd : a + 24 ≤ e) (hFits : e + 24 + n < 2 ^ 32) {lo hi : Nat}
    (hTail : hi ≤ a ∨ a + 24 ≤ lo) (hFresh : hi ≤ e) :
    Agree h.mem (heapAppend h (ofNat 32 a) (ofNat 32 e) (ofNat 32 (n + 24))).mem lo hi := by
  rw [heapAppend_mem h (by omega)]
  have hHeader : Agree h.mem (initHeader h.mem (ofNat 32 e) heapStateFree (ofNat 32 n)) lo hi :=
    initHeader_agree_at h.mem (by omega) heapStateFree (ofNat 32 n) (.inl hFresh)
  exact (hHeader.trans (setField_agree_at _ (by omega) _ _ (.inl hFresh))).trans
    (setField_agree_at _ (by omega) _ _ hTail)

theorem heapAppend_chain (hTiled : Tiled h (pre ++ [b]))
    (hFits : h.base.toNat + span 24 (pre ++ [b]) + 24 + n < 2 ^ 32) :
    Chain (heapAppend h (ofNat 32 (h.base.toNat + span 24 pre))
      (ofNat 32 (h.base.toNat + span 24 (pre ++ [b]))) (ofNat 32 (n + 24))).mem
      0 h.base.toNat (pre ++ [b, ⟨n, true⟩]) 0 := by
  have hSpan : span 24 (pre ++ [b]) = span 24 pre + (24 + b.size) := by simp
  have hEnd : h.base.toNat + span 24 pre + 24 + b.size = h.base.toNat + span 24 (pre ++ [b]) := by
    rw [hSpan]
    omega
  have hOld := (chain_append pre [b]).mp hTiled.chain
  rw [if_neg (List.cons_ne_nil _ _)] at hOld
  rw [chain_append, if_neg (List.cons_ne_nil _ _)]
  constructor
  · apply hOld.1.congr_region (by omega)
    exact heapAppend_agree h (by omega) hFits (.inl le_rfl) (by omega)
  · have hNode : Node h.mem (h.base.toNat + span 24 pre) (lastAddress 24 0 h.base.toNat pre) 0 b := hOld.2.1
    rw [heapAppend_mem h (by omega)]
    simp only [Chain, if_neg (List.cons_ne_nil _ _), hEnd, and_true, if_true]
    constructor
    · have hHeader : Agree h.mem (initHeader h.mem (ofNat 32 (h.base.toNat + span 24 (pre ++ [b])))
          heapStateFree (ofNat 32 n)) (h.base.toNat + span 24 pre) (h.base.toNat + span 24 pre + 24) :=
        initHeader_agree_at h.mem (by omega) heapStateFree (ofNat 32 n) (.inl (by omega))
      exact (hNode.congr (by omega) (hHeader.trans
        (setField_agree_at _ (by omega) _ _ (.inl (by omega))))).setNext (by omega) _
    · exact ((initHeader_node h.mem (by omega) n).setPrev (by omega) _).congr (by omega)
        (setField_agree_at _ (by omega) _ _ (.inr (by omega)))

theorem heapAppend_tiled (hTiled : Tiled h (pre ++ [b]))
    (hFits : h.base.toNat + span 24 (pre ++ [b]) + 24 + n < 2 ^ 32) (hLarge : 8 ≤ n) (hMultiple : n % 8 = 0) :
    Tiled (heapAppend h (ofNat 32 (h.base.toNat + span 24 pre))
      (ofNat 32 (h.base.toNat + span 24 (pre ++ [b]))) (ofNat 32 (n + 24))) (pre ++ [b, ⟨n, true⟩]) := by
  have hTotals := @totals_le_span 24 (pre ++ [b])
  have hSpan : span 24 (pre ++ [b, ⟨n, true⟩]) = span 24 (pre ++ [b]) + (n + 24) := by
    simp only [span_append, span_cons, span_nil]
    omega
  have hAdded : (ofNat 32 (n + 24)).toNat = n + 24 := pointer_toNat (by omega)
  have hPayload : (ofNat 32 (n + 24) - heapHeaderSize).toNat = n := by
    rw [header_eq, ofNat_sub (by omega) (by omega), Nat.add_sub_cancel, pointer_toNat (by omega)]
  refine ⟨hTiled.inited, hTiled.head, hTiled.aligned, hTiled.positive, ?_, ?_, heapAppend_chain hTiled hFits, ?_,
    ?_, ?_, ?_⟩
  · rw [hSpan]
    exact add_toNat hTiled.size hAdded (by omega)
  · rw [hSpan]
    change h.base.toNat + _ < _
    omega
  · intro c hMem
    simp only [List.mem_append, List.mem_cons, List.not_mem_nil, or_false] at hMem
    obtain hPre | rfl | rfl := hMem
    · exact hTiled.sizes c (by simp [hPre])
    · exact hTiled.sizes c (by simp)
    · exact ⟨hLarge, hMultiple⟩
  · simp
  · have hUsed := hTiled.used
    simp only [usedTotal_append, usedTotal, if_true] at hUsed ⊢
    exact hUsed
  · have hFree := hTiled.free
    have hSum := add_toNat hFree hPayload (by omega)
    simp only [freeTotal_append, freeTotal, if_true] at hSum ⊢
    refine Eq.trans hSum ?_
    omega

def heapJoinTail (h : HeapT) (tail base : U32) : HeapT :=
  if field h.mem tail .state = heapStateFree then
    let m := setField h.mem tail .size (field h.mem tail .size + (heapHeaderSize + field h.mem base .size))
    let m := setField m tail .next 0
    { h with mem := m, freeBytes := h.freeBytes + heapHeaderSize }
  else h

theorem heapAbsorb_last {h : HeapT} {prev a s t : Nat} {f g : Bool}
    (hChain : Chain h.mem prev a [⟨s, f⟩, ⟨t, g⟩] 0) (hFits : a + span 24 [⟨s, f⟩, ⟨t, g⟩] ≤ 2 ^ 32) : { h with
      mem := setField (setField h.mem (ofNat 32 a) .size (field h.mem (ofNat 32 a) .size +
          (heapHeaderSize + field h.mem (ofNat 32 (a + 24 + s)) .size))) (ofNat 32 a) .next 0
      freeBytes := h.freeBytes + heapHeaderSize } = heapAbsorb h (ofNat 32 a) (ofNat 32 (a + 24 + s)) := by
  have hMem := heapAbsorb_mem hChain hFits
  have hKeep := hChain.1
  have hVictim : Node h.mem (a + 24 + s) a 0 ⟨t, g⟩ := hChain.2.1
  have hSame : (heapAbsorb h (ofNat 32 a) (ofNat 32 (a + 24 + s))).mem =
      setField (setField h.mem (ofNat 32 a) .size (field h.mem (ofNat 32 a) .size +
        (heapHeaderSize + field h.mem (ofNat 32 (a + 24 + s)) .size))) (ofNat 32 a) .next 0 := by
    rw [hMem, hKeep.size, hVictim.size, header_eq, ofNat_add, ofNat_add]
    rfl
  rw [← hSame]
  rfl

theorem heapJoinTail_sound (hTiled : Tiled h (pre ++ [b, ⟨n, true⟩])) (hCoalesced : Coalesced (pre ++ [b])) :
    ∃ h' l', withLargest (heapJoinTail h (ofNat 32 (h.base.toNat + span 24 pre))
        (ofNat 32 (h.base.toNat + span 24 (pre ++ [b])))) = some h' ∧
      Sound h' l' ∧ h'.base = h.base ∧ h'.grow = h.grow ∧ (∃ c ∈ l', c.free ∧ n ≤ c.size) ∧
      (∀ d k, UsedAt 24 h.base.toNat l' d k ↔ UsedAt 24 h.base.toNat (pre ++ [b]) d k) ∧
      PayloadsKept h h' (pre ++ [b]) := by
  have hSuffix := hTiled.suffix
  have hFits := hTiled.suffix_fits
  have hState := hSuffix.1.state
  have hEnd : h.base.toNat + span 24 (pre ++ [b]) = h.base.toNat + span 24 pre + 24 + b.size := by
    simp only [span_append, span_cons, span_nil]
    omega
  obtain ⟨s, free⟩ := b
  rw [heapJoinTail, hState]
  cases free with
  | true =>
    rw [if_pos ((stateOf_free _).mpr rfl), hEnd]
    simp only [heapAbsorb_last hSuffix hFits.le]
    have hJoined := heapAbsorb_tiled hTiled
    have hMarked : Coalesced (pre ++ [⟨s + (24 + n), true⟩]) :=
      Coalesced.freed hCoalesced.left (List.isChain_nil) (hCoalesced.last_used rfl) (by simp) _
    refine ⟨_, _, hJoined.withLargest, hJoined.sound hMarked, rfl, rfl, ?_, ?_, ?_⟩
    · exact ⟨⟨s + (24 + n), true⟩, by simp, rfl, by simp only; omega⟩
    · intro d k
      rw [usedAt_append, usedAt_append, usedAt_free, usedAt_free]
      rfl
    · intro d k hUsed
      rw [usedAt_append, usedAt_free] at hUsed
      obtain hPre | hNone := hUsed
      · have hBounds := usedAt_bounds hPre
        exact heapAbsorb_agree hSuffix hFits.le (.inl hBounds.2) (.inl (by omega))
      · cases hNone
  | false =>
    rw [if_neg (fun hFree => Bool.false_ne_true ((stateOf_free _).mp hFree))]
    have hMarked : Coalesced (pre ++ [⟨s, false⟩, ⟨n, true⟩]) := by
      rw [List.append_cons]
      exact .freed hCoalesced (List.isChain_nil) (by simp) (by simp) _
    refine ⟨_, _, hTiled.withLargest, hTiled.sound hMarked, rfl, rfl, ?_, ?_, ?_⟩
    · exact ⟨⟨n, true⟩, by simp, rfl, le_rfl⟩
    · intro d k
      rw [usedAt_append, usedAt_append, usedAt_used, usedAt_used, usedAt_free]
      rfl
    · intro d k _
      exact .refl _ _ _

theorem clear_low (y : U32) : (y &&& ~~~(7 : U32)).toNat = y.toNat / 8 * 8 := Bits.clear_low_toNat (k := 3) y rfl

theorem alignDown8_ofNat {n : Nat} (hFits : n < 2 ^ 32) (hMultiple : n % 8 = 0) :
    alignDown8 (ofNat 32 n) = ofNat 32 n := by
  apply eq_of_toNat_eq
  rw [alignDown8, clear_low, pointer_toNat hFits]
  omega

/-- Growing by a payload of `n` bytes gives a block that fits `n` and keeps the blocks in use. -/
structure Grown (h h' : HeapT) (l l' : List Block) (n : Nat) : Prop where
  sound : Sound h' l'
  base : h'.base = h.base
  grow : h'.grow = h.grow
  fits : ∃ c ∈ l', c.free = true ∧ n ≤ c.size
  used : ∀ d k, UsedAt 24 h.base.toNat l' d k ↔ UsedAt 24 h.base.toNat l d k
  kept : PayloadsKept h h' l

theorem heapExtend_grown {l : List Block} (hSound : Sound h l) (hLarge : 8 ≤ n) (hMultiple : n % 8 = 0)
    (hFits : h.base.toNat + h.size.toNat + (n + 24) < 2 ^ 32) :
    ∃ h' l', heapExtend h (h.base + h.size) (ofNat 32 (n + 24)) = some (h', .ok) ∧ Grown h h' l l' n := by
  obtain ⟨pre, b, rfl⟩ : ∃ pre b, l = pre ++ [b] := ⟨_, _, (List.dropLast_append_getLast hSound.nonempty).symm⟩
  have hTiled := hSound.toTiled
  have hSize := hTiled.size
  have hEnd : h.base + h.size = ofNat 32 (h.base.toNat + span 24 (pre ++ [b])) := by
    rw [← hSize, ← ofNat_add]
    simp
  have hEndNat : h.base.toNat + span 24 (pre ++ [b]) = h.base.toNat + span 24 pre + 24 + b.size := by
    simp only [span_append, span_cons, span_nil]
    omega
  have hAppended := heapAppend_tiled hTiled (n := n) (by omega) hLarge hMultiple
  obtain ⟨h', l', hResult, hAfter, hBase, hGrow, hFit, hUsed, hKept⟩ := heapJoinTail_sound hAppended hSound.coalesced
  refine ⟨h', l', ?_, hAfter, hBase, hGrow, hFit, hUsed, ?_⟩
  · have hAligned : alignDown8 (ofNat 32 (n + 24)) = ofNat 32 (n + 24) := alignDown8_ofNat (by omega) (by omega)
    have hNotSmall : ¬ ofNat 32 (n + 24) < heapMinBlock := by
      rw [lt_def, pointer_toNat (by omega)]
      exact not_lt.mpr (by change 32 ≤ _; omega)
    rw [heapExtend, hAligned, if_neg hNotSmall, if_neg (fun hNe => hNe rfl), hTiled.lastBlock, hEnd]
    change (withLargest (heapJoinTail (heapAppend h _ _ _) _ _)).bind (fun h => some (h, HeapErr.ok)) = _
    exact congrArg (fun r : Option HeapT => r.bind fun h => some (h, HeapErr.ok)) hResult
  · intro d k hUsedAt
    have hBounds := usedAt_bounds hUsedAt
    have hApart : d + 24 + k ≤ h.base.toNat + span 24 pre ∨ h.base.toNat + span 24 pre ≤ d := by
      rw [usedAt_append] at hUsedAt
      obtain hPre | hLast := hUsedAt
      · exact .inl (usedAt_bounds hPre).2
      · exact .inr (usedAt_bounds hLast).1
    exact (heapAppend_agree h (by omega) (by omega) (by omega) hBounds.2).trans (hKept d k hUsedAt)

end

/-! # Requests

A request is served from a block that fits or from new memory behind the region,
so the loop of scans makes at most two rounds.
-/

open ByteMemory Tiling

/-- No block fits `n`. -/
def Full (l : List Block) (n : Nat) : Prop := ∀ b ∈ l, b.free = true → b.size < n

/-- The callback answers the end of the region to the request for `n` bytes and a header. -/
def Grows (h : HeapT) (grow : U32 → U32) (n : Nat) : Prop :=
  h.grow = true ∧ grow (ofNat 32 n + heapHeaderSize) = h.base + h.size ∧ n + 24 < 2 ^ 32

/-- Where the callback answers the end of the region, the memory it was asked for is there. -/
def GrowFits (h : HeapT) (grow : U32 → U32) (n : Nat) : Prop :=
  Grows h grow n → h.base.toNat + h.size.toNat + (n + 24) < 2 ^ 32

variable {h h₁ h' : HeapT} {l l₁ l' : List Block} {n c : Nat} {grow : U32 → U32}

theorem Allocated.of_grown (hGrown : Grown h h₁ l l₁ n) (hAllocated : Allocated h₁ h' l₁ l' n c) :
    Allocated h h' l l' n c := by
  obtain ⟨hSound, hBase, hGrow, hKept, ⟨m, hLe, hUsed⟩, hFresh⟩ := hAllocated
  rw [hGrown.base] at hUsed hFresh hBase
  rw [hGrown.grow] at hGrow
  refine ⟨hSound, hBase, hGrow, ?_, ⟨m, hLe, ?_⟩, ?_⟩
  · intro d k hUsedAt
    apply (hGrown.kept d k hUsedAt).trans
    apply hKept
    rw [hGrown.base]
    exact (hGrown.used d k).mpr hUsedAt
  · intro d k
    rw [hUsed, hGrown.used]
  · intro k hUsedAt
    exact hFresh k ((hGrown.used c k).mpr hUsedAt)

theorem alignDown8_le (x : U32) : alignDown8 x ≤ x := by
  rw [le_def, alignDown8, BitVec.toNat_and]
  exact Nat.and_le_left

theorem heapExtend_wrapped (h : HeapT) (base : U32) (hFits : n < 2 ^ 32) (hWrap : 2 ^ 32 ≤ n + 24) :
    heapExtend h base (ofNat 32 n + heapHeaderSize) = some (h, .badArgs) := by
  have hLe := alignDown8_le (ofNat 32 n + heapHeaderSize)
  have hSmall : alignDown8 (ofNat 32 n + heapHeaderSize) < heapMinBlock := by
    rw [le_def, header_eq, ofNat_add, BitVec.toNat_ofNat] at hLe
    rw [lt_def]
    change _ < 32
    rw [header_eq, ofNat_add]
    omega
  rw [heapExtend, if_pos hSmall]

theorem heapExtend_apart (h : HeapT) {base size : U32} (hApart : base ≠ h.base + h.size) :
    heapExtend h base size = some (h, .badArgs) := by
  simp only [heapExtend, if_pos hApart, ite_self]

theorem heapTryGrow_refused (hFits : n < 2 ^ 32) (hNot : ¬ Grows h grow n) :
    heapTryGrow grow h (ofNat 32 n) = some (h, false) := by
  rw [heapTryGrow]
  split
  · rfl
  · rename_i hGrow
    have hSet : h.grow := by simpa using hGrow
    simp only
    split
    · rfl
    · have hRefused : heapExtend h (grow (ofNat 32 n + heapHeaderSize))
          (ofNat 32 n + heapHeaderSize) = some (h, .badArgs) := by
        by_cases hEnd : grow (ofNat 32 n + heapHeaderSize) = h.base + h.size
        · exact heapExtend_wrapped h _ hFits (not_lt.mp fun hLt => hNot ⟨hSet, hEnd, hLt⟩)
        · exact heapExtend_apart h hEnd
      rw [hRefused]
      rfl

theorem heapTryGrow_grown (hSound : Sound h l) (hLarge : 8 ≤ n) (hMultiple : n % 8 = 0)
    (hGrows : Grows h grow n) (hFits : GrowFits h grow n) :
    ∃ h' l', heapTryGrow grow h (ofNat 32 n) = some (h', true) ∧ Grown h h' l l' n := by
  have hSet := hGrows.1
  have hEnd := hGrows.2.1
  obtain ⟨h', l', hExtend, hGrown⟩ := heapExtend_grown hSound hLarge hMultiple (hFits hGrows)
  refine ⟨h', l', ?_, hGrown⟩
  have hPositive := hSound.positive
  have hRegion := hSound.fits
  have hSize := hSound.size
  have hNonzero : h.base + h.size ≠ 0 := by
    intro hZero
    have hNat := congrArg BitVec.toNat hZero
    rw [add_toNat rfl rfl (by omega)] at hNat
    change _ = 0 at hNat
    omega
  rw [heapTryGrow, if_neg (by simp [hSet])]
  simp only [hEnd, if_neg hNonzero]
  rw [header_eq, ofNat_add, hExtend]
  rfl

theorem find_fits (hFind : (placed 24 h.base.toNat l).find? (fun p => blockFits n p.2) = some (c, b)) :
    ∃ pre s post, l = pre ++ ⟨s, true⟩ :: post ∧ c = h.base.toNat + span 24 pre ∧ n ≤ s := by
  have hMem := List.mem_of_find?_eq_some hFind
  have hFits := List.find?_some hFind
  obtain ⟨s, free⟩ := b
  simp only [blockFits, Bool.and_eq_true, decide_eq_true_eq] at hFits
  obtain ⟨rfl, hLe⟩ := hFits
  obtain ⟨pre, post, hSplit, hStart⟩ := placed_split hMem
  exact ⟨pre, s, post, hSplit, hStart, hLe⟩

theorem find_none (start : Nat) : (placed 24 start l).find? (fun p => blockFits n p.2) = none ↔ Full l n := by
  rw [List.find?_eq_none]
  constructor
  · intro hNone b hMem hFree
    obtain ⟨pre, post, rfl⟩ := List.append_of_mem hMem
    have hNot := hNone _ (@mem_placed_append 24 start pre b post)
    simpa [blockFits, hFree] using hNot
  · rintro hFull ⟨c, b⟩ hMem
    obtain ⟨pre, post, rfl, -⟩ := placed_split hMem
    simpa [blockFits] using hFull b (by simp)

theorem heapAllocLoop_found (grow : Nat → U32 → U32) (k round : Nat) (hSound : Sound h l) (hLarge : 8 ≤ n)
    (hMultiple : n % 8 = 0) (hFits : n < 2 ^ 32) (hRoom : ¬ Full l n) :
    ∃ h' l' c, heapAllocLoop grow (ofNat 32 n) (k + 1) round h =
        some (h', payloadOf (ofNat 32 c)) ∧ Allocated h h' l l' n c := by
  cases hFind : (placed 24 h.base.toNat l).find? fun p => blockFits n p.2 with
  | none => exact absurd ((find_none _).mp hFind) hRoom
  | some p =>
    obtain ⟨c, b⟩ := p
    obtain ⟨pre, s, post, rfl, rfl, hLe⟩ := find_fits hFind
    obtain ⟨h', l', hTake, hAllocated⟩ := heapTakeFit_allocated hSound hLe hLarge hMultiple
    refine ⟨h', l', _, ?_, hAllocated⟩
    rw [heapAllocLoop, hSound.heapFind hFits, hFind]
    exact congrArg (fun r : Option HeapT => r.bind fun h => some (h, payloadOf _)) hTake

theorem heapAllocLoop_refused {grow : Nat → U32 → U32} (k : Nat) {round : Nat} (hSound : Sound h l)
    (hFits : n < 2 ^ 32) (hFull : Full l n) (hNot : ¬ Grows h (grow round) n) :
    heapAllocLoop grow (ofNat 32 n) (k + 1) round h = some ({ h with failCount := h.failCount + 1 }, 0) := by
  rw [heapAllocLoop, hSound.heapFind hFits, (find_none _).mpr hFull]
  simp only [found, Option.bind_eq_bind, Option.bind_some, heapTryGrow_refused hFits hNot]
  rfl

theorem heapAllocLoop_grown {grow : Nat → U32 → U32} (k : Nat) {round : Nat} (hSound : Sound h l)
    (hLarge : 8 ≤ n) (hMultiple : n % 8 = 0) (hFull : Full l n) (hGrows : Grows h (grow round) n)
    (hFits : GrowFits h (grow round) n) : ∃ h' l' c, heapAllocLoop grow (ofNat 32 n) (k + 2) round h =
        some (h', payloadOf (ofNat 32 c)) ∧ Allocated h h' l l' n c := by
  have hSmall : n < 2 ^ 32 := by
    have hFit := hGrows.2.2
    omega
  obtain ⟨h₁, l₁, hTry, hGrown⟩ := heapTryGrow_grown hSound hLarge hMultiple hGrows hFits
  have hRoom : ¬ Full l₁ n := by
    obtain ⟨b, hMem, hFree, hLe⟩ := hGrown.fits
    exact fun hFull => not_lt.mpr hLe (hFull b hMem hFree)
  obtain ⟨h', l', c, hLoop, hAllocated⟩ :=
    heapAllocLoop_found grow k (round + 1) hGrown.sound hLarge hMultiple hSmall hRoom
  refine ⟨h', l', c, ?_, hAllocated.of_grown hGrown⟩
  rw [heapAllocLoop, hSound.heapFind hSmall, (find_none _).mpr hFull]
  simp only [found, Option.bind_eq_bind, Option.bind_some, hTry]
  exact hLoop

def roundedSize (size : U32) : Nat := (roundSize size).toNat

theorem alignUp8_toNat (size : U32) : (alignUp8 size).toNat = (size.toNat + 7) % 2 ^ 32 / 8 * 8 := by
  rw [alignUp8, clear_low, BitVec.toNat_add]
  rfl

theorem roundedSize_of_le {size : U32} (hLe : size.toNat ≤ 2 ^ 32 - 8) :
    8 ≤ roundedSize size ∧ roundedSize size % 8 = 0 ∧ size.toNat ≤ roundedSize size := by
  have hUp := alignUp8_toNat size
  rw [Nat.mod_eq_of_lt (by omega)] at hUp
  rw [roundedSize, roundSize]
  split
  · rename_i hZero
    rw [hZero] at hUp
    change 0 = _ at hUp
    change 8 ≤ 8 ∧ 8 % 8 = 0 ∧ size.toNat ≤ 8
    omega
  · rename_i hNonzero
    have hPositive : (alignUp8 size).toNat ≠ 0 := fun hZero => hNonzero (eq_of_toNat_eq hZero)
    omega

theorem roundedSize_of_gt {size : U32} (hGt : 2 ^ 32 - 8 < size.toNat) : roundedSize size = 8 := by
  have hUp := alignUp8_toNat size
  have hZero : alignUp8 size = 0 := by
    apply eq_of_toNat_eq
    rw [hUp]
    change _ = 0
    omega
  rw [roundedSize, roundSize, if_pos hZero]
  rfl

theorem roundedSize_spec (size : U32) :
    8 ≤ roundedSize size ∧ roundedSize size % 8 = 0 ∧ roundedSize size < 2 ^ 32 := by
  refine ⟨?_, ?_, (roundSize size).isLt⟩
  · cases lt_or_ge (2 ^ 32 - 8) size.toNat with
    | inl hGt => rw [roundedSize_of_gt hGt]
    | inr hLe => exact (roundedSize_of_le hLe).1
  · cases lt_or_ge (2 ^ 32 - 8) size.toNat with
    | inl hGt => rw [roundedSize_of_gt hGt]
    | inr hLe => exact (roundedSize_of_le hLe).2.1

def NoRoom (h : HeapT) (l : List Block) (grow : Nat → U32 → U32) (size : U32) : Prop :=
  Full l (roundedSize size) ∧ ¬ Grows h (grow 0) (roundedSize size)

theorem walkFuel_two : walkFuel = 2 ^ 32 - 2 + 2 := by decide

theorem heapAlloc_refused {grow : Nat → U32 → U32} {size : U32} (hSound : Sound h l) (hNoRoom : NoRoom h l grow size) :
    heapAlloc grow h size = some ({ h with failCount := h.failCount + 1 }, 0) := by
  have hRound : roundSize size = ofNat 32 (roundedSize size) := by simp [roundedSize]
  rw [heapAlloc, if_neg (by simp [hSound.inited]), hRound, walkFuel_two]
  exact heapAllocLoop_refused _ hSound (roundedSize_spec size).2.2 hNoRoom.1 hNoRoom.2

theorem heapAlloc_allocated {grow : Nat → U32 → U32} {size : U32} (hSound : Sound h l)
    (hRoom : ¬ NoRoom h l grow size) (hFits : GrowFits h (grow 0) (roundedSize size)) :
    ∃ h' l' c, heapAlloc grow h size = some (h', payloadOf (ofNat 32 c)) ∧
      Allocated h h' l l' (roundedSize size) c := by
  have hRound : roundSize size = ofNat 32 (roundedSize size) := by simp [roundedSize]
  obtain ⟨hLarge, hMultiple, hSmall⟩ := roundedSize_spec size
  rw [heapAlloc, if_neg (by simp [hSound.inited]), hRound, walkFuel_two]
  by_cases hFull : Full l (roundedSize size)
  · have hGrows : Grows h (grow 0) (roundedSize size) := by
      by_contra hNot
      exact hRoom ⟨hFull, hNot⟩
    exact heapAllocLoop_grown _ hSound hLarge hMultiple hFull hGrows hFits
  · exact heapAllocLoop_found grow _ 0 hSound hLarge hMultiple hSmall hFull

end OpenXJ380.Heap
