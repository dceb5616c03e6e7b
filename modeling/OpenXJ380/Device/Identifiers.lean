import OpenXJ380.Device.Model
import OpenXJ380.Lib.Bits

/-! # The words of the identifier allocator (`kernel/id_alloc.cpp`)

The bitmap is an array of words of 32 bits. Its size is computed in `size_t`, which
has 32 bits on ARM, and `calloc` clears no more words than that.
-/

namespace OpenXJ380.Identifiers

open Function

open Device

abbrev U32 := BitVec 32

structure IdAllocatorT where
  bitmap : Nat → U32
  maxIds : U32
  freeCount : U32
  nextId : U32

def bitsPerWord : Nat := 32

/-- `words` is the memory from the block of `calloc` on. -/
def idAllocatorCreate (words : Nat → U32) (maxIds : U32) : IdAllocatorT := ⟨words, maxIds, maxIds, 0⟩

def wordIndex (id : U32) : Nat := id.toNat / bitsPerWord

def mask (id : U32) : U32 := 1#32 <<< (id.toNat % bitsPerWord)

def idAllocLoop (a : IdAllocatorT) : Nat → U32 → Option U32
  | 0, _ => none
  | rounds + 1, id =>
    if a.bitmap (wordIndex id) &&& mask id = 0 then some id
    else if (id + 1) % a.maxIds = a.nextId then none
    else idAllocLoop a rounds ((id + 1) % a.maxIds)

/-- The answer is the pattern of an `int32_t`. -/
def idAlloc (a : IdAllocatorT) : IdAllocatorT × U32 :=
  if a.freeCount = 0 then (a, -1)
  else
    match idAllocLoop a a.maxIds.toNat a.nextId with
    | none => (a, -1)
    | some id =>
      ({ a with
          bitmap := update a.bitmap (wordIndex id) (a.bitmap (wordIndex id) ||| mask id)
          freeCount := a.freeCount - 1
          nextId := (id + 1) % a.maxIds }, id)

def idFree (a : IdAllocatorT) (id : U32) : IdAllocatorT × Bool :=
  if id ≥ a.maxIds then (a, false)
  else if a.bitmap (wordIndex id) &&& mask id ≠ 0 then
    ({ a with
        bitmap := update a.bitmap (wordIndex id) (a.bitmap (wordIndex id) &&& ~~~mask id)
        freeCount := a.freeCount + 1 }, true)
  else (a, false)

def bit (words : Nat → U32) (id : Nat) : Bool := (words (id / bitsPerWord)).getLsbD (id % bitsPerWord)

/-- The allocator of identifiers that the words hold. -/
def IdAllocatorT.ids (a : IdAllocatorT) : IdAllocator where
  bitmap id := decide (id < a.maxIds.toNat) && bit a.bitmap id
  maxIds := a.maxIds.toNat
  freeCount := a.freeCount.toNat
  nextId := a.nextId.toNat

variable {a : IdAllocatorT} {id : U32} {words : Nat → U32} {held : Finset U32}

theorem masked_iff_bit : words (wordIndex id) &&& mask id = 0 ↔ bit words id.toNat = false :=
  Bits.masked_iff _ (Nat.mod_lt _ (by decide))

theorem bit_set (value : Bool) : bit (update words (wordIndex id)
      (if value then words (wordIndex id) ||| mask id else words (wordIndex id) &&& ~~~mask id)) =
      update (bit words) id.toNat value := by
  funext k
  have hIn (k : Nat) : k % bitsPerWord < 32 := Nat.mod_lt _ (by decide)
  simp only [bit, wordIndex, mask]
  obtain rfl | hOther := eq_or_ne k id.toNat
  · rw [update_self, update_self, Bits.set_getLsbD _ _ (hIn _), if_pos rfl]
  · rw [update_of_ne hOther]
    obtain hWord | hWord := eq_or_ne (k / bitsPerWord) (id.toNat / bitsPerWord)
    · have hBit : k % bitsPerWord ≠ id.toNat % bitsPerWord := by
        unfold bitsPerWord at hWord ⊢
        omega
      rw [hWord, update_self, Bits.set_getLsbD _ _ (hIn _), if_neg hBit, bit, hWord]
    · rw [update_of_ne hWord, bit]

theorem ids_update (value : Bool) (hId : id < a.maxIds) (bitmap : Nat → U32)
    (hBitmap : bit bitmap = update (bit a.bitmap) id.toNat value) :
    (fun k => decide (k < a.maxIds.toNat) && bit bitmap k) = update a.ids.bitmap id.toNat value := by
  funext k
  rw [hBitmap]
  obtain rfl | hOther := eq_or_ne k id.toNat
  · rw [update_self, update_self, decide_eq_true (BitVec.lt_def.mp hId), Bool.true_and]
  · rw [update_of_ne hOther, update_of_ne hOther]
    rfl

theorem ids_bit (hId : id < a.maxIds) : a.ids.bitmap id.toNat = bit a.bitmap id.toNat := by
  change (decide (id.toNat < a.maxIds.toNat) && _) = _
  rw [decide_eq_true (BitVec.lt_def.mp hId), Bool.true_and]

theorem step_toNat (hId : id < a.maxIds) :
    ((id + 1) % a.maxIds).toNat = (id.toNat + 1) % a.maxIds.toNat ∧ (id + 1) % a.maxIds < a.maxIds := by
  have hLess := BitVec.lt_def.mp hId
  have hMax := a.maxIds.isLt
  have hNext : (id + 1).toNat = id.toNat + 1 := by
    rw [BitVec.toNat_add]
    exact Nat.mod_eq_of_lt (Nat.lt_of_le_of_lt hLess hMax)
  have hMod : ((id + 1) % a.maxIds).toNat = (id.toNat + 1) % a.maxIds.toNat := by rw [BitVec.toNat_umod, hNext]
  exact ⟨hMod, BitVec.lt_def.mpr (hMod ▸ Nat.mod_lt _ ((Nat.zero_le _).trans_lt hLess))⟩

theorem idAllocLoop_ids (rounds : Nat) (hId : id < a.maxIds) :
    Device.idAllocLoop a.ids rounds id.toNat = (idAllocLoop a rounds id).map BitVec.toNat ∧
      ∀ found, idAllocLoop a rounds id = some found → found < a.maxIds := by
  induction rounds generalizing id with
  | zero => exact ⟨rfl, by rintro _ ⟨⟩⟩
  | succ rounds ih =>
    obtain ⟨hNext, hIn⟩ := step_toNat hId
    rw [idAllocLoop, Device.idAllocLoop, ids_bit hId]
    by_cases hClear : bit a.bitmap id.toNat = false
    · rw [if_pos hClear, if_pos (masked_iff_bit.mpr hClear)]
      refine ⟨rfl, ?_⟩
      rintro found ⟨⟩
      exact hId
    · rw [if_neg hClear, if_neg (fun hZero => hClear (masked_iff_bit.mp hZero))]
      have hBack : (id.toNat + 1) % a.ids.maxIds = a.ids.nextId ↔ (id + 1) % a.maxIds = a.nextId := by
        rw [← BitVec.toNat_inj, hNext]
        rfl
      by_cases hEnd : (id + 1) % a.maxIds = a.nextId
      · rw [if_pos hEnd, if_pos (hBack.mpr hEnd)]
        exact ⟨rfl, by rintro _ ⟨⟩⟩
      · rw [if_neg hEnd, if_neg (fun hStop => hEnd (hBack.mp hStop))]
        have hRest := ih hIn
        rw [hNext] at hRest
        exact hRest

/-- The first free identifier from the start of the loop on, around the end of the table. -/
theorem idAllocLoop_first {t : IdAllocator} {rounds start found : Nat} (hStart : start < t.maxIds)
    (h : Device.idAllocLoop t rounds start = some found) :
    ∃ k, found = (start + k) % t.maxIds ∧ ∀ j < k, t.bitmap ((start + j) % t.maxIds) := by
  induction rounds generalizing start with
  | zero => cases h
  | succ rounds ih =>
    rw [Device.idAllocLoop] at h
    split at h
    · cases h
      exact ⟨0, (Nat.mod_eq_of_lt hStart).symm, fun j hj => (Nat.not_lt_zero j hj).elim⟩
    next hTaken =>
    split at h
    · cases h
    · obtain ⟨k, hFound, hBefore⟩ := ih (Nat.mod_lt _ ((Nat.zero_le _).trans_lt hStart)) h
      have hShift (j : Nat) : ((start + 1) % t.maxIds + j) % t.maxIds = (start + (j + 1)) % t.maxIds := by
        rw [Nat.mod_add_mod]
        congr 1
        omega
      refine ⟨k + 1, hFound.trans (hShift k), fun j hj => ?_⟩
      cases j with
      | zero =>
        rw [add_zero, Nat.mod_eq_of_lt hStart]
        exact eq_true_of_ne_false hTaken
      | succ j => exact hShift j ▸ hBefore j (Nat.lt_of_succ_lt_succ hj)

theorem freeCount_zero : a.ids.freeCount = 0 ↔ a.freeCount = 0 := by
  rw [← BitVec.toNat_inj]
  rfl

/-- What `idAlloc` does is what the allocator of identifiers does; -1 is no identifier. -/
theorem idAlloc_ids (h : a.ids.Sound) : (idAlloc a).1.ids = (Device.idAlloc a.ids).1 ∧
      ((Device.idAlloc a.ids).2 = none ∧ (idAlloc a).2 = -1 ∨
        (idAlloc a).2 < a.maxIds ∧ Device.idAllocLoop a.ids a.maxIds.toNat a.nextId.toNat = some (idAlloc a).2.toNat ∧
          (Device.idAlloc a.ids).2 = some (idAlloc a).2.toNat) := by
  rw [idAlloc, Device.idAlloc]
  by_cases hNone : a.freeCount = 0
  · rw [if_pos hNone, if_pos (freeCount_zero.mpr hNone)]
    exact ⟨rfl, .inl ⟨rfl, rfl⟩⟩
  rw [if_neg hNone, if_neg (fun hZero => hNone (freeCount_zero.mp hZero))]
  obtain ⟨hLoop, hFound⟩ := idAllocLoop_ids a.maxIds.toNat (BitVec.lt_def.mpr h.next)
  change Device.idAllocLoop a.ids a.ids.maxIds a.ids.nextId = _ at hLoop
  rw [hLoop]
  cases hResult : idAllocLoop a a.maxIds.toNat a.nextId with
  | none => exact ⟨rfl, .inl ⟨rfl, rfl⟩⟩
  | some id =>
    have hIn := hFound id hResult
    have hCount : (a.freeCount - 1).toNat = a.freeCount.toNat - 1 := by
      have hPositive : a.freeCount.toNat ≠ 0 := fun hZero => hNone (BitVec.toNat_inj.mp hZero)
      have hOne : (1 : U32) ≤ a.freeCount := BitVec.le_def.mpr (Nat.pos_of_ne_zero hPositive)
      rw [BitVec.toNat_sub_of_le hOne]
      rfl
    refine ⟨?_, .inr ⟨hIn, ?_, rfl⟩⟩
    · simp only [IdAllocatorT.ids, Option.map_some, hCount, (step_toNat hIn).1]
      congr 1
      exact ids_update true hIn _ (bit_set true)
    · exact hLoop.trans (by rw [hResult]; rfl)

theorem idFree_ids (h : a.ids.Sound) (id : U32) :
    (idFree a id).1.ids = (Device.idFree a.ids id.toNat).1 ∧ (idFree a id).2 = a.ids.bitmap id.toNat := by
  have hAfter := Device.idFree_sound h id.toNat
  rw [Device.idFree] at hAfter ⊢
  rw [idFree]
  by_cases hAbove : id ≥ a.maxIds
  · have hMax : a.ids.maxIds ≤ id.toNat := BitVec.le_def.mp hAbove
    rw [if_pos hAbove, if_pos hMax]
    exact ⟨rfl, (h.above _ hMax).symm⟩
  have hIn : id < a.maxIds := BitVec.not_le.mp hAbove
  have hMax : ¬a.ids.maxIds ≤ id.toNat := not_le.mpr (BitVec.lt_def.mp hIn)
  rw [if_neg hMax] at hAfter
  rw [if_neg hAbove, if_neg hMax, ids_bit hIn]
  by_cases hClear : bit a.bitmap id.toNat = false
  · rw [if_neg (fun hSet => hSet (masked_iff_bit.mpr hClear)), hClear]
    exact ⟨rfl, rfl⟩
  · have hSet := eq_true_of_ne_false hClear
    rw [ids_bit hIn, if_pos hSet] at hAfter
    rw [if_pos (fun hZero => hClear (masked_iff_bit.mp hZero)), if_pos hSet, hSet]
    have hCount : (a.freeCount + 1).toNat = a.freeCount.toNat + 1 := by
      have hFew := hAfter.count.trans_le ((Finset.card_filter_le _ _).trans_eq (Finset.card_range _))
      rw [BitVec.toNat_add]
      exact Nat.mod_eq_of_lt (hFew.trans_lt a.maxIds.isLt)
    refine ⟨?_, rfl⟩
    simp only [IdAllocatorT.ids, hCount]
    congr 1
    exact ids_update false hIn _ (bit_set false)

inductive Operation where
  | alloc
  | free (id : U32)

/-- The allocator, and the identifiers handed out and not given back. -/
def perform (s : IdAllocatorT × Finset U32) : Operation → IdAllocatorT × Finset U32
  | .alloc => ((idAlloc s.1).1, if (idAlloc s.1).2 = -1 then s.2 else insert (idAlloc s.1).2 s.2)
  | .free id => ((idFree s.1 id).1, if (idFree s.1 id).2 then s.2.erase id else s.2)

/-- The answers in this state are those for the identifiers that are held. -/
structure Exact (a : IdAllocatorT) (held : Finset U32) : Prop where
  count : a.freeCount.toNat = ((Finset.range a.maxIds.toNat).filter fun id => bit a.bitmap id = false).card
  next : a.nextId < a.maxIds
  full : (idAlloc a).2 = -1 ↔ ∀ id < a.maxIds, id ∈ held
  first : (idAlloc a).2 ≠ -1 → (idAlloc a).2 ∉ held ∧
    ∃ k, (idAlloc a).2.toNat = (a.nextId.toNat + k) % a.maxIds.toNat ∧
      ∀ j < k, BitVec.ofNat 32 ((a.nextId.toNat + j) % a.maxIds.toNat) ∈ held
  freed : ∀ id, (idFree a id).2 = true ↔ id ∈ held

/-- The set bits are the identifiers that are held. -/
structure Tracks (a : IdAllocatorT) (held : Finset U32) : Prop where
  sound : a.ids.Sound
  held : ∀ id, id ∈ held ↔ a.ids.bitmap id.toNat = true

theorem ne_minus_one (hId : id < a.maxIds) : id ≠ -1 := by
  rintro rfl
  exact absurd (BitVec.lt_def.mp hId) (not_lt.mpr (Nat.le_of_lt_succ a.maxIds.isLt))

theorem Tracks.exact (h : Tracks a held) : Exact a held := by
  have hHeld (k : Nat) (hk : k < a.maxIds.toNat) : BitVec.ofNat 32 k ∈ held ↔ a.ids.bitmap k := by
    rw [h.held, BitVec.toNat_ofNat, Nat.mod_eq_of_lt (hk.trans a.maxIds.isLt)]
  obtain ⟨-, hAnswer⟩ := idAlloc_ids h.sound
  refine ⟨?_, BitVec.lt_def.mpr h.sound.next, ?_, ?_, fun id => ?_⟩
  · refine h.sound.count.trans (congrArg Finset.card (Finset.filter_congr fun id hIn => ?_))
    change (decide (id < a.maxIds.toNat) && bit a.bitmap id) = false ↔ _
    have hLess : id < a.maxIds.toNat := Finset.mem_range.mp hIn
    rw [decide_eq_true hLess, Bool.true_and]
  · obtain ⟨hNone, hFull⟩ | ⟨hIn, -, hSome⟩ := hAnswer
    · refine iff_of_true hFull fun id hId => (h.held id).mpr ?_
      by_contra hClear
      have hFree := mem_free.mpr ⟨BitVec.lt_def.mp hId, eq_false_of_ne_true hClear⟩
      rw [(idAlloc_none h.sound hNone).1] at hFree
      exact absurd hFree (Finset.notMem_empty _)
    · refine iff_of_false (ne_minus_one hIn) fun hAll => ?_
      have hTaken := (h.held _).mp (hAll _ hIn)
      rw [(mem_free.mp (idAlloc_some h.sound hSome).free).2] at hTaken
      cases hTaken
  · intro hSome
    obtain ⟨-, hFull⟩ | ⟨-, hLoop, hFound⟩ := hAnswer
    · exact absurd hFull hSome
    · refine ⟨fun hTaken => ?_, ?_⟩
      · have hSet := (h.held _).mp hTaken
        rw [(mem_free.mp (idAlloc_some h.sound hFound).free).2] at hSet
        cases hSet
      · obtain ⟨k, hEq, hBefore⟩ := idAllocLoop_first h.sound.next hLoop
        exact ⟨k, hEq, fun j hj => (hHeld _ (Nat.mod_lt _ ((Nat.zero_le _).trans_lt h.sound.next))).mpr (hBefore j hj)⟩
  · rw [(idFree_ids h.sound id).2, h.held]

theorem Tracks.perform (h : Tracks a held) (operation : Operation) :
    Tracks (perform (a, held) operation).1 (perform (a, held) operation).2 := by
  cases operation with
  | alloc =>
    obtain ⟨hIds, ⟨hNone, hFull⟩ | ⟨hIn, -, hSome⟩⟩ := idAlloc_ids h.sound
    · have hSame := hIds.trans (idAlloc_none h.sound hNone).2
      simp only [Identifiers.perform, hFull, if_true]
      exact ⟨hSame ▸ h.sound, fun id => hSame ▸ h.held id⟩
    · have hTakes := idAlloc_some h.sound hSome
      simp only [Identifiers.perform, if_neg (ne_minus_one hIn)]
      refine ⟨hIds ▸ hTakes.sound, fun id => ?_⟩
      rw [hIds, hTakes.bitmap, Finset.mem_insert, h.held]
      obtain rfl | hOther := eq_or_ne id (idAlloc a).2
      · simp
      · rw [update_of_ne (fun hEq => hOther (BitVec.toNat_inj.mp hEq))]
        simp [hOther]
  | free id =>
    obtain ⟨hIds, hAnswer⟩ := idFree_ids h.sound id
    simp only [Identifiers.perform]
    refine ⟨hIds ▸ Device.idFree_sound h.sound _, fun k => ?_⟩
    simp only [hIds, Device.idFree_bitmap h.sound, hAnswer]
    obtain rfl | hOther := eq_or_ne k id
    · rw [update_self]
      split
      · simp
      · next hClear => exact iff_of_false (fun hIn => hClear ((h.held k).mp hIn)) nofun
    · rw [update_of_ne (fun hEq => hOther (BitVec.toNat_inj.mp hEq))]
      split
      · rw [Finset.mem_erase, and_iff_right hOther, h.held]
      · exact h.held k

theorem Tracks.run (h : Tracks a held) (operations : List Operation) :
    Tracks (operations.foldl Identifiers.perform (a, held)).1 (operations.foldl Identifiers.perform (a, held)).2 := by
  induction operations generalizing a held with
  | nil => exact h
  | cons operation operations ih => exact ih (h.perform operation)

end OpenXJ380.Identifiers
