import OpenXJ380.Heap.Release
import OpenXJ380.Lib.Transition

/-! # Any calls on one heap

A run is any calls by callers that keep to their blocks. `heapCalloc` clears as
many bytes as it was asked for, and that is more than it got where the rounded
size wraps; the runs without such a call keep the heap sound.
-/

namespace OpenXJ380.Heap

open Function
open BitVec (le_def lt_def ofNat ofNat_toNat setWidth_eq)

section

open ByteMemory Tiling Transition

/-- The heap with the pointers in use and the one the last call gave back, 0 where there is none. -/
structure Tracked where
  heap : HeapT
  live : Finset U32
  freed : U32

inductive Call where
  | alloc (grow : Nat → U32 → U32) (size : U32)
  | calloc (grow : Nat → U32 → U32) (count size : U32)
  | realloc (grow : Nat → U32 → U32) (ptr size : U32)
  | free (ptr : U32)
  | setGrow (grow : Bool)
  | write (a : U32) (byte : BitVec 8)

def received (s : Tracked) (h : HeapT) (p : U32) : Tracked :=
  ⟨h, if p = 0 then s.live else insert p s.live, 0⟩

def moved (s : Tracked) (ptr : U32) (h : HeapT) (p : U32) : Tracked :=
  ⟨h, if p = 0 then s.live else insert p (s.live.erase ptr), if p = 0 ∨ p = ptr then 0 else ptr⟩

def released (s : Tracked) (ptr : U32) (h : HeapT) (e : HeapErr) : Tracked :=
  ⟨h, if e = .ok then s.live.erase ptr else s.live, if e = .ok then ptr else 0⟩

def perform (s : Tracked) : Call → Option (Tracked × U32)
  | .alloc grow size => (heapAlloc grow s.heap size).map fun r => (received s r.1 r.2, r.2)
  | .calloc grow count size => (heapCalloc grow s.heap count size).map fun r => (received s r.1 r.2, r.2)
  | .realloc grow ptr size => (heapRealloc grow s.heap ptr size).map fun r => (moved s ptr r.1 r.2, r.2)
  | .free ptr => (heapFree s.heap ptr).map fun r => (released s ptr r.1 r.2, 0)
  | .setGrow grow => some (⟨heapSetGrow s.heap grow, s.live, 0⟩, 0)
  | .write a byte => some ({ s with heap := { s.heap with mem := update s.heap.mem a byte } }, 0)

def payloadSize (h : HeapT) (p : U32) : Nat := (field h.mem (blockOf p) .size).toNat

def Permitted (s : Tracked) : Call → Prop
  | .alloc grow size => GrowFits s.heap (grow 0) (roundedSize size)
  | .calloc grow count size =>
    ∀ total, callocTotal count size = some total → GrowFits s.heap (grow 0) (roundedSize total)
  | .realloc grow ptr size =>
    (ptr = 0 ∨ ptr ∈ s.live ∨ ptr = s.freed) ∧ GrowFits s.heap (grow 0) (roundedSize size)
  | .free ptr =>
    (ptr = 0 ∨ ptr < s.heap.base + heapHeaderSize ∨ ptr ≥ s.heap.base + s.heap.size) ∨ ptr ∈ s.live ∨ ptr = s.freed
  | .setGrow _ => True
  | .write a _ =>
    (∃ p ∈ s.live, p.toNat ≤ a.toNat ∧ a.toNat < p.toNat + payloadSize s.heap p) ∨
      a < s.heap.base ∨ a ≥ s.heap.base + s.heap.size

def Exhausted (h : HeapT) (grow : Nat → U32 → U32) : Prop := h.largestFree = 0 ∧ ¬ Grows h (grow 0) 8

/-- A block to clear is not within 8 bytes of the top, or there is none to clear. -/
def ClearFits (s : Tracked) : Call → Prop
  | .calloc grow count size =>
    ∀ total, callocTotal count size = some total → total.toNat ≤ 2 ^ 32 - 8 ∨ Exhausted s.heap grow
  | _ => True

/-- The call neither takes the block at `p` away nor writes into it. -/
def Spares (s : Tracked) (p : U32) : Call → Prop
  | .realloc _ ptr _ => ptr ≠ p
  | .free ptr => ptr ≠ p
  | .write a _ => a.toNat < p.toNat ∨ p.toNat + payloadSize s.heap p ≤ a.toNat
  | _ => True

def heapSystem : System Tracked Call where
  step s call t := Permitted s call ∧ ∃ p, perform s call = some (t, p)

structure Intact (s : Tracked) (l : List Block) : Prop where
  sound : Sound s.heap l
  live : ∀ p, p ∈ s.live ↔ ∃ c k, UsedAt 24 s.heap.base.toNat l c k ∧ p = ofNat 32 (c + 24)
  freed : s.freed ≠ 0 → ∃ c, s.freed = ofNat 32 (c + 24) ∧ Stale s.heap l c

variable {s : Tracked} {l l' : List Block} {h' : HeapT} {n c k c' : Nat}

theorem pointer_inj (hSound : Sound s.heap l) {d j : Nat} (hFirst : UsedAt 24 s.heap.base.toNat l c k)
    (hSecond : UsedAt 24 s.heap.base.toNat l d j) (hEq : (ofNat 32 (c + 24) : U32) = ofNat 32 (d + 24)) : c = d := by
  have hFits := hSound.fits
  have hFirstBounds := usedAt_bounds hFirst
  have hSecondBounds := usedAt_bounds hSecond
  have hNat := congrArg BitVec.toNat hEq
  rw [pointer_toNat (by omega), pointer_toNat (by omega)] at hNat
  omega

abbrev Steps (s : Tracked) (l : List Block) (call : Call) : Prop :=
  ∃ t p l', perform s call = some (t, p) ∧ Intact t l' ∧ Keeps s.heap t.heap l l' (Spares s · call)

section

variable (hIntact : Intact s l)

include hIntact

theorem Intact.refused : Intact (received s { s.heap with failCount := s.heap.failCount + 1 } 0) l := by
  have hSound := hIntact.sound
  refine ⟨{ hSound with }, hIntact.live, ?_⟩
  intro hNever
  exact absurd rfl hNever

theorem Intact.received (hAllocated : Allocated s.heap h' l l' n c) :
    Intact (received s h' (ofNat 32 (c + 24))) l' := by
  obtain ⟨m, -, hUsed⟩ := hAllocated.used
  refine ⟨hAllocated.sound, ?_, fun hNever => absurd rfl hNever⟩
  intro p
  simp only [Heap.received, if_neg hAllocated.nonzero, Finset.mem_insert, hIntact.live, hAllocated.base]
  constructor
  · rintro (rfl | ⟨d, j, hUsedAt, rfl⟩)
    · exact ⟨c, m, (hUsed c m).mpr (.inl ⟨rfl, rfl⟩), rfl⟩
    · exact ⟨d, j, (hUsed d j).mpr (.inr hUsedAt), rfl⟩
  · rintro ⟨d, j, hUsedAt, rfl⟩
    obtain ⟨rfl, rfl⟩ | hOld := (hUsed d j).mp hUsedAt
    · exact .inl rfl
    · exact .inr ⟨d, j, hOld, rfl⟩

variable (hUsed : UsedAt 24 s.heap.base.toNat l c k)

include hUsed

theorem Intact.released
    (hReleased : Released s.heap h' l l' c) : Intact (released s (ofNat 32 (c + 24)) h' .ok) l' := by
  refine ⟨hReleased.sound, ?_, fun _ => ⟨c, rfl, hReleased.stale⟩⟩
  intro p
  simp only [Heap.released, if_true, Finset.mem_erase, hIntact.live, hReleased.base]
  constructor
  · rintro ⟨hNe, d, j, hUsedAt, rfl⟩
    exact ⟨d, j, (hReleased.used d j).mpr ⟨hUsedAt, fun hEq => hNe (by rw [hEq])⟩, rfl⟩
  · rintro ⟨d, j, hUsedAt, rfl⟩
    obtain ⟨hOld, hNe⟩ := (hReleased.used d j).mp hUsedAt
    exact ⟨fun hEq => hNe (pointer_inj hIntact.sound hOld hUsed hEq), d, j, hOld, rfl⟩

theorem Moved.pointer (hMoved : Moved s.heap h' l l' n c k c') :
    (ofNat 32 (c' + 24) : U32) ≠ 0 ∧ (ofNat 32 (c' + 24) : U32) ≠ ofNat 32 (c + 24) := by
  obtain ⟨m, -, hAfter⟩ := hMoved.used
  have hBounds := usedAt_bounds hUsed
  have hNewBounds := usedAt_bounds ((hAfter c' m).mpr (.inl ⟨rfl, rfl⟩))
  have hFits := hIntact.sound.fits
  have hNewFits := hMoved.sound.fits
  rw [hMoved.base] at hNewFits
  have hNew : (ofNat 32 (c' + 24) : U32).toNat = c' + 24 := pointer_toNat (by omega)
  have hOld : (ofNat 32 (c + 24) : U32).toNat = c + 24 := pointer_toNat (by omega)
  constructor
  · intro hZero
    rw [hZero] at hNew
    change 0 = _ at hNew
    omega
  · intro hEq
    rw [hEq, hOld] at hNew
    exact hMoved.fresh k ((show c' = c by omega) ▸ hUsed)

theorem Intact.moved (hMoved : Moved s.heap h' l l' n c k c') :
    Intact (moved s (ofNat 32 (c + 24)) h' (ofNat 32 (c' + 24))) l' := by
  obtain ⟨hNonzero, hNe⟩ := hMoved.pointer hIntact hUsed
  obtain ⟨m, -, hAfter⟩ := hMoved.used
  have hSame : ¬ ((ofNat 32 (c' + 24) : U32) = 0 ∨
      (ofNat 32 (c' + 24) : U32) = ofNat 32 (c + 24)) := not_or.mpr ⟨hNonzero, hNe⟩
  refine ⟨hMoved.sound, ?_, ?_⟩
  · intro p
    simp only [Heap.moved, if_neg hNonzero, Finset.mem_insert, Finset.mem_erase, hIntact.live, hMoved.base]
    constructor
    · rintro (rfl | ⟨hOther, d, j, hUsedAt, rfl⟩)
      · exact ⟨c', m, (hAfter c' m).mpr (.inl ⟨rfl, rfl⟩), rfl⟩
      · exact ⟨d, j, (hAfter d j).mpr (.inr ⟨hUsedAt, fun hEq => hOther (by rw [hEq])⟩), rfl⟩
    · rintro ⟨d, j, hUsedAt, rfl⟩
      obtain ⟨rfl, rfl⟩ | ⟨hOld, hOther⟩ := (hAfter d j).mp hUsedAt
      · exact .inl rfl
      · exact .inr ⟨fun hEq => hOther (pointer_inj hIntact.sound hOld hUsed hEq), d, j, hOld, rfl⟩
  · intro _
    refine ⟨c, ?_, hMoved.stale⟩
    simp only [Heap.moved, if_neg hSame]

end

theorem payloadSize_used (hSound : Sound s.heap l) (hUsed : UsedAt 24 s.heap.base.toNat l c k) :
    payloadSize s.heap (ofNat 32 (c + 24)) = k := by
  have hBounds := usedAt_bounds hUsed
  have hFits := hSound.fits
  obtain ⟨-, hBlock, -, -, hSize⟩ := realloc_used hSound hUsed
  rw [payloadSize, hBlock, hSize, pointer_toNat (by omega)]

variable {a size : U32} {byte : BitVec 8} {grow : Nat → U32 → U32}

theorem Intact.write_apart (hIntact : Intact s l) (hPermitted : Permitted s (.write a byte))
    {d e : Nat} {b : Block} (hMem : (d, b) ∈ placed 24 s.heap.base.toNat l) (hLow : d ≤ e)
    (hHigh : e + 24 ≤ d + 24 + b.size) (hFree : b.free ∨ e = d) : a.toNat < e ∨ e + 24 ≤ a.toNat := by
  have hFits := hIntact.sound.fits
  have hBounds := placed_bounds hMem
  obtain ⟨p, hLive, hStart, hEnd⟩ | hOutside := hPermitted
  · obtain ⟨c, k, hUsed, rfl⟩ := (hIntact.live p).mp hLive
    have hUsedBounds := usedAt_bounds hUsed
    rw [payloadSize_used hIntact.sound hUsed] at hEnd
    rw [pointer_toNat (by omega)] at hStart hEnd
    obtain rfl | hNe := eq_or_ne d c
    · obtain rfl := placed_unique (by decide) hMem hUsed
      obtain hNever | rfl := hFree
      · cases hNever
      · exact .inr hStart
    · have hApart := placed_apart hMem hUsed hNe
      simp only at hApart
      omega
  · have hRegion := add_toNat (x := s.heap.base) rfl hIntact.sound.size (by omega)
    rw [ge_iff_le, lt_def, le_def, hRegion] at hOutside
    omega

theorem update_agree {m : Memory} {lo hi : Nat} (hApart : a.toNat < lo ∨ hi ≤ a.toNat) :
    Agree m (update m a byte) lo hi := by
  intro x hLow hHigh
  apply update_of_ne
  rintro rfl
  omega

theorem Intact.write (hIntact : Intact s l) (hPermitted : Permitted s (.write a byte)) :
    Intact { s with heap := { s.heap with mem := update s.heap.mem a byte } } l := by
  refine ⟨?_, hIntact.live, ?_⟩
  · apply hIntact.sound.congr
    intro d b hMem
    apply update_agree
    exact hIntact.write_apart hPermitted hMem le_rfl (by omega) (.inr rfl)
  · intro hFreed
    obtain ⟨c, hPointer, ⟨⟨d, j, hMem, hLow, hHigh⟩, hMagic, hState⟩⟩ := hIntact.freed hFreed
    have hBounds := placed_bounds hMem
    have hFits := hIntact.sound.fits
    simp only at hBounds
    have hStart : (ofNat 32 c).toNat = c := pointer_toNat (by omega)
    have hAgree : Agree s.heap.mem (update s.heap.mem a byte) (ofNat 32 c).toNat ((ofNat 32 c).toNat + 24) := by
      rw [hStart]
      apply update_agree
      exact hIntact.write_apart hPermitted hMem hLow (by simp only; omega) (.inl rfl)
    have hSame := field_congr (by omega) hAgree
    exact ⟨c, hPointer, ⟨d, j, hMem, hLow, hHigh⟩, (hSame _).trans hMagic, (hSame _).trans hState⟩

theorem Sound.full_iff (hSound : Sound s.heap l) : s.heap.largestFree = 0 ↔ Full l 8 := by
  have hLargest := hSound.largest
  constructor
  · intro hZero b hMem hFree
    have hLe := size_le_largest hMem hFree
    rw [hZero] at hLargest
    change 0 = _ at hLargest
    omega
  · intro hFull
    apply BitVec.eq_of_toNat_eq
    have hNone := largest_lt (l := l) (n := 1) (by decide) fun b hMem hFree => by
      have hSize := (hSound.sizes b hMem).1
      have hSmall := hFull b hMem hFree
      omega
    rw [hLargest]
    exact Nat.lt_one_iff.mp hNone

theorem exhausted_iff (hSound : Sound s.heap l)
    (hGt : 2 ^ 32 - 8 < size.toNat) : NoRoom s.heap l grow size ↔ Exhausted s.heap grow := by
  rw [NoRoom, roundedSize_of_gt hGt, Exhausted, hSound.full_iff]

variable (hIntact : Intact s l)

include hIntact

theorem Intact.alloc (hPermitted : Permitted s (.alloc grow size)) :
    Steps s l (.alloc grow size) := by
  obtain hNoRoom | hRoom := Classical.em (NoRoom s.heap l grow size)
  · refine ⟨_, 0, l, ?_, hIntact.refused, .same rfl rfl⟩
    rw [perform, heapAlloc_refused hIntact.sound hNoRoom]
    rfl
  · obtain ⟨h', l', c, hAlloc, hAllocated⟩ := heapAlloc_allocated hIntact.sound hRoom hPermitted
    refine ⟨_, ofNat 32 (c + 24), l', ?_, hIntact.received hAllocated, hAllocated.keeps⟩
    rw [perform, hAlloc, payloadOf_ofNat]
    rfl

theorem Intact.calloc {count : U32}
    (hPermitted : Permitted s (.calloc grow count size)) (hClear : ClearFits s (.calloc grow count size)) :
    Steps s l (.calloc grow count size) := by
  cases hTotal : callocTotal count size with
  | none =>
    refine ⟨Heap.received s s.heap 0, 0, l, ?_, { hIntact with freed := fun hNever => absurd rfl hNever },
      .same rfl rfl⟩
    rw [perform, heapCalloc, hTotal]
    rfl
  | some total =>
    obtain hNoRoom | hRoom := Classical.em (NoRoom s.heap l grow total)
    · refine ⟨_, 0, l, ?_, hIntact.refused, .same rfl rfl⟩
      rw [perform, heapCalloc_refused hIntact.sound hTotal hNoRoom]
      rfl
    · have hLe : total.toNat ≤ 2 ^ 32 - 8 := by
        obtain hLe | hExhausted := hClear total hTotal
        · exact hLe
        · by_contra hGt
          exact hRoom ((exhausted_iff hIntact.sound (not_le.mp hGt)).mpr hExhausted)
      obtain ⟨h', l', c, hCalloc, hAllocated⟩ :=
        heapCalloc_allocated hIntact.sound hTotal hLe hRoom (hPermitted total hTotal)
      refine ⟨_, ofNat 32 (c + 24), l', ?_, hIntact.received hAllocated, hAllocated.keeps⟩
      rw [perform, hCalloc]
      rfl

theorem Intact.forget : Intact { s with freed := 0 } l :=
  { hIntact with freed := fun hNever => absurd rfl hNever }

theorem Intact.realloc_live (hUsed : UsedAt 24 s.heap.base.toNat l c k)
    (hFits : GrowFits s.heap (grow 0) (roundedSize size)) :
    Steps s l (.realloc grow (ofNat 32 (c + 24)) size) := by
  have hSound := hIntact.sound
  have hNonzero := (realloc_used hSound hUsed).1
  cases lt_or_ge k (alignUp8 size).toNat with
  | inr hLe =>
    have hLive := (hIntact.live _).mpr ⟨c, k, hUsed, rfl⟩
    have hSame : Heap.moved s (ofNat 32 (c + 24)) s.heap (ofNat 32 (c + 24)) = { s with freed := 0 } := by
      simp only [Heap.moved, if_neg hNonzero, Finset.insert_erase hLive, or_true, if_true]
    refine ⟨_, ofNat 32 (c + 24), l, ?_, hIntact.forget, .same rfl rfl⟩
    rw [perform, heapRealloc_kept hSound hUsed hLe, ← hSame]
    rfl
  | inl hGt =>
    obtain hNoRoom | hRoom := Classical.em (NoRoom s.heap l grow size)
    · refine ⟨_, 0, l, ?_, hIntact.refused, .same rfl rfl⟩
      rw [perform, heapRealloc_refused hSound hUsed hGt hNoRoom]
      rfl
    · obtain ⟨h', l', c', hRealloc, hMoved, hKeeps⟩ := heapRealloc_moved hSound hUsed hGt hRoom hFits
      refine ⟨_, ofNat 32 (c' + 24), l', ?_, hIntact.moved hUsed hMoved, hKeeps⟩
      rw [perform, hRealloc]
      rfl

theorem Intact.null_unused : (0 : U32) ∉ s.live := by
  intro hLive
  obtain ⟨c, k, hUsed, hZero⟩ := (hIntact.live 0).mp hLive
  exact (realloc_used hIntact.sound hUsed).1 hZero.symm

theorem Intact.realloc_null : perform s (.realloc grow 0 size) = perform s (.alloc grow size) := by
  have hSame : ∀ h p, Heap.moved s 0 h p = Heap.received s h p := by
    intro h p
    simp only [Heap.moved, Heap.received, Finset.erase_eq_of_notMem hIntact.null_unused, ite_self]
  simp only [perform, heapRealloc_null hIntact.sound, hSame]

theorem Intact.realloc {ptr : U32} (hPermitted : Permitted s (.realloc grow ptr size)) :
    Steps s l (.realloc grow ptr size) := by
  obtain ⟨hPointer, hFits⟩ := hPermitted
  obtain rfl | hNonzero := eq_or_ne ptr 0
  · obtain ⟨t, p, l', hPerform, hAfter, hKeeps⟩ := hIntact.alloc hFits
    exact ⟨t, p, l', hIntact.realloc_null.trans hPerform, hAfter, fun d j hUsed _ => hKeeps d j hUsed trivial⟩
  · obtain hNull | hLive | hFreed := hPointer
    · exact absurd hNull hNonzero
    · obtain ⟨c, k, hUsed, rfl⟩ := (hIntact.live ptr).mp hLive
      exact hIntact.realloc_live hUsed hFits
    · obtain ⟨c, hPtr, hStale⟩ := hIntact.freed (hFreed ▸ hNonzero)
      refine ⟨_, 0, l, ?_, hIntact.forget, .same rfl rfl⟩
      rw [perform, hFreed, hPtr, heapRealloc_stale hIntact.sound hStale]
      rfl

theorem Intact.free {ptr : U32} (hPermitted : Permitted s (.free ptr)) :
    Steps s l (.free ptr) := by
  obtain hOutside | hLive | hFreed := hPermitted
  · refine ⟨_, 0, l, ?_, hIntact.forget, .same rfl rfl⟩
    rw [perform, heapFree_refused hIntact.sound hOutside]
    rfl
  · obtain ⟨c, k, hUsed, rfl⟩ := (hIntact.live ptr).mp hLive
    obtain ⟨h', l', hFree, hReleased⟩ := heapFree_used hIntact.sound hUsed
    refine ⟨_, 0, l', ?_, hIntact.released hUsed hReleased, hReleased.keeps⟩
    rw [perform, hFree]
    rfl
  · obtain rfl | hNonzero := eq_or_ne ptr 0
    · refine ⟨_, 0, l, ?_, hIntact.forget, .same rfl rfl⟩
      rw [perform, heapFree_refused hIntact.sound (.inl rfl)]
      rfl
    · obtain ⟨c, hPtr, hStale⟩ := hIntact.freed (hFreed ▸ hNonzero)
      refine ⟨_, 0, l, ?_, hIntact.forget, .same rfl rfl⟩
      rw [perform, hFreed, hPtr, heapFree_stale hIntact.sound hStale]
      rfl

theorem Intact.perform {call : Call} (hPermitted : Permitted s call)
    (hClear : ClearFits s call) : Steps s l call := by
  cases call with
  | alloc grow size => exact hIntact.alloc hPermitted
  | calloc grow count size => exact hIntact.calloc hPermitted hClear
  | realloc grow ptr size => exact hIntact.realloc hPermitted
  | free ptr => exact hIntact.free hPermitted
  | setGrow grow =>
    have hSound := hIntact.sound
    refine ⟨_, _, l, rfl, ⟨{ hSound with }, hIntact.live, fun hNever => absurd rfl hNever⟩, .same rfl rfl⟩
  | write a byte =>
    refine ⟨_, _, l, rfl, hIntact.write hPermitted, fun d j hUsed hApart => ⟨hUsed, ?_⟩⟩
    have hFits := hIntact.sound.fits
    have hBounds := usedAt_bounds hUsed
    simp only [Spares, payloadSize_used hIntact.sound hUsed] at hApart
    rw [pointer_toNat (by omega)] at hApart
    exact update_agree hApart

end

/-! # The heap stays sound

From a fresh heap on, every permitted run that clears what it got leaves a heap
that passes its own check, and one that gave everything back leaves one block.
-/

open ByteMemory Tiling Transition

section

variable {mem : Memory} {base size : U32} {h : HeapT}

theorem heapInit_sound (hInit : heapInit mem base size = .ok h) (hStart : base ≠ 0)
    (hEnd : base.toNat + (alignDown8 size).toNat < 2 ^ 32) : ∃ n, Sound h [⟨n, true⟩] := by
  simp only [heapInit] at hInit
  split_ifs at hInit with hAligned hSmall
  cases hInit
  have hSize : (alignDown8 size).toNat = size.toNat / 8 * 8 := clear_low size
  have hLarge : 32 ≤ (alignDown8 size).toNat := by
    rw [lt_def] at hSmall
    exact not_lt.mp hSmall
  have hMultiple : base.toNat % 8 = 0 := by
    have hZero := congrArg BitVec.toNat (not_not.mp hAligned)
    rw [BitVec.toNat_and] at hZero
    exact (Nat.and_two_pow_sub_one_eq_mod base.toNat 3).symm.trans hZero
  have hPositive : 0 < base.toNat := by
    rw [Nat.pos_iff_ne_zero]
    exact fun hZero => hStart (BitVec.eq_of_toNat_eq hZero)
  have hPayload : (alignDown8 size - heapHeaderSize).toNat = (alignDown8 size).toNat - 24 :=
    sub_toNat rfl (by decide) (by omega)
  have hWord : ofNat 32 ((alignDown8 size).toNat - 24) = alignDown8 size - heapHeaderSize := by
    rw [← hPayload, ofNat_toNat, setWidth_eq]
  refine ⟨(alignDown8 size).toNat - 24, ⟨rfl, rfl, hMultiple, hPositive, ?_, ?_, ⟨?_, trivial⟩, ?_, by simp, rfl,
    hPayload⟩, List.isChain_singleton _, ?_⟩
  · simp only [span_cons, span_nil]
    omega
  · simp only [span_cons, span_nil]
    omega
  · have hNode := initHeader_node mem (a := base.toNat) (by omega) ((alignDown8 size).toNat - 24)
    rw [hWord, ofNat_toNat, setWidth_eq] at hNode
    exact hNode
  · intro b hMem
    obtain rfl := List.mem_singleton.mp hMem
    simp only
    omega
  · simp only [largest, if_true, Nat.max_zero]
    exact hPayload

theorem Intact.of_init {l : List Block} (hSound : Sound h l) (hFree : ∀ b ∈ l, b.free) : Intact ⟨h, ∅, 0⟩ l := by
  refine ⟨hSound, ?_, fun hNever => absurd rfl hNever⟩
  intro p
  constructor
  · intro hNever
    exact absurd hNever (Finset.notMem_empty p)
  · rintro ⟨c, k, hUsed, -⟩
    obtain ⟨pre, post, rfl, -⟩ := placed_split hUsed
    exact absurd (hFree ⟨k, false⟩ (by simp)) (by simp)

variable {s : Tracked}

theorem Intact.run {t : Tracked} {calls : List Call} (hRun : Run (heapSystem.restrict ClearFits) s calls t)
    (hIntact : ∃ l, Intact s l) : ∃ l, Intact t l := by
  refine Run.invariant (I := fun s => ∃ l, Intact s l) ?_ hRun hIntact
  rintro s call t ⟨l, hIntact⟩ ⟨hClear, hPermitted, p, hPerform⟩
  obtain ⟨t', p', l', hResult, hAfter, -⟩ := hIntact.perform hPermitted hClear
  rw [hPerform] at hResult
  cases hResult
  exact ⟨l', hAfter⟩

theorem Intact.all_free {l : List Block} (hIntact : Intact s l) (hNone : s.live = ∅) : ∃ n, l = [⟨n, true⟩] := by
  have hFree := @Tiling.all_free 24 l s.heap.base.toNat fun d n hUsed => by
    have hLive := (hIntact.live _).mpr ⟨d, n, hUsed, rfl⟩
    rw [hNone] at hLive
    exact absurd hLive (Finset.notMem_empty _)
  obtain ⟨⟨n, free⟩, rfl⟩ := hIntact.sound.coalesced.single hFree hIntact.sound.nonempty
  obtain rfl : free := hFree _ (.head _)
  exact ⟨n, rfl⟩

/-- After every permitted run without a clearing that wraps, the heap passes its check and tiles
its region, everything given back leaves one block, and the next such call returns. -/
theorem heap_integrity {s : Tracked} {calls : List Call} (hInit : heapInit mem base size = .ok h) (hStart : base ≠ 0)
    (hEnd : base.toNat + (alignDown8 size).toNat < 2 ^ 32)
    (hRun : Run (heapSystem.restrict ClearFits) ⟨h, ∅, 0⟩ calls s) :
    heapCheck s.heap = some .ok ∧ (∃ l, Sound s.heap l) ∧
      (s.live = ∅ → ∃ n, Sound s.heap [⟨n, true⟩] ∧ n + 24 = s.heap.size.toNat) ∧
      ∀ call, Permitted s call → ClearFits s call → (perform s call).isSome := by
  obtain ⟨n, hSound⟩ := heapInit_sound hInit hStart hEnd
  obtain ⟨l, hIntact⟩ := Intact.run hRun ⟨_, Intact.of_init hSound (by simp)⟩
  refine ⟨hIntact.sound.heapCheck, ⟨l, hIntact.sound⟩, ?_, ?_⟩
  · intro hNone
    obtain ⟨n, rfl⟩ := hIntact.all_free hNone
    have hSize := hIntact.sound.size
    simp only [span_cons, span_nil] at hSize
    exact ⟨n, hIntact.sound, by omega⟩
  · intro call hPermitted hClear
    obtain ⟨t, p, l', hPerform, -⟩ := hIntact.perform hPermitted hClear
    rw [hPerform]
    rfl

end

def sampleHeap : HeapT :=
  { mem := initHeader (fun _ => 0) 0x1000 heapStateFree 104, base := 0x1000, size := 128, head := 0x1000
    grow := false, totalBytes := 128, usedBytes := 0, freeBytes := 104, largestFree := 104, allocCount := 0
    freeCount := 0, failCount := 0, growCount := 0, inited := true }

def after (s : Tracked) (call : Call) : Tracked := ((perform s call).map Prod.fst).getD s

theorem step_after {s : Tracked} {call : Call} (hPermitted : Permitted s call) (hSome : (perform s call).isSome) :
    heapSystem.step s call (after s call) := by
  obtain ⟨⟨t, p⟩, hPerform⟩ := Option.isSome_iff_exists.mp hSome
  refine ⟨hPermitted, p, ?_⟩
  rw [after, hPerform]
  rfl

theorem heap_integrity_alloc_free :
    ∃ s : Tracked, s.live = ∅ ∧ s.heap.allocCount = 1 ∧ heapCheck s.heap = some .ok := by
  have hInit : heapInit (fun _ => 0) 0x1000 128 = .ok sampleHeap := rfl
  have hAlloc : (heapSystem.restrict ClearFits).step ⟨sampleHeap, ∅, 0⟩ (.alloc (fun _ _ => 0) 8)
      (after ⟨sampleHeap, ∅, 0⟩ (.alloc (fun _ _ => 0) 8)) :=
    ⟨trivial, step_after (fun hGrows => absurd hGrows.1 (by decide)) (by decide +kernel)⟩
  have hFree : (heapSystem.restrict ClearFits).step (after ⟨sampleHeap, ∅, 0⟩ (.alloc (fun _ _ => 0) 8)) (.free 0x1018)
      (after (after ⟨sampleHeap, ∅, 0⟩ (.alloc (fun _ _ => 0) 8)) (.free 0x1018)) :=
    ⟨trivial, step_after (.inr (.inl (by decide +kernel))) (by decide +kernel)⟩
  have hAll := heap_integrity hInit (by decide) (by decide) (((Run.nil _).snoc hAlloc).snoc hFree)
  refine ⟨_, ?_, ?_, hAll.1⟩ <;> decide +kernel

/-- Clearing `2 ^ 32 - 1` bytes of a block of 8. -/
theorem calloc_destroys_heap :
    heapInit (fun _ => 0) 0x1000 128 = .ok sampleHeap ∧
      ∃ s, Run heapSystem ⟨sampleHeap, ∅, 0⟩ [.calloc (fun _ _ => 0) 1 0xFFFFFFFF] s ∧
        heapCheck s.heap = some .badMagic := by
  refine ⟨rfl, after ⟨sampleHeap, ∅, 0⟩ (.calloc (fun _ _ => 0) 1 0xFFFFFFFF), ?_, by decide +kernel⟩
  apply Run.single
  apply step_after
  · intro total _ hGrows
    exact absurd hGrows.1 (by decide)
  · decide +kernel

end OpenXJ380.Heap
