import OpenXJ380.Heap.Integrity

/-! # What a request gets

A pointer that is returned has the bytes asked for, unless the size lies within
8 of the top and the rounded request is for 8 bytes only.
-/

namespace OpenXJ380.Heap

open BitVec (ofNat toNat_mul)

open ByteMemory Tiling Transition

/-- A pointer to `want` bytes of the region that belong to no other pointer. -/
structure Served (t : Tracked) (p : U32) (want : Nat) : Prop where
  aligned : p.toNat % 8 = 0
  enough : want ≤ payloadSize t.heap p
  inside : t.heap.base.toNat ≤ p.toNat ∧
    p.toNat + payloadSize t.heap p ≤ t.heap.base.toNat + t.heap.size.toNat
  apart : ∀ q ∈ t.live, q ≠ p →
    p.toNat + payloadSize t.heap p ≤ q.toNat ∨ q.toNat + payloadSize t.heap q ≤ p.toNat

/-- The first `n` bytes at `q` are those that were at `p`. -/
def SameBytes (m m' : Memory) (p q : U32) (n : Nat) : Prop :=
  ∀ i < n, m' (q + ofNat 32 i) = m (p + ofNat 32 i)

/-- What a call that returned `p` owes its caller. -/
def Delivered (s t : Tracked) (p : U32) : Call → Prop
  | .alloc _ size => p ≠ 0 → Served t p size.toNat
  | .calloc _ count size => p ≠ 0 → Served t p (count.toNat * size.toNat)
  | .realloc _ ptr size =>
    (p ≠ 0 → Served t p size.toNat ∧
      (ptr ∈ s.live → SameBytes s.heap.mem t.heap.mem ptr p (min (payloadSize s.heap ptr) size.toNat))) ∧
    (p = 0 → ptr ∈ s.live → ptr ∈ t.live ∧ payloadSize t.heap ptr = payloadSize s.heap ptr ∧
      SameBytes s.heap.mem t.heap.mem ptr ptr (payloadSize s.heap ptr))
  | _ => True

def Delivers (s : Tracked) (call : Call) : Prop := ∀ t p, perform s call = some (t, p) → Delivered s t p call

def Reasonable (s : Tracked) : Call → Prop
  | .alloc grow size => size.toNat ≤ 2 ^ 32 - 8 ∨ Exhausted s.heap grow
  | .calloc grow count size => ClearFits s (.calloc grow count size)
  | .realloc grow ptr size =>
    size.toNat ≤ 2 ^ 32 - 8 ∨ if ptr = 0 then Exhausted s.heap grow else ptr ∉ s.live
  | _ => True

section

variable {s t : Tracked} {l l' : List Block} {h' : HeapT} {c k n : Nat} {p : U32}

theorem Sound.placed_aligned {h : HeapT} {b : Block} (hSound : Sound h l) (hMem : (c, b) ∈ placed 24 h.base.toNat l) :
    c % 8 = 0 := by
  obtain ⟨pre, post, rfl, rfl⟩ := placed_split hMem
  have hBase := hSound.aligned
  have hSizes := hSound.sizes
  have hSpan : ∀ l : List Block, (∀ b ∈ l, b.size % 8 = 0) → span 24 l % 8 = 0 := by
    intro l hAll
    induction l with
    | nil => rfl
    | cons b l ih =>
      have hHead := hAll b (.head _)
      have hRest := ih fun c hc => hAll c (.tail _ hc)
      rw [span_cons]
      omega
  have hPre := hSpan pre fun b hb => (hSizes b (List.mem_append_left _ hb)).2
  omega

theorem Intact.served (hIntact : Intact t l) (hUsed : UsedAt 24 t.heap.base.toNat l c k) (hLe : n ≤ k) :
    Served t (ofNat 32 (c + 24)) n := by
  have hBounds := usedAt_bounds hUsed
  have hFits := hIntact.sound.fits
  have hSize := payloadSize_used hIntact.sound hUsed
  have hPointer : (ofNat 32 (c + 24)).toNat = c + 24 := pointer_toNat (by omega)
  have hAligned := hIntact.sound.placed_aligned hUsed
  refine ⟨by omega, by omega, ?_, ?_⟩
  · rw [hPointer, hSize, hIntact.sound.size]
    omega
  · intro q hLive hNe
    obtain ⟨d, j, hOther, rfl⟩ := (hIntact.live q).mp hLive
    have hOtherBounds := usedAt_bounds hOther
    have hApart := placed_apart hUsed hOther (fun hEq => hNe (by rw [hEq]))
    rw [hPointer, hSize, payloadSize_used hIntact.sound hOther, pointer_toNat (by omega)]
    simp only at hApart
    omega

theorem not_served (hBase : 8 ≤ t.heap.base.toNat) (hFits : t.heap.base.toNat + t.heap.size.toNat < 2 ^ 32)
    (hGt : 2 ^ 32 - 8 < n) : ¬ Served t p n := by
  intro hServed
  have hEnough := hServed.enough
  have hInside := hServed.inside
  omega

theorem Sound.region {h : HeapT} (hSound : Sound h l) : 8 ≤ h.base.toNat ∧ h.base.toNat + h.size.toNat < 2 ^ 32 := by
  have hAligned := hSound.aligned
  have hPositive := hSound.positive
  have hFits := hSound.fits
  rw [hSound.size]
  omega

theorem received_served (hIntact : Intact s l) {m : Nat} (hAllocated : Allocated s.heap h' l l' m c) (hLe : n ≤ m) :
    Served (received s h' (ofNat 32 (c + 24))) (ofNat 32 (c + 24)) n := by
  obtain ⟨k, hCovers, hUsed⟩ := hAllocated.used
  apply (hIntact.received hAllocated).served (k := k)
  · rw [show (received s h' (ofNat 32 (c + 24))).heap.base = s.heap.base from hAllocated.base]
    exact (hUsed c k).mpr (.inl ⟨rfl, rfl⟩)
  · exact hLe.trans hCovers

variable {grow : Nat → U32 → U32} {size : U32}

theorem small_of_room (hSound : Sound s.heap l)
    (hRoom : ¬ NoRoom s.heap l grow size) (hReasonable : size.toNat ≤ 2 ^ 32 - 8 ∨ Exhausted s.heap grow) :
    size.toNat ≤ 2 ^ 32 - 8 := by
  obtain hSmall | hExhausted := hReasonable
  · exact hSmall
  · by_contra hGt
    exact hRoom ((exhausted_iff hSound (not_le.mp hGt)).mpr hExhausted)

theorem small_or_exhausted (hSound : Sound s.heap l)
    (hNoRoom : NoRoom s.heap l grow size) : size.toNat ≤ 2 ^ 32 - 8 ∨ Exhausted s.heap grow := by
  cases lt_or_ge (2 ^ 32 - 8) size.toNat with
  | inl hGt => exact .inr ((exhausted_iff hSound hGt).mp hNoRoom)
  | inr hLe => exact .inl hLe

theorem alloc_delivers (hIntact : Intact s l) (hPermitted : Permitted s (.alloc grow size)) :
    Delivers s (.alloc grow size) ↔ Reasonable s (.alloc grow size) := by
  have hSound := hIntact.sound
  obtain hNoRoom | hRoom := Classical.em (NoRoom s.heap l grow size)
  · refine iff_of_true ?_ (small_or_exhausted hSound hNoRoom)
    intro t p hPerform hNonzero
    rw [perform, heapAlloc_refused hSound hNoRoom] at hPerform
    cases hPerform
    exact absurd rfl hNonzero
  · obtain ⟨h', l', c, hAlloc, hAllocated⟩ := heapAlloc_allocated hSound hRoom hPermitted
    have hPerform : perform s (.alloc grow size) = some (received s h' (ofNat 32 (c + 24)), ofNat 32 (c + 24)) := by
      rw [perform, hAlloc, payloadOf_ofNat]
      rfl
    constructor
    · intro hDelivers
      by_contra hNot
      rw [Reasonable, not_or, not_le] at hNot
      obtain ⟨hBase, hFits⟩ := hAllocated.sound.region
      exact not_served hBase hFits hNot.1 (hDelivers _ _ hPerform hAllocated.nonzero)
    · intro hReasonable t p hResult _
      have hSmall := small_of_room hSound hRoom hReasonable
      rw [hPerform] at hResult
      cases hResult
      exact received_served hIntact hAllocated (roundedSize_of_le hSmall).2.2

theorem callocTotal_product {count total : U32} (hTotal : callocTotal count size = some total) :
    count.toNat * size.toNat ≤ total.toNat ∧ (2 ^ 32 - 8 < total.toNat → total.toNat = count.toNat * size.toNat) := by
  simp only [callocTotal] at hTotal
  split_ifs at hTotal with hNone hOverflow
  · cases hTotal
    have hZero : count.toNat * size.toNat = 0 := by
      obtain rfl | rfl := hNone
      · exact zero_mul _
      · exact mul_zero _
    rw [hZero]
    exact ⟨Nat.zero_le _, fun hGt => absurd hGt (by decide)⟩
  · cases hTotal
    have hQuotient := congrArg BitVec.toNat (not_not.mp hOverflow)
    rw [BitVec.toNat_udiv, toNat_mul] at hQuotient
    have hLe := Nat.div_mul_le_self (count.toNat * size.toNat % 2 ^ 32) size.toNat
    rw [hQuotient] at hLe
    have hMod := Nat.mod_le (count.toNat * size.toNat) (2 ^ 32)
    rw [toNat_mul]
    exact ⟨hLe, fun _ => hMod.antisymm hLe⟩

theorem calloc_delivers (hIntact : Intact s l) {count : U32} (hPermitted : Permitted s (.calloc grow count size)) :
    Delivers s (.calloc grow count size) ↔ Reasonable s (.calloc grow count size) := by
  have hSound := hIntact.sound
  cases hTotal : callocTotal count size with
  | none =>
    refine iff_of_true ?_ ?_
    · intro t p hPerform hNonzero
      rw [perform, heapCalloc, hTotal] at hPerform
      cases hPerform
      exact absurd rfl hNonzero
    · intro total hSome
      rw [hTotal] at hSome
      cases hSome
  | some total =>
    have hReasonable : Reasonable s (.calloc grow count size) ↔ total.toNat ≤ 2 ^ 32 - 8 ∨ Exhausted s.heap grow := by
      simp only [Reasonable, ClearFits, hTotal, Option.some.injEq, forall_eq']
    rw [hReasonable]
    obtain ⟨hProduct, hExact⟩ := callocTotal_product hTotal
    obtain hNoRoom | hRoom := Classical.em (NoRoom s.heap l grow total)
    · refine iff_of_true ?_ (small_or_exhausted hSound hNoRoom)
      intro t p hPerform hNonzero
      rw [perform, heapCalloc_refused hSound hTotal hNoRoom] at hPerform
      cases hPerform
      exact absurd rfl hNonzero
    · constructor
      · intro hDelivers
        by_contra hNot
        rw [not_or, not_le] at hNot
        obtain ⟨h', l', c, hCalloc, hAllocated⟩ := heapCalloc_cleared hSound hTotal hRoom (hPermitted total hTotal)
        generalize fill h'.mem (ofNat 32 (c + 24)) 0 total.toNat = mem at hCalloc
        have hPerform : perform s (.calloc grow count size) =
            some (received s { h' with mem := mem } (ofNat 32 (c + 24)), ofNat 32 (c + 24)) := by
          rw [perform, hCalloc]
          rfl
        obtain ⟨hBase, hFits⟩ := hAllocated.sound.region
        have hGt := hExact hNot.1
        exact not_served (t := received s { h' with mem := mem } (ofNat 32 (c + 24))) hBase hFits
          (by omega) (hDelivers _ _ hPerform hAllocated.nonzero)
      · intro hReasonable t p hResult _
        have hSmall := small_of_room hSound hRoom hReasonable
        obtain ⟨h', l', c, hCalloc, hAllocated⟩ :=
          heapCalloc_allocated hSound hTotal hSmall hRoom (hPermitted total hTotal)
        rw [perform, hCalloc] at hResult
        cases hResult
        exact received_served hIntact hAllocated (hProduct.trans (roundedSize_of_le hSmall).2.2)

theorem alignUp8_of_le (hLe : size.toNat ≤ 2 ^ 32 - 8) : size.toNat ≤ (alignUp8 size).toNat := by
  have hUp := alignUp8_toNat size
  rw [Nat.mod_eq_of_lt (by omega)] at hUp
  omega

theorem alignUp8_of_gt (hGt : 2 ^ 32 - 8 < size.toNat) : (alignUp8 size).toNat = 0 := by
  have hUp := alignUp8_toNat size
  omega

theorem perform_kept (hIntact : Intact s l) (hUsed : UsedAt 24 s.heap.base.toNat l c k)
    (hLe : (alignUp8 size).toNat ≤ k) : perform s (.realloc grow (ofNat 32 (c + 24)) size) =
      some ({ s with freed := 0 }, ofNat 32 (c + 24)) := by
  have hLive := (hIntact.live _).mpr ⟨c, k, hUsed, rfl⟩
  have hNonzero := (realloc_used hIntact.sound hUsed).1
  rw [perform, heapRealloc_kept hIntact.sound hUsed hLe]
  simp only [Option.map_some, moved, if_neg hNonzero, Finset.insert_erase hLive, or_true, if_true]

theorem realloc_live_delivers (hIntact : Intact s l) (hUsed : UsedAt 24 s.heap.base.toNat l c k)
    (hFits : GrowFits s.heap (grow 0) (roundedSize size)) :
    Delivers s (.realloc grow (ofNat 32 (c + 24)) size) ↔ size.toNat ≤ 2 ^ 32 - 8 := by
  have hSound := hIntact.sound
  have hNonzero := (realloc_used hSound hUsed).1
  have hOld := payloadSize_used hSound hUsed
  constructor
  · intro hDelivers
    by_contra hNot
    have hGt := not_le.mp hNot
    have hKept : perform s (.realloc grow (ofNat 32 (c + 24)) size) = some ({ s with freed := 0 }, ofNat 32 (c + 24)) :=
      perform_kept hIntact hUsed (by rw [alignUp8_of_gt hGt]; exact Nat.zero_le k)
    obtain ⟨hBase, hRegion⟩ := hSound.region
    exact not_served (t := { s with freed := 0 }) hBase hRegion hGt ((hDelivers _ _ hKept).1 hNonzero).1
  · intro hSmall t p hPerform
    have hCovers := alignUp8_of_le hSmall
    cases lt_or_ge k (alignUp8 size).toNat with
    | inr hLe =>
      rw [perform_kept hIntact hUsed hLe] at hPerform
      cases hPerform
      refine ⟨fun _ => ⟨?_, fun _ _ _ => rfl⟩, (absurd · hNonzero)⟩
      exact hIntact.forget.served hUsed (hCovers.trans hLe)
    | inl hGt =>
      obtain hNoRoom | hRoom := Classical.em (NoRoom s.heap l grow size)
      · rw [perform, heapRealloc_refused hSound hUsed hGt hNoRoom] at hPerform
        cases hPerform
        exact ⟨fun hNever => absurd rfl hNever, fun _ hHeld => ⟨hHeld, rfl, fun _ _ => rfl⟩⟩
      · obtain ⟨h', l', c', hRealloc, hMoved, -⟩ := heapRealloc_moved hSound hUsed hGt hRoom hFits
        have hAfter := hIntact.moved hUsed hMoved
        have hNew := (hMoved.pointer hIntact hUsed).1
        rw [perform, hRealloc] at hPerform
        cases hPerform
        refine ⟨fun _ => ⟨?_, fun _ => ?_⟩, (absurd · hNew)⟩
        · obtain ⟨m, hLe, hUsedAfter⟩ := hMoved.used
          apply hAfter.served (k := m)
          · rw [show (moved s (ofNat 32 (c + 24)) h' (ofNat 32 (c' + 24))).heap.base = s.heap.base from hMoved.base]
            exact (hUsedAfter c' m).mpr (.inl ⟨rfl, rfl⟩)
          · exact hCovers.trans hLe
        · intro i hi
          rw [hOld] at hi
          have hByte := hMoved.bytes i (by omega)
          rw [← ofNat_add, ← ofNat_add (c + 24)] at hByte
          exact hByte

theorem realloc_delivers (hIntact : Intact s l) {ptr : U32} (hPermitted : Permitted s (.realloc grow ptr size)) :
    Delivers s (.realloc grow ptr size) ↔ Reasonable s (.realloc grow ptr size) := by
  obtain ⟨hPointer, hFits⟩ := hPermitted
  obtain rfl | hNonzero := eq_or_ne ptr 0
  · have hUnused := hIntact.null_unused
    have hSame : Delivers s (.realloc grow 0 size) ↔ Delivers s (.alloc grow size) := by
      simp only [Delivers, hIntact.realloc_null, Delivered, hUnused, false_implies, and_true, implies_true]
    rw [hSame, alloc_delivers hIntact hFits]
    simp only [Reasonable, if_true]
  · have hReasonable : Reasonable s (.realloc grow ptr size) ↔ size.toNat ≤ 2 ^ 32 - 8 ∨ ptr ∉ s.live := by
      simp only [Reasonable, if_neg hNonzero]
    rw [hReasonable]
    obtain hLive | hDead := Classical.em (ptr ∈ s.live)
    · obtain ⟨c, k, hUsed, rfl⟩ := (hIntact.live ptr).mp hLive
      rw [realloc_live_delivers hIntact hUsed hFits]
      simp only [hLive, not_true_eq_false, or_false]
    · refine iff_of_true ?_ (.inr hDead)
      obtain hNull | hLive | hFreed := hPointer
      · exact absurd hNull hNonzero
      · exact absurd hLive hDead
      · obtain ⟨c, hPtr, hStale⟩ := hIntact.freed (hFreed ▸ hNonzero)
        intro t p hPerform
        rw [perform, hFreed, hPtr, heapRealloc_stale hIntact.sound hStale] at hPerform
        cases hPerform
        exact ⟨fun hNever => absurd rfl hNever, fun _ hLive => absurd hLive hDead⟩

theorem perform_isSome (hIntact : Intact s l) {call : Call} (hPermitted : Permitted s call) :
    (perform s call).isSome := by
  obtain hClear | hWraps := Classical.em (ClearFits s call)
  · obtain ⟨t, p, l', hPerform, -⟩ := hIntact.perform hPermitted hClear
    rw [hPerform]
    rfl
  · cases call with
    | calloc grow count size =>
      cases hTotal : callocTotal count size with
      | none => exact absurd (fun total hSome => by rw [hTotal] at hSome; cases hSome) hWraps
      | some total =>
        obtain hNoRoom | hRoom := Classical.em (NoRoom s.heap l grow total)
        · rw [perform, heapCalloc_refused hIntact.sound hTotal hNoRoom]
          rfl
        · obtain ⟨h', l', c, hCalloc, -⟩ := heapCalloc_cleared hIntact.sound hTotal hRoom (hPermitted total hTotal)
          rw [perform, hCalloc]
          rfl
    | _ => exact absurd trivial hWraps

/-- On every heap that a run reaches, a call gives what was asked for exactly where the size is not
within 8 of the top or nothing is handed out. -/
theorem request_delivers {mem : Memory} {base size : U32} {h : HeapT} {calls : List Call} {call : Call}
    (hInit : heapInit mem base size = .ok h) (hStart : base ≠ 0)
    (hEnd : base.toNat + (alignDown8 size).toNat < 2 ^ 32)
    (hRun : Run (heapSystem.restrict ClearFits) ⟨h, ∅, 0⟩ calls s) (hPermitted : Permitted s call) :
    (perform s call).isSome ∧ (Delivers s call ↔ Reasonable s call) := by
  obtain ⟨n, hSound⟩ := heapInit_sound hInit hStart hEnd
  obtain ⟨l, hIntact⟩ := Intact.run hRun ⟨_, Intact.of_init hSound (by simp)⟩
  refine ⟨perform_isSome hIntact hPermitted, ?_⟩
  cases call with
  | alloc grow size => exact alloc_delivers hIntact hPermitted
  | calloc grow count size => exact calloc_delivers hIntact hPermitted
  | realloc grow ptr size => exact realloc_delivers hIntact hPermitted
  | free ptr => exact iff_of_true (fun _ _ _ => trivial) trivial
  | setGrow grow => exact iff_of_true (fun _ _ _ => trivial) trivial
  | write a byte => exact iff_of_true (fun _ _ _ => trivial) trivial

theorem Intact.payload_kept {calls : List Call} (hIntact : Intact s l) (hUsed : UsedAt 24 s.heap.base.toNat l c k)
    (hRun : Run (heapSystem.restrict fun s call => ClearFits s call ∧ Spares s (ofNat 32 (c + 24)) call) s calls t) :
    ∃ l', Intact t l' ∧ UsedAt 24 t.heap.base.toNat l' c k ∧ Agree s.heap.mem t.heap.mem (c + 24) (c + 24 + k) := by
  refine Run.invariant (I := fun u => ∃ l', Intact u l' ∧ UsedAt 24 u.heap.base.toNat l' c k ∧
    Agree s.heap.mem u.heap.mem (c + 24) (c + 24 + k)) ?_ hRun ⟨l, hIntact, hUsed, fun _ _ _ => rfl⟩
  rintro u call v ⟨l₁, hIntact₁, hUsed₁, hAgree⟩ ⟨⟨hClear, hSpares⟩, hPermitted, p, hPerform⟩
  obtain ⟨v', p', l₂, hResult, hAfter, hKeeps⟩ := hIntact₁.perform hPermitted hClear
  rw [hPerform] at hResult
  cases hResult
  obtain ⟨hUsed₂, hAgree₂⟩ := hKeeps c k hUsed₁ hSpares
  exact ⟨l₂, hAfter, hUsed₂, hAgree.trans hAgree₂⟩

/-- A block that a run neither takes away nor writes to keeps its size and its bytes, whatever else is called. -/
theorem heap_payload_kept {mem : Memory} {base size : U32} {h : HeapT} {calls more : List Call}
    (hInit : heapInit mem base size = .ok h) (hStart : base ≠ 0)
    (hEnd : base.toNat + (alignDown8 size).toNat < 2 ^ 32)
    (hRun : Run (heapSystem.restrict ClearFits) ⟨h, ∅, 0⟩ calls s) (hLive : p ∈ s.live)
    (hMore : Run (heapSystem.restrict fun s call => ClearFits s call ∧ Spares s p call) s more t) :
    p ∈ t.live ∧ payloadSize t.heap p = payloadSize s.heap p ∧
      SameBytes s.heap.mem t.heap.mem p p (payloadSize s.heap p) := by
  obtain ⟨n, hSound⟩ := heapInit_sound hInit hStart hEnd
  obtain ⟨l, hIntact⟩ := Intact.run hRun ⟨_, Intact.of_init hSound (by simp)⟩
  obtain ⟨c, k, hUsed, rfl⟩ := (hIntact.live p).mp hLive
  obtain ⟨l', hAfter, hUsed', hAgree⟩ := hIntact.payload_kept hUsed hMore
  have hFits := hIntact.sound.fits
  have hBounds := usedAt_bounds hUsed
  rw [payloadSize_used hAfter.sound hUsed', payloadSize_used hIntact.sound hUsed]
  refine ⟨(hAfter.live _).mpr ⟨c, k, hUsed', rfl⟩, rfl, fun i hi => ?_⟩
  have hNat : (ofNat 32 (c + 24 + i)).toNat = c + 24 + i := pointer_toNat (by omega)
  rw [ofNat_add]
  exact hAgree _ (by omega) (by omega)

end

theorem request_delivers_eight :
    Delivers ⟨sampleHeap, ∅, 0⟩ (.alloc (fun _ _ => 0) 8) := by
  have hInit : heapInit (fun _ => 0) 0x1000 128 = .ok sampleHeap := rfl
  have hPermitted : Permitted ⟨sampleHeap, ∅, 0⟩ (.alloc (fun _ _ => 0) 8) :=
    fun hGrows => absurd hGrows.1 (by decide)
  have hAll := request_delivers hInit (by decide) (by decide) (.nil _) hPermitted
  exact hAll.2.mpr (.inl (by decide))

theorem heap_payload_kept_alloc : ∃ t : Tracked, (0x1018 : U32) ∈ t.live ∧ payloadSize t.heap 0x1018 = 8 := by
  have hInit : heapInit (fun _ => 0) 0x1000 128 = .ok sampleHeap := rfl
  have hStep := @step_after ⟨sampleHeap, ∅, 0⟩ (.alloc (fun _ _ => 0) 8) (fun hGrows => absurd hGrows.1 (by decide))
    (by decide +kernel)
  have hNext := @step_after (after ⟨sampleHeap, ∅, 0⟩ (.alloc (fun _ _ => 0) 8)) (.alloc (fun _ _ => 0) 8)
    (fun hGrows => absurd hGrows.1 (by decide)) (by decide +kernel)
  have hKept := heap_payload_kept hInit (by decide) (by decide) ((Run.nil _).snoc ⟨by trivial, hStep⟩) (p := 0x1018)
    (by decide +kernel) ((Run.nil _).snoc ⟨⟨by trivial, by trivial⟩, hNext⟩)
  exact ⟨_, hKept.1, hKept.2.1.trans (by decide +kernel)⟩

/-- A request for `2 ^ 32 - 1` bytes returns a block of 8. -/
theorem alloc_too_small :
    heapInit (fun _ => 0) 0x1000 128 = .ok sampleHeap ∧
      ∃ t p, perform ⟨sampleHeap, ∅, 0⟩ (.alloc (fun _ _ => 0) 0xFFFFFFFF) = some (t, p) ∧ p ≠ 0 ∧
        payloadSize t.heap p = 8 := by
  have hSome : (perform ⟨sampleHeap, ∅, 0⟩ (.alloc (fun _ _ => 0) 0xFFFFFFFF)).isSome := by decide +kernel
  obtain ⟨⟨t, p⟩, hPerform⟩ := Option.isSome_iff_exists.mp hSome
  have hPointer : (perform ⟨sampleHeap, ∅, 0⟩ (.alloc (fun _ _ => 0) 0xFFFFFFFF)).map
      (fun r => (r.2, payloadSize r.1.heap r.2)) = some (0x1018, 8) := by decide +kernel
  rw [hPerform, Option.map_some, Option.some.injEq, Prod.mk.injEq] at hPointer
  obtain ⟨hStart, hSize⟩ := hPointer
  exact ⟨rfl, t, p, hPerform, fun hNull => absurd (hNull.symm.trans hStart) (by decide), hSize⟩

end OpenXJ380.Heap
