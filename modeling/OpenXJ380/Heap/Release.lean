import OpenXJ380.Heap.Request

/-! # Release

A block given back joins the free blocks beside it. Its old header stays inside
the joined block, so releasing it once more is noticed.
-/

namespace OpenXJ380.Heap

open BitVec (ofNat)

open ByteMemory Tiling

section

variable {h : HeapT} {pre post : List Block} {s : Nat}

/-- What joining does to the blocks `l` that are there before. -/
structure Joined (h h' : HeapT) (l l' : List Block) : Prop where
  tiled : Tiled h' l'
  region : SameRegion h h'
  used : ∀ d k, UsedAt 24 h.base.toNat l' d k ↔ UsedAt 24 h.base.toNat l d k
  kept : PayloadsKept h h' l

theorem Joined.refl {l : List Block} (hTiled : Tiled h l) : Joined h h l l :=
  ⟨hTiled, SameRegion.refl h, fun _ _ => Iff.rfl, fun _ _ _ => Agree.refl _ _ _⟩

theorem heapAbsorb_joined {t : Nat} (hTiled : Tiled h (pre ++ ⟨s, true⟩ :: ⟨t, true⟩ :: post)) :
    Joined h (heapAbsorb h (ofNat 32 (h.base.toNat + span 24 pre)) (ofNat 32 (h.base.toNat + span 24 pre + 24 + s)))
      (pre ++ ⟨s, true⟩ :: ⟨t, true⟩ :: post) (pre ++ ⟨s + (24 + t), true⟩ :: post) := by
  have hFits := hTiled.suffix_fits
  have hEnd : h.base.toNat + span 24 pre + 24 + (s + (24 + t)) = h.base.toNat + span 24 pre + 24 + s + 24 + t := by
    omega
  refine ⟨heapAbsorb_tiled hTiled, heapAbsorb_region _ _ _, ?_, ?_⟩
  · intro d k
    rw [usedAt_append, usedAt_append, usedAt_free, usedAt_free, usedAt_free, hEnd]
  · intro d k hUsed
    rw [usedAt_append, usedAt_free, usedAt_free] at hUsed
    apply heapAbsorb_agree hTiled.suffix hFits.le
    · obtain hPre | hPost := hUsed
      · exact .inl (usedAt_bounds hPre).2
      · have hBounds := usedAt_bounds hPost
        exact .inr (by omega)
    · obtain hPre | hPost := hUsed
      · have hBounds := usedAt_bounds hPre
        exact .inl (by omega)
      · have hBounds := usedAt_bounds hPost
        exact .inr (by omega)

theorem heapJoinNext_joined (hTiled : Tiled h (pre ++ ⟨s, true⟩ :: post)) (hPost : Coalesced post) :
    ∃ t post', s ≤ t ∧ Coalesced post' ∧ (∀ b ∈ post'.head?, b.free = false) ∧
      Joined h (heapJoinNext h (ofNat 32 (h.base.toNat + span 24 pre))) (pre ++ ⟨s, true⟩ :: post)
        (pre ++ ⟨t, true⟩ :: post') := by
  have hFits := hTiled.suffix_fits
  have hPositive := hTiled.positive
  have hNode := hTiled.suffix.1
  have hChain := hTiled.suffix.2
  cases post with
  | nil =>
    have hNext : heapJoinNext h (ofNat 32 (h.base.toNat + span 24 pre)) = h := by
      rw [heapJoinNext, hNode.next]
      exact if_neg fun hBoth => hBoth.1 rfl
    rw [hNext]
    exact ⟨s, [], le_rfl, hPost, by simp, Joined.refl hTiled⟩
  | cons b rest =>
    obtain ⟨t, free⟩ := b
    have hState := hChain.1.state
    simp only [span_cons] at hFits
    have hNonzero : ofNat 32 (h.base.toNat + span 24 pre + 24 + s) ≠ 0 := by
      intro hZero
      have hNat := congrArg BitVec.toNat hZero
      rw [pointer_toNat (by omega)] at hNat
      change _ = 0 at hNat
      omega
    have hLink : field h.mem (ofNat 32 (h.base.toNat + span 24 pre)) .next =
        ofNat 32 (h.base.toNat + span 24 pre + 24 + s) := hNode.next
    simp only [heapJoinNext, hLink, hState, stateOf_free]
    cases free with
    | false =>
      rw [if_neg (fun hBoth => Bool.false_ne_true hBoth.2)]
      refine ⟨s, _, le_rfl, hPost, ?_, Joined.refl hTiled⟩
      intro b hHead
      obtain rfl : b = ⟨t, false⟩ := by simpa using hHead.symm
      rfl
    | true =>
      rw [if_pos ⟨hNonzero, rfl⟩]
      exact ⟨s + (24 + t), rest, by omega, Coalesced.right (l := [⟨t, true⟩]) hPost, hPost.head_used rfl,
        heapAbsorb_joined hTiled⟩

theorem heapJoinPrev_joined (hTiled : Tiled h (pre ++ ⟨s, true⟩ :: post)) (hPre : Coalesced pre) :
    ∃ pre' t, Coalesced pre' ∧ (∀ b ∈ pre'.getLast?, b.free = false) ∧
      span 24 pre' ≤ span 24 pre ∧ span 24 pre + s ≤ span 24 pre' + t ∧
      Joined h (heapJoinPrev h (ofNat 32 (h.base.toNat + span 24 pre))) (pre ++ ⟨s, true⟩ :: post)
        (pre' ++ ⟨t, true⟩ :: post) ∧ Agree h.mem (heapJoinPrev h (ofNat 32 (h.base.toNat + span 24 pre))).mem
        (h.base.toNat + span 24 pre) (h.base.toNat + span 24 pre + 24) := by
  have hFits := hTiled.suffix_fits
  have hPositive := hTiled.positive
  have hLink : field h.mem (ofNat 32 (h.base.toNat + span 24 pre)) .prev =
      ofNat 32 (lastAddress 24 0 h.base.toNat pre) := hTiled.suffix.1.prev
  cases pre using List.reverseRecOn with
  | nil =>
    have hPrev : heapJoinPrev h (ofNat 32 (h.base.toNat + span 24 [])) = h := by
      rw [heapJoinPrev, hLink]
      exact if_neg fun hBoth => hBoth.1 rfl
    rw [hPrev]
    exact ⟨[], s, hPre, by simp, le_rfl, le_rfl, Joined.refl hTiled, Agree.refl _ _ _⟩
  | append_singleton pre b =>
    obtain ⟨r, free⟩ := b
    have hWhole : pre ++ [⟨r, free⟩] ++ ⟨s, true⟩ :: post = pre ++ ⟨r, free⟩ :: ⟨s, true⟩ :: post := by simp
    have hHere : h.base.toNat + span 24 (pre ++ [⟨r, free⟩]) = h.base.toNat + span 24 pre + 24 + r := by
      simp only [span_append, span_cons, span_nil]
      omega
    rw [hWhole] at hTiled ⊢
    have hState := hTiled.suffix.1.state
    have hSuffix := hTiled.suffix_fits
    simp only [span_cons] at hSuffix
    rw [lastAddress_snoc] at hLink
    have hNonzero : ofNat 32 (h.base.toNat + span 24 pre) ≠ 0 := by
      intro hZero
      have hNat := congrArg BitVec.toNat hZero
      rw [pointer_toNat (by omega)] at hNat
      change _ = 0 at hNat
      omega
    simp only [heapJoinPrev, hLink, hState, stateOf_free]
    cases free with
    | false =>
      rw [if_neg (fun hBoth => Bool.false_ne_true hBoth.2), ← hWhole]
      rw [← hWhole] at hTiled
      refine ⟨_, s, hPre, ?_, le_rfl, le_rfl, Joined.refl hTiled, Agree.refl _ _ _⟩
      intro b hLast
      obtain rfl : b = ⟨r, false⟩ := by simpa using hLast.symm
      rfl
    | true =>
      rw [if_pos ⟨hNonzero, rfl⟩, hHere]
      refine ⟨pre, r + (24 + s), hPre.left, hPre.last_used rfl, by simp, ?_, heapAbsorb_joined hTiled, ?_⟩
      · simp only [span_append, span_cons, span_nil]
        omega
      · exact heapAbsorb_agree hTiled.suffix hTiled.suffix_fits.le (.inr (by omega)) (.inl (by omega))

theorem Joined.trans {h₁ h₂ : HeapT} {l l₁ l₂ : List Block} (hFirst : Joined h h₁ l l₁)
    (hSecond : Joined h₁ h₂ l₁ l₂) : Joined h h₂ l l₂ := by
  obtain ⟨hTiled, hRegion, hUsed, hKept⟩ := hSecond
  rw [hFirst.region.base] at hUsed
  refine ⟨hTiled, hFirst.region.trans hRegion, fun d k => (hUsed d k).trans (hFirst.used d k), ?_⟩
  intro d k hUsedAt
  apply (hFirst.kept d k hUsedAt).trans
  apply hKept
  rw [hFirst.region.base]
  exact (hFirst.used d k).mpr hUsedAt

/-- The header of a block that was given back and lies inside a free block now. -/
structure Stale (h : HeapT) (l : List Block) (c : Nat) : Prop where
  inside : ∃ d k, (d, ⟨k, true⟩) ∈ placed 24 h.base.toNat l ∧ d ≤ c ∧ c + 32 ≤ d + 24 + k
  magic : field h.mem (ofNat 32 c) .magic = heapMagic
  state : field h.mem (ofNat 32 c) .state = heapStateFree

structure Released (h h' : HeapT) (l l' : List Block) (c : Nat) : Prop where
  sound : Sound h' l'
  base : h'.base = h.base
  grow : h'.grow = h.grow
  used : ∀ d k, UsedAt 24 h.base.toNat l' d k ↔ UsedAt 24 h.base.toNat l d k ∧ d ≠ c
  kept : ∀ d k, UsedAt 24 h.base.toNat l d k → d ≠ c → Agree h.mem h'.mem (d + 24) (d + 24 + k)
  stale : Stale h' l' c

theorem usedAt_beside {d k : Nat} : UsedAt 24 h.base.toNat (pre ++ ⟨s, true⟩ :: post) d k ↔
      UsedAt 24 h.base.toNat (pre ++ ⟨s, false⟩ :: post) d k ∧ d ≠ h.base.toNat + span 24 pre := by
  rw [usedAt_append, usedAt_append, usedAt_free, usedAt_used]
  constructor
  · rintro (hPre | hPost)
    · have hBounds := usedAt_bounds hPre
      exact ⟨.inl hPre, by omega⟩
    · have hBounds := usedAt_bounds hPost
      exact ⟨.inr (.inr hPost), by omega⟩
  · rintro ⟨hPre | ⟨hHere, -⟩ | hPost, hNe⟩
    · exact .inl hPre
    · exact absurd hHere hNe
    · exact .inr hPost

theorem heapGiveBack_released (hSound : Sound h (pre ++ ⟨s, false⟩ :: post)) :
    ∃ h' l', withLargest (heapJoinPrev (heapJoinNext (heapGiveBack h (ofNat 32 (h.base.toNat + span 24 pre)))
        (ofNat 32 (h.base.toNat + span 24 pre))) (ofNat 32 (h.base.toNat + span 24 pre))) = some h' ∧
      Released h h' (pre ++ ⟨s, false⟩ :: post) l' (h.base.toNat + span 24 pre) := by
  have hTiled := hSound.toTiled
  have hSize : 8 ≤ s := (hTiled.sizes ⟨s, false⟩ (by simp)).1
  have hGiven := heapGiveBack_tiled hTiled
  have hRegion := heapGiveBack_region h (ofNat 32 (h.base.toNat + span 24 pre))
  obtain ⟨t, post', hGrew, hPost, hHead, hNext⟩ :=
    heapJoinNext_joined hGiven (.right (l := [⟨s, false⟩]) hSound.coalesced.right)
  rw [hRegion.base] at hNext
  have hNode := hNext.tiled.suffix.1
  obtain ⟨pre', u, hPre, hLast, hStart, hEnd, hPrev, hHeader⟩ := heapJoinPrev_joined hNext.tiled hSound.coalesced.left
  rw [hNext.region.base, hRegion.base] at hNode hPrev hHeader
  have hBoth := hNext.trans hPrev
  obtain ⟨hAll, hSame, hUsed, hKept⟩ := hBoth
  have hBase := hSame.base
  rw [hRegion.base] at hUsed hBase
  have hFits := hAll.fits
  have hBounds := placed_bounds (@mem_placed_append 24 h.base.toNat pre' ⟨u, true⟩ post')
  simp only [hBase] at hFits hBounds
  have hStale := hNode.congr (by omega) hHeader
  refine ⟨_, _, hAll.withLargest, hAll.sound (.freed hPre hPost hLast hHead _), hBase,
    hSame.grow.trans hRegion.grow, ?_, ?_, { hStale with inside := ?_ }⟩
  · intro d k
    rw [hUsed]
    exact usedAt_beside
  · intro d k hUsedAt hNe
    have hApart := placed_apart hUsedAt (mem_placed_append pre ⟨s, false⟩ post) hNe
    simp only at hApart
    apply (heapGiveBack_agree hTiled (by omega)).trans
    exact hKept d k (by rw [hRegion.base]; exact usedAt_beside.mpr ⟨hUsedAt, hNe⟩)
  · refine ⟨h.base.toNat + span 24 pre', u, ?_, by omega, by omega⟩
    rw [hBase]
    exact mem_placed_append pre' ⟨u, true⟩ post'

variable {l : List Block} {c k : Nat}

theorem pointer_inside (hSound : Sound h l) (hLow : h.base.toNat ≤ c) (hHigh : c + 24 < h.base.toNat + span 24 l) :
    blockOf (ofNat 32 (c + 24)) = ofNat 32 c ∧ (ofNat 32 (c + 24) : U32) ≠ 0 ∧
      ¬ ((ofNat 32 (c + 24) : U32) < h.base + heapHeaderSize ∨ (ofNat 32 (c + 24) : U32) ≥ h.base + h.size) := by
  have hFits := hSound.fits
  have hPointer : (ofNat 32 (c + 24)).toNat = c + 24 := pointer_toNat (by omega)
  have hFirst := add_toNat (x := h.base) (y := heapHeaderSize) rfl (by decide : _ = 24) (by omega)
  have hEnd := add_toNat (x := h.base) rfl hSound.size (by omega)
  refine ⟨?_, ?_, ?_⟩
  · rw [blockOf, header_eq, ofNat_sub (by omega) (by omega), Nat.add_sub_cancel]
  · intro hZero
    rw [hZero] at hPointer
    change 0 = _ at hPointer
    omega
  · rw [ge_iff_le, BitVec.lt_def, BitVec.le_def, hPointer, hFirst, hEnd]
    omega

theorem heapFree_used (hSound : Sound h l) (hUsed : UsedAt 24 h.base.toNat l c k) :
    ∃ h' l', heapFree h (ofNat 32 (c + 24)) = some (h', .ok) ∧ Released h h' l l' c := by
  have hBounds := usedAt_bounds hUsed
  obtain ⟨pre, post, rfl, rfl⟩ := placed_split hUsed
  have hSize : 8 ≤ k := (hSound.sizes ⟨k, false⟩ (by simp)).1
  obtain ⟨hBlock, hNonzero, hInside⟩ := pointer_inside hSound hBounds.1 (by omega)
  obtain ⟨h', l', hResult, hReleased⟩ := heapGiveBack_released hSound
  refine ⟨h', l', ?_, hReleased⟩
  have hNode := hSound.suffix.1
  have hState : field h.mem (ofNat 32 (h.base.toNat + span 24 pre)) .state = heapStateUsed := hNode.state
  rw [heapFree, if_neg (by simp [hSound.inited]), if_neg hNonzero, if_neg hInside]
  simp only [hBlock]
  rw [if_neg (fun hNe => hNe hNode.magic), hState, if_neg (by decide), if_neg (by decide), hResult]
  rfl

theorem heapFree_stale (hSound : Sound h l) (hStale : Stale h l c) :
    heapFree h (ofNat 32 (c + 24)) = some (h, .doubleFree) := by
  obtain ⟨d, k, hMem, hLow, hHigh⟩ := hStale.inside
  have hBounds := placed_bounds hMem
  simp only at hBounds
  obtain ⟨hBlock, hNonzero, hInside⟩ := pointer_inside hSound (c := c) (by omega) (by omega)
  rw [heapFree, if_neg (by simp [hSound.inited]), if_neg hNonzero, if_neg hInside]
  simp only [hBlock]
  rw [if_neg (fun hNe => hNe hStale.magic), if_pos hStale.state]

theorem heapFree_refused (hSound : Sound h l) {ptr : U32}
    (hOutside : ptr = 0 ∨ ptr < h.base + heapHeaderSize ∨ ptr ≥ h.base + h.size) :
    heapFree h ptr = some (h, .badPointer) := by
  rw [heapFree, if_neg (by simp [hSound.inited])]
  obtain hNull | hApart := hOutside
  · rw [if_pos hNull]
  · rw [if_pos hApart]
    exact ite_self _

end

/-! # Clearing and moving payloads

`heapCalloc` writes into the block it got, and `heapRealloc` copies into the new
block before it gives the old one back.
-/

open BitVec (le_def ofNat)

variable {h h' : HeapT} {l l' : List Block} {n c k : Nat} {mem : Memory}

theorem Sound.congr (hSound : Sound h l)
    (hAgree : ∀ d b, (d, b) ∈ placed 24 h.base.toNat l → Agree h.mem mem d (d + 24)) : Sound { h with mem := mem } l :=
  { hSound with chain := hSound.chain.congr hSound.fits.le hAgree }

theorem header_apart {d : Nat} {b : Block} (hUsed : UsedAt 24 h.base.toNat l c k)
    (hMem : (d, b) ∈ placed 24 h.base.toNat l) : d + 24 ≤ c + 24 ∨ c + 24 + k ≤ d := by
  obtain rfl | hNe := eq_or_ne d c
  · exact .inl le_rfl
  · have hApart := placed_apart hMem hUsed hNe
    simp only at hApart
    omega

/-- The two memories differ at most in the `n` bytes from `a` on. -/
def WritesWithin (m m' : Memory) (a n : Nat) : Prop := ∀ lo hi, hi ≤ a ∨ a + n ≤ lo → Agree m m' lo hi

theorem Allocated.write (hAllocated : Allocated h h' l l' n c) (hWrites : WritesWithin h'.mem mem (c + 24) n) :
    Allocated h { h' with mem := mem } l l' n c := by
  obtain ⟨hSound, hBase, hGrow, hKept, ⟨m, hLe, hUsed⟩, hFresh⟩ := hAllocated
  have hHere : UsedAt 24 h'.base.toNat l' c m := by
    rw [hBase]
    exact (hUsed c m).mpr (.inl ⟨rfl, rfl⟩)
  refine ⟨?_, hBase, hGrow, ?_, ⟨m, hLe, hUsed⟩, hFresh⟩
  · apply hSound.congr
    intro d b hMem
    apply hWrites
    have hApart := header_apart hHere hMem
    omega
  · intro d j hUsedAt
    apply (hKept d j hUsedAt).trans
    apply hWrites
    have hOther := (hUsed d j).mpr (.inr hUsedAt)
    rw [hBase] at hHere
    have hApart := placed_apart hOther hHere (fun hEq => hFresh j (hEq ▸ hUsedAt))
    simp only at hApart
    omega

theorem fill_within (m : Memory) {a n : Nat} (byte : BitVec 8) (hFits : a + n ≤ 2 ^ 32) (hStart : a < 2 ^ 32) :
    WritesWithin m (fill m (ofNat 32 a) byte n) a n := by
  intro lo hi hApart
  have hPointer : (ofNat 32 a).toNat = a := pointer_toNat hStart
  apply fill_agree
  · rwa [hPointer]
  · rwa [hPointer]

theorem copy_within (m : Memory) {a n : Nat} (src : U32) (hFits : a + n ≤ 2 ^ 32) (hStart : a < 2 ^ 32) :
    WritesWithin m (copy m (ofNat 32 a) src n) a n := by
  intro lo hi hApart
  have hPointer : (ofNat 32 a).toNat = a := pointer_toNat hStart
  apply copy_agree
  · rwa [hPointer]
  · rwa [hPointer]

theorem payloadOf_ofNat (c : Nat) : payloadOf (ofNat 32 c) = ofNat 32 (c + 24) := by
  rw [payloadOf, header_eq, ofNat_add]

theorem Allocated.bounds (hAllocated : Allocated h h' l l' n c) : h.base.toNat ≤ c ∧ c + 24 + n < 2 ^ 32 := by
  obtain ⟨hSound, hBase, -, -, ⟨m, hLe, hUsed⟩, -⟩ := hAllocated
  have hBounds := usedAt_bounds ((hUsed c m).mpr (.inl ⟨rfl, rfl⟩))
  have hFits := hSound.fits
  rw [hBase] at hFits
  omega

theorem Allocated.nonzero (hAllocated : Allocated h h' l l' n c) : (ofNat 32 (c + 24) : U32) ≠ 0 := by
  have hBounds := hAllocated.bounds
  intro hZero
  have hNat := congrArg BitVec.toNat hZero
  rw [pointer_toNat (by omega)] at hNat
  change _ = 0 at hNat
  omega

theorem heapCalloc_refused {grow : Nat → U32 → U32} {count size total : U32} (hSound : Sound h l)
    (hTotal : callocTotal count size = some total) (hNoRoom : NoRoom h l grow total) :
    heapCalloc grow h count size = some ({ h with failCount := h.failCount + 1 }, 0) := by
  rw [heapCalloc, hTotal]
  simp only [heapAlloc_refused hSound hNoRoom, Option.bind_eq_bind, Option.bind_some]
  rfl

theorem heapCalloc_cleared {grow : Nat → U32 → U32} {count size total : U32} (hSound : Sound h l)
    (hTotal : callocTotal count size = some total) (hRoom : ¬ NoRoom h l grow total)
    (hFits : GrowFits h (grow 0) (roundedSize total)) : ∃ h' l' c, heapCalloc grow h count size =
        some ({ h' with mem := fill h'.mem (ofNat 32 (c + 24)) 0 total.toNat }, ofNat 32 (c + 24)) ∧
      Allocated h h' l l' (roundedSize total) c := by
  obtain ⟨h', l', c, hAlloc, hAllocated⟩ := heapAlloc_allocated hSound hRoom hFits
  refine ⟨h', l', c, ?_, hAllocated⟩
  rw [payloadOf_ofNat] at hAlloc
  rw [heapCalloc, hTotal]
  simp only [hAlloc, Option.bind_eq_bind, Option.bind_some, if_pos hAllocated.nonzero]

theorem heapCalloc_allocated {grow : Nat → U32 → U32} {count size total : U32} (hSound : Sound h l)
    (hTotal : callocTotal count size = some total) (hLe : total.toNat ≤ 2 ^ 32 - 8)
    (hRoom : ¬ NoRoom h l grow total) (hFits : GrowFits h (grow 0) (roundedSize total)) :
    ∃ h' l' c, heapCalloc grow h count size = some (h', ofNat 32 (c + 24)) ∧
      Allocated h h' l l' (roundedSize total) c := by
  obtain ⟨h₁, l₁, c, hCalloc, hAllocated⟩ := heapCalloc_cleared hSound hTotal hRoom hFits
  have hBounds := hAllocated.bounds
  have hCovers := (roundedSize_of_le hLe).2.2
  have hWrites : WritesWithin h₁.mem (fill h₁.mem (ofNat 32 (c + 24)) 0 total.toNat) (c + 24) (roundedSize total) := by
    intro lo hi hApart
    exact fill_within h₁.mem 0 (by omega) (by omega) lo hi (by omega)
  exact ⟨_, l₁, c, hCalloc, hAllocated.write hWrites⟩

/-- The blocks in use that are spared stay in use with their sizes and bytes. -/
def Keeps (h h' : HeapT) (l l' : List Block) (spared : U32 → Prop) : Prop :=
  ∀ d j, UsedAt 24 h.base.toNat l d j → spared (ofNat 32 (d + 24)) →
    UsedAt 24 h'.base.toNat l' d j ∧ Agree h.mem h'.mem (d + 24) (d + 24 + j)

theorem Keeps.same {spared : U32 → Prop} (hBase : h'.base = h.base) (hMem : h'.mem = h.mem) :
    Keeps h h' l l spared := by
  intro d j hUsed _
  rw [hBase, hMem]
  exact ⟨hUsed, fun _ _ _ => rfl⟩

theorem Allocated.keeps {spared : U32 → Prop} (hAllocated : Allocated h h' l l' n c) : Keeps h h' l l' spared := by
  intro d j hUsed _
  obtain ⟨m, -, hAfter⟩ := hAllocated.used
  rw [hAllocated.base]
  exact ⟨(hAfter d j).mpr (.inr hUsed), hAllocated.kept d j hUsed⟩

theorem Released.keeps (hReleased : Released h h' l l' c) : Keeps h h' l l' (ofNat 32 (c + 24) ≠ ·) := by
  intro d j hUsed hOther
  have hNe : d ≠ c := fun hSame => hOther (by rw [hSame])
  rw [hReleased.base]
  exact ⟨(hReleased.used d j).mpr ⟨hUsed, hNe⟩, hReleased.kept d j hUsed hNe⟩

/-- What `heapRealloc` does where the block of `k` bytes at `c` has to move to `c'`. -/
structure Moved (h h' : HeapT) (l l' : List Block) (n c k c' : Nat) : Prop where
  sound : Sound h' l'
  base : h'.base = h.base
  grow : h'.grow = h.grow
  used : ∃ m, n ≤ m ∧ ∀ d j, UsedAt 24 h.base.toNat l' d j ↔
    d = c' ∧ j = m ∨ UsedAt 24 h.base.toNat l d j ∧ d ≠ c
  fresh : ∀ j, ¬ UsedAt 24 h.base.toNat l c' j
  bytes : ∀ i < k, h'.mem (ofNat 32 (c' + 24 + i)) = h.mem (ofNat 32 (c + 24 + i))
  stale : Stale h' l' c

theorem Allocated.moved {c' : Nat} (hAllocated : Allocated h h' l l' n c') (hUsed : UsedAt 24 h.base.toNat l c k)
    (hSmall : k ≤ n) : ∃ h₂ l₂, heapFree { h' with mem := copy h'.mem (ofNat 32 (c' + 24)) (ofNat 32 (c + 24)) k }
        (ofNat 32 (c + 24)) = some (h₂, .ok) ∧ Moved h h₂ l l₂ n c k c' ∧ Keeps h h₂ l l₂ (ofNat 32 (c + 24) ≠ ·) := by
  have hBounds := hAllocated.bounds
  have hNe : c' ≠ c := fun hEq => hAllocated.fresh k (hEq ▸ hUsed)
  have hWrites : WritesWithin h'.mem (copy h'.mem (ofNat 32 (c' + 24)) (ofNat 32 (c + 24)) k) (c' + 24) n := by
    intro lo hi hApart
    exact copy_within h'.mem _ (by omega) (by omega) lo hi (by omega)
  obtain ⟨hSound, hBase, hGrow, hKept, ⟨m, hLe, hAfter⟩, hFresh⟩ := hAllocated.write hWrites
  have hOld : UsedAt 24 h'.base.toNat l' c k := by
    rw [show h'.base = h.base from hBase]
    exact (hAfter c k).mpr (.inr hUsed)
  obtain ⟨h₂, l₂, hFree, hReleased⟩ := heapFree_used hSound hOld
  have hKeeps : Keeps h h₂ l l₂ (ofNat 32 (c + 24) ≠ ·) := by
    intro d j hUsedAt hOther
    obtain ⟨hMiddle, hAgree⟩ := (hAllocated.write hWrites).keeps d j hUsedAt hOther
    exact (hReleased.keeps d j hMiddle hOther).imp_right hAgree.trans
  obtain ⟨hSound₂, hBase₂, hGrow₂, hUsed₂, hKept₂, hStale⟩ := hReleased
  simp only [show h'.base = h.base from hBase] at hBase₂ hUsed₂ hKept₂
  have hNew : UsedAt 24 h.base.toNat l' c' m := (hAfter c' m).mpr (.inl ⟨rfl, rfl⟩)
  refine ⟨h₂, l₂, hFree, ⟨hSound₂, hBase₂, hGrow₂.trans hGrow, ⟨m, hLe, ?_⟩, hFresh, ?_, hStale⟩, hKeeps⟩
  · intro d j
    rw [hUsed₂, hAfter]
    constructor
    · rintro ⟨hNew | hUsedAt, hOther⟩
      · exact .inl hNew
      · exact .inr ⟨hUsedAt, hOther⟩
    · rintro (⟨rfl, rfl⟩ | ⟨hUsedAt, hOther⟩)
      · exact ⟨.inl ⟨rfl, rfl⟩, hNe⟩
      · exact ⟨.inr hUsedAt, hOther⟩
  · intro i hi
    have hFits := hSound.fits
    rw [show ({ h' with mem := copy h'.mem _ _ k } : HeapT).base = h.base from hBase] at hFits
    have hOldFits := usedAt_bounds ((hAfter c k).mpr (.inr hUsed))
    have hTarget := hKept₂ c' m hNew hNe (ofNat 32 (c' + 24 + i))
      (by rw [pointer_toNat (by omega)]; omega) (by rw [pointer_toNat (by omega)]; omega)
    have hSource := hAllocated.kept c k hUsed (ofNat 32 (c + 24 + i))
      (by rw [pointer_toNat (by omega)]; omega) (by rw [pointer_toNat (by omega)]; omega)
    have hCopied := copy_byte h'.mem (ofNat 32 (c' + 24)) (ofNat 32 (c + 24)) hi (by omega)
    rw [ofNat_add, ofNat_add] at hCopied
    exact hTarget.trans (hCopied.trans hSource)

theorem alignUp8_idem (size : U32) : alignUp8 (alignUp8 size) = alignUp8 size := by
  have hUp := alignUp8_toNat size
  have hAgain := alignUp8_toNat (alignUp8 size)
  apply BitVec.eq_of_toNat_eq
  omega

theorem roundedSize_alignUp8 (size : U32) : roundedSize (alignUp8 size) = roundedSize size := by
  rw [roundedSize, roundSize, alignUp8_idem, roundedSize, roundSize]

theorem roundedSize_eq {size : U32} (hPositive : 0 < (alignUp8 size).toNat) :
    roundedSize size = (alignUp8 size).toNat := by
  rw [roundedSize, roundSize, if_neg]
  intro hZero
  rw [hZero] at hPositive
  exact absurd hPositive (by decide)

theorem realloc_used (hSound : Sound h l) (hUsed : UsedAt 24 h.base.toNat l c k) :
    (ofNat 32 (c + 24) : U32) ≠ 0 ∧ blockOf (ofNat 32 (c + 24)) = ofNat 32 c ∧
      field h.mem (ofNat 32 c) .magic = heapMagic ∧ field h.mem (ofNat 32 c) .state = heapStateUsed ∧
      field h.mem (ofNat 32 c) .size = ofNat 32 k := by
  have hBounds := usedAt_bounds hUsed
  obtain ⟨pre, post, rfl, rfl⟩ := placed_split hUsed
  have hSize : 8 ≤ k := (hSound.sizes ⟨k, false⟩ (by simp)).1
  obtain ⟨hBlock, hNonzero, -⟩ := pointer_inside hSound hBounds.1 (by omega)
  have hNode := hSound.suffix.1
  exact ⟨hNonzero, hBlock, hNode.magic, hNode.state, hNode.size⟩

variable {grow : Nat → U32 → U32} {size : U32}

variable (hSound : Sound h l)

include hSound

section

variable (hUsed : UsedAt 24 h.base.toNat l c k)

include hUsed

theorem heapRealloc_kept (hLe : (alignUp8 size).toNat ≤ k) :
    heapRealloc grow h (ofNat 32 (c + 24)) size = some (h, ofNat 32 (c + 24)) := by
  have hBounds := usedAt_bounds hUsed
  have hFits := hSound.fits
  obtain ⟨hNonzero, hBlock, hMagic, hState, hSize⟩ := realloc_used hSound hUsed
  have hEnough : ofNat 32 k ≥ alignUp8 size := by
    rw [ge_iff_le, le_def, pointer_toNat (by omega)]
    exact hLe
  rw [heapRealloc, if_neg (by simp [hSound.inited]), if_neg hNonzero]
  simp only [hBlock, hMagic, hState, hSize]
  rw [if_neg (by simp), if_pos hEnough]

theorem heapRealloc_grow (hGt : k < (alignUp8 size).toNat) : heapRealloc grow h (ofNat 32 (c + 24)) size = (do
      let (h, fresh) ← heapAlloc grow h (alignUp8 size) if fresh = 0 then some (h, 0) else
        let bytes := if field h.mem (ofNat 32 c) .size > alignUp8 size then alignUp8 size
          else field h.mem (ofNat 32 c) .size
        let (h, _) ← heapFree { h with mem := copy h.mem fresh (ofNat 32 (c + 24)) bytes.toNat } (ofNat 32 (c + 24))
        some (h, fresh)) := by
  obtain ⟨hNonzero, hBlock, hMagic, hState, hSize⟩ := realloc_used hSound hUsed
  have hShort : ¬ ofNat 32 k ≥ alignUp8 size := by
    rw [ge_iff_le, le_def, pointer_toNat (by omega)]
    exact not_le.mpr hGt
  rw [heapRealloc, if_neg (by simp [hSound.inited]), if_neg hNonzero]
  simp only [hBlock, hMagic, hState, hSize]
  rw [if_neg (by simp), if_neg hShort]

theorem heapRealloc_refused (hGt : k < (alignUp8 size).toNat) (hNoRoom : NoRoom h l grow size) :
    heapRealloc grow h (ofNat 32 (c + 24)) size = some ({ h with failCount := h.failCount + 1 }, 0) := by
  rw [NoRoom, ← roundedSize_alignUp8] at hNoRoom
  rw [heapRealloc_grow hSound hUsed hGt, heapAlloc_refused hSound hNoRoom]
  rfl

theorem heapRealloc_moved (hGt : k < (alignUp8 size).toNat) (hRoom : ¬ NoRoom h l grow size)
    (hFits : GrowFits h (grow 0) (roundedSize size)) :
    ∃ h' l' c', heapRealloc grow h (ofNat 32 (c + 24)) size = some (h', ofNat 32 (c' + 24)) ∧
      Moved h h' l l' (alignUp8 size).toNat c k c' ∧ Keeps h h' l l' (ofNat 32 (c + 24) ≠ ·) := by
  rw [NoRoom, ← roundedSize_alignUp8] at hRoom
  rw [← roundedSize_alignUp8] at hFits
  obtain ⟨h₁, l₁, c', hAlloc, hAllocated⟩ := heapAlloc_allocated hSound hRoom hFits
  rw [roundedSize_alignUp8, roundedSize_eq (by omega)] at hAllocated
  have hOld : UsedAt 24 h₁.base.toNat l₁ c k := by
    obtain ⟨m, -, hAfter⟩ := hAllocated.used
    rw [hAllocated.base]
    exact (hAfter c k).mpr (.inr hUsed)
  have hSize := (realloc_used hAllocated.sound hOld).2.2.2.2
  have hBytes : (if ofNat 32 k > alignUp8 size then alignUp8 size else ofNat 32 k).toNat = k := by
    rw [if_neg, pointer_toNat (by omega)]
    rw [gt_iff_lt, BitVec.lt_def, pointer_toNat (by omega)]
    omega
  obtain ⟨h₂, l₂, hFree, hMoved⟩ := hAllocated.moved hUsed hGt.le
  refine ⟨h₂, l₂, c', ?_, hMoved⟩
  rw [payloadOf_ofNat] at hAlloc
  rw [heapRealloc_grow hSound hUsed hGt, hAlloc]
  simp only [Option.bind_eq_bind, Option.bind_some, if_neg hAllocated.nonzero, hSize, hBytes, hFree]

end

theorem heapRealloc_null : heapRealloc grow h 0 size = heapAlloc grow h size := by
  rw [heapRealloc, if_neg (by simp [hSound.inited]), if_pos rfl]

theorem heapRealloc_stale (hStale : Stale h l c) : heapRealloc grow h (ofNat 32 (c + 24)) size = some (h, 0) := by
  obtain ⟨d, k, hMem, hLow, hHigh⟩ := hStale.inside
  have hBounds := placed_bounds hMem
  simp only at hBounds
  obtain ⟨hBlock, hNonzero, -⟩ := pointer_inside hSound (c := c) (by omega) (by omega)
  rw [heapRealloc, if_neg (by simp [hSound.inited]), if_neg hNonzero]
  simp only [hBlock, hStale.magic, hStale.state]
  rw [if_pos (.inr (by decide))]

end OpenXJ380.Heap
