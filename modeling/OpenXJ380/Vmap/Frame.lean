import OpenXJ380.Vmap.AddressSpace

/-! # The second-level entry of a page

What each operation does to the entry of its own page, and that it leaves the
entries of other pages alone.
-/

namespace OpenXJ380.Vmap

open Mmu

structure SameWindow (v v' : VmapT) : Prop where
  inited : v'.inited = v.inited
  vaBegin : v'.vaBegin = v.vaBegin
  vaEnd : v'.vaEnd = v.vaEnd
  l2PoolPa : v'.l2PoolPa = v.l2PoolPa
  l2Capacity : v'.l2Capacity = v.l2Capacity
  l1 : v.l2PoolPa &&& (vmapL2Align - 1) ≠ 0 → v'.l1 = v.l1

theorem SameWindow.refl (v : VmapT) : SameWindow v v := ⟨rfl, rfl, rfl, rfl, rfl, fun _ => rfl⟩

variable {v v' : VmapT}

theorem SameWindow.trans {v'' : VmapT} (h : SameWindow v v') (h' : SameWindow v' v'') : SameWindow v v'' :=
  ⟨h'.inited.trans h.inited, h'.vaBegin.trans h.vaBegin, h'.vaEnd.trans h.vaEnd,
    h'.l2PoolPa.trans h.l2PoolPa, h'.l2Capacity.trans h.l2Capacity,
    fun hBad => (h'.l1 (by rwa [h.l2PoolPa])).trans (h.l1 hBad)⟩

theorem SameWindow.symm (h : SameWindow v v') : SameWindow v' v :=
  ⟨h.inited.symm, h.vaBegin.symm, h.vaEnd.symm, h.l2PoolPa.symm, h.l2Capacity.symm,
    fun hBad => (h.l1 (by rwa [← h.l2PoolPa])).symm⟩

theorem SameWindow.accepted (h : SameWindow v v') {va : U32} (hAccepted : Accepted v va) : Accepted v' va := by
  refine ⟨h.inited.trans hAccepted.inited, ?_, hAccepted.aligned⟩
  rw [inRange, h.vaBegin, h.vaEnd]
  exact hAccepted.range

theorem freshEntry_aligned (v : VmapT) :
    v.freshEntry &&& (vmapL2Align - 1) = 0 ↔ v.l2PoolPa &&& (vmapL2Align - 1) = 0 := by
  rw [l2Aligned_iff, l2Aligned_iff, VmapT.freshEntry, BitVec.toNat_add, BitVec.toNat_ofNat]
  simp only [freshTable, vmapL2Entries]
  omega

section

variable {v'' : VmapT} {va pa : U32}

/-- Entries that are no sections stay, and no word begins to look like one. -/
structure Milder (v v' : VmapT) : Prop where
  window : SameWindow v v'
  l1 : ∀ i, l1Type (v.l1 i) ≠ mmuL1TypeSection → v'.l1 i = v.l1 i
  word : ∀ w, v'.l2Pool w = v.l2Pool w ∨ v'.l2Pool w ≠ vmapResultSection

theorem Milder.refl (v : VmapT) : Milder v v := ⟨.refl v, fun _ _ => rfl, fun _ => .inl rfl⟩

theorem Milder.trans (h : Milder v v') (h' : Milder v' v'') : Milder v v'' := by
  refine ⟨h.window.trans h'.window, fun i hi => ?_, fun w => ?_⟩
  · have hFirst := h.l1 i hi
    rw [h'.l1 i (by rwa [hFirst]), hFirst]
  · obtain hSame | hOther := h'.word w
    · rw [hSame]
      exact h.word w
    · exact .inr hOther

theorem Milder.of_write {desc : U32} (statMap statUnmap : U32) (l2 : Nat) (va : U32)
    (hDesc : desc ≠ vmapResultSection) :
    Milder v { v.write l2 va desc with statMap := statMap, statUnmap := statUnmap } := by
  refine ⟨⟨rfl, rfl, rfl, rfl, rfl, fun _ => rfl⟩, fun _ _ => rfl, fun w => ?_⟩
  simp only [VmapT.write, Function.update_apply]
  split
  · exact .inr hDesc
  · exact .inl rfl

theorem splitPool_word (v : VmapT) (va : U32) (w : Nat) :
    v.splitPool va w = v.l2Pool w ∨ v.splitPool va w ≠ vmapResultSection := by
  by_cases hInside : freshTable v ≤ w ∧ w < freshTable v + vmapL2Entries
  · obtain ⟨page, rfl⟩ := Nat.exists_eq_add_of_le hInside.1
    rw [splitPool_inside va (by omega)]
    exact .inr (smallPageDescriptor_ne_section _ _)
  · exact .inl (splitPool_outside va hInside)

theorem consumed_milder (v : VmapT) (va : U32) : Milder v (v.consumed va) := by
  refine ⟨⟨rfl, rfl, rfl, rfl, rfl, fun _ => rfl⟩, fun _ _ => rfl, fun w => ?_⟩
  have hPool : (v.consumed va).l2Pool = v.splitPool va := by rw [VmapT.consumed]
  rw [hPool]
  exact splitPool_word v va w

theorem splitted_milder (hSection : l1Type (v.l1 (vmapL1Index va)) = mmuL1TypeSection)
    (hAligned : v.freshEntry &&& (vmapL2Align - 1) = 0) : Milder v (v.splitted va) := by
  refine ⟨⟨rfl, rfl, rfl, rfl, rfl, fun hBad => absurd ((freshEntry_aligned v).mp hAligned) hBad⟩,
    fun i hi => ?_, fun w => ?_⟩
  · exact Function.update_of_ne (fun hSame => hi (by rw [hSame]; exact hSection)) _ _
  · rw [splitted_l2Pool]
    exact splitPool_word v va w

theorem split_milder (v : VmapT) (va : U32) : Milder v (vmapSplitSection v va).1 := by
  by_cases hAccepted : Accepted v va
  · rw [vmapSplitSection_eq hAccepted.inited hAccepted.range hAccepted.aligned]
    split_ifs with hTable hOther hFull hMisaligned
    · exact .refl v
    · exact .refl v
    · exact .refl v
    · exact consumed_milder v va
    · exact splitted_milder (not_not.mp hOther) (not_not.mp hMisaligned)
  · obtain ⟨e, -, hEq⟩ := vmapSplitSection_refused hAccepted
    rw [hEq]
    exact .refl v

theorem mapped_milder (v : VmapT) (l2 : Nat) (va pa : U32) (attr : VmapAttr) : Milder v (v.mapped l2 va pa attr) :=
  .of_write _ v.statUnmap l2 va (smallPageDescriptor_ne_section pa attr)

theorem map_milder (v : VmapT) (va pa : U32) (attr : Option VmapAttr) : Milder v (vmapMap v va pa attr).1 := by
  have hMaps := vmapMap_maps v va pa attr
  generalize vmapMap v va pa attr = r at hMaps ⊢
  cases hMaps with
  | kept => exact .refl v
  | consumed => exact consumed_milder v va
  | outside _ _ hSplits hAligned => exact splitted_milder hSplits.isSection hAligned
  | split _ hSplits hAligned =>
    exact (splitted_milder hSplits.isSection hAligned).trans (mapped_milder _ _ va pa _)
  | table => exact mapped_milder v _ va pa _
  | unlinked =>
    have hFresh : Milder v { v with l2Used := v.l2Used + 1, l2Pool := zeroTable v.l2Pool (freshTable v) } := by
      refine ⟨⟨rfl, rfl, rfl, rfl, rfl, fun _ => rfl⟩, fun _ _ => rfl, fun w => ?_⟩
      simp only [zeroTable]
      split
      · exact .inr (by decide)
      · exact .inl rfl
    exact hFresh.trans (mapped_milder _ (freshTable v) va pa _)

theorem unmap_milder (v : VmapT) (va : U32) : Milder v (vmapUnmap v va).1 := by
  obtain ⟨e, -, hEq⟩ | ⟨l2, -, hEq⟩ := vmapUnmap_cases v va
  · rw [hEq]
    exact .refl v
  · rw [hEq]
    exact .of_write v.statMap _ l2 va (by decide)

theorem setAttr_milder (v : VmapT) (va : U32) (attr : Option VmapAttr) : Milder v (vmapSetAttr v va attr).1 := by
  obtain ⟨e, -, hEq⟩ | ⟨-, -, a, l2, -, -, hEq⟩ := vmapSetAttr_cases v va attr
  · rw [hEq]
    exact .refl v
  · rw [hEq]
    exact .of_write v.statMap v.statUnmap l2 va (smallPageDescriptor_ne_section _ _)

end

theorem split_window (v : VmapT) (va : U32) : SameWindow v (vmapSplitSection v va).1 := (split_milder v va).window

theorem map_window (v : VmapT) (va pa : U32) (attr : Option VmapAttr) : SameWindow v (vmapMap v va pa attr).1 :=
  (map_milder v va pa attr).window

theorem unmap_window (v : VmapT) (va : U32) : SameWindow v (vmapUnmap v va).1 := (unmap_milder v va).window

theorem setAttr_window (v : VmapT) (va : U32) (attr : Option VmapAttr) : SameWindow v (vmapSetAttr v va attr).1 :=
  (setAttr_milder v va attr).window

theorem Changes.window {allowed : U32 → Prop} (hAligned : v.l2PoolPa &&& (vmapL2Align - 1) = 0)
    (h : Changes allowed v v') : SameWindow v v' := by
  induction h with
  | refl => exact .refl v
  | tail _ hLast ih =>
    apply ih.trans
    cases hLast with
    | write => exact ⟨rfl, rfl, rfl, rfl, rfl, fun _ => rfl⟩
    | split => exact ⟨rfl, rfl, rfl, rfl, rfl, fun hBad => absurd (ih.l2PoolPa ▸ hAligned) hBad⟩

/-- The second-level entry of a page, or `none` where the walk does not reach one in the pool. -/
def VmapT.entry (v : VmapT) (va : U32) : Option U32 :=
  (v.table (vmapL1Index va)).map fun l2 => v.l2Pool (l2 + (vmapL2Index va).toNat)

/-- The pool is physical memory: it does not wrap around and is not the whole address space. -/
structure PoolFits (v : VmapT) : Prop where
  fits : v.l2PoolPa.toNat + 1024 * v.l2Capacity.toNat ≤ 2 ^ 32
  span : v.l2Capacity.toNat < 2 ^ 22

theorem SameWindow.poolFits (h : SameWindow v v') (hFits : PoolFits v) : PoolFits v' :=
  ⟨by rw [h.l2PoolPa, h.l2Capacity]; exact hFits.fits, by rw [h.l2Capacity]; exact hFits.span⟩

variable {v : VmapT} {untouched : BitVec 12 → U32 → Prop} {owners : List (BitVec 12)}

theorem PoolFits.l2FromPa_tablePa (h : PoolFits v) {k : Nat} (hk : k < v.l2Capacity.toNat) :
    l2FromPa v (v.tablePa k) = some (vmapL2Entries * k) := by
  have hFits := h.fits
  have hSpan := h.span
  have hPa : (v.tablePa k).toNat = v.l2PoolPa.toNat + 1024 * k := by
    rw [VmapT.tablePa, BitVec.toNat_add, BitVec.toNat_ofNat]
    omega
  have hOffset : v.tablePa k - v.l2PoolPa = BitVec.ofNat 32 (1024 * k) := by
    rw [VmapT.tablePa, BitVec.add_comm, BitVec.add_sub_cancel]
  have hSpanNat : (v.l2Capacity * 256 * 4).toNat = 1024 * v.l2Capacity.toNat := by
    rw [BitVec.toNat_mul, BitVec.toNat_mul]
    change v.l2Capacity.toNat * 256 % 2 ^ 32 * 4 % 2 ^ 32 = _
    omega
  have hInside : ¬ (v.tablePa k < v.l2PoolPa ∨ v.tablePa k - v.l2PoolPa ≥ v.l2Capacity * 256 * 4) := by
    rw [BitVec.lt_def, ge_iff_le, BitVec.le_def, hSpanNat, hPa, hOffset, BitVec.toNat_ofNat]
    omega
  simp only [l2FromPa]
  rw [if_neg hInside, hOffset, BitVec.toNat_ofNat, vmapL2Entries]
  congr 1
  omega

theorem Tables.table_owner (h : Tables v untouched owners) (hFits : PoolFits v) {k : Nat}
    (hk : k < owners.length) : v.table owners[k] = some (vmapL2Entries * k) := by
  obtain ⟨domain, hEntry⟩ := h.tables k hk
  have hCapacity : k < v.l2Capacity.toNat := by
    have hRoom := h.room
    rw [BitVec.le_def, h.used] at hRoom
    omega
  rw [VmapT.table, if_pos (h.owner_type (List.getElem_mem hk)), hEntry,
    pageTableDescriptor_base _ (h.tablePa_aligned k), hFits.l2FromPa_tablePa hCapacity]

theorem Tables.owner_of_table (h : Tables v untouched owners) {i : BitVec 12} {l2 : Nat}
    (hLinked : ∀ desc, untouched i desc → l1Type desc = mmuL1TypeSection) (hTable : v.table i = some l2) :
    i ∈ owners := by
  by_contra hOther
  have hSection := hLinked _ (h.others i hOther)
  rw [VmapT.table, hSection, if_neg section_ne_pageTable] at hTable
  cases hTable

variable {va : U32}

theorem Tables.entry_change (h : Tables v untouched owners) (hFits : PoolFits v) {allowed : U32 → Prop}
    (hLinked : ∀ va, allowed va → ∀ desc, untouched (vmapL1Index va) desc → l1Type desc = mmuL1TypeSection)
    {v' : VmapT} (hChange : Change allowed v v') {w : U32} (hOwner : vmapL1Index va ∈ owners)
    (hAway : ∀ u, allowed u → u >>> 12 ≠ va >>> 12) (hEntry : v.entry va = some w) : v'.entry va = some w := by
  obtain ⟨k, hk, hIndex⟩ := List.getElem_of_mem hOwner
  have hTable := h.table_owner hFits hk
  rw [hIndex] at hTable
  have hWord : v.l2Pool (vmapL2Entries * k + (vmapL2Index va).toNat) = w := by
    rw [VmapT.entry, hTable] at hEntry
    exact Option.some.inj hEntry
  have hPage := (vmapL2Index va).isLt
  cases hChange with
  | @write l2 u desc statMap statUnmap hAllowed hWritten =>
    obtain ⟨m, hm, hOther⟩ := List.getElem_of_mem (h.owner_of_table (hLinked u hAllowed) hWritten)
    have hOtherTable := h.table_owner hFits hm
    rw [hOther, hWritten] at hOtherTable
    cases hOtherTable
    have hNe := slot_ne hk hm (hAway u hAllowed) hIndex hOther
    change ((v.table (vmapL1Index va)).map fun l2 => _) = _
    rw [hTable]
    simp only [Option.map_some, VmapT.write]
    rw [Function.update_of_ne hNe, hWord]
  | @split u hSection hRoom =>
    have hOther : vmapL1Index va ≠ vmapL1Index u := by
      intro hEq
      rw [← hEq, h.owner_type hOwner] at hSection
      cases hSection
    rw [VmapT.entry, splitted_table_other hOther, hTable, Option.map_some, splitted_l2Pool, splitPool_outside, hWord]
    rw [h.freshTable_eq]
    rintro ⟨hLow, -⟩
    simp only [vmapL2Entries] at hLow
    omega

theorem Tables.entry_changes (h : Tables v untouched owners) (hFits : PoolFits v) (allowed : U32 → Prop)
    (hLinked : ∀ va, allowed va → ∀ desc, untouched (vmapL1Index va) desc → l1Type desc = mmuL1TypeSection)
    {v' : VmapT} (hChanges : Changes allowed v v') {w : U32} (hOwner : vmapL1Index va ∈ owners)
    (hAway : ∀ u, allowed u → u >>> 12 ≠ va >>> 12) (hEntry : v.entry va = some w) : v'.entry va = some w := by
  induction hChanges with
  | refl => exact hEntry
  | tail hInit hLast ih =>
    obtain ⟨mid, hPrefix, hMid⟩ := h.changes hInit
    exact hMid.entry_change ((Changes.window h.aligned hInit).poolFits hFits) hLinked hLast
        (hPrefix.subset hOwner) hAway ih

theorem entry_write_self {l2 : Nat} (desc statMap statUnmap : U32) (hTable : v.table (vmapL1Index va) = some l2) :
    VmapT.entry { v.write l2 va desc with statMap := statMap, statUnmap := statUnmap } va = some desc := by
  change ((v.table (vmapL1Index va)).map fun l2 => _) = _
  rw [hTable]
  simp only [Option.map_some, VmapT.write, Function.update_self]

theorem split_accepted (hNot : (vmapSplitSection v va).2 ∉ refusals) : Accepted v va := by
  by_contra hRefused
  obtain ⟨e, hError, hEq⟩ := vmapSplitSection_refused hRefused
  rw [hEq] at hNot
  exact hNot hError

theorem split_ne_notMapped (v : VmapT) (va : U32) : (vmapSplitSection v va).2 ≠ .notMapped := by
  obtain hAccepted | hRefused := Classical.em (Accepted v va)
  · rw [vmapSplitSection_eq hAccepted.inited hAccepted.range hAccepted.aligned]
    split_ifs <;> exact nofun
  · obtain ⟨e, hError, hEq⟩ := vmapSplitSection_refused hRefused
    rw [hEq]
    exact ne_of_refusal hError (by decide)

theorem unmap_accepted (hNot : (vmapUnmap v va).2 ∉ refusals) : Accepted v va := by
  by_contra hRefused
  obtain ⟨e, hError, hEq⟩ := vmapUnmap_refused hRefused
  rw [hEq] at hNot
  exact hNot hError

theorem unmap_ok (hOk : (vmapUnmap v va).2 = .ok) : (vmapUnmap v va).1.entry va = some 0 := by
  obtain ⟨e, hErr, hEq⟩ | ⟨l2, hTable, hEq⟩ := vmapUnmap_cases v va
  · rw [hEq] at hOk
    exact absurd hOk hErr
  · rw [hEq]
    exact entry_write_self 0 v.statMap (v.statUnmap + 1) hTable

theorem unmap_tolerated (h : Accepted v va) :
    (vmapUnmap v va).2 = .ok ∨ (vmapUnmap v va).2 = .notMapped ∨ (vmapUnmap v va).2 = .isSection := by
  rw [vmapUnmap_eq h]
  split_ifs
  · exact .inr (.inl rfl)
  · exact .inr (.inr rfl)
  · cases v.table (vmapL1Index va) with
    | none => exact .inr (.inl rfl)
    | some l2 => exact .inl rfl

theorem Tables.unmap_notMapped (h : Tables v untouched owners) (hFits : PoolFits v)
    (hLinked : ∀ desc, untouched (vmapL1Index va) desc → l1Type desc = mmuL1TypeSection)
    (hNotMapped : (vmapUnmap v va).2 = .notMapped) : (vmapUnmap v va).1 = v ∧ v.entry va = some 0 := by
  have hAccepted : Accepted v va := unmap_accepted (by rw [hNotMapped]; decide)
  have hZero : vmapLookup v va = 0 → v.entry va = some 0 := by
    intro hZero
    have hNotSection : l1Type (v.l1 (vmapL1Index va)) ≠ mmuL1TypeSection := by
      intro hSection
      rw [vmapLookup_section hAccepted.inited hAccepted.range hSection] at hZero
      cases hZero
    have hOwner : vmapL1Index va ∈ owners := by
      by_contra hOther
      exact hNotSection (hLinked _ (h.others _ hOther))
    obtain ⟨k, hk, hIndex⟩ := List.getElem_of_mem hOwner
    have hTable := h.table_owner hFits hk
    rw [hIndex] at hTable
    rw [vmapLookup_table hAccepted.inited hAccepted.range hTable] at hZero
    rw [VmapT.entry, hTable, Option.map_some, hZero]
  rw [vmapUnmap_eq hAccepted] at hNotMapped ⊢
  split_ifs at hNotMapped ⊢ with hClear hSection
  · exact ⟨rfl, hZero hClear⟩
  · cases hTable : v.table (vmapL1Index va) with
    | none =>
      have hNotSection : l1Type (v.l1 (vmapL1Index va)) ≠ mmuL1TypeSection := fun hKind =>
        hSection (vmapLookup_section hAccepted.inited hAccepted.range hKind)
      rw [vmapLookup_eq hAccepted.inited hAccepted.range hNotSection, hTable] at hClear
      exact absurd rfl hClear
    | some l2 =>
      rw [hTable] at hNotMapped
      cases hNotMapped

theorem Tables.kind (h : Tables v untouched owners)
    (hLinked : ∀ desc, untouched (vmapL1Index va) desc → l1Type desc = mmuL1TypeSection) :
    l1Type (v.l1 (vmapL1Index va)) = mmuL1TypeSection ∨ l1Type (v.l1 (vmapL1Index va)) = mmuL1TypePageTable := by
  obtain hOwner | hOther := Classical.em (vmapL1Index va ∈ owners)
  · exact .inr (h.owner_type hOwner)
  · exact .inl (hLinked _ (h.others _ hOther))

theorem map_ok {pa : U32} {attr : VmapAttr} (hKind : l1Type (v.l1 (vmapL1Index va)) = mmuL1TypeSection ∨
      l1Type (v.l1 (vmapL1Index va)) = mmuL1TypePageTable) (hOk : (vmapMap v va pa (some attr)).2 = .ok) :
    (vmapMap v va pa (some attr)).1.entry va = some (mmuSmallPageDescriptor pa (pageAttrOf attr)) := by
  have hMaps := vmapMap_maps v va pa (some attr)
  generalize vmapMap v va pa (some attr) = r at hMaps hOk ⊢
  cases hMaps with
  | kept hErr => exact absurd hOk hErr
  | consumed => cases hOk
  | outside => cases hOk
  | split hAttr _ hAligned hPool =>
    cases hAttr
    exact entry_write_self _ (v.statMap + 1) v.statUnmap ((splitted_table_self hAligned).trans hPool)
  | table hAttr _ _ hTable =>
    cases hAttr
    exact entry_write_self _ (v.statMap + 1) v.statUnmap hTable
  | unlinked _ _ hTable hSection => exact absurd hKind (not_or.mpr ⟨hSection, hTable⟩)

theorem map_accepted {pa : U32} {attr : Option VmapAttr} (hOk : (vmapMap v va pa attr).2 = .ok) : Accepted v va := by
  by_contra hRefused
  obtain ⟨e, hError, hEq⟩ := @vmapMap_refused v va pa attr (.inr (.inl hRefused))
  rw [hEq] at hOk
  exact absurd hOk (ne_of_refusal hError (by decide))

theorem setAttr_accepted {attr : Option VmapAttr} (hAligned : va &&& (vmapPageSize - 1) = 0)
    (hOk : (vmapSetAttr v va attr).2 = .ok) : Accepted v va := by
  obtain ⟨e, hErr, hEq⟩ | ⟨hInited, hRange, -⟩ := vmapSetAttr_cases v va attr
  · rw [hEq] at hOk
    exact absurd hOk hErr
  · exact ⟨hInited, hRange, hAligned⟩

theorem setAttr_ok {attr : VmapAttr} (hOk : (vmapSetAttr v va (some attr)).2 = .ok) :
    ∃ pa, (vmapSetAttr v va (some attr)).1.entry va = some (mmuSmallPageDescriptor pa (pageAttrOf attr)) := by
  obtain ⟨e, hErr, hEq⟩ | ⟨-, -, a, l2, ⟨⟩, hTable, hEq⟩ := vmapSetAttr_cases v va (some attr)
  · rw [hEq] at hOk
    exact absurd hOk hErr
  · rw [hEq]
    exact ⟨_, entry_write_self _ v.statMap v.statUnmap hTable⟩

end OpenXJ380.Vmap
