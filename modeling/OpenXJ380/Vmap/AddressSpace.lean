import OpenXJ380.Lib.Transition
import OpenXJ380.Vmap.Visible

/-! # Every table has one owner

The tables handed out so far belong to distinct first-level entries, in the
order of their splits. Every operation is a chain of splits and of writes to a
table that is linked, and neither takes a table away from its owner.
-/

namespace OpenXJ380.Vmap

open Mmu

theorem l2Aligned_iff (w : U32) : w &&& (vmapL2Align - 1) = 0 ↔ w.toNat % 1024 = 0 := by
  have hNat : (w &&& (vmapL2Align - 1)).toNat = w.toNat % 1024 := by
    rw [BitVec.toNat_and]
    exact Nat.and_two_pow_sub_one_eq_mod w.toNat 10
  rw [← hNat]
  exact BitVec.toNat_eq.trans (by rfl)

def VmapT.tablePa (v : VmapT) (k : Nat) : U32 := v.l2PoolPa + BitVec.ofNat 32 (1024 * k)

/-- `owners` lists the split entries; the others still meet `untouched`. -/
structure Tables (v : VmapT) (untouched : BitVec 12 → U32 → Prop) (owners : List (BitVec 12)) : Prop where
  aligned : v.l2PoolPa &&& (vmapL2Align - 1) = 0
  nodup : owners.Nodup
  used : v.l2Used.toNat = owners.length
  room : v.l2Used ≤ v.l2Capacity
  tables : ∀ k (hk : k < owners.length), ∃ domain, v.l1 owners[k] = mmuPageTableDescriptor (v.tablePa k) domain
  others : ∀ i, i ∉ owners → untouched i (v.l1 i)

/-- One elementary change: a write for an allowed page to a linked table, or a split. -/
inductive Change (allowed : U32 → Prop) (v : VmapT) : VmapT → Prop
  | write {l2 : Nat} {va : U32} (desc statMap statUnmap : U32) (hAllowed : allowed va)
      (hTable : v.table (vmapL1Index va) = some l2) :
      Change allowed v { v.write l2 va desc with statMap := statMap, statUnmap := statUnmap }
  | split {va : U32} (hSection : l1Type (v.l1 (vmapL1Index va)) = mmuL1TypeSection)
      (hRoom : v.l2Used < v.l2Capacity) : Change allowed v (v.splitted va)

abbrev Changes (allowed : U32 → Prop) : VmapT → VmapT → Prop := Relation.ReflTransGen (Change allowed)

section

variable {v : VmapT} {untouched : BitVec 12 → U32 → Prop} {owners : List (BitVec 12)}
  {allowed : U32 → Prop}

section

variable (h : Tables v untouched owners)

include h

theorem Tables.length_le : owners.length ≤ 4096 := by
  have hNodup : (owners.map BitVec.toFin).Nodup := by
    apply h.nodup.map
    intro i j hEq
    exact BitVec.eq_of_toFin_eq hEq
  have hCard := hNodup.length_le_card
  rw [List.length_map, Fintype.card_fin] at hCard
  exact hCard

theorem Tables.freshTable_eq : freshTable v = vmapL2Entries * owners.length := by
  have hLength := h.length_le
  have hUsed := h.used
  simp only [freshTable, vmapL2Entries]
  omega

theorem Tables.freshEntry_eq : v.freshEntry = v.tablePa owners.length := by
  rw [VmapT.freshEntry, VmapT.tablePa, h.freshTable_eq, vmapL2Entries]
  congr 2
  omega

theorem Tables.tablePa_aligned (k : Nat) : v.tablePa k &&& (vmapL2Align - 1) = 0 := by
  have hBase := h.aligned
  rw [l2Aligned_iff] at hBase ⊢
  rw [VmapT.tablePa, BitVec.toNat_add, BitVec.toNat_ofNat]
  omega

theorem Tables.tablePa_inj {j k : Nat} (hj : j ≤ owners.length)
    (hk : k ≤ owners.length) (hEq : v.tablePa j = v.tablePa k) : j = k := by
  have hLength := h.length_le
  have hOffset := (BitVec.add_right_inj (v.l2PoolPa)).mp hEq
  have hNat := congrArg BitVec.toNat hOffset
  rw [BitVec.toNat_ofNat, BitVec.toNat_ofNat] at hNat
  omega

theorem Tables.owner_type {i : BitVec 12} (hi : i ∈ owners) : l1Type (v.l1 i) = mmuL1TypePageTable := by
  obtain ⟨k, hk, rfl⟩ := List.getElem_of_mem hi
  obtain ⟨domain, hEntry⟩ := h.tables k hk
  rw [hEntry]
  exact pageTableDescriptor_type _ _

theorem Tables.write (l2 : Nat) (va desc statMap statUnmap : U32) :
    Tables { v.write l2 va desc with statMap := statMap, statUnmap := statUnmap } untouched owners :=
  { h with }

theorem Tables.splitted {va : U32}
    (hSection : l1Type (v.l1 (vmapL1Index va)) = mmuL1TypeSection) (hRoom : v.l2Used < v.l2Capacity) :
    Tables (v.splitted va) untouched (owners ++ [vmapL1Index va]) := by
  have hNew : vmapL1Index va ∉ owners := by
    intro hOld
    rw [h.owner_type hOld] at hSection
    cases hSection
  have hUsed : (v.l2Used + 1).toNat = owners.length + 1 := by
    have hLength := h.length_le
    have hOne : (1 : U32).toNat = 1 := rfl
    rw [BitVec.toNat_add, h.used, hOne]
    omega
  refine ⟨h.aligned, ?_, ?_, ?_, ?_, ?_⟩
  · rw [List.nodup_append]
    refine ⟨h.nodup, List.nodup_singleton _, ?_⟩
    rintro i hi _ hj rfl
    rw [List.mem_singleton.mp hj] at hi
    exact hNew hi
  · rw [List.length_append, List.length_singleton]
    exact hUsed
  · change v.l2Used + 1 ≤ v.l2Capacity
    rw [BitVec.le_def, hUsed, ← h.used]
    exact hRoom
  · intro k hk
    rw [List.length_append, List.length_singleton] at hk
    simp only [VmapT.splitted]
    obtain hOld | hLast := lt_or_ge k owners.length
    · have hNe : owners[k] ≠ vmapL1Index va := fun hEq => hNew (hEq ▸ List.getElem_mem hOld)
      rw [List.getElem_append_left hOld, Function.update_of_ne hNe]
      exact h.tables k hOld
    · obtain rfl : k = owners.length := by omega
      rw [List.getElem_append_right le_rfl]
      simp only [Nat.sub_self, List.getElem_cons_zero, Function.update_self]
      exact ⟨_, by rw [h.freshEntry_eq]; rfl⟩
  · intro i hi
    rw [List.mem_append, not_or, List.mem_singleton] at hi
    simp only [VmapT.splitted]
    rw [Function.update_of_ne hi.2]
    exact h.others i hi.1

theorem Tables.change {v' : VmapT} (hChange : Change allowed v v') :
    ∃ owners', owners <+: owners' ∧ Tables v' untouched owners' := by
  cases hChange with
  | write desc statMap statUnmap _ _ => exact ⟨owners, List.prefix_refl _, h.write _ _ desc statMap statUnmap⟩
  | split hSection hRoom => exact ⟨_, List.prefix_append _ _, h.splitted hSection hRoom⟩

theorem Tables.changes {v' : VmapT} (hChanges : Changes allowed v v') :
    ∃ owners', owners <+: owners' ∧ Tables v' untouched owners' := by
  induction hChanges with
  | refl => exact ⟨owners, List.prefix_refl _, h⟩
  | tail _ hLast ih =>
    obtain ⟨mid, hPrefix, hMid⟩ := ih
    obtain ⟨owners', hMore, hAfter⟩ := hMid.change hLast
    exact ⟨owners', hPrefix.trans hMore, hAfter⟩

theorem Tables.fresh_aligned : v.freshEntry &&& (vmapL2Align - 1) = 0 := by
  rw [h.freshEntry_eq]
  exact h.tablePa_aligned _

theorem Tables.split_cases (va : U32) : (vmapSplitSection v va).1 = v ∨
      Accepted v va ∧ l1Type (v.l1 (vmapL1Index va)) = mmuL1TypeSection ∧ v.l2Used < v.l2Capacity ∧
        vmapSplitSection v va = (v.splitted va, .ok) := by
  obtain hAccepted | hRefused := Classical.em (Accepted v va)
  · rw [vmapSplitSection_eq hAccepted.inited hAccepted.range hAccepted.aligned]
    split_ifs with hTable hSection hFull hMisaligned
    · exact .inl rfl
    · exact .inl rfl
    · exact .inl rfl
    · exact absurd h.fresh_aligned hMisaligned
    · exact .inr ⟨hAccepted, not_not.mp hSection, BitVec.not_le.mp hFull, rfl⟩
  · obtain ⟨e, -, hEq⟩ := vmapSplitSection_refused hRefused
    exact .inl (by rw [hEq])

end

theorem split_ok_type {va : U32} (hOk : (vmapSplitSection v va).2 = .ok) :
    l1Type ((vmapSplitSection v va).1.l1 (vmapL1Index va)) = mmuL1TypePageTable := by
  obtain hAccepted | hRefused := Classical.em (Accepted v va)
  · rw [vmapSplitSection_eq hAccepted.inited hAccepted.range hAccepted.aligned] at hOk ⊢
    split_ifs at hOk ⊢ with hTable
    · exact hTable
    · rw [VmapT.splitted]
      simp only [Function.update_self]
      exact pageTableDescriptor_type _ _
  · obtain ⟨e, hError, hEq⟩ := vmapSplitSection_refused hRefused
    rw [hEq] at hOk
    exact absurd hOk (ne_of_refusal hError (by decide))

theorem Tables.split_changes (h : Tables v untouched owners) (allowed : U32 → Prop) (va : U32) :
    Changes allowed v (vmapSplitSection v va).1 := by
  obtain hSame | ⟨-, hSection, hRoom, hEq⟩ := h.split_cases va
  · rw [hSame]
  · rw [hEq]
    exact .single (.split hSection hRoom)

theorem Tables.map_changes (h : Tables v untouched owners) {va : U32} (hAllowed : allowed va) (pa : U32)
    (attr : Option VmapAttr) (hLinked : l1Type (v.l1 (vmapL1Index va)) = mmuL1TypeSection ∨
      l1Type (v.l1 (vmapL1Index va)) = mmuL1TypePageTable) : Changes allowed v (vmapMap v va pa attr).1 := by
  have hSplit (hSplits : SplitsSection v va) : Changes allowed v (v.splitted va) :=
    .single (.split hSplits.isSection hSplits.room)
  have hMaps := vmapMap_maps v va pa attr
  generalize vmapMap v va pa attr = r at hMaps ⊢
  cases hMaps with
  | kept => exact .refl
  | consumed _ _ _ hMisaligned => exact absurd h.fresh_aligned hMisaligned
  | outside _ _ hSplits => exact hSplit hSplits
  | split _ hSplits hAligned hPool =>
    exact (hSplit hSplits).tail (.write _ (v.statMap + 1) v.statUnmap hAllowed
      ((splitted_table_self hAligned).trans hPool))
  | table _ _ _ hTable => exact .single (.write _ (v.statMap + 1) v.statUnmap hAllowed hTable)
  | unlinked _ _ hTable hSection => exact absurd hLinked (not_or.mpr ⟨hSection, hTable⟩)

theorem unmap_changes (v : VmapT) {va : U32} (hAllowed : allowed va) : Changes allowed v (vmapUnmap v va).1 := by
  obtain ⟨e, -, hEq⟩ | ⟨l2, hTable, hEq⟩ := vmapUnmap_cases v va
  · rw [hEq]
  · rw [hEq]
    exact .single (.write 0 v.statMap (v.statUnmap + 1) hAllowed hTable)

theorem setAttr_changes (v : VmapT) {va : U32} (hAllowed : allowed va) (attr : Option VmapAttr) :
    Changes allowed v (vmapSetAttr v va attr).1 := by
  obtain ⟨e, -, hEq⟩ | ⟨-, -, a, l2, -, hTable, hEq⟩ := vmapSetAttr_cases v va attr
  · rw [hEq]
  · rw [hEq]
    exact .single (.write _ v.statMap v.statUnmap hAllowed hTable)

end

/-! # Splitting a section preserves the address space

From a table of identity sections, any operations keep every table with one
owner. The walk then reads the same translation before and after a split.
-/

open Mmu Transition

def VmapT.memory (v : VmapT) (pa : U32) : U32 := v.l2Pool ((pa - v.l2PoolPa).toNat / 4)

def VmapT.translate (v : VmapT) (va : U32) : Option Translation := walk v.l1 v.memory va

inductive Op where
  | split (va : U32)
  | map (va pa : U32) (attr : Option VmapAttr)
  | unmap (va : U32)
  | setAttr (va : U32) (attr : Option VmapAttr)

/-- The page whose mapping the operation sets or clears. -/
def Op.page : Op → Option U32
  | .split _ => none
  | .map va _ _ => some va
  | .unmap va => some va
  | .setAttr va _ => some va

def vmapMachine : Machine VmapT Op VmapErr where
  step v op := match op with
    | .split va => vmapSplitSection v va
    | .map va pa attr => vmapMap v va pa attr
    | .unmap va => vmapUnmap v va
    | .setAttr va attr => vmapSetAttr v va attr

/-- Entries that are not split are still the identity sections of the start. -/
abbrev IdentityTables (v : VmapT) (owners : List (BitVec 12)) : Prop :=
  Tables v (fun i desc => IdentitySection desc i) owners

section

variable {v : VmapT} {owners : List (BitVec 12)}

theorem IdentityTables.op_changes (h : IdentityTables v owners) {allowed : U32 → Prop} (op : Op)
    (hAllowed : ∀ va, op.page = some va → allowed va) : Changes allowed v (vmapMachine.step v op).1 := by
  cases op with
  | split va => exact Tables.split_changes h _ va
  | map va pa attr =>
    apply Tables.map_changes h (hAllowed va rfl) pa attr
    obtain hOwner | hOther := Classical.em (vmapL1Index va ∈ owners)
    · exact .inr (Tables.owner_type h hOwner)
    · exact .inl (h.others _ hOther).type
  | unmap va => exact unmap_changes v (hAllowed va rfl)
  | setAttr va attr => exact setAttr_changes v (hAllowed va rfl) attr

theorem IdentityTables.step (h : IdentityTables v owners) (op : Op) :
    ∃ owners', owners <+: owners' ∧ IdentityTables (vmapMachine.step v op).1 owners' :=
  Tables.changes h (@IdentityTables.op_changes _ _ h (fun _ => True) op fun _ _ => trivial)

theorem IdentityTables.final (h : IdentityTables v owners) (ops : List Op) :
    ∃ owners', IdentityTables (vmapMachine.final v ops) owners' :=
  vmapMachine.final_invariant (I := fun v => ∃ owners, IdentityTables v owners)
    (fun _ op ⟨_, hOwners⟩ => (IdentityTables.step hOwners op).imp fun _ hAfter => hAfter.2) ⟨owners, h⟩ ops

theorem l2EntryAddress_eq {pa : U32} (domain va : U32) (hAligned : pa &&& (vmapL2Align - 1) = 0) :
    l2EntryAddress (mmuPageTableDescriptor pa domain) va = pa + (vmapL2Index va).setWidth 32 <<< 2 := by
  rw [aligned_iff] at hAligned
  rw [vmapL2Index_eq, BitVec.add_eq_or_of_and_eq_zero]
  · apply BitVec.eq_of_getLsbD_eq
    intro i hi
    simp only [l2EntryAddress, BitVec.getLsbD_append, BitVec.getLsbD_or, BitVec.getLsbD_shiftLeft,
      BitVec.getLsbD_setWidth, BitVec.getLsbD_extractLsb', mmuPageTableDescriptor, BitVec.getLsbD_and,
      mmuL2TableMask, mmuL1DomainMask, mmuL1TypePageTable]
    obtain hLow | hHigh := lt_or_ge i 10
    · rw [hAligned i hLow]
      interval_cases i <;> simp
    · interval_cases i <;> simp
  · apply BitVec.eq_of_getLsbD_eq
    intro i hi
    rw [BitVec.getLsbD_and, BitVec.getLsbD_shiftLeft, BitVec.getLsbD_setWidth]
    obtain hLow | hHigh := lt_or_ge i 10
    · rw [hAligned i hLow]
      simp
    · interval_cases i <;> simp

theorem Tables.memory_owner {untouched : BitVec 12 → U32 → Prop} (h : Tables v untouched owners) {k : Nat}
    (hk : k ≤ owners.length) (va : U32) : v.memory (v.tablePa k + (vmapL2Index va).setWidth 32 <<< 2) =
      v.l2Pool (vmapL2Entries * k + (vmapL2Index va).toNat) := by
  have hLength := h.length_le
  have hPage := (vmapL2Index va).isLt
  have hOffset : v.tablePa k + (vmapL2Index va).setWidth 32 <<< 2 - v.l2PoolPa =
      BitVec.ofNat 32 (1024 * k) + (vmapL2Index va).setWidth 32 <<< 2 := by
    rw [VmapT.tablePa, BitVec.add_assoc, BitVec.add_comm v.l2PoolPa, BitVec.add_sub_cancel]
  have hNat : (BitVec.ofNat 32 (1024 * k) + (vmapL2Index va).setWidth 32 <<< 2).toNat =
      1024 * k + 4 * (vmapL2Index va).toNat := by
    rw [BitVec.toNat_add, BitVec.toNat_ofNat, BitVec.toNat_shiftLeft, BitVec.toNat_setWidth, Nat.shiftLeft_eq]
    omega
  rw [VmapT.memory, hOffset, hNat, vmapL2Entries]
  congr 1
  omega

theorem Tables.translate_owner {untouched : BitVec 12 → U32 → Prop} (h : Tables v untouched owners)
    {k : Nat} (hk : k < owners.length) {va : U32} (hIndex : vmapL1Index va = owners[k]) : v.translate va =
      walkL2 (v.l1 (vmapL1Index va)) (v.l2Pool (vmapL2Entries * k + (vmapL2Index va).toNat)) va := by
  obtain ⟨domain, hEntry⟩ := h.tables k hk
  have hKind := (pageTable_iff _).mp (h.owner_type (hIndex ▸ List.getElem_mem hk : vmapL1Index va ∈ owners))
  simp only [VmapT.translate, walk, ← vmapL1Index_eq]
  rw [hKind.1, hKind.2]
  simp only
  rw [hIndex, hEntry, l2EntryAddress_eq _ _ (h.tablePa_aligned k), h.memory_owner hk.le]

theorem translate_section {va : U32} (h : IdentitySection (v.l1 (vmapL1Index va)) (vmapL1Index va)) :
    v.translate va = some (sectionTranslation (v.l1 (vmapL1Index va)) va) := by
  obtain ⟨-, hSuper, -, hOne, hZero, -⟩ := h.bit
  simp only [VmapT.translate, walk, ← vmapL1Index_eq]
  rw [hOne, hZero]
  simp only [hSuper]
  rfl

theorem IdentityTables.splitted_translate (h : IdentityTables v owners) {va : U32}
    (hSection : l1Type (v.l1 (vmapL1Index va)) = mmuL1TypeSection) (hRoom : v.l2Used < v.l2Capacity)
    (addr : U32) : (v.splitted va).translate addr = v.translate addr := by
  have hAfter := Tables.splitted h hSection hRoom
  have hNew : vmapL1Index va ∉ owners := by
    intro hOwner
    rw [Tables.owner_type h hOwner] at hSection
    cases hSection
  have hFresh := Tables.freshTable_eq h
  obtain hHere | hThere := eq_or_ne (vmapL1Index addr) (vmapL1Index va)
  · have hLast : owners.length < (owners ++ [vmapL1Index va]).length := by simp
    have hIdentity := h.others _ hNew
    rw [Tables.translate_owner hAfter hLast (by simpa using hHere), translate_section (by rwa [hHere])]
    have hPage : (vmapL2Index addr).toNat < vmapL2Entries := (vmapL2Index addr).isLt
    rw [splitted_l2Pool, ← hFresh, splitPool_inside va hPage, VmapT.splitWord, splitWord_page hHere,
      VmapT.splitted, hHere]
    simp only [Function.update_self]
    rw [walkL2, if_pos (smallPageDescriptor_bit_one _ _), split_translation _ hHere hIdentity]
  · have hEntry : (v.splitted va).l1 (vmapL1Index addr) = v.l1 (vmapL1Index addr) := by
      rw [VmapT.splitted]
      exact Function.update_of_ne hThere _ _
    obtain hOwner | hOther := Classical.em (vmapL1Index addr ∈ owners)
    · obtain ⟨k, hk, hOwnerEq⟩ := List.getElem_of_mem hOwner
      have hk' : k < (owners ++ [vmapL1Index va]).length := by
        rw [List.length_append]
        omega
      have hIndex : vmapL1Index addr = (owners ++ [vmapL1Index va])[k] := by
        rw [List.getElem_append_left hk, hOwnerEq]
      rw [Tables.translate_owner hAfter hk' hIndex, Tables.translate_owner h hk hOwnerEq.symm, hEntry,
        splitted_l2Pool, splitPool_outside]
      rintro ⟨hLow, -⟩
      have hPage := (vmapL2Index addr).isLt
      rw [hFresh] at hLow
      simp only [vmapL2Entries] at hLow
      omega
    · have hIdentity := h.others _ hOther
      rw [translate_section hIdentity, translate_section (by rwa [hEntry]), hEntry]

theorem split_again {v' : VmapT} {va : U32}
    (hTable : l1Type (v'.l1 (vmapL1Index va)) = mmuL1TypePageTable) : (vmapSplitSection v' va).1 = v' := by
  obtain hAccepted | hRefused := Classical.em (Accepted v' va)
  · rw [vmapSplitSection_eq hAccepted.inited hAccepted.range hAccepted.aligned, if_pos hTable]
  · obtain ⟨e, -, hEq⟩ := vmapSplitSection_refused hRefused
    rw [hEq]

theorem IdentityTables.owner (h : IdentityTables v owners) {i : BitVec 12}
    (hTable : l1Type (v.l1 i) = mmuL1TypePageTable) :
    ∃ k, ∃ hk : k < owners.length, owners[k] = i ∧ v.l1 i &&& ~~~0x3FF = v.tablePa k := by
  obtain hOwner | hOther := Classical.em (i ∈ owners)
  · obtain ⟨k, hk, rfl⟩ := List.getElem_of_mem hOwner
    obtain ⟨domain, hEntry⟩ := h.tables k hk
    exact ⟨k, hk, rfl, by rw [hEntry, pageTableDescriptor_base _ (Tables.tablePa_aligned h k)]⟩
  · rw [(h.others _ hOther).type] at hTable
    cases hTable

theorem IdentityTables.distinct (h : IdentityTables v owners) {i j : BitVec 12} (hNe : i ≠ j)
    (hi : l1Type (v.l1 i) = mmuL1TypePageTable) (hj : l1Type (v.l1 j) = mmuL1TypePageTable) :
    v.l1 i &&& ~~~0x3FF ≠ v.l1 j &&& ~~~0x3FF := by
  obtain ⟨k, hk, hOwnerI, hBaseI⟩ := IdentityTables.owner h hi
  obtain ⟨m, hm, hOwnerJ, hBaseJ⟩ := IdentityTables.owner h hj
  intro hEq
  rw [hBaseI, hBaseJ] at hEq
  obtain rfl := Tables.tablePa_inj h hk.le hm.le hEq
  exact hNe (hOwnerI.symm.trans hOwnerJ)

theorem IdentityTables.linked (h : IdentityTables v owners) {i : BitVec 12} {l2 : Nat} (hTable : v.table i = some l2) :
    ∃ k, ∃ hk : k < owners.length, owners[k] = i ∧ l2 = vmapL2Entries * k := by
  rw [VmapT.table] at hTable
  split_ifs at hTable with hKind
  obtain ⟨k, hk, hOwner, hBase⟩ := IdentityTables.owner h hKind
  have hLength := Tables.length_le h
  have hOffset : v.tablePa k - v.l2PoolPa = BitVec.ofNat 32 (1024 * k) := by
    rw [VmapT.tablePa, BitVec.add_comm, BitVec.add_sub_cancel]
  simp only [l2FromPa, hBase, hOffset] at hTable
  split_ifs at hTable
  cases hTable
  refine ⟨k, hk, hOwner, ?_⟩
  rw [BitVec.toNat_ofNat, vmapL2Entries]
  omega

theorem slot_ne {u va : U32} {k m : Nat} (hk : k < owners.length) (hm : m < owners.length)
    (hAway : u >>> 12 ≠ va >>> 12) (hIndex : owners[k] = vmapL1Index va) (hOther : owners[m] = vmapL1Index u) :
    vmapL2Entries * k + (vmapL2Index va).toNat ≠ vmapL2Entries * m + (vmapL2Index u).toNat := by
  intro hEq
  have hPage := (vmapL2Index va).isLt
  simp only [vmapL2Entries] at hEq
  obtain rfl : k = m := by omega
  have hSecond : vmapL2Index u = vmapL2Index va := BitVec.eq_of_toNat_eq (by omega)
  exact hAway ((page_eq_iff va u).mpr ⟨hOther.symm.trans hIndex, hSecond⟩)

variable {v' : VmapT} {allowed : U32 → Prop} {addr : U32} (hAway : ∀ u, allowed u → u >>> 12 ≠ addr >>> 12)

include hAway

theorem IdentityTables.translate_change (h : IdentityTables v owners) (hChange : Change allowed v v') :
    v'.translate addr = v.translate addr := by
  cases hChange with
  | @write l2 u desc statMap statUnmap hAllowed hTable =>
    have hAfter := Tables.write h l2 u desc statMap statUnmap
    obtain hOwner | hOther := Classical.em (vmapL1Index addr ∈ owners)
    · obtain ⟨k, hk, hIndex⟩ := List.getElem_of_mem hOwner
      obtain ⟨m, hm, hLinked, rfl⟩ := IdentityTables.linked h hTable
      have hNe := slot_ne hk hm (hAway u hAllowed) hIndex hLinked
      rw [Tables.translate_owner hAfter hk hIndex.symm, Tables.translate_owner h hk hIndex.symm]
      exact congrArg (walkL2 _ · _) (Function.update_of_ne hNe _ _)
    · have hIdentity := h.others _ hOther
      rw [translate_section hIdentity]
      exact translate_section hIdentity
  | split hSection hRoom => exact IdentityTables.splitted_translate h hSection hRoom addr

theorem IdentityTables.translate_changes (h : IdentityTables v owners) (hChanges : Changes allowed v v') :
    v'.translate addr = v.translate addr := by
  induction hChanges with
  | refl => rfl
  | tail hInit hLast ih =>
    obtain ⟨mid, -, hMid⟩ := Tables.changes h hInit
    exact (IdentityTables.translate_change hAway hMid hLast).trans ih

end

theorem init_identityTables {l1 : BitVec 12 → U32} {pool : L2Pool} {poolPa capacity vaBegin vaEnd : U32}
    {v : VmapT} (hInit : vmapInit (some l1) (some pool) poolPa capacity vaBegin vaEnd = .ok v)
    (hIdentity : ∀ i, IdentitySection (l1 i) i) (hAligned : poolPa &&& (vmapL2Align - 1) = 0) :
    IdentityTables v [] := by
  simp only [vmapInit] at hInit
  split_ifs at hInit
  cases hInit
  refine ⟨hAligned, List.nodup_nil, rfl, Nat.zero_le _, ?_, fun i _ => hIdentity i⟩
  intro k hk
  exact nomatch hk

/-- What holds after any operations, and what a successful split leaves as it was. -/
theorem split_preserves_address_space {l1 : BitVec 12 → U32} {pool : L2Pool}
    {poolPa capacity vaBegin vaEnd : U32} {v₀ : VmapT}
    (hInit : vmapInit (some l1) (some pool) poolPa capacity vaBegin vaEnd = .ok v₀)
    (hIdentity : ∀ i, IdentitySection (l1 i) i) (hAligned : poolPa &&& (vmapL2Align - 1) = 0)
    (ops : List Op) :
    let v := vmapMachine.final v₀ ops
    v.l2Used ≤ v.l2Capacity ∧
    (∀ i, l1Type (v.l1 i) = mmuL1TypePageTable →
      ∃ k < v.l2Used.toNat, v.l1 i &&& ~~~0x3FF = v.tablePa k) ∧
    (∀ i j, i ≠ j → l1Type (v.l1 i) = mmuL1TypePageTable → l1Type (v.l1 j) = mmuL1TypePageTable →
      v.l1 i &&& ~~~0x3FF ≠ v.l1 j &&& ~~~0x3FF) ∧
    ∀ va, (vmapSplitSection v va).2 = .ok →
      (∀ addr, (vmapSplitSection v va).1.translate addr = v.translate addr) ∧
      ∀ again, vmapL1Index again = vmapL1Index va →
        (vmapSplitSection (vmapSplitSection v va).1 again).1 = (vmapSplitSection v va).1 := by
  obtain ⟨owners, hOwners⟩ := IdentityTables.final (init_identityTables hInit hIdentity hAligned) ops
  refine ⟨hOwners.room, ?_, ?_, ?_⟩
  · intro i hTable
    obtain ⟨k, hk, -, hBase⟩ := IdentityTables.owner hOwners hTable
    exact ⟨k, by rwa [hOwners.used], hBase⟩
  · intro i j hNe hi hj
    exact IdentityTables.distinct hOwners hNe hi hj
  · intro va hOk
    refine ⟨?_, ?_⟩
    · intro addr
      rcases Tables.split_cases hOwners va with hSame | ⟨-, hSection, hRoom, hEq⟩
      · rw [hSame]
      · rw [hEq]
        exact IdentityTables.splitted_translate hOwners hSection hRoom addr
    · intro again hIndex
      apply split_again
      rw [hIndex]
      exact split_ok_type hOk

theorem split_after_map_preserves :
    let v := vmapMachine.final (sampleVmap sampleSections)
      [.map 0x40008000 0x80000000 (some vmapAttrNormal)]
    (vmapSplitSection v 0x40100000).2 = .ok ∧
      ∀ addr, (vmapSplitSection v 0x40100000).1.translate addr = v.translate addr := by
  have hInit : vmapInit (some sampleSections) (some samplePool) 0x20000000 4 0x40000000 0x40400000 =
      .ok (sampleVmap sampleSections) := rfl
  have hIdentity : ∀ i, IdentitySection (sampleSections i) i := fun i => ⟨vmapAttrNormal, rfl⟩
  have hAll := split_preserves_address_space hInit hIdentity (by decide)
    [.map 0x40008000 0x80000000 (some vmapAttrNormal)]
  have hOk : (vmapSplitSection (vmapMachine.final (sampleVmap sampleSections)
      [.map 0x40008000 0x80000000 (some vmapAttrNormal)]) 0x40100000).2 = .ok := by decide
  exact ⟨hOk, (hAll.2.2.2 _ hOk).1⟩

/-- No operation changes what an address outside its page translates to, whether it succeeds or fails. -/
theorem other_pages_stay {l1 : BitVec 12 → U32} {pool : L2Pool} {poolPa capacity vaBegin vaEnd addr : U32} {v₀ : VmapT}
    (hInit : vmapInit (some l1) (some pool) poolPa capacity vaBegin vaEnd = .ok v₀)
    (hIdentity : ∀ i, IdentitySection (l1 i) i) (hAligned : poolPa &&& (vmapL2Align - 1) = 0) (ops : List Op)
    {more : List Op} (hAway : ∀ op ∈ more, ∀ va, op.page = some va → va >>> 12 ≠ addr >>> 12) :
    (vmapMachine.final v₀ (ops ++ more)).translate addr = (vmapMachine.final v₀ ops).translate addr := by
  rw [vmapMachine.final_append]
  obtain ⟨owners, hOwners⟩ := IdentityTables.final (init_identityTables hInit hIdentity hAligned) ops
  generalize vmapMachine.final v₀ ops = v at hOwners
  induction more generalizing v owners with
  | nil => rfl
  | cons op more ih =>
    have hChanges := IdentityTables.op_changes hOwners op (hAway op (.head _))
    obtain ⟨owners', -, hAfter⟩ := IdentityTables.step hOwners op
    exact (ih (fun next hNext => hAway next (.tail _ hNext)) owners' _ hAfter).trans
      (IdentityTables.translate_changes (fun _ => id) hOwners hChanges)

theorem other_pages_stay_sample :
    (vmapMachine.final (sampleVmap sampleSections) [.map 0x40008000 0x80000000 (some vmapAttrNormal),
      .split 0x40100000, .unmap 0x40008000]).translate 0x40009000 =
      (vmapMachine.final (sampleVmap sampleSections)
        [.map 0x40008000 0x80000000 (some vmapAttrNormal)]).translate 0x40009000 :=
  @other_pages_stay sampleSections samplePool 0x20000000 4 0x40000000 0x40400000 0x40009000 _ rfl
    (fun i => ⟨vmapAttrNormal, rfl⟩) (by decide) [_] [_, _] (by simp [Op.page])

end OpenXJ380.Vmap
