import OpenXJ380.Vmap.Lookup

/-! # What mapping a page does

One equation for each kind of first-level entry the page can lie under.
-/

namespace OpenXJ380.Vmap

open Mmu

theorem freshTable_lt (v : VmapT) : freshTable v < 2 ^ 30 :=
  Nat.mod_lt _ (by decide)

theorem l2FromPa_freshEntry {v : VmapT} {l2 : Nat} (h : l2FromPa v v.freshEntry = some l2) : l2 = freshTable v := by
  have hLt := freshTable_lt v
  have hOffset : v.freshEntry - v.l2PoolPa = BitVec.ofNat 32 (freshTable v * 4) := by
    rw [VmapT.freshEntry, BitVec.add_comm, BitVec.add_sub_cancel]
  simp only [l2FromPa, hOffset] at h
  split at h
  · cases h
  · cases h
    rw [BitVec.toNat_ofNat]
    omega

theorem update_update_write (v : VmapT) (l2 : Nat) (va a b : U32) :
    (v.write l2 va a).write l2 va b = v.write l2 va b := by
  simp only [VmapT.write, Function.update_idem]

/-- The page at `va` of a table now maps `pa`. -/
def VmapT.mapped (v : VmapT) (l2 : Nat) (va pa : U32) (attr : VmapAttr) : VmapT :=
  { v.write l2 va (mmuSmallPageDescriptor pa (pageAttrOf attr)) with statMap := v.statMap + 1 }

theorem mapped_write (v : VmapT) (l2 : Nat) (va a pa : U32) (attr : VmapAttr) :
    (v.write l2 va a).mapped l2 va pa attr = v.mapped l2 va pa attr := by
  rw [VmapT.mapped, update_update_write]
  rfl

@[simp] theorem write_table (v : VmapT) (l2 : Nat) (va d : U32) (i : BitVec 12) :
    (v.write l2 va d).table i = v.table i :=
  rfl

@[simp] theorem mapped_table (v : VmapT) (l2 : Nat) (va pa : U32) (attr : VmapAttr) (i : BitVec 12) :
    (v.mapped l2 va pa attr).table i = v.table i :=
  rfl

theorem splitted_table_self {v : VmapT} {va : U32} (hAligned : v.freshEntry &&& (vmapL2Align - 1) = 0) :
    (v.splitted va).table (vmapL1Index va) = l2FromPa v v.freshEntry := by
  rw [VmapT.table, VmapT.splitted]
  simp only [Function.update_self]
  rw [if_pos (pageTableDescriptor_type _ _), pageTableDescriptor_base _ hAligned]
  rfl

theorem splitted_table_other {v : VmapT} {va : U32} {i : BitVec 12} (hOther : i ≠ vmapL1Index va) :
    (v.splitted va).table i = v.table i := by
  rw [VmapT.table, VmapT.splitted]
  simp only [Function.update_of_ne hOther]
  rfl

variable {v : VmapT} {va pa : U32}

structure Accepted (v : VmapT) (va : U32) : Prop where
  inited : v.inited = true
  range : inRange v va = true
  aligned : va &&& (vmapPageSize - 1) = 0

theorem Accepted.splitted (h : Accepted v va) : Accepted (v.splitted va) va :=
  { h with }

theorem vmapMap_accepted (h : Accepted v va) (hPa : pa &&& (vmapPageSize - 1) = 0) (attr : VmapAttr) :
    vmapMap v va pa (some attr) = if vmapLookup v va ≠ 0 ∧ vmapLookup v va ≠ vmapResultSection then (v, .already) else
        let r := if vmapLookup v va = vmapResultSection then vmapMap.vmapClearForMap v va else (v, .ok)
        if r.2 ≠ .ok then r else match l2Ensure r.1 va with
          | (v, none) => (v, .noL2)
          | (v, some l2) => (v.mapped l2 va pa attr, .ok) := by
  have hNot : ¬ (!v.inited) := by simp [h.inited]
  have hIn : ¬ (!inRange v va) := by simp [h.range]
  have hPages : ¬ (va &&& (vmapPageSize - 1) ≠ 0 ∨ pa &&& (vmapPageSize - 1) ≠ 0) := by
    rintro (hVa | hBad)
    · exact hVa h.aligned
    · exact hBad hPa
  simp only [vmapMap]
  rw [if_neg hNot, if_neg hIn, if_neg hPages]
  rfl

def mapClear (v : VmapT) (va pa : U32) (attr : VmapAttr) : VmapT × VmapErr :=
  match l2Ensure v va with
  | (v, none) => (v, .noL2)
  | (v, some l2) => (v.mapped l2 va pa attr, .ok)

theorem vmapMap_of_zero (h : Accepted v va) (hPa : pa &&& (vmapPageSize - 1) = 0) (attr : VmapAttr)
    (hLookup : vmapLookup v va = 0) : vmapMap v va pa (some attr) = mapClear v va pa attr := by
  have hNotSection : (0 : U32) ≠ vmapResultSection := by decide
  rw [vmapMap_accepted h hPa, hLookup, if_neg (by simp), if_neg hNotSection]
  rfl

theorem vmapMap_of_section (h : Accepted v va) (hPa : pa &&& (vmapPageSize - 1) = 0) (attr : VmapAttr)
    (hLookup : vmapLookup v va = vmapResultSection) : vmapMap v va pa (some attr) =
      if (vmapMap.vmapClearForMap v va).2 ≠ .ok then vmapMap.vmapClearForMap v va
      else mapClear (vmapMap.vmapClearForMap v va).1 va pa attr := by
  rw [vmapMap_accepted h hPa, hLookup, if_neg (by simp), if_pos rfl]
  rfl

theorem vmapMap_of_mapped (h : Accepted v va) (hPa : pa &&& (vmapPageSize - 1) = 0) (attr : VmapAttr)
    (hLookup : vmapLookup v va ≠ 0 ∧ vmapLookup v va ≠ vmapResultSection) :
    vmapMap v va pa (some attr) = (v, .already) := by
  rw [vmapMap_accepted h hPa, if_pos hLookup]

theorem mapClear_table (attr : VmapAttr) (hKind : l1Type (v.l1 (vmapL1Index va)) = mmuL1TypePageTable) :
    mapClear v va pa attr = match v.table (vmapL1Index va) with
      | none => (v, .noL2)
      | some l2 => (v.mapped l2 va pa attr, .ok) := by
  have hEnsure : l2Ensure v va = (v, v.table (vmapL1Index va)) := by
    simp only [l2Ensure, VmapT.table, hKind, if_true]
  rw [mapClear, hEnsure]
  cases v.table (vmapL1Index va) <;> rfl

section

variable (h : Accepted v va)

include h

theorem vmapClearForMap_table {l2 : Nat} (hKind : l1Type (v.l1 (vmapL1Index va)) = mmuL1TypePageTable)
    (hTable : v.table (vmapL1Index va) = some l2) : vmapMap.vmapClearForMap v va = (v.write l2 va 0, .ok) := by
  rw [vmapMap.vmapClearForMap, vmapSplitSection_eq h.inited h.range h.aligned, if_pos hKind]
  simp only [ne_eq, not_true_eq_false, if_false]
  rw [vmapL2Of_eq h.inited h.range, hTable]

theorem vmapMap_table (hPa : pa &&& (vmapPageSize - 1) = 0) (attr : VmapAttr)
    (hKind : l1Type (v.l1 (vmapL1Index va)) = mmuL1TypePageTable) : vmapMap v va pa (some attr) =
      match v.table (vmapL1Index va) with
      | none => (v, .noL2)
      | some l2 => if v.l2Pool (l2 + (vmapL2Index va).toNat) ≠ 0 ∧
            v.l2Pool (l2 + (vmapL2Index va).toNat) ≠ vmapResultSection then (v, .already)
        else (v.mapped l2 va pa attr, .ok) := by
  have hNotSection : l1Type (v.l1 (vmapL1Index va)) ≠ mmuL1TypeSection := by
    rw [hKind]
    decide
  have hLookup := vmapLookup_eq h.inited h.range hNotSection
  cases hTable : v.table (vmapL1Index va) with
  | none =>
    rw [hTable] at hLookup
    rw [vmapMap_of_zero h hPa attr hLookup, mapClear_table attr hKind, hTable]
  | some l2 =>
    rw [hTable] at hLookup
    simp only [Option.map_some, Option.getD_some] at hLookup
    simp only [← hLookup]
    split_ifs with hMapped
    · exact vmapMap_of_mapped h hPa attr hMapped
    · obtain hZero | hNonzero := eq_or_ne (vmapLookup v va) 0
      · rw [vmapMap_of_zero h hPa attr hZero, mapClear_table attr hKind, hTable]
      · have hOne : vmapLookup v va = vmapResultSection := by
          by_contra hNot
          exact hMapped ⟨hNonzero, hNot⟩
        rw [vmapMap_of_section h hPa attr hOne, vmapClearForMap_table h hKind hTable, if_neg (by simp)]
        rw [mapClear_table attr (by exact hKind), write_table, hTable]
        simp only [mapped_write]

theorem vmapClearForMap_section (hKind : l1Type (v.l1 (vmapL1Index va)) = mmuL1TypeSection) :
    vmapMap.vmapClearForMap v va = if v.l2Used ≥ v.l2Capacity then (v, .noL2)
      else if v.freshEntry &&& (vmapL2Align - 1) ≠ 0 then (v.consumed va, .align) else
        match l2FromPa v v.freshEntry with
        | none => (v.splitted va, .noL2)
        | some l2 => ((v.splitted va).write l2 va 0, .ok) := by
  have hNotTable : l1Type (v.l1 (vmapL1Index va)) ≠ mmuL1TypePageTable := by
    rw [hKind]
    decide
  rw [vmapMap.vmapClearForMap, vmapSplitSection_eq h.inited h.range h.aligned, if_neg hNotTable,
    if_neg (not_not.mpr hKind)]
  obtain hFull | hRoom := Decidable.em (v.l2Used ≥ v.l2Capacity)
  · simp [hFull]
  · rw [if_neg hRoom, if_neg hRoom]
    obtain hAligned | hMisaligned := eq_or_ne (v.freshEntry &&& (vmapL2Align - 1)) 0
    · rw [if_neg (not_not.mpr hAligned), if_neg (not_not.mpr hAligned)]
      simp only [ne_eq, not_true_eq_false, if_false]
      rw [vmapL2Of_eq h.splitted.inited h.splitted.range, splitted_table_self hAligned] <;> rfl
    · simp only [if_pos hMisaligned] <;> rfl

theorem vmapMap_section (hPa : pa &&& (vmapPageSize - 1) = 0) (attr : VmapAttr)
    (hKind : l1Type (v.l1 (vmapL1Index va)) = mmuL1TypeSection) : vmapMap v va pa (some attr) =
      if v.l2Used ≥ v.l2Capacity then (v, .noL2)
      else if v.freshEntry &&& (vmapL2Align - 1) ≠ 0 then (v.consumed va, .align) else
        match l2FromPa v v.freshEntry with
        | none => (v.splitted va, .noL2)
        | some l2 => ((v.splitted va).mapped l2 va pa attr, .ok) := by
  rw [vmapMap_of_section h hPa attr (vmapLookup_section h.inited h.range hKind), vmapClearForMap_section h hKind]
  obtain hFull | hRoom := Decidable.em (v.l2Used ≥ v.l2Capacity)
  · simp [hFull]
  · simp only [if_neg hRoom]
    obtain hAligned | hMisaligned := eq_or_ne (v.freshEntry &&& (vmapL2Align - 1)) 0
    · simp only [if_neg (not_not.mpr hAligned)]
      have hSplitKind : l1Type ((v.splitted va).l1 (vmapL1Index va)) = mmuL1TypePageTable := by
        rw [VmapT.splitted]
        simp only [Function.update_self]
        exact pageTableDescriptor_type _ _
      cases hPool : l2FromPa v v.freshEntry with
      | none => simp
      | some l2 =>
        simp only [ne_eq, not_true_eq_false, if_false]
        rw [mapClear_table attr (by exact hSplitKind), write_table, splitted_table_self hAligned, hPool]
        simp only [mapped_write]
    · simp only [if_pos hMisaligned]
      rfl

theorem vmapMap_unlinked (hPa : pa &&& (vmapPageSize - 1) = 0) (attr : VmapAttr)
    (hTable : l1Type (v.l1 (vmapL1Index va)) ≠ mmuL1TypePageTable)
    (hSection : l1Type (v.l1 (vmapL1Index va)) ≠ mmuL1TypeSection) : vmapMap v va pa (some attr) =
      if v.l2Used ≥ v.l2Capacity then (v, .noL2) else
        ({ v with l2Used := v.l2Used + 1, l2Pool := zeroTable v.l2Pool (freshTable v) }.mapped
          (freshTable v) va pa attr, .ok) := by
  have hLookup : vmapLookup v va = 0 := by
    rw [vmapLookup_eq h.inited h.range hSection, VmapT.table, if_neg hTable]
    rfl
  rw [vmapMap_of_zero h hPa attr hLookup, mapClear, l2Ensure]
  simp only [hTable, if_false]
  split_ifs <;> rfl

theorem vmapUnmap_eq : vmapUnmap v va = if vmapLookup v va = 0 then (v, .notMapped)
      else if vmapLookup v va = vmapResultSection then (v, .isSection) else match v.table (vmapL1Index va) with
        | none => (v, .notMapped)
        | some l2 => ({ v.write l2 va 0 with statUnmap := v.statUnmap + 1 }, .ok) := by
  have hNot : ¬ (!v.inited) := by simp [h.inited]
  have hIn : ¬ (!inRange v va) := by simp [h.range]
  rw [vmapUnmap, if_neg hNot, if_neg hIn, if_neg (not_not.mpr h.aligned), vmapL2Of_eq h.inited h.range]
  rfl

end

theorem vmapSetAttr_eq (hInited : v.inited) (hRange : inRange v va) (attr : VmapAttr) : vmapSetAttr v va (some attr) =
      if vmapLookup v va = 0 then (v, .notMapped) else if vmapLookup v va = vmapResultSection then (v, .isSection) else
        match v.table (vmapL1Index va) with
        | none => (v, .notMapped)
        | some l2 =>
          (v.write l2 va (mmuSmallPageDescriptor (vmapLookup v va &&& ~~~0xFFF) (pageAttrOf attr)), .ok) := by
  have hNot : ¬ (!v.inited) := by simp [hInited]
  simp only [vmapSetAttr]
  rw [if_neg hNot, vmapL2Of_eq hInited hRange] <;> rfl

def refusals : List VmapErr := [.notInit, .badArgs, .outOfRange, .align]

theorem ne_of_refusal {e e' : VmapErr} (h : e ∈ refusals) (hNot : e' ∉ refusals) : e ≠ e' := by
  rintro rfl
  exact hNot h

theorem vmapSplitSection_refused (h : ¬ Accepted v va) : ∃ e ∈ refusals, vmapSplitSection v va = (v, e) := by
  rw [vmapSplitSection]
  split_ifs with hInited hRange hAligned
  · exact ⟨_, by decide, rfl⟩
  · exact ⟨_, by decide, rfl⟩
  · exact ⟨_, by decide, rfl⟩
  · exact absurd ⟨by simpa using hInited, by simpa using hRange, not_not.mp hAligned⟩ h

theorem vmapMap_refused {attr : Option VmapAttr} (h : attr = none ∨ ¬ Accepted v va ∨ pa &&& (vmapPageSize - 1) ≠ 0) :
    ∃ e ∈ refusals, vmapMap v va pa attr = (v, e) := by
  cases attr with
  | none => exact ⟨.badArgs, by decide, rfl⟩
  | some attr =>
    simp only [vmapMap]
    split_ifs with hInited hRange hAligned
    · exact ⟨_, by decide, rfl⟩
    · exact ⟨_, by decide, rfl⟩
    · exact ⟨_, by decide, rfl⟩
    all_goals
      rw [not_or, not_not, not_not] at hAligned
      obtain hNull | hRefused | hPa := h
      · cases hNull
      · exact absurd ⟨by simpa using hInited, by simpa using hRange, hAligned.1⟩ hRefused
      · exact absurd hAligned.2 hPa

theorem vmapUnmap_refused (h : ¬ Accepted v va) : ∃ e ∈ refusals, vmapUnmap v va = (v, e) := by
  rw [vmapUnmap]
  split_ifs with hInited hRange hAligned
  · exact ⟨_, by decide, rfl⟩
  · exact ⟨_, by decide, rfl⟩
  · exact ⟨_, by decide, rfl⟩
  · exact absurd ⟨by simpa using hInited, by simpa using hRange, not_not.mp hAligned⟩ h

theorem vmapSetAttr_refused {attr : Option VmapAttr} (h : attr = none ∨ v.inited = false ∨ inRange v va = false) :
    ∃ e ≠ .ok, vmapSetAttr v va attr = (v, e) := by
  cases attr with
  | none => exact ⟨.badArgs, by decide, rfl⟩
  | some attr =>
    simp only [vmapSetAttr]
    obtain hNull | hInited | hRange := h
    · cases hNull
    · rw [if_pos (by simp [hInited])]
      exact ⟨.badArgs, by decide, rfl⟩
    · rw [vmapLookup_outside hRange, if_pos rfl]
      split_ifs
      · exact ⟨_, by decide, rfl⟩
      · exact ⟨_, by decide, rfl⟩

/-- The page lies in a section, and there is a table left to split it into. -/
structure SplitsSection (v : VmapT) (va : U32) : Prop extends Accepted v va where
  isSection : l1Type (v.l1 (vmapL1Index va)) = mmuL1TypeSection
  room : v.l2Used < v.l2Capacity

/-- What mapping a page comes to. -/
inductive Maps (v : VmapT) (va pa : U32) (attr : Option VmapAttr) : VmapT × VmapErr → Prop
  | kept {e : VmapErr} (hErr : e ≠ .ok)
      (hNot : attr ≠ none → pa &&& (vmapPageSize - 1) = 0 → ¬SplitsSection v va) : Maps v va pa attr (v, e)
  | consumed (hAttr : attr ≠ none) (hPa : pa &&& (vmapPageSize - 1) = 0) (hSplits : SplitsSection v va)
      (hMisaligned : v.freshEntry &&& (vmapL2Align - 1) ≠ 0) : Maps v va pa attr (v.consumed va, .align)
  | outside (hAttr : attr ≠ none) (hPa : pa &&& (vmapPageSize - 1) = 0) (hSplits : SplitsSection v va)
      (hAligned : v.freshEntry &&& (vmapL2Align - 1) = 0) (hPool : l2FromPa v v.freshEntry = none) :
      Maps v va pa attr (v.splitted va, .noL2)
  | split {a : VmapAttr} {l2 : Nat} (hAttr : attr = some a) (hSplits : SplitsSection v va)
      (hAligned : v.freshEntry &&& (vmapL2Align - 1) = 0) (hPool : l2FromPa v v.freshEntry = some l2) :
      Maps v va pa attr ((v.splitted va).mapped l2 va pa a, .ok)
  | table {a : VmapAttr} {l2 : Nat} (hAttr : attr = some a) (hAccepted : Accepted v va)
      (hKind : l1Type (v.l1 (vmapL1Index va)) = mmuL1TypePageTable) (hTable : v.table (vmapL1Index va) = some l2) :
      Maps v va pa attr (v.mapped l2 va pa a, .ok)
  | unlinked {a : VmapAttr} (hAttr : attr = some a) (hAccepted : Accepted v va)
      (hTable : l1Type (v.l1 (vmapL1Index va)) ≠ mmuL1TypePageTable)
      (hSection : l1Type (v.l1 (vmapL1Index va)) ≠ mmuL1TypeSection) :
      Maps v va pa attr ({ v with l2Used := v.l2Used + 1, l2Pool := zeroTable v.l2Pool (freshTable v) }.mapped
        (freshTable v) va pa a, .ok)

theorem vmapMap_maps (v : VmapT) (va pa : U32) (attr : Option VmapAttr) : Maps v va pa attr (vmapMap v va pa attr) := by
  by_cases hRefused : attr = none ∨ ¬ Accepted v va ∨ pa &&& (vmapPageSize - 1) ≠ 0
  · obtain ⟨e, hError, hEq⟩ := vmapMap_refused hRefused
    rw [hEq]
    refine .kept (ne_of_refusal hError (by decide)) fun hAttr hPa hSplits => ?_
    obtain hNull | hNot | hPage := hRefused
    · exact hAttr hNull
    · exact hNot hSplits.toAccepted
    · exact hPage hPa
  · rw [not_or, not_or, not_not, not_not] at hRefused
    obtain ⟨hAttr, hAccepted, hPa⟩ := hRefused
    obtain ⟨a, rfl⟩ := Option.ne_none_iff_exists'.mp hAttr
    by_cases hSection : l1Type (v.l1 (vmapL1Index va)) = mmuL1TypeSection
    · rw [vmapMap_section hAccepted hPa a hSection]
      split_ifs with hFull hMisaligned
      · exact .kept (by decide) fun _ _ hSplits => BitVec.not_le.mpr hSplits.room hFull
      · exact .consumed hAttr hPa ⟨hAccepted, hSection, BitVec.not_le.mp hFull⟩ hMisaligned
      · have hSplits : SplitsSection v va := ⟨hAccepted, hSection, BitVec.not_le.mp hFull⟩
        cases hPool : l2FromPa v v.freshEntry with
        | none => exact .outside hAttr hPa hSplits (not_not.mp hMisaligned) hPool
        | some l2 => exact .split rfl hSplits (not_not.mp hMisaligned) hPool
    · have hNot (hSplits : SplitsSection v va) : False := hSection hSplits.isSection
      by_cases hTable : l1Type (v.l1 (vmapL1Index va)) = mmuL1TypePageTable
      · rw [vmapMap_table hAccepted hPa a hTable]
        cases hFound : v.table (vmapL1Index va) with
        | none => exact .kept (by decide) fun _ _ => hNot
        | some l2 =>
          simp only
          split_ifs
          · exact .kept (by decide) fun _ _ => hNot
          · exact .table rfl hAccepted hTable hFound
      · rw [vmapMap_unlinked hAccepted hPa a hTable hSection]
        split_ifs
        · exact .kept (by decide) fun _ _ => hNot
        · exact .unlinked rfl hAccepted hTable hSection

theorem vmapUnmap_cases (v : VmapT) (va : U32) :
    (∃ e ≠ .ok, vmapUnmap v va = (v, e)) ∨ ∃ l2, v.table (vmapL1Index va) = some l2 ∧
      vmapUnmap v va = ({ v.write l2 va 0 with statUnmap := v.statUnmap + 1 }, .ok) := by
  by_cases hAccepted : Accepted v va
  · rw [vmapUnmap_eq hAccepted]
    split_ifs
    · exact .inl ⟨_, by decide, rfl⟩
    · exact .inl ⟨_, by decide, rfl⟩
    · cases v.table (vmapL1Index va) with
      | none => exact .inl ⟨_, by decide, rfl⟩
      | some l2 => exact .inr ⟨l2, rfl, rfl⟩
  · obtain ⟨e, hError, hEq⟩ := vmapUnmap_refused hAccepted
    exact .inl ⟨e, ne_of_refusal hError (by decide), hEq⟩

theorem vmapSetAttr_cases (v : VmapT) (va : U32) (attr : Option VmapAttr) :
    (∃ e ≠ .ok, vmapSetAttr v va attr = (v, e)) ∨ v.inited ∧ inRange v va ∧
      ∃ a l2, attr = some a ∧ v.table (vmapL1Index va) = some l2 ∧ vmapSetAttr v va attr =
        (v.write l2 va (mmuSmallPageDescriptor (vmapLookup v va &&& ~~~0xFFF) (pageAttrOf a)), .ok) := by
  by_cases hRefused : attr = none ∨ v.inited = false ∨ inRange v va = false
  · exact .inl (vmapSetAttr_refused hRefused)
  · rw [not_or, not_or, Bool.not_eq_false, Bool.not_eq_false] at hRefused
    obtain ⟨hAttr, hInited, hRange⟩ := hRefused
    obtain ⟨a, rfl⟩ := Option.ne_none_iff_exists'.mp hAttr
    rw [vmapSetAttr_eq hInited hRange]
    split_ifs
    · exact .inl ⟨_, by decide, rfl⟩
    · exact .inl ⟨_, by decide, rfl⟩
    · cases v.table (vmapL1Index va) with
      | none => exact .inl ⟨_, by decide, rfl⟩
      | some l2 => exact .inr ⟨hInited, hRange, a, l2, rfl, rfl, rfl⟩

end OpenXJ380.Vmap
