import OpenXJ380.Vmap.Frame

/-! # Calls that fail

A call that is turned down before the pool of tables is touched leaves no trace. Two checks
come after the next table has been taken from the pool.
-/

namespace OpenXJ380.Vmap

open Mmu

variable {v v' : VmapT} {va pa : U32}

structure NoTrace (v v' : VmapT) : Prop where
  l1 : ∀ i, v'.l1 i = v.l1 i
  tables : ∀ i l2, v.table i = some l2 → ∀ n < vmapL2Entries, v'.l2Pool (l2 + n) = v.l2Pool (l2 + n)
  l2Used : v'.l2Used = v.l2Used
  lookup : ∀ va, vmapLookup v' va = vmapLookup v va

theorem NoTrace.refl (v : VmapT) : NoTrace v v := ⟨fun _ => rfl, fun _ _ _ _ _ => rfl, rfl, fun _ => rfl⟩

/-- The pool is misaligned; or the table that a mapping takes from it does not lie in the pool as the lookup sees it,
because the pool goes past the end of the address space. -/
def StopsHalfway (v : VmapT) : Op → Prop
  | .split va => SplitsSection v va ∧ v.l2PoolPa &&& (vmapL2Align - 1) ≠ 0
  | .map va pa attr => SplitsSection v va ∧ pa &&& (vmapPageSize - 1) = 0 ∧ attr ≠ none ∧
      (v.l2PoolPa &&& (vmapL2Align - 1) ≠ 0 ∨ l2FromPa v v.freshEntry = none)
  | .unmap _ => False
  | .setAttr _ _ => False

theorem not_noTrace_of_taken (h : v'.l2Used = v.l2Used + 1) : ¬ NoTrace v v' := by
  intro hNoTrace
  have hSame := hNoTrace.l2Used
  rw [h] at hSame
  bv_omega

theorem split_failure (v : VmapT) (va : U32) : (vmapSplitSection v va).2 = .ok ∧ ¬ StopsHalfway v (.split va) ∨
      (vmapSplitSection v va).1 = v ∧ ¬ StopsHalfway v (.split va) ∨
      StopsHalfway v (.split va) ∧ (vmapSplitSection v va).2 ≠ .ok ∧
        (vmapSplitSection v va).1.l2Used = v.l2Used + 1 := by
  by_cases hAccepted : Accepted v va
  · rw [vmapSplitSection_eq hAccepted.inited hAccepted.range hAccepted.aligned]
    split_ifs with hTable hOther hFull hMisaligned
    · refine .inl ⟨rfl, fun hHalf => ?_⟩
      exact absurd (hTable.symm.trans hHalf.1.isSection) (by decide)
    · exact .inr (.inl ⟨rfl, fun hHalf => hOther hHalf.1.isSection⟩)
    · exact .inr (.inl ⟨rfl, fun hHalf => BitVec.not_le.mpr hHalf.1.room hFull⟩)
    · rw [ne_eq, freshEntry_aligned] at hMisaligned
      exact .inr (.inr ⟨⟨⟨hAccepted, not_not.mp hOther, BitVec.not_le.mp hFull⟩, hMisaligned⟩, by simp, rfl⟩)
    · rw [ne_eq, freshEntry_aligned] at hMisaligned
      exact .inl ⟨rfl, fun hHalf => hMisaligned hHalf.2⟩
  · obtain ⟨e, -, hEq⟩ := vmapSplitSection_refused hAccepted
    rw [hEq]
    exact .inr (.inl ⟨rfl, fun hHalf => hAccepted hHalf.1.toAccepted⟩)

theorem map_failure (v : VmapT) (va pa : U32) (attr : Option VmapAttr) :
    (vmapMap v va pa attr).2 = .ok ∧ ¬ StopsHalfway v (.map va pa attr) ∨
      (vmapMap v va pa attr).1 = v ∧ ¬ StopsHalfway v (.map va pa attr) ∨
      StopsHalfway v (.map va pa attr) ∧ (vmapMap v va pa attr).2 ≠ .ok ∧
        (vmapMap v va pa attr).1.l2Used = v.l2Used + 1 := by
  have hMaps := vmapMap_maps v va pa attr
  generalize vmapMap v va pa attr = r at hMaps ⊢
  cases hMaps with
  | kept _ hNot => exact .inr (.inl ⟨rfl, fun ⟨hSplits, hPa, hAttr, _⟩ => hNot hAttr hPa hSplits⟩)
  | consumed hAttr hPa hSplits hMisaligned =>
    rw [ne_eq, freshEntry_aligned] at hMisaligned
    exact .inr (.inr ⟨⟨hSplits, hPa, hAttr, .inl hMisaligned⟩, by simp, rfl⟩)
  | outside hAttr hPa hSplits _ hPool => exact .inr (.inr ⟨⟨hSplits, hPa, hAttr, .inr hPool⟩, by simp, rfl⟩)
  | split _ _ hAligned hPool =>
    refine .inl ⟨rfl, ?_⟩
    rintro ⟨-, -, -, hBad | hOutside⟩
    · exact hBad ((freshEntry_aligned v).mp hAligned)
    · rw [hPool] at hOutside
      cases hOutside
  | table _ _ hKind => exact .inl ⟨rfl, fun hHalf => section_ne_pageTable (hHalf.1.isSection.symm.trans hKind)⟩
  | unlinked _ _ _ hSection => exact .inl ⟨rfl, fun hHalf => hSection hHalf.1.isSection⟩

theorem unmap_failure (v : VmapT) (va : U32) : (vmapUnmap v va).2 = .ok ∨ (vmapUnmap v va).1 = v := by
  obtain ⟨e, -, hEq⟩ | ⟨l2, -, hEq⟩ := vmapUnmap_cases v va
  · exact .inr (by rw [hEq])
  · exact .inl (by rw [hEq])

theorem setAttr_failure (v : VmapT) (va : U32) (attr : Option VmapAttr) :
    (vmapSetAttr v va attr).2 = .ok ∨ (vmapSetAttr v va attr).1 = v := by
  obtain ⟨e, -, hEq⟩ | ⟨-, -, a, l2, -, -, hEq⟩ := vmapSetAttr_cases v va attr
  · exact .inr (by rw [hEq])
  · exact .inl (by rw [hEq])

/-- In every state, whatever calls led to it. -/
theorem failure_without_trace_iff (v : VmapT) (op : Op) :
    ((vmapMachine.step v op).2 ≠ .ok → NoTrace v (vmapMachine.step v op).1) ↔ ¬ StopsHalfway v op := by
  have hCases : (vmapMachine.step v op).2 = .ok ∧ ¬ StopsHalfway v op ∨
      (vmapMachine.step v op).1 = v ∧ ¬ StopsHalfway v op ∨
      StopsHalfway v op ∧ (vmapMachine.step v op).2 ≠ .ok ∧ (vmapMachine.step v op).1.l2Used = v.l2Used + 1 := by
    cases op with
    | split va => exact split_failure v va
    | map va pa attr => exact map_failure v va pa attr
    | unmap va => exact (unmap_failure v va).imp (⟨·, id⟩) fun hSame => .inl ⟨hSame, id⟩
    | setAttr va attr => exact (setAttr_failure v va attr).imp (⟨·, id⟩) fun hSame => .inl ⟨hSame, id⟩
  obtain ⟨hOk, hNot⟩ | ⟨hSame, hNot⟩ | ⟨hHalf, hErr, hTaken⟩ := hCases
  · exact ⟨fun _ => hNot, fun _ hErr => absurd hOk hErr⟩
  · rw [hSame]
    exact ⟨fun _ => hNot, fun _ _ => .refl v⟩
  · exact ⟨fun hClean => absurd (hClean hErr) (not_noTrace_of_taken hTaken), fun hNot => absurd hHalf hNot⟩

/-- The pool of tables begins in the middle of a table. -/
theorem split_failure_leaves_trace :
    ∃ v, vmapInit (some sampleSections) (some samplePool) 0x20000200 4 0x40000000 0x40400000 = .ok v ∧
      (vmapMachine.step v (.split 0x40000000)).2 = .align ∧
      ¬ NoTrace v (vmapMachine.step v (.split 0x40000000)).1 := by
  refine ⟨{ sampleVmap sampleSections with l2PoolPa := 0x20000200 }, rfl, by decide +kernel, ?_⟩
  exact not_noTrace_of_taken (by decide +kernel)

end OpenXJ380.Vmap
