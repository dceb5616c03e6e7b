import OpenXJ380.Vmap.Frame

/-! # Pages that read as a section

An operation never makes a page read as a section that did not before. A page that does
stays so as long as its section cannot be split.
-/

namespace OpenXJ380.Vmap

open Mmu

variable {v v' : VmapT} {va : U32}

theorem Milder.lookup (h : Milder v v') (hNot : vmapLookup v va ≠ vmapResultSection) :
    vmapLookup v' va ≠ vmapResultSection := by
  have hRange' : inRange v' va = inRange v va := by
    rw [inRange, inRange, h.window.vaBegin, h.window.vaEnd]
  by_cases hOut : v.inited ∧ inRange v va
  · obtain ⟨hInited, hRange⟩ := hOut
    have hKind : l1Type (v.l1 (vmapL1Index va)) ≠ mmuL1TypeSection := fun hSection =>
      hNot (vmapLookup_section hInited hRange hSection)
    have hSame := h.l1 _ hKind
    have hTable : v'.table (vmapL1Index va) = v.table (vmapL1Index va) := by
      simp only [VmapT.table, hSame, l2FromPa, h.window.l2PoolPa, h.window.l2Capacity]
    rw [vmapLookup_eq hInited hRange hKind] at hNot
    rw [vmapLookup_eq (h.window.inited.trans hInited) (hRange'.trans hRange) (by rwa [hSame]), hTable]
    cases hFound : v.table (vmapL1Index va) with
    | none => exact (by decide : (0 : U32) ≠ vmapResultSection)
    | some l2 =>
      rw [hFound] at hNot
      simp only [Option.map_some, Option.getD_some] at hNot ⊢
      obtain hWord | hWord := h.word (l2 + (vmapL2Index va).toNat)
      · rwa [hWord]
      · exact hWord
  · rw [vmapLookup, h.window.inited, hRange', if_pos]
    · decide
    · rw [not_and_or, Bool.not_eq_true, Bool.not_eq_true] at hOut
      obtain hInited | hRange := hOut
      · exact .inl (by rw [hInited]; rfl)
      · exact .inr (by rw [hRange]; rfl)

/-- The page reads as a section, and no split changes that: there is no table left, or the tables are misaligned, or
the entry is a table already. -/
structure Stuck (v : VmapT) (va : U32) : Prop extends Accepted v va where
  lookup : vmapLookup v va = vmapResultSection
  unsplit : l1Type (v.l1 (vmapL1Index va)) = mmuL1TypeSection →
    v.l2Used ≥ v.l2Capacity ∨ v.l2PoolPa &&& (vmapL2Align - 1) ≠ 0

theorem Stuck.split (h : Stuck v va) : Stuck (vmapSplitSection v va).1 va := by
  rw [vmapSplitSection_eq h.inited h.range h.aligned]
  split_ifs with hTable hOther hFull hMisaligned
  · exact h
  · exact h
  · exact h
  · have hSection := not_not.mp hOther
    rw [ne_eq, freshEntry_aligned] at hMisaligned
    have hAccepted : Accepted (v.consumed va) va := { h with }
    exact { hAccepted with
            lookup := vmapLookup_section hAccepted.inited hAccepted.range hSection
            unsplit := fun _ => .inr hMisaligned }
  · rw [ne_eq, freshEntry_aligned, not_not] at hMisaligned
    obtain hFull' | hBad := h.unsplit (not_not.mp hOther)
    · exact absurd hFull' hFull
    · exact absurd hMisaligned hBad

theorem Stuck.unmap (h : Stuck v va) : vmapUnmap v va = (v, .isSection) := by
  rw [vmapUnmap_eq h.toAccepted, h.lookup, if_neg (by decide), if_pos rfl]

theorem Stuck.setAttr (h : Stuck v va) (attr : VmapAttr) : vmapSetAttr v va (some attr) = (v, .isSection) := by
  rw [vmapSetAttr_eq h.inited h.range, h.lookup, if_neg (by decide), if_pos rfl]

theorem split_lookup (hAccepted : Accepted v va) (hNot : ¬ Stuck v va) :
    vmapLookup (vmapSplitSection v va).1 va ≠ vmapResultSection := by
  by_cases hLookup : vmapLookup v va = vmapResultSection
  · have hSplits : l1Type (v.l1 (vmapL1Index va)) = mmuL1TypeSection ∧ ¬ v.l2Used ≥ v.l2Capacity ∧
        v.l2PoolPa &&& (vmapL2Align - 1) = 0 := by
      by_contra hNone
      refine hNot { hAccepted with lookup := hLookup, unsplit := fun hSection => ?_ }
      by_contra hOr
      rw [not_or, not_not] at hOr
      exact hNone ⟨hSection, hOr⟩
    obtain ⟨hSection, hRoom, hAligned⟩ := hSplits
    rw [← freshEntry_aligned] at hAligned
    rw [vmapSplitSection_eq hAccepted.inited hAccepted.range hAccepted.aligned, hSection, if_neg (by decide),
      if_neg (not_not.mpr rfl), if_neg hRoom, if_neg (not_not.mpr hAligned)]
    have hKind : l1Type ((v.splitted va).l1 (vmapL1Index va)) ≠ mmuL1TypeSection := by
      rw [VmapT.splitted]
      simp only [Function.update_self]
      rw [pageTableDescriptor_type]
      decide
    have hTable := @splitted_table_self _ va hAligned
    rw [vmapLookup_eq hAccepted.splitted.inited hAccepted.splitted.range hKind, hTable]
    cases hPool : l2FromPa v v.freshEntry with
    | none => exact (by decide : (0 : U32) ≠ vmapResultSection)
    | some l2 =>
      rw [l2FromPa_freshEntry hPool]
      simp only [Option.map_some, Option.getD_some]
      rw [splitted_l2Pool, splitPool_inside va (vmapL2Index va).isLt]
      exact smallPageDescriptor_ne_section _ _
  · exact (split_milder v va).lookup hLookup

end OpenXJ380.Vmap
