import OpenXJ380.Paging.Tables

/-! # The first free range

No candidate is passed over that would do, whichever source of occupancy moves
the search on.
-/

namespace OpenXJ380.Paging

open BitVec (eq_of_toNat_eq le_def lt_def)

variable {memory : Memory} {directory : PageDirectory} {owner : Option Owner}
  {a c length next start x : U64} {rounds fuel n : Nat}

theorem toNat_page (x : U64) : (x &&& pageMask).toNat = x.toNat / 4096 * 4096 := Bits.clear_low_toNat (k := 12) x rfl

theorem toNat_roundUp (hFits : x.toNat + 4095 < 2 ^ 64) :
    ((x + pageSize - 1) &&& pageMask).toNat = (x.toNat + 4095) / 4096 * 4096 := by
  have hSum : (x + pageSize - 1).toNat = x.toNat + 4095 := by
    rw [pageSize]
    bv_omega
  rw [toNat_page, hSum]

def alignedLength (length : U64) : Nat := (length.toNat + 4095) / 4096 * 4096

theorem pageAlignUp_toNat (length : U64) : (pageAlignUp length).toNat = alignedLength length % 2 ^ 64 := by
  rw [pageAlignUp, alignedLength]
  split_ifs with hZero
  · rw [hZero]
    rfl
  · by_cases hFits : length.toNat + 4095 < 2 ^ 64
    · rw [toNat_roundUp hFits]
      omega
    · have hWrap : (length + pageSize - 1).toNat = length.toNat + 4095 - 2 ^ 64 := by
        rw [pageSize]
        bv_omega
      rw [toNat_page, hWrap]
      omega

/-- The addresses from `lo` up to `hi` and those of the range have one in common. -/
def Meets (a length lo hi : Nat) : Prop := ∃ x, (a ≤ x ∧ x < a + length) ∧ lo ≤ x ∧ x < hi

theorem meets_iff {a length lo hi : Nat} (hLength : 0 < length) (hNonempty : lo < hi) :
    Meets a length lo hi ↔ a < hi ∧ lo < a + length := by
  constructor
  · rintro ⟨x, ⟨hLow, hHigh⟩, hFrom, hTo⟩
    omega
  · rintro ⟨hLow, hHigh⟩
    exact ⟨max a lo, by omega, by omega⟩

structure Free (memory : Memory) (directory : PageDirectory) (owner : Option Owner) (length a : Nat) : Prop where
  areas : ∀ pcb ∈ owner, ∀ vma ∈ pcb.vmaManager, ¬ Meets a length vma.vmStart.toNat vma.vmEnd.toNat
  reserved : ∀ pcb ∈ owner, ∀ records ∈ pcb.virtQueue, ∀ vpage, some vpage ∈ records →
    ¬ Meets a length vpage.start.toNat (vpage.start.toNat + vpage.count.toNat * 4096)
  unmapped : ∀ page : U64, page.toNat % 4096 = 0 → a ≤ page.toNat → page.toNat < a + length →
    translateAddress memory directory page = 0

structure Suitable (memory : Memory) (directory : PageDirectory) (owner : Option Owner) (start length a : U64) :
    Prop where
  aligned : a.toNat % 4096 = 0
  low : max (start.toNat / 4096 * 4096) userMmapStart.toNat ≤ a.toNat
  high : a.toNat + alignedLength length ≤ userBrkStart.toNat
  free : Free memory directory owner (alignedLength length) a.toNat

theorem LazyRecord.stop_toNat (vpage : LazyRecord) :
    vpage.stop.toNat = vpage.start.toNat + vpage.count.toNat * 4096 := by
  have hFits := vpage.fits
  rw [LazyRecord.stop, pageSize]
  bv_omega

theorem LazyRecord.start_lt (vpage : LazyRecord) : vpage.start.toNat < vpage.stop.toNat := by
  have hCount : vpage.count.toNat ≠ 0 := fun hZero => vpage.nonempty (eq_of_toNat_eq hZero)
  rw [vpage.stop_toNat]
  omega

structure Within (length c : U64) : Prop where
  aligned : c.toNat % 4096 = 0
  whole : length.toNat % 4096 = 0
  positive : 0 < length.toNat
  high : c.toNat + length.toNat ≤ userBrkStart.toNat

theorem Within.add_toNat (h : Within length c) : (c + length).toNat = c.toNat + length.toNat := by
  have hHigh := h.high
  rw [userBrkStart] at hHigh
  bv_omega

variable {vma : Area} {records : List (Option LazyRecord)} {vpage : LazyRecord} {r : U64}

theorem vmaFindIntersection_some {areas : List Area} (h : Within length c)
    (hFound : vmaFindIntersection areas c (c + length) = some vma) :
    vma ∈ areas ∧ Meets c.toNat length.toNat vma.vmStart.toNat vma.vmEnd.toNat := by
  rw [vmaFindIntersection] at hFound
  have hMeets := List.find?_some hFound
  simp only [Bool.not_eq_true', Bool.or_eq_false_iff, decide_eq_false_iff_not, ge_iff_le, le_def,
    h.add_toNat, not_le] at hMeets
  refine ⟨List.mem_of_find?_eq_some hFound, (meets_iff h.positive vma.nonempty).mpr ⟨hMeets.2, hMeets.1⟩⟩

theorem vmaFindIntersection_none {areas : List Area} (h : Within length c)
    (hNone : vmaFindIntersection areas c (c + length) = none) (hMem : vma ∈ areas) :
    ¬ Meets c.toNat length.toNat vma.vmStart.toNat vma.vmEnd.toNat := by
  rw [meets_iff h.positive vma.nonempty]
  have hApart := List.find?_eq_none.mp hNone vma hMem
  simp only [Bool.not_eq_true', Bool.not_eq_false, Bool.or_eq_true, decide_eq_true_eq, ge_iff_le, le_def,
    h.add_toNat] at hApart
  omega

theorem findLazy_some (h : Within length c) (hFound : findLazy records c (c + length) = some vpage) :
    some vpage ∈ records ∧ c.toNat < vpage.stop.toNat ∧ vpage.start.toNat < c.toNat + length.toNat := by
  rw [findLazy, Option.join_eq_some_iff] at hFound
  have hMeets := List.find?_some hFound
  simp only [Option.any_some, Bool.not_eq_true', Bool.or_eq_false_iff, decide_eq_false_iff_not, ge_iff_le,
    le_def, h.add_toNat, not_le] at hMeets
  exact ⟨List.mem_of_find?_eq_some hFound, hMeets.2, hMeets.1⟩

theorem findLazy_none (h : Within length c)
    (hNone : findLazy records c (c + length) = none) (hMem : some vpage ∈ records) :
    ¬ Meets c.toNat length.toNat vpage.start.toNat (vpage.start.toNat + vpage.count.toNat * 4096) := by
  have hLess := vpage.start_lt
  rw [← vpage.stop_toNat, meets_iff h.positive hLess]
  rw [findLazy] at hNone
  have hAbsent : records.find? (fun node => node.any fun vpage => !(c + length ≤ vpage.start || c ≥ vpage.stop)) =
      none := by
    rcases hFind : records.find? (fun node => node.any fun vpage => !(c + length ≤ vpage.start || c ≥ vpage.stop))
      with _ | node
    · exact hFind
    · have hAny := List.find?_some hFind
      rw [hFind] at hNone
      cases node with
      | none => cases hAny
      | some other => cases hNone
  have hApart := List.find?_eq_none.mp hAbsent _ hMem
  simp only [Option.any_some, Bool.not_eq_true', Bool.not_eq_false, Bool.or_eq_true, decide_eq_true_eq, ge_iff_le,
    le_def, h.add_toNat] at hApart
  omega

theorem findMapped_some (hFits : a.toNat + rounds * 4096 < 2 ^ 64)
    (hFound : findMapped memory directory rounds a = some x) :
    ∃ k, k < rounds ∧ x.toNat = a.toNat + k * 4096 ∧ translateAddress memory directory x ≠ 0 := by
  induction rounds generalizing a with
  | zero => cases hFound
  | succ rounds ih =>
    rw [findMapped] at hFound
    split_ifs at hFound with hMapped
    · cases hFound
      exact ⟨0, by omega, by omega, hMapped⟩
    · have hNext : (a + pageSize).toNat = a.toNat + 4096 := by
        rw [pageSize]
        bv_omega
      obtain ⟨k, hLess, hAt, hSome⟩ := ih (by omega) hFound
      exact ⟨k + 1, by omega, by omega, hSome⟩

theorem findMapped_none (hFits : a.toNat + rounds * 4096 < 2 ^ 64)
    (hNone : findMapped memory directory rounds a = none) {k : Nat} (hLess : k < rounds)
    (hAt : x.toNat = a.toNat + k * 4096) : translateAddress memory directory x = 0 := by
  induction rounds generalizing a k with
  | zero => omega
  | succ rounds ih =>
    rw [findMapped] at hNone
    split_ifs at hNone with hMapped
    have hNext : (a + pageSize).toNat = a.toNat + 4096 := by
      rw [pageSize]
      bv_omega
    cases k with
    | zero =>
      have hSame : x = a := eq_of_toNat_eq (by omega)
      rw [hSame]
      exact not_not.mp hMapped
    | succ k => exact ih (by omega) hNone (by omega : k < rounds) (by omega)

theorem Within.fits (h : Within length c) : c.toNat + length.toNat / 4096 * 4096 < 2 ^ 64 := by
  have hHigh := h.high
  omega

/-- Every whole page from the candidate up to the next one is too low a start. -/
structure Passes (memory : Memory) (directory : PageDirectory) (owner : Option Owner) (length c next : U64) : Prop where
  progress : c.toNat < next.toNat
  aligned : next.toNat % 4096 = 0
  taken : ∀ a, a % 4096 = 0 → c.toNat ≤ a → a < next.toNat → ¬ Free memory directory owner length.toNat a

section

variable (h : Within length c)

include h

theorem passes_area {pcb : Owner} (hMem : vma ∈ pcb.vmaManager)
    (hMeets : Meets c.toNat length.toNat vma.vmStart.toNat vma.vmEnd.toNat) :
    Passes memory directory (some pcb) length c (c + pageSize) := by
  have hHigh := h.high
  have hAligned := h.aligned
  have hNext : (c + pageSize).toNat = c.toNat + 4096 := by
    rw [userBrkStart] at hHigh
    rw [pageSize]
    bv_omega
  refine ⟨by omega, by omega, ?_⟩
  intro a hWhole hLow hLess hFree
  have hSame : a = c.toNat := by omega
  rw [hSame] at hFree
  exact hFree.areas pcb rfl vma hMem hMeets

theorem passes_lazy {pcb : Owner}
    (hQueue : pcb.virtQueue = some records) (hMem : some vpage ∈ records) (hLow : c.toNat < vpage.stop.toNat)
    (hHigh : vpage.start.toNat < c.toNat + length.toNat) :
    Passes memory directory (some pcb) length c ((vpage.stop + pageSize - 1) &&& pageMask) := by
  have hFits := vpage.fits
  have hStop := vpage.stop_toNat
  have hNext := toNat_roundUp (by omega : vpage.stop.toNat + 4095 < 2 ^ 64)
  refine ⟨by omega, by omega, ?_⟩
  intro a hWhole hFrom hTo hFree
  apply hFree.reserved pcb rfl records hQueue vpage hMem
  rw [← vpage.stop_toNat, meets_iff h.positive vpage.start_lt]
  omega

theorem passes_mapped (hAligned : x.toNat % 4096 = 0) (hLow : c.toNat ≤ x.toNat)
    (hHigh : x.toNat < c.toNat + length.toNat) (hMapped : translateAddress memory directory x ≠ 0) :
    Passes memory directory owner length c ((x &&& pageMask) + pageSize) := by
  have hEnd := h.high
  have hBrk : userBrkStart.toNat + 4096 < 2 ^ 64 := by decide
  have hNext : ((x &&& pageMask) + pageSize).toNat = x.toNat + 4096 := by
    have hPage : pageSize.toNat = 4096 := rfl
    rw [BitVec.toNat_add, toNat_page, hPage, Nat.mod_eq_of_lt (by omega)]
    omega
  refine ⟨by omega, by omega, ?_⟩
  intro a hWhole hFrom hTo hFree
  exact hMapped (hFree.unmapped x hAligned (by omega) (by omega))

theorem nextCandidate_some (hNext : nextCandidate memory directory owner length c = some next) :
    Passes memory directory owner length c next := by
  rw [nextCandidate] at hNext
  split_ifs at hNext with hArea
  · obtain ⟨vma, hFound⟩ := Option.isSome_iff_exists.mp hArea
    obtain ⟨pcb, rfl, hFind⟩ := Option.bind_eq_some_iff.mp hFound
    obtain ⟨hMem, hMeets⟩ := vmaFindIntersection_some h hFind
    rw [← Option.some.inj hNext]
    exact passes_area h hMem hMeets
  · split at hNext
    next vpage hFound =>
      obtain ⟨records, hRecords, hFind⟩ := Option.bind_eq_some_iff.mp hFound
      obtain ⟨pcb, rfl, hQueue⟩ := Option.bind_eq_some_iff.mp hRecords
      obtain ⟨hMem, hLow, hHigh⟩ := findLazy_some h hFind
      rw [← Option.some.inj hNext]
      exact passes_lazy h hQueue hMem hLow hHigh
    next hNone =>
      obtain ⟨page, hFound, rfl⟩ := Option.map_eq_some_iff.mp hNext
      obtain ⟨k, hLess, hAt, hMapped⟩ := findMapped_some h.fits hFound
      have hAligned := h.aligned
      exact passes_mapped h (by omega) (by omega) (by omega) hMapped

theorem nextCandidate_none (hNext : nextCandidate memory directory owner length c = none) :
    Free memory directory owner length.toNat c.toNat := by
  rw [nextCandidate] at hNext
  split_ifs at hNext with hArea
  rw [Option.not_isSome_iff_eq_none] at hArea
  split at hNext
  · cases hNext
  next hLazy =>
    rw [Option.map_eq_none_iff] at hNext
    refine ⟨?_, ?_, ?_⟩
    · intro pcb hPcb vma hMem
      rw [Option.mem_def] at hPcb
      rw [hPcb] at hArea
      exact vmaFindIntersection_none h hArea hMem
    · intro pcb hPcb records hRecords vpage hMem
      rw [Option.mem_def] at hPcb hRecords
      rw [hPcb, Option.bind_some, hRecords] at hLazy
      exact findLazy_none h hLazy hMem
    · intro page hAligned hLow hHigh
      have hStart := h.aligned
      have hWhole := h.whole
      exact findMapped_none h.fits hNext (by omega : (page.toNat - c.toNat) / 4096 < _) (by omega)

end

theorem searchFrom_spec (memory : Memory) (directory : PageDirectory) (owner : Option Owner)
    (hWhole : length.toNat % 4096 = 0) (hPositive : 0 < length.toNat)
    (hBelow : length.toNat < userBrkStart.toNat) (hAligned : c.toNat % 4096 = 0)
    (hFuel : userBrkStart.toNat - c.toNat < fuel) :
    ∃ r, searchFrom memory directory owner length (userBrkStart - length) fuel c = some r ∧
      (r = 0 ∧ (∀ a, a % 4096 = 0 → c.toNat ≤ a → a + length.toNat ≤ userBrkStart.toNat →
        ¬ Free memory directory owner length.toNat a) ∨
      r.toNat % 4096 = 0 ∧ c.toNat ≤ r.toNat ∧ r.toNat + length.toNat ≤ userBrkStart.toNat ∧
        Free memory directory owner length.toNat r.toNat ∧
        ∀ a, a % 4096 = 0 → c.toNat ≤ a → a < r.toNat → ¬ Free memory directory owner length.toNat a) := by
  have hLimit : (userBrkStart - length).toNat = userBrkStart.toNat - length.toNat :=
    BitVec.toNat_sub_of_le (by rw [le_def]; omega)
  induction fuel generalizing c with
  | zero => omega
  | succ fuel ih =>
    rw [searchFrom]
    by_cases hIn : c ≤ userBrkStart - length
    · rw [if_pos hIn]
      rw [le_def, hLimit] at hIn
      have hWithin : Within length c := ⟨hAligned, hWhole, hPositive, by omega⟩
      rcases hNext : nextCandidate memory directory owner length c with _ | next
      · refine ⟨c, rfl, .inr ⟨hAligned, le_rfl, by omega, nextCandidate_none hWithin hNext, ?_⟩⟩
        intro a _ hLow hLess
        omega
      · have hPasses := nextCandidate_some hWithin hNext
        have hProgress := hPasses.progress
        obtain ⟨r, hSearch, hResult⟩ := ih hPasses.aligned (by omega)
        have hBefore : ∀ a, a % 4096 = 0 → c.toNat ≤ a →
            (next.toNat ≤ a → ¬ Free memory directory owner length.toNat a) →
            ¬ Free memory directory owner length.toNat a := by
          intro a hA hLow hAfter
          by_cases hLess : a < next.toNat
          · exact hPasses.taken a hA hLow hLess
          · exact hAfter (by omega)
        refine ⟨r, hSearch, ?_⟩
        obtain ⟨hZero, hNone⟩ | ⟨hWhole', hLow, hHigh, hFree, hLeast⟩ := hResult
        · exact .inl ⟨hZero, fun a hA hFrom hTo => hBefore a hA hFrom fun hAfter => hNone a hA hAfter hTo⟩
        · refine .inr ⟨hWhole', by omega, hHigh, hFree, ?_⟩
          exact fun a hA hFrom hTo => hBefore a hA hFrom fun hAfter => hLeast a hA hAfter hTo
    · rw [if_neg hIn]
      rw [le_def, hLimit] at hIn
      exact ⟨0, rfl, .inl ⟨rfl, fun a _ hFrom hTo => by omega⟩⟩

/-- The least suitable address, and 0 where there is none or nothing is asked for. -/
structure FirstFit (memory : Memory) (directory : PageDirectory) (owner : Option Owner) (start length r : U64) :
    Prop where
  zero : r = 0 ↔ length = 0 ∨ ∀ a, ¬ Suitable memory directory owner start length a
  least : r ≠ 0 → Suitable memory directory owner start length r ∧
    ∀ a, Suitable memory directory owner start length a → r ≤ a

theorem FirstFit.unique {r' : U64} (h : FirstFit memory directory owner start length r)
    (h' : FirstFit memory directory owner start length r') : r = r' := by
  by_cases hZero : r = 0
  · rw [hZero, h'.zero.mpr (h.zero.mp hZero)]
  · have hZero' : r' ≠ 0 := fun hZero' => hZero (h.zero.mpr (h'.zero.mp hZero'))
    obtain ⟨hSuits, hLeast⟩ := h.least hZero
    obtain ⟨hSuits', hLeast'⟩ := h'.least hZero'
    have hLe := hLeast r' hSuits'
    have hGe := hLeast' r hSuits
    rw [le_def] at hLe hGe
    exact eq_of_toNat_eq (hLe.antisymm hGe)

theorem Suitable.nonzero (h : Suitable memory directory owner start length a) : a ≠ 0 := by
  intro hZero
  have hLow := h.low
  rw [hZero, show userMmapStart.toNat = 0x400000000000 from rfl] at hLow
  change _ ≤ 0 at hLow
  omega

theorem FirstFit.notFound (hZero : r = 0) (h : length = 0 ∨ ∀ a, ¬ Suitable memory directory owner start length a) :
    FirstFit memory directory owner start length r :=
  ⟨⟨fun _ => h, fun _ => hZero⟩, fun hNonzero => absurd hZero hNonzero⟩

theorem FirstFit.found (hLength : length ≠ 0) (hSuits : Suitable memory directory owner start length r)
    (hLeast : ∀ a, Suitable memory directory owner start length a → r ≤ a) :
    FirstFit memory directory owner start length r where
  zero := by
    constructor
    · exact (absurd · hSuits.nonzero)
    · rintro (hZero | hNone)
      · exact absurd hZero hLength
      · exact absurd hSuits (hNone r)
  least := fun _ => ⟨hSuits, hLeast⟩

theorem candidate_toNat (start : U64) :
    (if start < userMmapStart then userMmapStart else start &&& pageMask).toNat =
      max (start.toNat / 4096 * 4096) userMmapStart.toNat := by
  have hMmap : userMmapStart.toNat = 0x400000000000 := rfl
  split_ifs with hLess
  · rw [lt_def, hMmap] at hLess
    rw [hMmap]
    omega
  · rw [lt_def, hMmap] at hLess
    rw [hMmap, toNat_page]
    omega

theorem tooLong (hGuard : pageAlignUp length = 0 ∨ pageAlignUp length ≥ userBrkStart) (hLength : length ≠ 0) :
    ¬ Suitable memory directory owner start length a := by
  intro hSuits
  have hLow := hSuits.low
  have hHigh := hSuits.high
  have hAligned := pageAlignUp_toNat length
  have hPositive : length.toNat ≠ 0 := fun hZero => hLength (eq_of_toNat_eq hZero)
  have hMmap : userMmapStart.toNat = 0x400000000000 := rfl
  have hBrk : userBrkStart.toNat = 0x700000000000 := rfl
  have hNonzero : alignedLength length ≠ 0 := by
    rw [alignedLength]
    omega
  rw [Nat.mod_eq_of_lt (by omega)] at hAligned
  obtain hZero | hGe := hGuard
  · rw [hZero] at hAligned
    exact hNonzero hAligned.symm
  · rw [ge_iff_le, le_def] at hGe
    omega

theorem findFreeUserRange_spec (memory : Memory) (pcbGroupQueue : List (Option Owner)) (directory : PageDirectory)
    (start length : U64) (hFuel : userBrkStart.toNat < fuel) :
    ∃ r, findFreeUserRange memory pcbGroupQueue fuel (some directory) start length = some r ∧
      FirstFit memory directory (findProcessByPagedir pcbGroupQueue directory) start length r := by
  rw [findFreeUserRange]
  by_cases hLength : length = 0
  · rw [if_pos hLength]
    exact ⟨0, rfl, .notFound rfl (.inl hLength)⟩
  · rw [if_neg hLength]
    by_cases hGuard : pageAlignUp length = 0 ∨ pageAlignUp length ≥ userBrkStart
    · refine ⟨0, if_pos hGuard, .notFound rfl (.inr fun a => tooLong hGuard hLength)⟩
    · rw [if_neg hGuard]
      rw [not_or, ge_iff_le, le_def, not_le] at hGuard
      have hAligned := pageAlignUp_toNat length
      have hLess := length.isLt
      have hNonzero : (pageAlignUp length).toNat ≠ 0 := fun hZero => hGuard.1 (eq_of_toNat_eq hZero)
      have hSame : (pageAlignUp length).toNat = alignedLength length := by
        rw [alignedLength] at hAligned ⊢
        omega
      have hWhole : alignedLength length % 4096 = 0 := by
        rw [alignedLength]
        omega
      have hStart := candidate_toNat start
      have hStartAligned : (if start < userMmapStart then userMmapStart else start &&& pageMask).toNat % 4096 = 0 := by
        rw [hStart, show userMmapStart.toNat = 0x400000000000 from rfl]
        omega
      rw [← hSame] at hWhole
      obtain ⟨r, hSearch, hResult⟩ := searchFrom_spec memory directory (findProcessByPagedir pcbGroupQueue directory)
        hWhole (Nat.pos_of_ne_zero hNonzero) hGuard.2 hStartAligned (by omega : _ < fuel)
      refine ⟨r, hSearch, ?_⟩
      rw [hSame, hStart] at hResult
      obtain ⟨hZero, hNone⟩ | ⟨hAt, hLow, hHigh, hFree, hLeast⟩ := hResult
      · exact .notFound hZero (.inr fun a hSuits => hNone a.toNat hSuits.aligned hSuits.low hSuits.high hSuits.free)
      · refine .found hLength ⟨hAt, hLow, hHigh, hFree⟩ ?_
        intro a hSuits
        rw [le_def]
        by_contra hLess
        exact hLeast a.toNat hSuits.aligned hSuits.low (by omega) hSuits.free

def noTables : Memory := fun _ _ => 0

variable {memory : Memory} {directory : PageDirectory} {x : U64}

theorem samePage_of_div {a b : U64} (h : a.toNat / 4096 = b.toNat / 4096) : SamePage a b := by
  have hShift : ∀ k, 12 ≤ k → a >>> k = b >>> k := by
    intro k hk
    apply BitVec.eq_of_toNat_eq
    rw [BitVec.toNat_ushiftRight, BitVec.toNat_ushiftRight, Nat.shiftRight_eq_div_pow, Nat.shiftRight_eq_div_pow,
      show k = 12 + (k - 12) by omega, Nat.pow_add, ← Nat.div_div_eq_div_mul, ← Nat.div_div_eq_div_mul]
    rw [show 2 ^ 12 = 4096 from rfl, h]
  rw [SamePage, wayTo, wayTo, l4Index, l4Index, l3Index, l3Index, l2Index, l2Index, l1Index, l1Index,
    hShift 39 (by decide), hShift 30 (by decide), hShift 21 (by decide), hShift 12 (by decide)]
  exact ⟨rfl, rfl⟩

end OpenXJ380.Paging
