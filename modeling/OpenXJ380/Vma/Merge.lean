import OpenXJ380.Vma.Unmap

/-! # What merging does to the addresses

The merged area has the attributes of the first one. The code compares flags, type and
descriptor before it merges, but neither the offsets nor the other attributes.
-/

namespace OpenXJ380.Vma

open Option (bind_eq_bind bind_some map_some)
open Function

open LinkedList Intervals

variable {supply : Supply} {mgr mgr' : VmaManager} {pre rest : List Addr} {xs ys : List (Interval Attributes)}
  {x y : Interval Attributes} {a b : Addr} {vma vma1 vma2 : VmaT} {addr : U64}

/-- What `vmaMerge` compares. -/
structure Compatible (x y : Interval Attributes) : Prop where
  adjacent : x.hi = y.lo
  flags : x.value.vmFlags = y.value.vmFlags
  type : x.value.vmType = y.value.vmType
  fd : x.value.vmFd = y.value.vmFd

theorem compatible_iff : Compatible vma1.area vma2.area ↔
    vma1.vmEnd = vma2.vmStart ∧ vma1.vmFlags = vma2.vmFlags ∧ vma1.vmType = vma2.vmType ∧ vma1.vmFd = vma2.vmFd := by
  constructor
  · rintro ⟨hAdjacent, hFlags, hType, hFd⟩
    exact ⟨BitVec.eq_of_toNat_eq hAdjacent, hFlags, hType, hFd⟩
  · rintro ⟨hAdjacent, hFlags, hType, hFd⟩
    exact ⟨congrArg BitVec.toNat hAdjacent, hFlags, hType, hFd⟩

theorem vmaMerge_eq (ha : mgr.nodes a = some vma1)
    (hb : mgr.nodes b = some vma2) [Decidable (Compatible vma1.area vma2.area)] :
    vmaMerge mgr a b = if Compatible vma1.area vma2.area then
      (linkPrev (store mgr a { vma1 with vmEnd := vma2.vmEnd, vmNext := vma2.vmNext }) vma2.vmNext (some a)).map
        fun mgr => (vmaFree mgr b, 0) else some (mgr, -1) := by
  rw [vmaMerge, ha, hb]
  simp only [bind_eq_bind, bind_some]
  by_cases hAdjacent : vma1.vmEnd = vma2.vmStart
  · rw [if_neg (not_not.mpr hAdjacent)]
    by_cases hSame : vma1.vmFlags = vma2.vmFlags ∧ vma1.vmType = vma2.vmType ∧ vma1.vmFd = vma2.vmFd
    · rw [if_neg, if_pos (compatible_iff.mpr ⟨hAdjacent, hSame⟩)]
      · cases linkPrev (store mgr a { vma1 with vmEnd := vma2.vmEnd, vmNext := vma2.vmNext }) vma2.vmNext
          (some a) <;> rfl
      · rintro (hFlags | hType | hFd)
        · exact hFlags hSame.1
        · exact hType hSame.2.1
        · exact hFd hSame.2.2
    · rw [if_pos, if_neg fun hCompatible => hSame (compatible_iff.mp hCompatible).2]
      by_contra hNone
      rw [not_or, not_or, not_not, not_not, not_not] at hNone
      exact hSame hNone
  · rw [if_pos hAdjacent, if_neg fun hCompatible => hAdjacent (compatible_iff.mp hCompatible).1]

theorem Chained.merge (h : Chained mgr pre (a :: b :: rest) xs (x :: y :: ys)) (hCompatible : Compatible x y) :
    ∃ mgr', vmaMerge mgr a b = some (mgr', 0) ∧
      Chained mgr' pre (a :: rest) xs (⟨x.lo, y.hi, x.value⟩ :: ys) ∧ mgr'.vmUsed = mgr.vmUsed := by
  classical
  obtain ⟨vma1, ha, rfl, -⟩ := h.node
  have hStep := Chained.step.mpr h
  obtain ⟨vma2, hb, rfl, hPrev, -⟩ := hStep.node
  rw [List.getLast?_concat] at hPrev
  have hNe : a ≠ b := by
    rintro rfl
    have hNodup := hStep.nodup
    rw [List.nodup_middle, List.nodup_cons] at hNodup
    exact hNodup.1 (by simp)
  -- The first area takes over the end of the second one, which then is taken out.
  have hLong := h.store { vma1 with vmEnd := vma2.vmEnd } ha rfl rfl mgr.vmUsed
  obtain ⟨mgr₁, hRemove, hRemoved, hUsed⟩ := (Chained.step.mpr hLong).remove ((update_of_ne hNe.symm _ _).trans hb)
  simp only [vmaRemove, Vma.store, update_of_ne hNe.symm, hb, hPrev, linkNext, setNext, update_self, update_idem,
    map_some, bind_eq_bind, bind_some] at hRemove
  obtain ⟨mgr₂, hLink, hEq⟩ := Option.bind_eq_some_iff.mp hRemove
  cases hEq
  have hMerged := Chained.step.mp hRemoved
  refine ⟨vmaFree mgr₂ b, ?_, { hMerged with },
    (BitVec.sub_left_inj _).mp hUsed⟩
  rw [vmaMerge_eq ha hb, if_pos hCompatible, Vma.store, hLink]
  rfl

/-- An address of `x` has its meaning in the area at `a`. -/
def Means (mgr : VmaManager) (a : Addr) (x : Interval Attributes) (addr : Nat) : Prop :=
  ∃ z, areaOf mgr a = some z ∧ z.Covers addr ∧ SameAt x z addr

/-- A merge that succeeds leaves the addresses of both areas their meaning. -/
def MergeKeeps (mgr : VmaManager) (a b : Addr) (x y : Interval Attributes) : Prop :=
  ∀ mgr', vmaMerge mgr a b = some (mgr', 0) →
    (∀ addr, x.Covers addr → Means mgr' a x addr) ∧ ∀ addr, y.Covers addr → Means mgr' a y addr

/-- The second area is the first one continued. The areas may be empty, but neither ends before it begins. -/
structure Continues (x y : Interval Attributes) : Prop where
  upright : x.lo < x.hi → y.lo ≤ y.hi
  upright' : y.lo < y.hi → x.lo ≤ x.hi
  name : y.lo < y.hi → x.value.vmName = y.value.vmName
  shmId : y.lo < y.hi → x.value.shmId = y.value.shmId
  offset : y.lo < y.hi → x.value.vmType = .file →
    x.value.vmOffset + BitVec.ofNat 64 (y.lo - x.lo) = y.value.vmOffset

theorem Compatible.continues (h : Compatible x y) (hFirst : ∀ addr, x.Covers addr → addr < y.hi)
    (hSecond : ∀ addr, y.Covers addr → x.lo ≤ addr ∧ SameAt y ⟨x.lo, y.hi, x.value⟩ addr) : Continues x y := by
  have hAdjacent := h.adjacent
  have hStart (hNonempty : y.lo < y.hi) := hSecond y.lo ⟨le_rfl, hNonempty⟩
  refine ⟨fun hNonempty => ?_, fun hNonempty => ?_, fun hNonempty => (hStart hNonempty).2.name,
    fun hNonempty => (hStart hNonempty).2.shmId, fun hNonempty hFile => ?_⟩
  · have hLast := hFirst (x.hi - 1) ⟨by omega, by omega⟩
    omega
  · have hLow := (hStart hNonempty).1
    omega
  · have hOffset := (hStart hNonempty).2.offset (h.type ▸ hFile)
    rw [hOffset, Nat.sub_self]
    exact BitVec.add_zero _

theorem Continues.second (h : Continues x y) (hCompatible : Compatible x y) {addr : Nat} (hCovers : y.Covers addr) :
    x.lo ≤ addr ∧ SameAt y ⟨x.lo, y.hi, x.value⟩ addr := by
  obtain ⟨hLow, hHigh⟩ := hCovers
  have hNonempty : y.lo < y.hi := by omega
  have hAdjacent := hCompatible.adjacent
  have hUpright := h.upright' hNonempty
  refine ⟨by omega, hCompatible.flags, hCompatible.type, hCompatible.fd, h.shmId hNonempty, h.name hNonempty,
    fun hFile => ?_⟩
  have hSum : addr - x.lo = y.lo - x.lo + (addr - y.lo) := by omega
  rw [← h.offset hNonempty (hCompatible.type ▸ hFile), hSum, BitVec.ofNat_add, BitVec.add_assoc]

theorem Chained.mergeKeeps_iff (h : Chained mgr pre (a :: b :: rest) xs (x :: y :: ys)) :
    MergeKeeps mgr a b x y ↔ (Compatible x y → Continues x y) := by
  classical
  constructor
  · intro hKeeps hCompatible
    obtain ⟨mgr', hMerge, hChained, -⟩ := h.merge hCompatible
    obtain ⟨hFirst, hSecond⟩ := hKeeps mgr' hMerge
    have hArea : areaOf mgr' a = some ⟨x.lo, y.hi, x.value⟩ := (List.cons.inj hChained.after).1
    refine hCompatible.continues (fun addr hCovers => ?_) (fun addr hCovers => ?_)
    · obtain ⟨z, hz, hCovers', -⟩ := hFirst addr hCovers
      rw [hArea] at hz
      cases hz
      exact hCovers'.2
    · obtain ⟨z, hz, hCovers', hSame⟩ := hSecond addr hCovers
      rw [hArea] at hz
      cases hz
      exact ⟨hCovers'.1, hSame⟩
  · intro hContinues mgr' hMerge
    obtain ⟨vma1, ha, rfl, -, -⟩ := h.node
    obtain ⟨vma2, hb, rfl, -, -⟩ := (Chained.step.mpr h).node
    have hCompatible : Compatible vma1.area vma2.area := by
      by_contra hNot
      rw [vmaMerge_eq ha hb, if_neg hNot] at hMerge
      cases hMerge
    obtain ⟨mgr₁, hMerge', hChained, -⟩ := h.merge hCompatible
    rw [hMerge] at hMerge'
    cases hMerge'
    have hArea := (List.cons.inj hChained.after).1
    have hContinues := hContinues hCompatible
    refine ⟨fun addr hCovers => ⟨_, hArea, ⟨hCovers.1, ?_⟩, rfl, rfl, rfl, rfl, rfl, fun _ => rfl⟩,
      fun addr hCovers => ⟨_, hArea, ⟨?_, hCovers.2⟩, ?_⟩⟩
    · have hAdjacent := hCompatible.adjacent
      have hUpright := hContinues.upright (by have := hCovers.1; have := hCovers.2; omega)
      have hHigh := hCovers.2
      change addr < vma2.area.hi
      omega
    · exact (hContinues.second hCompatible hCovers).1
    · exact (hContinues.second hCompatible hCovers).2

def leftPart (vma : VmaT) (addr : U64) (b : Addr) : VmaT := { vma with vmEnd := addr, vmNext := some b }

def rightPart (vma : VmaT) (addr : U64) (a : Addr) : VmaT :=
  { vma with
    vmStart := addr, vmPrev := some a
    vmOffset := if vma.vmType = .file then vma.vmOffset + (addr - vma.vmStart) else vma.vmOffset }

theorem vmaSplit_ok (ha : mgr.nodes a = some vma) (hSplit : vmaSplit supply mgr a addr = some (mgr', 0)) :
    ∃ b, supply.node mgr.nodes = some b ∧
      linkPrev (store (store mgr b (rightPart vma addr a)) a (leftPart vma addr b)) vma.vmNext
          (some b) = some mgr' := by
  rw [vmaSplit, ha] at hSplit
  simp only [bind_eq_bind, bind_some] at hSplit
  by_cases hOutside : addr ≤ vma.vmStart ∨ addr ≥ vma.vmEnd
  · rw [if_pos hOutside] at hSplit
    cases hSplit
  · rw [if_neg hOutside] at hSplit
    cases hNode : supply.node mgr.nodes with
    | none =>
      rw [hNode] at hSplit
      cases hSplit
    | some b =>
      rw [hNode] at hSplit
      cases hName : copyName supply vma.vmName with
      | none =>
        rw [hName] at hSplit
        cases hSplit
      | some name =>
        obtain rfl := copyName_some hName
        rw [hName] at hSplit
        refine ⟨b, rfl, ?_⟩
        change (linkPrev (store (store mgr b (rightPart vma addr a)) a (leftPart vma addr b)) vma.vmNext (some b)).bind
          (fun mgr => some (mgr, 0)) = some (mgr', 0) at hSplit
        obtain ⟨mgr₁, hLink, hSame⟩ := Option.bind_eq_some_iff.mp hSplit
        rw [hLink]
        cases hSame
        rfl

theorem linkPrev_nodes {next : Option Addr} (h : linkPrev mgr next (some b) = some mgr') :
    mgr'.vmaList = mgr.vmaList ∧ mgr'.vmTotal = mgr.vmTotal ∧ mgr'.vmUsed = mgr.vmUsed ∧
      ∀ c, mgr'.nodes c = if next = some c then (mgr.nodes c).map fun vma => { vma with vmPrev := some b }
        else mgr.nodes c := by
  cases next with
  | none =>
    cases h
    exact ⟨rfl, rfl, rfl, fun c => rfl⟩
  | some n =>
    obtain ⟨vma, hNode, rfl⟩ := Option.map_eq_some_iff.mp h
    refine ⟨rfl, rfl, rfl, fun c => ?_⟩
    by_cases hHere : c = n
    · rw [hHere, if_pos rfl, hNode]
      exact update_self _ _ _
    · rw [if_neg fun hSame => hHere (Option.some.inj hSame).symm]
      exact update_of_ne hHere _ _

theorem Chained.split_merge (h : Chained mgr pre (a :: rest) xs (x :: ys)) (hFresh : supply.Fresh)
    (hSplit : vmaSplit supply mgr a addr = some (mgr', 0)) :
    ∃ b, nextOf mgr' a = some b ∧ vmaMerge mgr' a b = some (mgr, 0) := by
  classical
  obtain ⟨vma, ha, -, -, hNext⟩ := h.node
  obtain ⟨b, hNode, hLink⟩ := vmaSplit_ok ha hSplit
  have hNew := hFresh _ _ hNode
  have hNe : b ≠ a := by
    rintro rfl
    rw [ha] at hNew
    cases hNew
  have hNextNode (n : Addr) (hn : vma.vmNext = some n) :
      n ≠ a ∧ n ≠ b ∧ ∃ v, mgr.nodes n = some v ∧ v.vmPrev = some a := by
    cases rest with
    | nil =>
      rw [hNext] at hn
      cases hn
    | cons m rest =>
      rw [hNext] at hn
      cases hn
      cases ys with
      | nil => cases (List.cons.inj h.after).2
      | cons y ys =>
        obtain ⟨v, hv, -, hPrev, -⟩ := (Chained.step.mpr h).node
        rw [List.getLast?_concat] at hPrev
        refine ⟨?_, ?_, v, hv, hPrev⟩
        · rintro rfl
          have hNodup := (List.nodup_append.mp h.nodup).2.1
          exact (List.nodup_cons.mp hNodup).1 List.mem_cons_self
        · rintro rfl
          rw [hv] at hNew
          cases hNew
  obtain ⟨hList, hTotal, hUsed, hNodes⟩ := linkPrev_nodes hLink
  have hA : mgr'.nodes a = some (leftPart vma addr b) := by
    rw [hNodes, if_neg fun hSame => (hNextNode a hSame).1 rfl]
    exact update_self _ _ _
  have hB : mgr'.nodes b = some (rightPart vma addr a) := by
    rw [hNodes, if_neg fun hSame => (hNextNode b hSame).2.1 rfl]
    exact (update_of_ne hNe _ _).trans (update_self _ _ _)
  refine ⟨b, by rw [nextOf_eq hA]; rfl, ?_⟩
  have hCompatible : Compatible (leftPart vma addr b).area (rightPart vma addr a).area := ⟨rfl, rfl, rfl, rfl⟩
  rw [vmaMerge_eq hA hB, if_pos hCompatible]
  change (linkPrev (Vma.store mgr' a vma) vma.vmNext (some a)).map (fun mgr => (vmaFree mgr b, (0 : Int))) = some
      (mgr, 0)
  obtain ⟨mgr₁, hBack, -⟩ := @linkPrev_spec (Vma.store mgr' a vma) vma.vmNext (fun n hn => by
    obtain ⟨hNa, hNb, v, hv, -⟩ := hNextNode n hn
    refine ⟨{ v with vmPrev := some b }, (update_of_ne hNa _ _).trans ?_⟩
    rw [hNodes, if_pos hn]
    change ((update (update mgr.nodes b _) a _) n).map _ = _
    rw [update_of_ne hNa, update_of_ne hNb, hv]
    rfl) (some a)
  obtain ⟨hList₁, hTotal₁, hUsed₁, hNodes₁⟩ := linkPrev_nodes hBack
  rw [hBack, map_some]
  have hSame : ∀ c, (vmaFree mgr₁ b).nodes c = mgr.nodes c := by
    intro c
    change update mgr₁.nodes b none c = _
    by_cases hHereB : c = b
    · rw [hHereB, update_self, hNew]
    · rw [update_of_ne hHereB, hNodes₁]
      by_cases hBehind : vma.vmNext = some c
      · obtain ⟨hNa, hNb, v, hv, hPrev⟩ := hNextNode c hBehind
        rw [if_pos hBehind]
        change (update mgr'.nodes a (some vma) c).map _ = _
        rw [update_of_ne hNa, hNodes, if_pos hBehind]
        change ((update (update mgr.nodes b _) a _ c).map _).map _ = _
        rw [update_of_ne hNa, update_of_ne hNb, hv, map_some, map_some, ← hPrev]
      · rw [if_neg hBehind]
        change update mgr'.nodes a (some vma) c = _
        by_cases hHereA : c = a
        · rw [hHereA, update_self, ha]
        · rw [update_of_ne hHereA, hNodes, if_neg hBehind]
          exact (update_of_ne hHereA _ _).trans (update_of_ne hHereB _ _)
  have hWhole : vmaFree mgr₁ b = mgr := by
    cases mgr
    cases mgr₁
    simp only at hList₁ hTotal₁ hUsed₁ hList hTotal hUsed
    simp only [vmaFree, VmaManager.mk.injEq]
    exact ⟨funext hSame, hList₁.trans hList, hTotal₁.trans hTotal, hUsed₁.trans hUsed⟩
  rw [hWhole]

theorem vma_merge_keeps_iff (h : Chained mgr pre (a :: b :: rest) xs (x :: y :: ys)) :
    (MergeKeeps mgr a b x y ↔ (Compatible x y → Continues x y)) ∧
      ∀ (supply : Supply) (addr : U64) (mgr' : VmaManager), supply.Fresh → vmaSplit supply mgr a addr = some (mgr', 0) →
        ∃ c, nextOf mgr' a = some c ∧ vmaMerge mgr' a c = some (mgr, 0) :=
  ⟨h.mergeKeeps_iff, fun _ _ _ hFresh hSplit => h.split_merge hFresh hSplit⟩

def firstFile : VmaT := { mappedFile with vmNext := some 2 }

def secondFile (offset : BitVec 64) : VmaT :=
  { mappedFile with vmStart := 0x5000, vmEnd := 0x6000, vmOffset := offset, vmPrev := some 1 }

def twoFiles (offset : BitVec 64) : VmaManager :=
  { nodes := update (update (fun _ => none) 1 (some firstFile)) 2 (some (secondFile offset))
    vmaList := some 1, vmTotal := 0, vmUsed := 0x5000 }

theorem twoFiles_chained (offset : BitVec 64) :
    Chained (twoFiles offset) [] [1, 2] [] [firstFile.area, (secondFile offset).area] :=
  ⟨by decide, rfl, ⟨rfl, rfl, rfl, rfl, trivial⟩, rfl, rfl⟩

theorem vma_merge_keeps_file : MergeKeeps (twoFiles 0x4200) 1 2 firstFile.area (secondFile 0x4200).area := by
  apply (vma_merge_keeps_iff (twoFiles_chained 0x4200)).1.mpr
  intro _
  exact ⟨by decide, by decide, fun _ => rfl, fun _ => rfl, fun _ _ => rfl⟩

/-- The second area begins at the same place of the file as the first one. -/
theorem vma_merge_moves_file :
    ¬ ∀ (mgr : VmaManager) (pre rest : List Addr) (xs ys : List (Interval Attributes)) (x y : Interval Attributes)
      (a b : Addr), Chained mgr pre (a :: b :: rest) xs (x :: y :: ys) → MergeKeeps mgr a b x y := by
  intro hAll
  have hKeeps := hAll _ _ _ _ _ _ _ _ _ (twoFiles_chained 0x200)
  obtain ⟨mgr', hMerge⟩ : ∃ mgr', vmaMerge (twoFiles 0x200) 1 2 = some (mgr', 0) := ⟨_, rfl⟩
  obtain ⟨z, hz, -, hSame⟩ := (hKeeps mgr' hMerge).2 0x5000 ⟨by decide, by decide⟩
  cases hMerge
  cases hz
  have hOffset := hSame.offset rfl
  revert hOffset
  decide

end OpenXJ380.Vma
