import OpenXJ380.Vma.Model

/-! # Unmapping a range

The loop cuts the range out of every area it meets. Memory is asked for only where
one area holds the whole range, and then no other area has changed.
-/

namespace OpenXJ380.Vma

section

open Option (bind_eq_bind bind_some)
open LinkedList Intervals

def remaining (start stop : U64) (ys : List (Interval Attributes)) : List (Interval Attributes) :=
  ys.flatMap (cut shift start.toNat stop.toNat)

def Straddled (start stop : U64) (ys : List (Interval Attributes)) : Prop :=
  ∃ x ∈ ys, x.lo < start.toNat ∧ stop.toNat < x.hi

/-- `malloc` hands out a node that is not there yet. -/
def Supply.Fresh (supply : Supply) : Prop := ∀ nodes b, supply.node nodes = some b → nodes b = none

structure Unmapped (start stop : U64) (mgr mgr' : VmaManager) (pre : List Addr) (xs ys : List (Interval Attributes)) :
    Prop where
  chained : ∃ rest, Chained mgr' pre rest xs (remaining start stop ys)
  used : mgr'.vmUsed + BitVec.ofNat 64 (total ys) = mgr.vmUsed + BitVec.ofNat 64 (total (remaining start stop ys))

inductive Outcome (supply : Supply) (start stop : U64) (mgr : VmaManager) (pre : List Addr)
    (xs ys : List (Interval Attributes)) : Option (VmaManager × Int) → Prop
  | done {mgr' : VmaManager} (h : Unmapped start stop mgr mgr' pre xs ys) :
      Outcome supply start stop mgr pre xs ys (some (mgr', 0))
  | noNode (h : Straddled start stop ys) (hNone : supply.node mgr.nodes = none) :
      Outcome supply start stop mgr pre xs ys (some (mgr, -1))
  | noName (h : Straddled start stop ys) (hNone : supply.name = false) : Outcome supply start stop mgr pre xs ys none

variable {supply : Supply} {start stop : U64} {mgr mgr' : VmaManager} {pre rest : List Addr}
  {xs ys : List (Interval Attributes)} {x y : Interval Attributes} {a b : Addr} {vma : VmaT}
  {r : Option (VmaManager × Int)}

theorem remaining_cons :
    remaining start stop (x :: ys) = cut shift start.toNat stop.toNat x ++ remaining start stop ys :=
  List.flatMap_cons

theorem Outcome.keep (h : Outcome supply start stop mgr (pre ++ [a]) (xs ++ [x]) ys r)
    (hCut : cut shift start.toNat stop.toNat x = [x]) : Outcome supply start stop mgr pre xs (x :: ys) r := by
  have hRemaining : remaining start stop (x :: ys) = x :: remaining start stop ys := by
    rw [remaining_cons, hCut]
    rfl
  cases h with
  | done h =>
    obtain ⟨⟨rest, hChained⟩, hUsed⟩ := h
    refine .done ⟨⟨a :: rest, ?_⟩, ?_⟩
    · rw [hRemaining]
      exact Chained.step.mp hChained
    · rw [hRemaining, total_cons, total_cons, BitVec.ofNat_add, BitVec.ofNat_add]
      grind
  | noNode h hNone =>
    obtain ⟨y, hy, hBounds⟩ := h
    exact .noNode ⟨y, .tail x hy, hBounds⟩ hNone
  | noName h hNone =>
    obtain ⟨y, hy, hBounds⟩ := h
    exact .noName ⟨y, .tail x hy, hBounds⟩ hNone

theorem not_straddled (hOrdered : Ordered (x :: ys)) (hEnds : start.toNat < x.hi) : ¬ Straddled start stop ys := by
  rintro ⟨y, hy, hLow, -⟩
  have hApart := hOrdered.head_le hy
  omega

theorem Outcome.unmapped (h : Outcome supply start stop mgr pre xs ys r) (hNot : ¬ Straddled start stop ys) :
    ∃ mgr', r = some (mgr', 0) ∧ Unmapped start stop mgr mgr' pre xs ys := by
  cases h with
  | done h => exact ⟨_, rfl, h⟩
  | noNode h => exact absurd h hNot
  | noName h => exact absurd h hNot

theorem ofNat_length (vma : VmaT) (hLe : vma.vmStart ≤ vma.vmEnd) :
    BitVec.ofNat 64 (vma.area.hi - vma.area.lo) = vma.vmEnd - vma.vmStart := ofNat_toNat_sub hLe

theorem Unmapped.gone (h : Unmapped start stop mgr mgr' pre xs ys)
    (hCut : cut shift start.toNat stop.toNat vma.area = []) (hLe : vma.vmStart ≤ vma.vmEnd) {before : VmaManager}
    (hUsed : mgr.vmUsed = before.vmUsed - (vma.vmEnd - vma.vmStart)) :
    Unmapped start stop before mgr' pre xs (vma.area :: ys) := by
  have hRemaining : remaining start stop (vma.area :: ys) = remaining start stop ys := by
    rw [remaining_cons, hCut]
    rfl
  refine ⟨hRemaining ▸ h.chained, ?_⟩
  have hAfter := h.used
  rw [hRemaining, total_cons, BitVec.ofNat_add, ofNat_length vma hLe]
  grind

theorem Unmapped.shortened (h : Unmapped start stop mgr mgr' (pre ++ [a]) (xs ++ [y]) ys)
    (hCut : cut shift start.toNat stop.toNat x = [y]) {before : VmaManager}
    (hUsed : mgr.vmUsed + BitVec.ofNat 64 (x.hi - x.lo) = before.vmUsed + BitVec.ofNat 64 (y.hi - y.lo)) :
    Unmapped start stop before mgr' pre xs (x :: ys) := by
  have hRemaining : remaining start stop (x :: ys) = y :: remaining start stop ys := by
    rw [remaining_cons, hCut]
    rfl
  obtain ⟨rest, hChained⟩ := h.chained
  refine ⟨⟨a :: rest, by rw [hRemaining]; exact Chained.step.mp hChained⟩, ?_⟩
  have hAfter := h.used
  rw [hRemaining, total_cons, total_cons, BitVec.ofNat_add, BitVec.ofNat_add]
  grind

theorem copyName_none {name : Option (List (BitVec 8))} (h : copyName supply name = none) : supply.name = false := by
  cases name with
  | none => cases h
  | some bytes => simpa [copyName] using h

theorem copyName_some {name name' : Option (List (BitVec 8))} (h : copyName supply name = some name') :
    name' = name := by
  cases name with
  | none =>
    cases h
    rfl
  | some bytes =>
    rw [copyName] at h
    split_ifs at h
    cases h
    rfl

section

variable (hRange : start.toNat < stop.toNat)

include hRange

theorem remaining_behind (hOrdered : Ordered (x :: ys)) (hOver : stop.toNat ≤ x.hi) : remaining start stop ys = ys := by
  refine flatMap_cut_above shift_zero hRange hOrdered.tail ?_
  intro y hy
  exact hOver.trans (hOrdered.head_le hy)

theorem remaining_above (hOrdered : Ordered (x :: ys)) (hAbove : stop.toNat ≤ x.lo) :
    remaining start stop (x :: ys) = x :: ys := by
  have hNonempty := hOrdered.nonempty x (.head _)
  refine flatMap_cut_above shift_zero hRange hOrdered ?_
  intro y hy
  obtain rfl | hLater := List.mem_cons.mp hy
  · exact hAbove
  · have hApart := hOrdered.head_le hLater
    omega

theorem unmapFrom_hole (fuel : Nat)
    (h : Chained mgr' pre (a :: b :: rest) xs (⟨vma.area.lo, stop.toNat, vma.area.value⟩ ::
      ⟨stop.toNat, vma.area.hi, shift (stop.toNat - vma.area.lo) vma.area.value⟩ :: ys))
    (hUsed : mgr'.vmUsed = mgr.vmUsed) (hHole : vma.vmStart < start ∧ vma.vmEnd > stop)
        (hOrdered : Ordered (vma.area :: ys)) : Outcome supply start stop mgr pre xs (vma.area :: ys)
      ((mgr'.nodes a).bind fun left => unmapFrom supply start stop (fuel + 1)
          { store mgr' a { left with vmEnd := start } with
            vmUsed := (store mgr' a { left with vmEnd := start }).vmUsed - (stop - start) } left.vmNext) := by
  obtain ⟨left, hLeftNode, hLeftArea, -, hLeftNext⟩ := h.node
  rw [hLeftNode, bind_some]
  generalize hNew : ({ left with vmEnd := start } : VmaT) = new
  have hNewArea : new.area = ⟨vma.area.lo, start.toNat, vma.area.value⟩ := by
    rw [← hNew]
    change (⟨left.area.lo, start.toNat, left.area.value⟩ : Interval Attributes) = _
    rw [hLeftArea]
  have hChained := h.store new hLeftNode (by rw [← hNew]) (by rw [← hNew]) (mgr'.vmUsed - (stop - start))
  rw [hNewArea] at hChained
  obtain ⟨right, hRightNode, hRightArea, -⟩ := (Chained.step.mpr hChained).node
  have hFirst : right.vmStart.toNat = stop.toNat := congrArg Interval.lo hRightArea
  have hLast : right.vmEnd.toNat = vma.area.hi := congrArg Interval.hi hRightArea
  have hOver : stop.toNat < vma.area.hi := hHole.2
  have hLow : vma.area.lo < start.toNat := hHole.1
  have hRest := remaining_behind hRange hOrdered hOver.le
  have hRemaining : remaining start stop (vma.area :: ys) = ⟨vma.area.lo, start.toNat, vma.area.value⟩ ::
      ⟨stop.toNat, vma.area.hi, shift (stop.toNat - vma.area.lo) vma.area.value⟩ :: ys := by
    rw [remaining_cons, hRest, cut_hole hRange.le hLow hOver]
    rfl
  have hStop : unmapFrom supply start stop (fuel + 1) { store mgr' a new with vmUsed := mgr'.vmUsed - (stop - start) }
      (some b) = some ({ store mgr' a new with vmUsed := mgr'.vmUsed - (stop - start) }, 0) := by
    rw [unmapFrom, hRightNode]
    simp only [bind_eq_bind, bind_some]
    have hNotBelow : ¬ right.vmEnd ≤ start := by
      rw [BitVec.le_def]
      omega
    have hAbove : right.vmStart ≥ stop := by
      rw [ge_iff_le, BitVec.le_def]
      omega
    rw [if_neg hNotBelow, if_pos hAbove]
  rw [hLeftNext, List.head?_cons]
  change Outcome _ _ _ _ _ _ _ (unmapFrom supply start stop (fuel + 1)
    { store mgr' a new with vmUsed := mgr'.vmUsed - (stop - start) } (some b))
  rw [hStop]
  refine .done ⟨⟨_, by rw [hRemaining]; exact hChained⟩, ?_⟩
  have hLength : vma.area.hi - vma.area.lo =
      start.toNat - vma.area.lo + (stop.toNat - start.toNat) + (vma.area.hi - stop.toNat) := by omega
  have hMiddle : BitVec.ofNat 64 (stop.toNat - start.toNat) = stop - start := ofNat_toNat_sub hRange.le
  rw [hRemaining, total_cons, total_cons, total_cons, hLength]
  simp only [BitVec.ofNat_add, hMiddle, hUsed]
  grind

theorem unmapFrom_straddled (hFresh : supply.Fresh) (fuel : Nat)
    (h : Chained mgr pre (a :: rest) xs (vma.area :: ys)) (hNode : mgr.nodes a = some vma)
    (hHole : vma.vmStart < start ∧ vma.vmEnd > stop) (hOrdered : Ordered (vma.area :: ys)) :
    Outcome supply start stop mgr pre xs (vma.area :: ys) ((vmaSplit supply mgr a stop).bind fun r =>
        if r.2 ≠ 0 then some (r.1, -1) else (r.1.nodes a).bind fun left => unmapFrom supply start stop (fuel + 1)
            { store r.1 a { left with vmEnd := start } with
              vmUsed := (store r.1 a { left with vmEnd := start }).vmUsed - (stop - start) } left.vmNext) := by
  have hStraddled : Straddled start stop (vma.area :: ys) := ⟨_, .head _, hHole⟩
  have hInside : vma.vmStart < stop ∧ stop < vma.vmEnd := by
    have hLow : vma.vmStart.toNat < start.toNat := hHole.1
    exact ⟨BitVec.lt_def.mpr (hLow.trans hRange), hHole.2⟩
  cases hSupply : supply.node mgr.nodes with
  | none =>
    have hSplit : vmaSplit supply mgr a stop = some (mgr, -1) := by
      rw [vmaSplit, hNode]
      simp only [bind_eq_bind, bind_some, hSupply, ite_self]
    rw [hSplit]
    exact .noNode hStraddled hSupply
  | some b =>
    cases hName : copyName supply vma.vmName with
    | none =>
      have hSplit : vmaSplit supply mgr a stop = none := by
        rw [vmaSplit, hNode]
        simp only [bind_eq_bind, bind_some, hSupply, hName, Option.bind_none]
        exact if_neg (not_or.mpr ⟨Nat.not_le_of_lt hInside.1, Nat.not_le_of_lt hInside.2⟩)
      rw [hSplit]
      exact .noName hStraddled (copyName_none hName)
    | some name =>
      rw [copyName_some hName] at hName
      obtain ⟨mgr₁, hSplit, hChained, hUsed⟩ := h.split hNode hInside hSupply (hFresh _ _ hSupply) hName
      rw [hSplit]
      exact unmapFrom_hole hRange fuel hChained hUsed hHole hOrdered

end

theorem unmapFrom_spec (hLess : start < stop) (hFresh : supply.Fresh) (fuel : Nat)
    (h : Chained mgr pre rest xs ys) (hOrdered : Ordered ys) (hFuel : rest.length + 2 ≤ fuel) :
    Outcome supply start stop mgr pre xs ys (unmapFrom supply start stop fuel mgr rest.head?) := by
  have hRange : start.toNat < stop.toNat := hLess
  induction fuel generalizing mgr pre rest xs ys with
  | zero => omega
  | succ fuel ih =>
    cases rest with
    | nil =>
      have hNone : ys = [] := List.map_eq_nil_iff.mp h.after.symm
      subst hNone
      exact .done ⟨⟨[], h⟩, rfl⟩
    | cons a rest =>
      cases ys with
      | nil => cases h.after
      | cons x ys =>
        obtain ⟨vma, hNode, rfl, hPrev, hNext⟩ := h.node
        have hNonempty : vma.vmStart.toNat < vma.vmEnd.toNat := hOrdered.nonempty _ (.head _)
        rw [List.head?_cons, unmapFrom, hNode]
        simp only [bind_eq_bind, bind_some]
        rw [List.length_cons] at hFuel
        by_cases hBelow : vma.vmEnd ≤ start
        · rw [if_pos hBelow, hNext]
          exact (ih (Chained.step.mpr h) hOrdered.tail (by omega)).keep (cut_below hRange hNonempty hBelow)
        rw [if_neg hBelow]
        have hEnds : start.toNat < vma.vmEnd.toNat := not_le.mp hBelow
        by_cases hAbove : vma.vmStart ≥ stop
        · rw [if_pos hAbove]
          have hAll := remaining_above hRange hOrdered hAbove
          exact .done ⟨⟨a :: rest, hAll.symm ▸ h⟩, by rw [hAll]⟩
        rw [if_neg hAbove]
        have hStarts : vma.vmStart.toNat < stop.toNat := not_le.mp hAbove
        have hOnly : ¬ Straddled start stop ys := not_straddled hOrdered hEnds
        by_cases hInside : vma.vmStart ≥ start ∧ vma.vmEnd ≤ stop
        · rw [if_pos hInside]
          obtain ⟨mgr₁, hRemove, hChained, hUsed⟩ := h.remove hNode
          obtain ⟨mgr₂, hLoop, hUnmapped⟩ := (ih hChained hOrdered.tail (by omega)).unmapped hOnly
          rw [hRemove, bind_some, hNext, hLoop]
          exact .done (hUnmapped.gone (cut_inside hInside.1 hInside.2) (BitVec.le_of_lt hNonempty) hUsed)
        rw [if_neg hInside]
        by_cases hHole : vma.vmStart < start ∧ vma.vmEnd > stop
        · rw [if_pos hHole]
          obtain ⟨f, rfl⟩ : ∃ f, fuel = f + 1 := Nat.exists_eq_succ_of_ne_zero (by omega)
          exact unmapFrom_straddled hRange hFresh f h hNode hHole hOrdered
        rw [if_neg hHole]
        by_cases hLeft : vma.vmStart < start
        · rw [if_pos hLeft]
          have hEnd : vma.vmEnd.toNat ≤ stop.toNat := not_lt.mp fun hOver => hHole ⟨hLeft, hOver⟩
          have hLow : vma.vmStart.toNat < start.toNat := hLeft
          generalize hNew : ({ vma with vmEnd := start } : VmaT) = new
          have hChained := h.store new hNode (by rw [← hNew]) (by rw [← hNew]) (mgr.vmUsed - (vma.vmEnd - start))
          obtain ⟨mgr₂, hLoop, hUnmapped⟩ := (ih (Chained.step.mpr hChained) hOrdered.tail (by omega)).unmapped hOnly
          have hCut : cut shift start.toNat stop.toNat vma.area = [new.area] := by
            rw [cut_left hLow hEnds.le hEnd, ← hNew]
            rfl
          have hLoop' : unmapFrom supply start stop fuel
              { store mgr a new with vmUsed := (store mgr a new).vmUsed - (vma.vmEnd - start) } rest.head? =
              some (mgr₂, 0) := hLoop
          rw [hNext, hLoop']
          refine .done (hUnmapped.shortened hCut ?_)
          rw [ofNat_length vma (BitVec.le_of_lt hNonempty),
              ofNat_length new (by rw [← hNew]; exact BitVec.le_of_lt hLeft), ← hNew]
          grind
        rw [if_neg hLeft]
        have hOver : stop.toNat < vma.vmEnd.toNat := by
          by_contra hNot
          exact hInside ⟨Nat.le_of_not_lt hLeft, Nat.le_of_not_lt hNot⟩
        rw [if_pos (show vma.vmEnd > stop from hOver)]
        generalize hNew : ({ vma with
          vmStart := stop
          vmOffset := if vma.vmType = .file then vma.vmOffset + (stop - vma.vmStart) else vma.vmOffset } : VmaT) = new
        have hChained := h.store new hNode (by rw [← hNew]) (by rw [← hNew]) (mgr.vmUsed - (stop - vma.vmStart))
        have hCut : cut shift start.toNat stop.toNat vma.area = [new.area] := by
          rw [cut_right (not_lt.mp hLeft) hStarts.le hOver, ← hNew]
          change [(⟨_, _, shift (stop.toNat - vma.vmStart.toNat) vma.area.value⟩ : Interval Attributes)] = _
          rw [shift_area vma (BitVec.le_of_lt hStarts)]
          rfl
        have hRest := remaining_behind hRange hOrdered hOver.le
        have hLast : Unmapped start stop { store mgr a new with vmUsed := mgr.vmUsed - (stop - vma.vmStart) }
            { store mgr a new with vmUsed := mgr.vmUsed - (stop - vma.vmStart) } (pre ++ [a]) (xs ++ [new.area]) ys :=
          ⟨⟨rest, by rw [hRest]; exact Chained.step.mpr hChained⟩, by rw [hRest]⟩
        refine .done (hLast.shortened hCut ?_)
        rw [ofNat_length vma (BitVec.le_of_lt hNonempty),
            ofNat_length new (by rw [← hNew]; exact BitVec.le_of_lt hOver), ← hNew]
        grind

end

/-! # What unmapping leaves

The list is in order again, just the range has gone, and every address that is
still there has kept its attributes and its place in the file.
-/

open LinkedList Intervals

/-- The list of the manager is linked both ways and in order, and the counter is its length. -/
structure WellFormed (mgr : VmaManager) (areas : List (Interval Attributes)) : Prop where
  chained : ∃ nodes, Chained mgr [] nodes [] areas
  ordered : Ordered areas
  used : mgr.vmUsed.toNat = total areas

structure SameAt (x y : Interval Attributes) (addr : Nat) : Prop where
  flags : y.value.vmFlags = x.value.vmFlags
  type : y.value.vmType = x.value.vmType
  fd : y.value.vmFd = x.value.vmFd
  shmId : y.value.shmId = x.value.shmId
  name : y.value.vmName = x.value.vmName
  offset : x.value.vmType = .file →
    y.value.vmOffset + BitVec.ofNat 64 (addr - y.lo) = x.value.vmOffset + BitVec.ofNat 64 (addr - x.lo)

structure Removed (start stop : U64) (areas areas' : List (Interval Attributes)) : Prop where
  covered : ∀ addr, (∃ y ∈ areas', y.Covers addr) ↔
    (∃ x ∈ areas, x.Covers addr) ∧ ¬ (start.toNat ≤ addr ∧ addr < stop.toNat)
  kept : ∀ addr, ∀ y ∈ areas', y.Covers addr → ∃ x ∈ areas, x.Covers addr ∧ SameAt x y addr

section

variable {supply : Supply} {start stop : U64} {mgr mgr' : VmaManager} {areas : List (Interval Attributes)}
  {x y : Interval Attributes}

theorem sameAt_cut {addr : Nat} (hNonempty : x.lo < x.hi) (hy : y ∈ cut shift start.toNat stop.toNat x)
    (hCovers : y.Covers addr) : SameAt x y addr := by
  obtain ⟨hLow, -, -, -, hValue⟩ := cut_bounds shift_zero hNonempty hy
  have hFields : ∀ n, (shift n x.value).vmFlags = x.value.vmFlags ∧ (shift n x.value).vmType = x.value.vmType ∧
      (shift n x.value).vmFd = x.value.vmFd ∧ (shift n x.value).shmId = x.value.shmId ∧
      (shift n x.value).vmName = x.value.vmName := by
    intro n
    rw [shift]
    split_ifs <;> exact ⟨rfl, rfl, rfl, rfl, rfl⟩
  obtain ⟨hFlags, hType, hFd, hShm, hName⟩ := hFields (y.lo - x.lo)
  rw [← hValue] at hFlags hType hFd hShm hName
  refine ⟨hFlags, hType, hFd, hShm, hName, ?_⟩
  intro hFile
  have hSum : addr - x.lo = y.lo - x.lo + (addr - y.lo) := by
    rw [Interval.Covers] at hCovers
    omega
  rw [hValue, shift, if_pos hFile, hSum, BitVec.ofNat_add, BitVec.add_assoc]

theorem Chained.hi_lt {nodes : List Addr} (h : Chained mgr [] nodes [] areas) (hx : x ∈ areas) : x.hi < 2 ^ 64 := by
  have hMem : some x ∈ nodes.map (areaOf mgr) := by
    rw [h.after]
    exact List.mem_map_of_mem hx
  obtain ⟨a, -, hArea⟩ := List.mem_map.mp hMem
  obtain ⟨vma, -, rfl⟩ := isSome_of_area hArea
  exact vma.vmEnd.isLt

theorem Chained.wellFormed {nodes : List Addr} (h : Chained mgr [] nodes [] areas) (hOrdered : Ordered areas)
    (hUsed : mgr.vmUsed = BitVec.ofNat 64 (total areas)) : WellFormed mgr areas := by
  refine ⟨⟨nodes, h⟩, hOrdered, ?_⟩
  have hTotal := hOrdered.total_le (fun _ _ => Nat.zero_le _) (fun x hx => Nat.le_sub_one_of_lt (h.hi_lt hx))
    (Nat.zero_le _)
  rw [hUsed, BitVec.toNat_ofNat]
  exact Nat.mod_eq_of_lt (by omega)

theorem WellFormed.unmapped (h : WellFormed mgr areas) (hLess : start < stop)
    (hUnmapped : Unmapped start stop mgr mgr' [] [] areas) :
    WellFormed mgr' (remaining start stop areas) ∧ Removed start stop areas (remaining start stop areas) := by
  have hRange : start.toNat < stop.toNat := hLess
  obtain ⟨rest, hRest⟩ := hUnmapped.chained
  have hOrdered : Ordered (remaining start stop areas) := flatMap_cut_ordered hRange shift_zero h.ordered
  have hUsed : mgr.vmUsed = BitVec.ofNat 64 (total areas) := by
    rw [← h.used, BitVec.ofNat_toNat, BitVec.setWidth_eq]
  have hAfter : mgr'.vmUsed = BitVec.ofNat 64 (total (remaining start stop areas)) := by
    have hSum := hUnmapped.used
    rw [hUsed] at hSum
    grind
  refine ⟨hRest.wellFormed hOrdered hAfter, ?_, ?_⟩
  · intro addr
    exact covers_flatMap_cut shift_zero h.ordered
  · intro addr y hy hCovers
    obtain ⟨x, hx, hyx⟩ := List.mem_flatMap.mp hy
    have hNonempty := h.ordered.nonempty x hx
    have hBounds := cut_bounds shift_zero hNonempty hyx
    refine ⟨x, hx, ?_, sameAt_cut hNonempty hyx hCovers⟩
    rw [Interval.Covers] at hCovers ⊢
    omega

/-- Unmapping either takes out exactly the range or, without memory for a node, changes nothing. -/
theorem vma_unmap_range_exact {fuel : Nat} (hFresh : supply.Fresh) (h : WellFormed mgr areas) (hLess : start < stop)
    (hFuel : areas.length + 2 ≤ fuel) :
    (∀ mgr' status, vmaUnmapRange supply fuel mgr start stop = some (mgr', status) →
      (status = 0 ∧ ∃ areas', WellFormed mgr' areas' ∧ Removed start stop areas areas') ∨
        (status = -1 ∧ supply.node mgr.nodes = none ∧ mgr' = mgr)) ∧
      (vmaUnmapRange supply fuel mgr start stop = none → supply.name = false) := by
  obtain ⟨nodes, hChained⟩ := h.chained
  have hLength : nodes.length = areas.length := by
    have hMap : (nodes.map (areaOf mgr)).length = nodes.length := List.length_map (areaOf mgr)
    rw [← hMap, hChained.after, List.length_map]
  have hOutcome := unmapFrom_spec hLess hFresh fuel hChained h.ordered (by omega)
  have hHead := hChained.head
  rw [List.nil_append] at hHead
  rw [← hHead] at hOutcome
  rw [vmaUnmapRange, if_neg (show ¬ start ≥ stop from Nat.not_le_of_lt hLess)]
  generalize unmapFrom supply start stop fuel mgr mgr.vmaList = r at hOutcome
  cases hOutcome with
  | done hUnmapped =>
    refine ⟨?_, nofun⟩
    rintro mgr' status ⟨⟩
    exact .inl ⟨rfl, _, h.unmapped hLess hUnmapped⟩
  | noNode _ hNone =>
    refine ⟨?_, nofun⟩
    rintro mgr' status ⟨⟩
    exact .inr ⟨rfl, hNone, rfl⟩
  | noName _ hNone =>
    refine ⟨?_, fun _ => hNone⟩
    rintro mgr' status ⟨⟩

end

def mappedFile : VmaT :=
  { vmStart := 0x1000, vmEnd := 0x5000, vmFlags := 3, vmType := .file, vmFd := 7, vmOffset := 0x200, shmId := 0,
    vmName := none, vmNext := none, vmPrev := none }

def oneFile : VmaManager :=
  { nodes := Function.update (fun _ => none) 1 (some mappedFile), vmaList := some 1, vmTotal := 0, vmUsed := 0x4000 }

def oneNode : Supply := { node := fun nodes => if nodes 2 = none then some 2 else none, name := true }

theorem oneNode_fresh : oneNode.Fresh := by
  intro nodes b hSome
  change (if nodes 2 = none then some 2 else none) = some b at hSome
  split at hSome
  · cases hSome
    assumption
  · cases hSome

theorem oneFile_wellFormed : WellFormed oneFile [mappedFile.area] where
  chained := ⟨[1], ⟨List.nodup_singleton 1, rfl, ⟨rfl, rfl, trivial⟩, rfl, rfl⟩⟩
  ordered := by
    refine ⟨List.pairwise_singleton _ _, ?_⟩
    rintro x hx
    obtain rfl := List.mem_singleton.mp hx
    decide
  used := rfl

/-- A hole in the middle of a mapped file. -/
theorem vma_unmap_range_hole :
    ∃ mgr' areas', vmaUnmapRange oneNode 3 oneFile 0x2000 0x3000 = some (mgr', 0) ∧ WellFormed mgr' areas' ∧
      Removed 0x2000 0x3000 [mappedFile.area] areas' := by
  have hExact := @vma_unmap_range_exact oneNode 0x2000 0x3000 oneFile _ 3 oneNode_fresh oneFile_wellFormed (by decide)
    (by decide)
  obtain ⟨mgr', hRun⟩ : ∃ mgr', vmaUnmapRange oneNode 3 oneFile 0x2000 0x3000 = some (mgr', 0) := ⟨_, rfl⟩
  rcases hExact.1 mgr' 0 hRun with ⟨-, areas', hFormed, hRemoved⟩ | ⟨hNever, -⟩
  · exact ⟨mgr', areas', hRun, hFormed, hRemoved⟩
  · cases hNever

end OpenXJ380.Vma
