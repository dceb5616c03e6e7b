import Mathlib.Order.Filter.AtTopBot.Basic
import OpenXJ380.Vma.Unmap

/-! # Finding and inserting an area

An area goes before the first one that does not begin below it. `sys_mmap` fills a new
node and frees it again where the list refuses it.
-/

namespace OpenXJ380.Vma

open Function
open List (mem_cons_self)

open LinkedList Intervals

/-- The first area from `cur` on for which `hit` holds. -/
def findFrom (hit : VmaT → Bool) : Nat → VmaManager → Option Addr → Option (Option Addr)
  | 0, _, _ => none
  | _ + 1, _, none => some none
  | fuel + 1, mgr, some a => do
    let vma ← mgr.nodes a
    if hit vma then some (some a) else findFrom hit fuel mgr vma.vmNext

def vmaFind (fuel : Nat) (mgr : VmaManager) (addr : U64) : Option (Option Addr) :=
  findFrom (fun vma => addr ≥ vma.vmStart ∧ addr < vma.vmEnd) fuel mgr mgr.vmaList

def vmaFindIntersection (fuel : Nat) (mgr : VmaManager) (start stop : U64) : Option (Option Addr) :=
  findFrom (fun vma => ¬ (stop ≤ vma.vmStart ∨ start ≥ vma.vmEnd)) fuel mgr mgr.vmaList

/-- The nodes between which an area from `start` on belongs. -/
def placeFrom (start : U64) : Nat → VmaManager → Option Addr → Option Addr → Option (Option Addr × Option Addr)
  | 0, _, _, _ => none
  | _ + 1, _, prev, none => some (prev, none)
  | fuel + 1, mgr, prev, some a => do
    let vma ← mgr.nodes a
    if vma.vmStart < start then placeFrom start fuel mgr (some a) vma.vmNext else some (prev, some a)

def vmaInsert (fuel : Nat) (mgr : VmaManager) (a : Addr) : Option (VmaManager × Int) := do
  let new ← mgr.nodes a
  let found ← vmaFindIntersection fuel mgr new.vmStart new.vmEnd
  if found ≠ none then some (mgr, -1)
  else
    let (prev, next) ← placeFrom new.vmStart fuel mgr none mgr.vmaList
    let mgr ← linkBetween mgr a new prev next
    some ({ mgr with vmUsed := mgr.vmUsed + (new.vmEnd - new.vmStart) }, 0)

/-- `a` is the node from `vma_alloc`. -/
def mapArea (fuel : Nat) (mgr : VmaManager) (a : Addr) (new : VmaT) : Option (VmaManager × Int) := do
  let (mgr, status) ← vmaInsert fuel (store mgr a new) a
  if status ≠ 0 then some (vmaFree mgr a, -1) else some (mgr, 0)

section

variable {supply : Supply} {mgr mgr' : VmaManager} {pre rest : List Addr} {xs ys areas : List (Interval Attributes)}
  {a b : Addr} {new : VmaT} {start stop addr : U64} {fuel : Nat}

theorem Chained.length_eq (h : Chained mgr pre rest xs ys) : rest.length = ys.length := by
  simpa only [List.length_map] using congrArg List.length h.after

theorem findFrom_spec {hit : VmaT → Bool} (p : Interval Attributes → Prop) (hHit : ∀ vma, hit vma ↔ p vma.area)
    (h : Chained mgr pre rest xs ys) (hFuel : rest.length < fuel) :
    ∃ found, findFrom hit fuel mgr rest.head? = some found ∧ (found = none → ∀ x ∈ ys, ¬ p x) ∧
      ∀ a, found = some a → ∃ x ∈ ys, areaOf mgr a = some x ∧ p x := by
  induction fuel generalizing pre rest xs ys with
  | zero => omega
  | succ fuel ih =>
    cases rest with
    | nil =>
      obtain rfl : ys = [] := List.map_eq_nil_iff.mp h.after.symm
      exact ⟨none, rfl, fun _ => List.forall_mem_nil _, fun _ => by rintro ⟨⟩⟩
    | cons a rest =>
      cases ys with
      | nil => cases h.after
      | cons x ys =>
        obtain ⟨vma, hNode, rfl, -, hNext⟩ := h.node
        rw [List.length_cons] at hFuel
        rw [List.head?_cons, findFrom, hNode, Option.bind_eq_bind, Option.bind_some, hNext]
        by_cases hHere : p vma.area
        · rw [if_pos ((hHit vma).mpr hHere)]
          refine ⟨some a, rfl, by rintro ⟨⟩, ?_⟩
          rintro _ ⟨⟩
          exact ⟨_, mem_cons_self, areaOf_eq hNode, hHere⟩
        · rw [if_neg fun hIn => hHere ((hHit vma).mp hIn)]
          obtain ⟨found, hRun, hNone, hSome⟩ := ih (Chained.step.mpr h) (by omega)
          refine ⟨found, hRun, fun hNot => List.forall_mem_cons.mpr ⟨hHere, hNone hNot⟩, ?_⟩
          intro b hb
          obtain ⟨x, hx, hArea⟩ := hSome b hb
          exact ⟨x, .tail _ hx, hArea⟩

theorem placeFrom_spec (h : Chained mgr pre rest xs ys) (hLow : ∀ x ∈ xs, x.lo < start.toNat)
    (hFuel : rest.length < fuel) :
    ∃ pre' rest' xs' ys', placeFrom start fuel mgr pre.getLast? rest.head? = some (pre'.getLast?, rest'.head?) ∧
      Chained mgr pre' rest' xs' ys' ∧ pre' ++ rest' = pre ++ rest ∧ xs' ++ ys' = xs ++ ys ∧
      (∀ x ∈ xs', x.lo < start.toNat) ∧ ∀ y, ys'.head? = some y → start.toNat ≤ y.lo := by
  induction fuel generalizing pre rest xs ys with
  | zero => omega
  | succ fuel ih =>
    cases rest with
    | nil =>
      obtain rfl : ys = [] := List.map_eq_nil_iff.mp h.after.symm
      exact ⟨pre, [], xs, [], rfl, h, rfl, rfl, hLow, by rintro _ ⟨⟩⟩
    | cons a rest =>
      cases ys with
      | nil => cases h.after
      | cons x ys =>
        obtain ⟨vma, hNode, rfl, -, hNext⟩ := h.node
        rw [List.length_cons] at hFuel
        rw [List.head?_cons, placeFrom, hNode, Option.bind_eq_bind, Option.bind_some, hNext]
        by_cases hHere : vma.vmStart < start
        · rw [if_pos hHere, List.append_cons pre, List.append_cons xs, ← List.getLast?_concat]
          exact ih (Chained.step.mpr h) (List.forall_mem_append.mpr ⟨hLow, List.forall_mem_singleton.mpr hHere⟩)
            (by omega)
        · rw [if_neg hHere]
          refine ⟨pre, a :: rest, xs, _, rfl, h, rfl, rfl, hLow, ?_⟩
          rintro _ ⟨⟩
          exact not_lt.mp hHere

theorem Chained.outside (h : Chained mgr pre rest xs ys) (hNew : b ∉ pre ++ rest) (new : VmaT) :
    Chained (Vma.store mgr b new) pre rest xs ys := by
  rw [List.mem_append, not_or] at hNew
  refine ⟨h.nodup, h.head, ?_, ?_, ?_⟩
  · rw [nextOf_store, prevOf_store]
    refine h.links.congr fun c hc => ?_
    have hNe : c ≠ b := by
      rintro rfl
      exact (List.mem_append.mp hc).elim hNew.1 hNew.2
    exact ⟨update_of_ne hNe _ _, update_of_ne hNe _ _⟩
  · rw [areaOf_store, map_update_of_notMem hNew.1, h.before]
  · rw [areaOf_store, map_update_of_notMem hNew.2, h.after]

/-- The new area is refused where it meets another one and otherwise put in its place. -/
structure Mapped (mgr : VmaManager) (areas : List (Interval Attributes)) (new : VmaT)
    (r : Option (VmaManager × Int)) : Prop where
  refused : (∃ x ∈ areas, x.Meets new.area) → r = some (mgr, -1)
  inserted : (∀ x ∈ areas, ¬ x.Meets new.area) →
    ∃ mgr' areas', r = some (mgr', 0) ∧ WellFormed mgr' areas' ∧ areas'.Perm (new.area :: areas)

theorem mapArea_spec (h : WellFormed mgr areas) (hFree : mgr.nodes b = none) (hArea : new.vmStart < new.vmEnd)
    (hFuel : areas.length < fuel) : Mapped mgr areas new (mapArea fuel mgr b new) := by
  obtain ⟨nodes, hChained⟩ := h.chained
  have hNew : b ∉ nodes := hChained.notMem_of_free hFree
  have hStored := hChained.outside hNew new
  have hBound : nodes.length < fuel := hChained.length_eq ▸ hFuel
  have hHead : nodes.head? = (store mgr b new).vmaList := hStored.head.symm
  obtain ⟨found, hFind, hNot, hSome⟩ :=
    @findFrom_spec _ _ _ _ _ _ (fun vma => ¬ (new.vmEnd ≤ vma.vmStart ∨ new.vmStart ≥ vma.vmEnd)) (·.Meets new.area)
      (fun vma => by simp [Interval.Meets, VmaT.area, BitVec.lt_def, and_comm]) hStored hBound
  obtain ⟨pre, rest, xs, ys, hPlace, hSplit, rfl, rfl, hLow, hHigh⟩ :=
    @placeFrom_spec _ _ _ _ _ new.vmStart _ hStored (List.forall_mem_nil _) hBound
  rw [hHead] at hFind
  rw [hHead, List.getLast?_nil] at hPlace
  obtain ⟨mgr', hLink, hLinked, hUsed⟩ := hSplit.link hNew new
  have hRun : mapArea fuel mgr b new = if found ≠ none then some (mgr, -1)
      else some ({ mgr' with vmUsed := mgr'.vmUsed + (new.vmEnd - new.vmStart) }, 0) := by
    have hSelf : (store mgr b new).nodes b = some new := update_self _ _ _
    have hUndone : vmaFree (store mgr b new) b = mgr := by
      rw [vmaFree, store, update_idem, ← hFree, update_eq_self]
    simp only [mapArea, vmaInsert, vmaFindIntersection, hSelf, Option.bind_eq_bind, Option.bind_some, hFind, hPlace,
      hLink]
    split_ifs with hFound
    · rw [Option.bind_some, if_pos (show (-1 : Int) ≠ 0 by decide), hUndone]
    · rfl
  constructor
  · rintro ⟨x, hx, hMeets⟩
    rw [hRun, if_pos fun hNothing => hNot hNothing x hx hMeets]
  · intro hApart
    have hNothing : found = none := by
      cases found with
      | none => rfl
      | some a =>
        obtain ⟨x, hx, -, hMeets⟩ := hSome a rfl
        exact absurd hMeets (hApart x hx)
    have hPerm : (xs ++ new.area :: ys).Perm (new.area :: (xs ++ ys)) := List.perm_middle
    refine ⟨_, _, by rw [hRun, if_neg (not_not.mpr hNothing)], ?_, hPerm⟩
    have hTotal : total (xs ++ new.area :: ys) = total (new.area :: (xs ++ ys)) := (hPerm.map _).sum_eq
    have hAfter : (pre ++ b :: rest).map (areaOf mgr') = (xs ++ new.area :: ys).map some := by
      rw [List.map_append, List.map_append, hLinked.before, hLinked.after]
    refine Chained.wellFormed { hLinked with before := rfl, after := hAfter }
      (h.ordered.insert hArea hApart hLow hHigh) ?_
    rw [hTotal, total_cons, BitVec.ofNat_add, ofNat_length new (BitVec.le_of_lt hArea), ← h.used,
      BitVec.ofNat_toNat, BitVec.setWidth_eq, BitVec.add_comm]
    exact congrArg (_ + ·) hUsed

theorem WellFormed.unmap (h : WellFormed mgr areas) (hFresh : supply.Fresh) (hFuel : areas.length + 2 ≤ fuel)
    {status : Int} (hRun : vmaUnmapRange supply fuel mgr start stop = some (mgr', status)) :
    ∃ areas', WellFormed mgr' areas' ∧ (status = 0 → Removed start stop areas areas') := by
  obtain ⟨nodes, hChained⟩ := h.chained
  rw [vmaUnmapRange] at hRun
  split_ifs at hRun with hRange
  · cases hRun
    exact ⟨areas, h, by rintro ⟨⟩⟩
  · have hLess : start < stop := Nat.lt_of_not_le hRange
    have hOutcome := unmapFrom_spec hLess hFresh fuel hChained h.ordered (hChained.length_eq ▸ hFuel)
    rw [← List.nil_append nodes, ← hChained.head, hRun] at hOutcome
    cases hOutcome with
    | done hUnmapped => exact ⟨_, (h.unmapped hLess hUnmapped).imp_right fun hRemoved _ => hRemoved⟩
    | noNode => exact ⟨areas, h, by rintro ⟨⟩⟩

/-- A range that has been unmapped can be mapped anew, and beside the new area just what was outside it is left. -/
theorem vma_unmap_then_map (h : WellFormed mgr areas) (hFresh : supply.Fresh) (hFuel : areas.length + 2 ≤ fuel)
    (hRun : vmaUnmapRange supply fuel mgr new.vmStart new.vmEnd = some (mgr', 0)) (hFree : mgr'.nodes b = none)
    (hArea : new.vmStart < new.vmEnd) :
    ∃ left, Removed new.vmStart new.vmEnd areas left ∧ ∀ fuel > left.length, ∃ mgr'' areas'',
      mapArea fuel mgr' b new = some (mgr'', 0) ∧ WellFormed mgr'' areas'' ∧ areas''.Perm (new.area :: left) := by
  obtain ⟨left, hLeft, hRemoved⟩ := h.unmap hFresh hFuel hRun
  have hRemoved := hRemoved rfl
  refine ⟨left, hRemoved, fun fuel hFuel => (mapArea_spec hLeft hFree hArea hFuel).inserted ?_⟩
  rintro x hx ⟨hStart, hEnd⟩
  have hLow : new.area.lo < new.area.hi := hArea
  have hNonempty := hLeft.ordered.nonempty x hx
  -- The first address that the two have in common was unmapped.
  have hOutside := ((hRemoved.covered (max x.lo new.area.lo)).mp ⟨x, hx, le_max_left _ _, max_lt hNonempty hStart⟩).2
  exact hOutside ⟨le_max_right _ _, max_lt hEnd hLow⟩

end

/-- The lists of a process whose areas come by `mapArea` and go by `vmaUnmapRange`. -/
inductive Reachable : VmaManager → Prop
  | empty (vmTotal : U64) : Reachable ⟨fun _ => none, none, vmTotal, 0⟩
  | map {mgr mgr' : VmaManager} {b : Addr} {new : VmaT} {status : Int} (h : Reachable mgr)
      (hFree : mgr.nodes b = none) (hArea : new.vmStart < new.vmEnd)
      (hRun : ∀ᶠ fuel in .atTop, mapArea fuel mgr b new = some (mgr', status)) : Reachable mgr'
  | unmap {supply : Supply} {mgr mgr' : VmaManager} {start stop : U64} {status : Int} (h : Reachable mgr)
      (hFresh : supply.Fresh)
      (hRun : ∀ᶠ fuel in .atTop, vmaUnmapRange supply fuel mgr start stop = some (mgr', status)) : Reachable mgr'

theorem Reachable.wellFormed {mgr : VmaManager} (h : Reachable mgr) : ∃ areas, WellFormed mgr areas := by
  induction h with
  | empty vmTotal => exact ⟨[], ⟨[], .nil, rfl, trivial, rfl, rfl⟩, ⟨.nil, List.forall_mem_nil _⟩, rfl⟩
  | @map mgr mgr' b new status _ hFree hArea hRun ih =>
    obtain ⟨areas, hFormed⟩ := ih
    obtain ⟨fuel, hRun, hFuel⟩ := (hRun.and (Filter.eventually_gt_atTop areas.length)).exists
    have hMapped := mapArea_spec hFormed hFree hArea hFuel
    rw [hRun] at hMapped
    by_cases hMeets : ∃ x ∈ areas, x.Meets new.area
    · cases hMapped.refused hMeets
      exact ⟨areas, hFormed⟩
    · obtain ⟨_, areas', hSome, hFormed', -⟩ := hMapped.inserted fun x hx hIn => hMeets ⟨x, hx, hIn⟩
      cases hSome
      exact ⟨areas', hFormed'⟩
  | unmap _ hFresh hRun ih =>
    obtain ⟨areas, hFormed⟩ := ih
    obtain ⟨fuel, hRun, hFuel⟩ := (hRun.and (Filter.eventually_ge_atTop (areas.length + 2))).exists
    exact (hFormed.unmap hFresh hFuel hRun).imp fun _ h => h.1

/-- Whatever comes and goes, lookups are exact and an area is taken in just where it meets no other. -/
theorem vma_list_reachable {mgr : VmaManager} (h : Reachable mgr) : ∃ areas, WellFormed mgr areas ∧
      (∀ addr fuel, areas.length < fuel → ∃ found, vmaFind fuel mgr addr = some found ∧
        (found = none → ∀ x ∈ areas, ¬ x.Covers addr.toNat) ∧
        ∀ a, found = some a → ∃ x ∈ areas, areaOf mgr a = some x ∧ x.Covers addr.toNat) ∧
      ∀ b new fuel, mgr.nodes b = none → new.vmStart < new.vmEnd → areas.length < fuel →
        Mapped mgr areas new (mapArea fuel mgr b new) := by
  obtain ⟨areas, hFormed⟩ := h.wellFormed
  obtain ⟨nodes, hChained⟩ := hFormed.chained
  refine ⟨areas, hFormed, fun addr fuel hFuel => ?_, fun b new fuel => mapArea_spec hFormed⟩
  rw [vmaFind, hChained.head]
  exact findFrom_spec (·.Covers addr.toNat)
    (fun vma => by simp [Interval.Covers, VmaT.area, BitVec.lt_def, BitVec.le_def]) hChained
    (hChained.length_eq ▸ hFuel)

def mappedOnce : VmaManager := store (store ⟨fun _ => none, some 2, 0, 0x4000⟩ 2 mappedFile) 2 mappedFile

theorem vma_list_mapped : ∃ areas, WellFormed mappedOnce areas := by
  have hRun : ∀ fuel ≥ 1, mapArea fuel ⟨fun _ => none, none, 0, 0⟩ 2 mappedFile = some (mappedOnce, 0) := by
    intro fuel hFuel
    obtain ⟨n, rfl⟩ := Nat.exists_eq_add_of_le' hFuel
    rfl
  have hMapped := Reachable.map (.empty 0) rfl (by decide) (Filter.eventually_atTop.mpr ⟨1, hRun⟩)
  exact (vma_list_reachable hMapped).imp fun _ h => h.1

theorem vma_unmap_then_map_hole : ∃ mgr' mgr'' fuel, vmaUnmapRange oneNode 3 oneFile 0x2000 0x3000 = some (mgr', 0) ∧
    mapArea fuel mgr' 3 { mappedFile with vmStart := 0x2000, vmEnd := 0x3000 } = some (mgr'', 0) := by
  obtain ⟨left, -, hMap⟩ := @vma_unmap_then_map oneNode oneFile _ _ 3
    { mappedFile with vmStart := 0x2000, vmEnd := 0x3000 } 3 oneFile_wellFormed oneNode_fresh (by decide) rfl rfl (by decide)
  obtain ⟨mgr'', _, hRun, -⟩ := hMap _ left.length.lt_succ_self
  exact ⟨_, mgr'', _, rfl, hRun⟩

end OpenXJ380.Vma
