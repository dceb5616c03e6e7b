import OpenXJ380.Buddy.Region
import OpenXJ380.Lib.Transition

/-! # Any calls on one zone

A run adds regions that do not meet, allocates, and gives back blocks for the
count they were taken for, while owners write into their blocks. The free blocks
and the blocks in use share out the pages of the regions.
-/

namespace OpenXJ380.Buddy

section

open LinkedList Dyadic Transition

structure Tracked where
  memory : Memory
  zone : ZoneT
  live : Finset Block
  added : List (Nat × Nat)

inductive Call where
  | addRegion (start stop : Nat)
  | alloc (count : Nat)
  | free (base count : Nat)
  | write (a w : Nat)

def received (s : Tracked) (count : Nat) (r : Memory × ZoneT × Nat) : Tracked :=
  ⟨r.1, r.2.1, if r.2.2 = 0 then s.live else insert ⟨r.2.2, countToOrder count⟩ s.live, s.added⟩

def perform (s : Tracked) : Call → Option (Tracked × Nat)
  | .addRegion start stop =>
    (addMemoryRegion s.memory s.zone start stop).map fun r => (⟨r.1, r.2, s.live, (start, stop) :: s.added⟩, 0)
  | .alloc count =>
    let r := buddyAllocZone s.memory s.zone count
    some (received s count r, r.2.2)
  | .free base count =>
    (buddyFreeZone s.memory s.zone base (countToOrder count)).map fun r =>
      (⟨r.1, r.2, s.live.erase ⟨base, countToOrder count⟩, s.added⟩, 0)
  | .write a w => some ({ s with memory := Function.update s.memory a w }, 0)

def managed (z : ZoneT) (added : List (Nat × Nat)) : Set Nat :=
  {a | ∃ r ∈ added, a ∈ regionPages z r.1 r.2 \ refusedPages z r.1 r.2}

def Permitted (s : Tracked) : Call → Prop
  | .addRegion start stop =>
    start + 4095 < 2 ^ 64 ∧ NoWrap (max start (zoneStart s.zone)) (min stop (zoneEnd s.zone)) ∧
      ∀ r ∈ s.added, Disjoint (Set.Ico start stop) (Set.Ico r.1 r.2)
  | .alloc _ => True
  | .free base count => ⟨base, countToOrder count⟩ ∈ s.live
  | .write a _ => a ∉ managed s.zone s.added ∨ ∃ x ∈ s.live, a ∈ x.cells

def Adds : Call → Prop
  | .addRegion _ _ => True
  | _ => False

def zoneSystem : System Tracked Call where
  step s call t := Permitted s call ∧ ∃ p, perform s call = some (t, p)

/-- The free addresses `U` and those in use `L`. -/
structure Shared (s : Tracked) (lists : Nat → List Nat) (U L : Set Nat) : Prop where
  stocked : Stocked s.memory s.zone lists U 0
  top : TopEmpty s.zone
  live : Carved s.live L
  apart : Disjoint U L
  whole : U ∪ L = managed s.zone s.added
  valid : ∀ x ∈ s.live, x.base ≠ 0 ∧ x.order < maxOrder ∧ zoneContainsBlock s.zone x.base x.order = true

structure SameBounds (s t : Tracked) : Prop where
  start : zoneStart t.zone = zoneStart s.zone
  stop : zoneEnd t.zone = zoneEnd s.zone

theorem SameBounds.trans {r s t : Tracked} (h : SameBounds r s) (h' : SameBounds s t) : SameBounds r t :=
  ⟨h'.start.trans h.start, h'.stop.trans h.stop⟩

variable {s t : Tracked} {lists : Nat → List Nat} {U L : Set Nat} {m m' : Memory} {z z' : ZoneT}

section

variable (hStart : zoneStart z' = zoneStart z)

include hStart

theorem clipRegion_congr (hStop : zoneEnd z' = zoneEnd z) (start stop : Nat) :
    clipRegion z' start stop = clipRegion z start stop := by
  rw [zoneStart, zoneStart] at hStart
  rw [zoneEnd, zoneEnd] at hStop
  rw [clipRegion, clipRegion, hStart, hStop]

theorem managed_congr (hStop : zoneEnd z' = zoneEnd z)
    (added : List (Nat × Nat)) : managed z' added = managed z added := by
  have hPages : ∀ start stop, regionPages z' start stop = regionPages z start stop := by
    intro start stop
    rw [regionPages, hStart, hStop, regionPages]
  have hRefused : ∀ start stop, refusedPages z' start stop = refusedPages z start stop := by
    intro start stop
    rw [refusedPages, clipRegion_congr hStart hStop, refusedPages]
  simp only [managed, hPages, hRefused]

theorem contains_congr (hStop : zoneEnd z' = zoneEnd z) (base order : Nat) :
    zoneContainsBlock z' base order = zoneContainsBlock z base order := by
  rw [zoneStart, zoneStart] at hStart
  rw [zoneEnd, zoneEnd] at hStop
  rw [zoneContainsBlock, zoneContainsBlock, hStart, hStop]

end

theorem managed_cons (z : ZoneT) (start stop : Nat) (added : List (Nat × Nat)) : managed z ((start, stop) :: added) =
      managed z added ∪ (regionPages z start stop \ refusedPages z start stop) := by
  ext a
  simp only [managed, Set.mem_ofPred_eq, Set.mem_union, List.mem_cons]
  constructor
  · rintro ⟨r, rfl | hr, ha⟩
    · exact .inr ha
    · exact .inl ⟨r, hr, ha⟩
  · rintro (⟨r, hr, ha⟩ | ha)
    · exact ⟨r, .inr hr, ha⟩
    · exact ⟨_, .inl rfl, ha⟩

variable (h : Shared s lists U L)

include h

theorem Shared.addRegion {start stop : Nat} (hPermitted : Permitted s (.addRegion start stop)) :
    ∃ t p lists' U', perform s (.addRegion start stop) = some (t, p) ∧ Shared t lists' U' L ∧ SameBounds s t := by
  obtain ⟨hFits, hWrap, hApart⟩ := hPermitted
  have hOther : Disjoint (regionPages s.zone start stop) (managed s.zone s.added) := by
    rw [Set.disjoint_left]
    rintro a ha ⟨r, hr, hOld, -⟩
    exact Set.disjoint_left.mp (hApart r hr) (regionPages_subset _ _ _ ha) (regionPages_subset _ _ _ hOld)
  rw [← h.whole, Set.disjoint_union_right] at hOther
  cases hClip : clipRegion s.zone start stop with
  | none =>
    refine ⟨{ s with added := (start, stop) :: s.added }, 0, lists, U, ?_, ?_, rfl, rfl⟩
    · rw [perform, addMemoryRegion, hClip]
      rfl
    · refine { h with whole := ?_ }
      rw [managed_cons, regionPages_none hFits hClip, Set.empty_sdiff, Set.union_empty]
      exact h.whole
  | some clipped =>
    obtain ⟨first, last⟩ := clipped
    have hPages := regionPages_some hFits hClip
    have hKept := keptPages_some hFits hClip
    have hSome : Set.Ico (firstKept first last) last ⊆ regionPages s.zone start stop := by
      rw [← hKept]
      exact Set.sdiff_subset
    obtain ⟨m', z', lists', hAdd, hStocked, hWithin⟩ := addMemoryRegion_spec h.stocked hClip
      (hWrap.clip hFits hClip) (by rw [← hPages]; exact hOther.1)
    refine ⟨⟨m', z', s.live, (start, stop) :: s.added⟩, 0, lists', _, ?_,
      ⟨hStocked, h.top.addMemoryRegion hAdd, h.live, ?_, ?_, ?_⟩, hWithin.start, hWithin.stop⟩
    · rw [perform, hAdd]
      rfl
    · rw [Set.disjoint_union_left]
      exact ⟨h.apart, hOther.2.mono_left hSome⟩
    · rw [managed_congr hWithin.start hWithin.stop, managed_cons, ← h.whole, hKept, Set.union_right_comm]
    · intro x hx
      rw [contains_congr hWithin.start hWithin.stop]
      exact h.valid x hx

theorem Shared.alloc (count : Nat) :
    ∃ t p lists' U' L', perform s (.alloc count) = some (t, p) ∧ Shared t lists' U' L' ∧ SameBounds s t ∧ t.added = s.added := by
  have hTop : TopEmpty (buddyAllocZone s.memory s.zone count).2.1 := h.top.buddyAllocZone
  obtain hNone | ⟨m', z', addr, hAlloc, hTaken⟩ := buddyAllocZone_spec h.stocked count
  · refine ⟨received s count (s.memory, s.zone, 0), 0, lists, U, L, ?_, ?_, ⟨rfl, rfl⟩, rfl⟩
    · rw [perform, hNone]
    · rw [received, if_pos rfl]
      exact { h with }
  · rw [hAlloc] at hTop
    obtain ⟨lists', hStocked⟩ := hTaken.stocked
    have hWithin := hTaken.within
    refine ⟨received s count (m', z', addr), addr, lists', U \ Block.cells ⟨addr, countToOrder count⟩,
      L ∪ Block.cells ⟨addr, countToOrder count⟩, ?_, ?_, { hWithin with }, rfl⟩
    · rw [perform, hAlloc]
    · rw [received, if_neg hTaken.nonzero]
      refine ⟨hStocked, hTop, ?_, ?_, ?_, ?_⟩
      · rw [Finset.coe_insert]
        exact h.live.insert hTaken.aligned (h.apart.mono_left hTaken.inside)
      · rw [Set.disjoint_union_right]
        exact ⟨h.apart.mono_left Set.sdiff_subset, Set.disjoint_sdiff_left⟩
      · rw [managed_congr hWithin.start hWithin.stop, ← h.whole, Set.union_comm L, ← Set.union_assoc,
          Set.sdiff_union_of_subset hTaken.inside]
      · intro x hx
        rw [contains_congr hWithin.start hWithin.stop]
        obtain rfl | hOld := Finset.mem_insert.mp hx
        · refine ⟨hTaken.nonzero, ?_, zoneContainsBlock_iff.mpr ⟨hTaken.valid, h.stocked.block_bounds hTaken.inside⟩⟩
          refine lt_of_le_of_ne (orderValid_iff.mp hTaken.valid).2 ?_
          intro hTopOrder
          have hNever := buddyAllocZone_top s.memory s.zone hTopOrder
          rw [hAlloc] at hNever
          exact hTaken.nonzero hNever
        · exact h.valid x hOld

theorem Shared.free {base count : Nat} (hPermitted : Permitted s (.free base count)) :
    ∃ t p lists' U' L', perform s (.free base count) = some (t, p) ∧ Shared t lists' U' L' ∧ SameBounds s t ∧ t.added = s.added := by
  rw [Permitted] at hPermitted
  obtain ⟨hNonzero, hTop, hContains⟩ := h.valid _ hPermitted
  have hCells := h.live.subset hPermitted
  obtain ⟨m', z', hFree, ⟨lists', hStocked⟩, hWithin⟩ := buddyFreeZone_spec h.stocked hNonzero
    (h.live.aligned _ hPermitted) hContains (h.apart.symm.mono_left hCells)
  refine ⟨⟨m', z', s.live.erase ⟨base, countToOrder count⟩, s.added⟩, 0, lists',
    U ∪ Block.cells ⟨base, countToOrder count⟩, L \ Block.cells ⟨base, countToOrder count⟩,
    ?_, ⟨hStocked, h.top.buddyFreeZone hTop hFree, ?_, ?_, ?_, ?_⟩, { hWithin with }, rfl⟩
  · rw [perform, hFree]
    rfl
  · rw [Finset.coe_erase]
    exact h.live.remove hPermitted
  · rw [Set.disjoint_union_left]
    exact ⟨h.apart.mono_right Set.sdiff_subset, Set.disjoint_sdiff_right⟩
  · rw [managed_congr hWithin.start hWithin.stop, ← h.whole, Set.union_assoc, Set.union_sdiff_cancel hCells]
  · intro x hx
    rw [contains_congr hWithin.start hWithin.stop]
    exact h.valid x (Finset.mem_of_mem_erase hx)

theorem Shared.write {a w : Nat} (hPermitted : Permitted s (.write a w)) :
    ∃ t p lists' U' L', perform s (.write a w) = some (t, p) ∧ Shared t lists' U' L' ∧ SameBounds s t ∧ t.added = s.added := by
  refine ⟨_, 0, lists, U, L, rfl, { h with stocked := ?_ }, ⟨rfl, rfl⟩, rfl⟩
  apply h.stocked.elsewhere
  intro b hb
  apply Function.update_of_ne
  rintro rfl
  obtain hOutside | ⟨x, hx, hCell⟩ := hPermitted
  · apply hOutside
    rw [← h.whole]
    exact .inl hb
  · exact Set.disjoint_left.mp h.apart hb (h.live.subset hx hCell)

end

/-! # The zone between calls

What a traversal of the free lists finds after any run: aligned blocks inside
the zone that, with the blocks in use, tile the pages of the regions.
-/

open LinkedList Dyadic Transition

def freeSet (m : Memory) (z : ZoneT) : Set Block :=
  {x | minOrder ≤ x.order ∧
    ∃ l, Linked (blockListNext m) (pointer (z.freeArea (orderToIndex x.order))) l ∧ x.base ∈ l}

structure ZoneSound (s : Tracked) : Prop where
  aligned : ∀ x ∈ freeSet s.memory s.zone, 2 ^ x.order ∣ x.base
  inside : ∀ x ∈ freeSet s.memory s.zone, zoneStart s.zone ≤ x.base ∧ x.base + 2 ^ x.order ≤ zoneEnd s.zone
  apart : ∀ x ∈ freeSet s.memory s.zone, ∀ y ∈ freeSet s.memory s.zone, x ≠ y → Disjoint x.cells y.cells
  unused : ∀ x ∈ freeSet s.memory s.zone, ∀ y ∈ s.live, Disjoint x.cells y.cells
  live : ∀ x ∈ s.live, ∀ y ∈ s.live, x ≠ y → Disjoint x.cells y.cells
  cover : ∀ a, a ∈ managed s.zone s.added ↔ (∃ x ∈ freeSet s.memory s.zone, a ∈ x.cells) ∨ ∃ x ∈ s.live, a ∈ x.cells
  counted : ∃ lists, (∀ i, Linked (blockListNext s.memory) (pointer (s.zone.freeArea i)) (lists i)) ∧
    s.zone.freePages = listedPages lists
  reduced : ∀ x ∈ freeSet s.memory s.zone, x.order < maxOrder - 1 → x.buddy ∉ freeSet s.memory s.zone

def fresh (m : Memory) (startPfn endPfn : Nat) : Tracked := ⟨m, initZone startPfn endPfn, ∅, []⟩

section

variable {s t : Tracked} {lists : Nat → List Nat} {U L : Set Nat} {m : Memory} {z : ZoneT} {startPfn endPfn : Nat}

theorem freeSet_eq (h : Listed m z lists) : freeSet m z = freeBlocks lists := by
  ext x
  constructor
  · rintro ⟨hOrder, l, hLinked, hMem⟩
    rw [hLinked.eq (h.family.linked (orderToIndex x.order))] at hMem
    exact ⟨hOrder, hMem⟩
  · rintro ⟨hOrder, hMem⟩
    exact ⟨hOrder, _, h.family.linked _, hMem⟩

theorem Shared.zoneSound (h : Shared s lists U L) : ZoneSound s := by
  have hFree := freeSet_eq h.stocked.listed
  constructor
  · rw [hFree]
    exact h.stocked.carved.aligned
  · rw [hFree]
    exact fun x hx => (h.stocked.inside x hx).2
  · rw [hFree]
    exact h.stocked.carved.apart
  · rw [hFree]
    exact fun x hx y hy => h.apart.mono (h.stocked.carved.subset hx) (h.live.subset hy)
  · exact h.live.apart
  · rw [hFree, ← h.whole]
    intro a
    rw [Set.mem_union, h.stocked.carved.cover, h.live.cover]
    rfl
  · refine ⟨lists, h.stocked.listed.family.linked, ?_⟩
    have hCounted := h.stocked.counted
    omega
  · rw [hFree]
    exact h.stocked.reduced

theorem Shared.fresh : Shared (fresh m startPfn endPfn) (fun _ => []) ∅ ∅ := by
  have hNone : freeBlocks (fun _ => []) = ∅ := by
    ext x
    simp [freeBlocks]
  refine ⟨⟨⟨⟨fun _ => Linked.nil, fun _ _ a ha => ?_⟩, fun _ a ha => ?_⟩, ?_, fun _ _ => rfl, ?_, ?_, ?_⟩, rfl, ?_, ?_, ?_, ?_⟩
  · cases ha
  · cases ha
  · rw [hNone]
    exact fun x hx => hx.elim
  · rw [hNone]
    exact carved_empty
  · rw [hNone]
    exact fun x hx => hx.elim
  · simp [Buddy.fresh, initZone, listedPages]
  · simp only [Buddy.fresh, Finset.coe_empty]
    exact carved_empty
  · exact Set.disjoint_empty _
  · ext a
    simp [managed, Buddy.fresh]
  · intro x hx
    cases hx

theorem Shared.perform (h : Shared s lists U L) {call : Call} (hPermitted : Permitted s call) :
    ∃ t p lists' U' L', perform s call = some (t, p) ∧ Shared t lists' U' L' ∧ SameBounds s t ∧ (¬ Adds call → t.added = s.added) := by
  cases call with
  | addRegion start stop =>
    obtain ⟨t, p, lists', U', hPerform, hAfter, hBounds⟩ := h.addRegion hPermitted
    exact ⟨t, p, lists', U', L, hPerform, hAfter, hBounds, fun hNever => absurd trivial hNever⟩
  | alloc count =>
    obtain ⟨t, p, lists', U', L', hPerform, hAfter, hBounds, hSame⟩ := h.alloc count
    exact ⟨t, p, lists', U', L', hPerform, hAfter, hBounds, fun _ => hSame⟩
  | free base count =>
    obtain ⟨t, p, lists', U', L', hPerform, hAfter, hBounds, hSame⟩ := h.free hPermitted
    exact ⟨t, p, lists', U', L', hPerform, hAfter, hBounds, fun _ => hSame⟩
  | write a w =>
    obtain ⟨t, p, lists', U', L', hPerform, hAfter, hBounds, hSame⟩ := h.write hPermitted
    exact ⟨t, p, lists', U', L', hPerform, hAfter, hBounds, fun _ => hSame⟩

theorem Shared.step (h : Shared s lists U L) {call : Call} (hStep : zoneSystem.step s call t) :
    ∃ lists' U' L', Shared t lists' U' L' ∧ SameBounds s t ∧ (¬ Adds call → t.added = s.added) := by
  obtain ⟨hPermitted, p, hPerform⟩ := hStep
  obtain ⟨t', p', lists', U', L', hPerform', hAfter⟩ := h.perform hPermitted
  rw [hPerform] at hPerform'
  cases hPerform'
  exact ⟨lists', U', L', hAfter⟩

theorem Shared.run {calls : List Call} (hRun : Run zoneSystem s calls t) (h : ∃ lists U L, Shared s lists U L) :
    (∃ lists U L, Shared t lists U L) ∧ SameBounds s t := by
  induction hRun with
  | nil => exact ⟨h, rfl, rfl⟩
  | snoc run last ih =>
    obtain ⟨⟨lists, U, L, hMiddle⟩, hBefore⟩ := ih
    obtain ⟨lists', U', L', hAfter, hBounds, -⟩ := hMiddle.step last
    exact ⟨⟨lists', U', L', hAfter⟩, hBefore.trans hBounds⟩

theorem added_eq {calls : List Call} (hRun : Run zoneSystem s calls t) (h : Shared s lists U L)
    (hNoAdd : ∀ call ∈ calls, ¬ Adds call) : t.added = s.added := by
  induction hRun with
  | nil => rfl
  | snoc run last ih =>
    obtain ⟨⟨lists', U', L', hMiddle⟩, -⟩ := Shared.run run ⟨lists, U, L, h⟩
    obtain ⟨-, -, -, -, -, hSame⟩ := hMiddle.step last
    have hBefore := ih fun call hCall => hNoAdd call (List.mem_append_left _ hCall)
    exact (hSame (hNoAdd _ (List.mem_append_right _ (.head _)))).trans hBefore

theorem Shared.free_unique {lists' : Nat → List Nat} {U' L' : Set Nat} (h : Shared s lists U L)
    (h' : Shared t lists' U' L') (hBounds : SameBounds s t) (hAdded : t.added = s.added) (hNone : s.live = ∅)
    (hNone' : t.live = ∅) : freeSet t.memory t.zone = freeSet s.memory s.zone := by
  have hEmpty : ∀ {r : Tracked} {lists : Nat → List Nat} {U L : Set Nat}, Shared r lists U L → r.live = ∅ →
      U = managed r.zone r.added := by
    intro r lists U L hShared hLive
    have hNothing : L = ∅ := by
      rw [Set.eq_empty_iff_forall_notMem]
      intro a ha
      obtain ⟨x, hx, -⟩ := (hShared.live.cover a).mp ha
      rw [hLive] at hx
      cases hx
    rw [← hShared.whole, hNothing, Set.union_empty]
  have hSame : U' = U := by
    rw [hEmpty h hNone, hEmpty h' hNone', hAdded, managed_congr hBounds.start hBounds.stop]
  have hCarved := h'.stocked.carved
  rw [hSame] at hCarved
  rw [freeSet_eq h.stocked.listed, freeSet_eq h'.stocked.listed]
  exact hCarved.unique h.stocked.carved h'.stocked.reduced h.stocked.reduced
    (fun x hx => Nat.le_sub_one_of_lt (h'.stocked.order_lt h'.top hx))
    (fun x hx => Nat.le_sub_one_of_lt (h.stocked.order_lt h.top hx))

/-- The buddy zone after any run from an empty zone. -/
theorem zone_invariant {calls : List Call} (hRun : Run zoneSystem (fresh m startPfn endPfn) calls s) :
    ZoneSound s ∧ SameBounds (fresh m startPfn endPfn) s ∧ (∀ call, Permitted s call → (perform s call).isSome) ∧
      ∀ later t, Run zoneSystem s later t → (∀ call ∈ later, ¬ Adds call) → s.live = ∅ → t.live = ∅ →
        freeSet t.memory t.zone = freeSet s.memory s.zone := by
  obtain ⟨⟨lists, U, L, hShared⟩, hBounds⟩ := Shared.run hRun ⟨_, _, _, Shared.fresh⟩
  refine ⟨hShared.zoneSound, hBounds, ?_, ?_⟩
  · intro call hPermitted
    obtain ⟨t, p, lists', U', L', hPerform, -⟩ := hShared.perform hPermitted
    rw [hPerform]
    rfl
  · intro later t hLater hNoAdd hNone hNone'
    obtain ⟨⟨lists', U', L', hAfter⟩, hSame⟩ := Shared.run hLater ⟨lists, U, L, hShared⟩
    exact hShared.free_unique hAfter hSame (added_eq hLater hShared hNoAdd) hNone hNone'

end

def after (s : Tracked) (call : Call) : Tracked := ((perform s call).map Prod.fst).getD s

theorem step_after {s : Tracked} {call : Call} (hPermitted : Permitted s call) (hSome : (perform s call).isSome) :
    zoneSystem.step s call (after s call) := by
  obtain ⟨⟨t, p⟩, hPerform⟩ := Option.isSome_iff_exists.mp hSome
  refine ⟨hPermitted, p, ?_⟩
  rw [after, hPerform]
  rfl

/-- Adding 16 pages and taking three of them. -/
theorem zone_invariant_alloc :
    ∃ s : Tracked, s.zone.freePages = 12 ∧ s.live = {⟨0x100000, 14⟩} ∧ ZoneSound s := by
  have hAdd : zoneSystem.step (fresh (fun _ => 0) 0 4096) (.addRegion 0x100000 0x110000)
      (after (fresh (fun _ => 0) 0 4096) (.addRegion 0x100000 0x110000)) := by
    refine step_after ⟨by decide, ?_, fun r hr => absurd hr List.not_mem_nil⟩ (by decide +kernel)
    intro k hLow hHigh
    right
    have hPow : 2 ^ k ≤ 2 ^ 31 := Nat.pow_le_pow_right (by decide) (Nat.le_of_lt hHigh)
    have hEnd : min 0x110000 (zoneEnd (fresh (fun _ => 0) 0 4096).zone) = 0x110000 := by decide +kernel
    omega
  have hAlloc := @step_after (after (fresh (fun _ => 0) 0 4096) (.addRegion 0x100000 0x110000)) (.alloc 3) trivial rfl
  have hAll := zone_invariant ((Run.single hAdd).snoc hAlloc)
  exact ⟨_, by decide +kernel, by decide +kernel, hAll.1⟩

/-- The first of the two pages of a region is 0, and the block at 0 is both of them: the second is
lost with it. A region at the top of the address space is cut at a block that does not fit. -/
theorem page_lost :
    (∃ s, Run zoneSystem (fresh (fun _ => 0) 0 4096) [.addRegion 0 0x2000] s ∧ s.zone.managedPages = 2 ∧
      s.zone.freePages = 0 ∧ s.live = ∅ ∧ (∀ i < 20, s.zone.freeArea i = 0) ∧ 0x1000 ∈ regionPages s.zone 0 0x2000) ∧
    regionOrder (2 ^ 64 - 2 ^ 30) (2 ^ 64 - 4096) (maxOrder - 1) = 30 := by
  refine ⟨⟨after (fresh (fun _ => 0) 0 4096) (.addRegion 0 0x2000), ?_, ?_⟩, by decide +kernel⟩
  · apply Run.single
    refine step_after ⟨by decide, ?_, fun r hr => absurd hr List.not_mem_nil⟩ (by decide +kernel)
    intro k hLow hHigh
    right
    have hPow : 2 ^ k ≤ 2 ^ 31 := Nat.pow_le_pow_right (by decide) hHigh.le
    have hEnd : min 0x2000 (zoneEnd (fresh (fun _ => 0) 0 4096).zone) = 0x2000 := by decide +kernel
    omega
  · refine ⟨by decide +kernel, by decide +kernel, by decide +kernel, by decide +kernel, ?_⟩
    rw [mem_regionPages]
    decide +kernel

end OpenXJ380.Buddy
