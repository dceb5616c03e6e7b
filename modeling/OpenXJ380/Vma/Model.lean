import OpenXJ380.Lib.Intervals
import OpenXJ380.Lib.Segments

/-! # Areas of virtual memory (`kernel/memory/vma.cpp`)

The areas of a process are nodes of a doubly linked list. Reading through a
pointer to nothing has no result, and neither has the copy of a name for which
`strdup` gets no memory, since it writes through the null pointer.
-/

namespace OpenXJ380.Vma

abbrev U64 := BitVec 64

abbrev Addr := Nat

inductive VmaType where
  | anon
  | file
  | shm
deriving DecidableEq

structure VmaT where
  vmStart : U64
  vmEnd : U64
  vmFlags : U64
  vmType : VmaType
  vmFd : BitVec 32
  vmOffset : BitVec 64
  shmId : BitVec 32
  vmName : Option (List (BitVec 8))
  vmNext : Option Addr
  vmPrev : Option Addr

structure VmaManager where
  nodes : Addr → Option VmaT
  vmaList : Option Addr
  vmTotal : U64
  vmUsed : U64

/-- What `malloc` answers: a node, and whether there is room for the copy of a name. -/
structure Supply where
  node : (Addr → Option VmaT) → Option Addr
  name : Bool

def store (mgr : VmaManager) (a : Addr) (vma : VmaT) : VmaManager :=
  { mgr with nodes := Function.update mgr.nodes a (some vma) }

def setNext (mgr : VmaManager) (a : Addr) (next : Option Addr) : Option VmaManager :=
  (mgr.nodes a).map fun vma => store mgr a { vma with vmNext := next }

def setPrev (mgr : VmaManager) (a : Addr) (prev : Option Addr) : Option VmaManager :=
  (mgr.nodes a).map fun vma => store mgr a { vma with vmPrev := prev }

/-- `next` comes behind `prev`, or first where there is none. -/
def linkNext (mgr : VmaManager) (prev next : Option Addr) : Option VmaManager :=
  match prev with
  | some p => setNext mgr p next
  | none => some { mgr with vmaList := next }

def linkPrev (mgr : VmaManager) (next prev : Option Addr) : Option VmaManager :=
  match next with
  | some n => setPrev mgr n prev
  | none => some mgr

def linkBetween (mgr : VmaManager) (a : Addr) (new : VmaT) (prev next : Option Addr) : Option VmaManager := do
  let mgr ← linkNext (store mgr a { new with vmNext := next, vmPrev := prev }) prev (some a)
  linkPrev mgr next (some a)

def vmaFree (mgr : VmaManager) (a : Addr) : VmaManager := { mgr with nodes := Function.update mgr.nodes a none }

def vmaRemove (mgr : VmaManager) (a : Addr) : Option VmaManager := do
  let vma ← mgr.nodes a
  let mgr ← linkNext mgr vma.vmPrev vma.vmNext
  let mgr ← linkPrev mgr vma.vmNext vma.vmPrev
  some { mgr with vmUsed := mgr.vmUsed - (vma.vmEnd - vma.vmStart) }

/-- `strdup` of a name, or `none` where its memory is missing. -/
def copyName (supply : Supply) (name : Option (List (BitVec 8))) : Option (Option (List (BitVec 8))) :=
  match name with
  | none => some none
  | some bytes => if supply.name then some (some bytes) else none

def vmaSplit (supply : Supply) (mgr : VmaManager) (a : Addr) (addr : U64) : Option (VmaManager × Int) := do
  let vma ← mgr.nodes a
  if addr ≤ vma.vmStart ∨ addr ≥ vma.vmEnd then some (mgr, -1)
  else
    match supply.node mgr.nodes with
    | none => some (mgr, -1)
    | some new =>
      let name ← copyName supply vma.vmName
      let offset := if vma.vmType = .file then vma.vmOffset + (addr - vma.vmStart) else vma.vmOffset
      let mgr := store mgr new { vma with vmStart := addr, vmPrev := some a, vmName := name, vmOffset := offset }
      let mgr := store mgr a { vma with vmEnd := addr, vmNext := some new }
      let mgr ← linkPrev mgr vma.vmNext (some new)
      some (mgr, 0)

def vmaMerge (mgr : VmaManager) (a b : Addr) : Option (VmaManager × Int) := do
  let vma1 ← mgr.nodes a
  let vma2 ← mgr.nodes b
  if vma1.vmEnd ≠ vma2.vmStart then some (mgr, -1)
  else if vma1.vmFlags ≠ vma2.vmFlags ∨ vma1.vmType ≠ vma2.vmType ∨ vma1.vmFd ≠ vma2.vmFd then some (mgr, -1)
  else
    let mgr := store mgr a { vma1 with vmEnd := vma2.vmEnd, vmNext := vma2.vmNext }
    let mgr ← linkPrev mgr vma2.vmNext (some a)
    some (vmaFree mgr b, 0)

/-- The loop from the area at `cur` on. -/
def unmapFrom (supply : Supply) (start stop : U64) : Nat → VmaManager → Option Addr → Option (VmaManager × Int)
  | 0, _, _ => none
  | _ + 1, mgr, none => some (mgr, 0)
  | fuel + 1, mgr, some a => do
    let vma ← mgr.nodes a
    if vma.vmEnd ≤ start then unmapFrom supply start stop fuel mgr vma.vmNext
    else if vma.vmStart ≥ stop then some (mgr, 0)
    else if vma.vmStart ≥ start ∧ vma.vmEnd ≤ stop then
      let next := vma.vmNext
      let mgr ← vmaRemove mgr a
      unmapFrom supply start stop fuel (vmaFree mgr a) next
    else if vma.vmStart < start ∧ vma.vmEnd > stop then do
      let (mgr, status) ← vmaSplit supply mgr a stop
      if status ≠ 0 then some (mgr, -1)
      else
        let vma ← mgr.nodes a
        let mgr := store mgr a { vma with vmEnd := start }
        unmapFrom supply start stop fuel { mgr with vmUsed := mgr.vmUsed - (stop - start) } vma.vmNext
    else if vma.vmStart < start then
      let oldEnd := vma.vmEnd
      let mgr := store mgr a { vma with vmEnd := start }
      unmapFrom supply start stop fuel { mgr with vmUsed := mgr.vmUsed - (oldEnd - start) } vma.vmNext
    else if vma.vmEnd > stop then
      let oldStart := vma.vmStart
      let offset := if vma.vmType = .file then vma.vmOffset + (stop - oldStart) else vma.vmOffset
      let mgr := store mgr a { vma with vmStart := stop, vmOffset := offset }
      some ({ mgr with vmUsed := mgr.vmUsed - (stop - oldStart) }, 0)
    else unmapFrom supply start stop fuel mgr vma.vmNext

/-- `fuel` bounds the number of areas. -/
def vmaUnmapRange (supply : Supply) (fuel : Nat) (mgr : VmaManager) (start stop : U64) : Option (VmaManager × Int) :=
  if start ≥ stop then some (mgr, -1) else unmapFrom supply start stop fuel mgr mgr.vmaList

/-! # The list of areas

The nodes in order with the areas they stand for. Taking out, splitting and
changing a node are changes of the links and of the areas.
-/

open Function
open List (append_assoc map_append map_cons mem_append_right mem_cons_self nodup_middle)

open LinkedList Intervals

structure Attributes where
  vmFlags : U64
  vmType : VmaType
  vmFd : BitVec 32
  vmOffset : BitVec 64
  shmId : BitVec 32
  vmName : Option (List (BitVec 8))

def shift (n : Nat) (attributes : Attributes) : Attributes :=
  if attributes.vmType = .file then { attributes with vmOffset := attributes.vmOffset + BitVec.ofNat 64 n }
  else attributes

def VmaT.area (vma : VmaT) : Interval Attributes :=
  ⟨vma.vmStart.toNat, vma.vmEnd.toNat, ⟨vma.vmFlags, vma.vmType, vma.vmFd, vma.vmOffset, vma.shmId, vma.vmName⟩⟩

def nextOf (mgr : VmaManager) (a : Addr) : Option Addr := (mgr.nodes a).bind VmaT.vmNext

def prevOf (mgr : VmaManager) (a : Addr) : Option Addr := (mgr.nodes a).bind VmaT.vmPrev

def areaOf (mgr : VmaManager) (a : Addr) : Option (Interval Attributes) := (mgr.nodes a).map VmaT.area

/-- A traversal has passed the nodes `pre` with the areas `xs` and has `rest` with `ys` before it. -/
structure Chained (mgr : VmaManager) (pre rest : List Addr) (xs ys : List (Interval Attributes)) : Prop where
  nodup : (pre ++ rest).Nodup
  head : mgr.vmaList = (pre ++ rest).head?
  links : Segment (nextOf mgr) (prevOf mgr) none (pre ++ rest) none
  before : pre.map (areaOf mgr) = xs.map some
  after : rest.map (areaOf mgr) = ys.map some

variable {mgr mgr' : VmaManager} {pre rest : List Addr} {xs ys : List (Interval Attributes)} {x : Interval Attributes}
  {a b p : Addr} {vma new : VmaT} {n : Option Addr}

theorem shift_zero (attributes : Attributes) : shift 0 attributes = attributes := by
  rw [shift]
  split
  · simp
  · rfl

@[simp] theorem nextOf_store : nextOf (store mgr a vma) = update (nextOf mgr) a vma.vmNext :=
  comp_update (fun v : Option VmaT => v.bind VmaT.vmNext) mgr.nodes a (some vma)

@[simp] theorem prevOf_store : prevOf (store mgr a vma) = update (prevOf mgr) a vma.vmPrev :=
  comp_update (fun v : Option VmaT => v.bind VmaT.vmPrev) mgr.nodes a (some vma)

@[simp] theorem areaOf_store : areaOf (store mgr a vma) = update (areaOf mgr) a (some vma.area) :=
  comp_update (fun v : Option VmaT => v.map VmaT.area) mgr.nodes a (some vma)

theorem nextOf_eq (h : mgr.nodes a = some vma) : nextOf mgr a = vma.vmNext := by rw [nextOf, h]; rfl

theorem prevOf_eq (h : mgr.nodes a = some vma) : prevOf mgr a = vma.vmPrev := by rw [prevOf, h]; rfl

theorem areaOf_eq (h : mgr.nodes a = some vma) : areaOf mgr a = some vma.area := by rw [areaOf, h]; rfl

structure SameAreas (mgr mgr' : VmaManager) : Prop where
  area : areaOf mgr' = areaOf mgr
  used : mgr'.vmUsed = mgr.vmUsed
  free : ∀ a, mgr'.nodes a = none ↔ mgr.nodes a = none

theorem isSome_of_area (h : areaOf mgr a = some x) : ∃ vma, mgr.nodes a = some vma ∧ vma.area = x :=
  Option.map_eq_some_iff.mp h

theorem sameAreas_store (h : mgr.nodes a = some vma) (hArea : new.area = vma.area) :
    SameAreas mgr (store mgr a new) := by
  refine ⟨?_, rfl, ?_⟩
  · rw [areaOf_store, hArea, ← areaOf_eq h, update_eq_self]
  · intro b
    by_cases hEq : b = a
    · subst hEq
      simp [store, h]
    · simp [store, update_of_ne hEq]

theorem setNext_spec (h : mgr.nodes p = some vma) (n : Option Addr) :
    ∃ mgr', setNext mgr p n = some mgr' ∧ nextOf mgr' = update (nextOf mgr) p n ∧ prevOf mgr' = prevOf mgr ∧
      mgr'.vmaList = mgr.vmaList ∧ SameAreas mgr mgr' := by
  refine ⟨store mgr p { vma with vmNext := n }, ?_, nextOf_store, ?_, rfl, sameAreas_store h rfl⟩
  · rw [setNext, h]
    rfl
  · rw [prevOf_store, ← prevOf_eq h, update_eq_self]

theorem setPrev_spec (h : mgr.nodes p = some vma) (n : Option Addr) :
    ∃ mgr', setPrev mgr p n = some mgr' ∧ nextOf mgr' = nextOf mgr ∧ prevOf mgr' = update (prevOf mgr) p n ∧
      mgr'.vmaList = mgr.vmaList ∧ SameAreas mgr mgr' := by
  refine ⟨store mgr p { vma with vmPrev := n }, ?_, ?_, prevOf_store, rfl, sameAreas_store h rfl⟩
  · rw [setPrev, h]
    rfl
  · rw [nextOf_store, ← nextOf_eq h, update_eq_self]

theorem SameAreas.trans {mgr'' : VmaManager} (h : SameAreas mgr mgr') (h' : SameAreas mgr' mgr'') :
    SameAreas mgr mgr'' :=
  ⟨h'.area.trans h.area, h'.used.trans h.used, fun a => (h'.free a).trans (h.free a)⟩

theorem SameAreas.present (h : SameAreas mgr mgr') (hNode : ∃ vma, mgr.nodes a = some vma) :
    ∃ vma, mgr'.nodes a = some vma := by
  rw [← Option.ne_none_iff_exists'] at hNode ⊢
  rwa [ne_eq, h.free]

theorem Chained.step : Chained mgr (pre ++ [a]) rest (xs ++ [x]) ys ↔ Chained mgr pre (a :: rest) xs (x :: ys) := by
  have hList : pre ++ [a] ++ rest = pre ++ a :: rest := by rw [append_assoc]; rfl
  constructor
  · rintro ⟨hNodup, hHead, hLinks, hBefore, hAfter⟩
    rw [hList] at hNodup hHead hLinks
    rw [map_append, map_append] at hBefore
    obtain ⟨hInit, hLast⟩ := List.append_inj' hBefore rfl
    refine ⟨hNodup, hHead, hLinks, hInit, ?_⟩
    rw [map_cons, map_cons, hAfter, (List.cons.inj hLast).1]
  · rintro ⟨hNodup, hHead, hLinks, hBefore, hAfter⟩
    rw [← hList] at hNodup hHead hLinks
    obtain ⟨hFirst, hRest⟩ := List.cons.inj hAfter
    refine ⟨hNodup, hHead, hLinks, ?_, hRest⟩
    rw [map_append, map_append, hBefore, List.map_singleton, hFirst]
    rfl

theorem Chained.node (h : Chained mgr pre (a :: rest) xs (x :: ys)) :
    ∃ vma, mgr.nodes a = some vma ∧ vma.area = x ∧ vma.vmPrev = pre.getLast? ∧ vma.vmNext = rest.head? := by
  obtain ⟨vma, hNode, hArea⟩ := isSome_of_area (List.cons.inj h.after).1
  obtain ⟨hPrev, hNext⟩ := h.links.middle
  rw [prevOf_eq hNode] at hPrev
  rw [nextOf_eq hNode] at hNext
  exact ⟨vma, hNode, hArea, hPrev, hNext⟩

theorem Chained.present (h : Chained mgr pre rest xs ys) (ha : a ∈ pre ++ rest) : ∃ vma, mgr.nodes a = some vma := by
  have hMap : (pre ++ rest).map (areaOf mgr) = (xs ++ ys).map some := by
    rw [map_append, map_append, h.before, h.after]
  have hMem := List.mem_map_of_mem (f := areaOf mgr) ha
  rw [hMap] at hMem
  obtain ⟨x, -, hx⟩ := List.mem_map.mp hMem
  obtain ⟨vma, hNode, -⟩ := isSome_of_area hx.symm
  exact ⟨vma, hNode⟩

theorem Chained.notMem_of_free (h : Chained mgr pre rest xs ys) (hFree : mgr.nodes b = none) : b ∉ pre ++ rest := by
  intro hIn
  obtain ⟨vma, hNode⟩ := h.present hIn
  rw [hFree] at hNode
  cases hNode

theorem map_update_of_notMem {l : List Addr} {f : Addr → Option (Interval Attributes)}
    {area : Option (Interval Attributes)} (ha : a ∉ l) : l.map (update f a area) = l.map f := by
  apply List.map_congr_left
  intro b hb
  apply update_of_ne
  rintro rfl
  exact ha hb

theorem Chained.store (new : VmaT) (h : Chained mgr pre (a :: rest) xs (x :: ys)) (hNode : mgr.nodes a = some vma)
    (hNext : new.vmNext = vma.vmNext) (hPrev : new.vmPrev = vma.vmPrev) (used : U64) :
    Chained { Vma.store mgr a new with vmUsed := used } pre (a :: rest) xs (new.area :: ys) := by
  obtain ⟨-, hRight, hApart⟩ := List.nodup_append.mp h.nodup
  have hNextOf : nextOf { Vma.store mgr a new with vmUsed := used } = nextOf mgr := by
    change nextOf (Vma.store mgr a new) = _
    rw [nextOf_store, hNext, ← nextOf_eq hNode, update_eq_self]
  have hPrevOf : prevOf { Vma.store mgr a new with vmUsed := used } = prevOf mgr := by
    change prevOf (Vma.store mgr a new) = _
    rw [prevOf_store, hPrev, ← prevOf_eq hNode, update_eq_self]
  have hAreaOf : areaOf { Vma.store mgr a new with vmUsed := used } = update (areaOf mgr) a (some new.area) :=
    areaOf_store
  refine ⟨h.nodup, h.head, ?_, ?_, ?_⟩
  · rw [hNextOf, hPrevOf]
    exact h.links
  · rw [hAreaOf, map_update_of_notMem fun hIn => hApart a hIn a mem_cons_self rfl]
    exact h.before
  · rw [hAreaOf, map_cons, map_cons, update_self, map_update_of_notMem (List.nodup_cons.mp hRight).1,
      (List.cons.inj h.after).2]

theorem linkNext_spec {prev : Option Addr} (hPrev : ∀ p, prev = some p → ∃ vma, mgr.nodes p = some vma)
    (n : Option Addr) :
    ∃ mgr', linkNext mgr prev n = some mgr' ∧ (∀ b, nextOf mgr' b = if prev = some b then n else nextOf mgr b) ∧
      prevOf mgr' = prevOf mgr ∧ mgr'.vmaList = (if prev = none then n else mgr.vmaList) ∧ SameAreas mgr mgr' := by
  cases prev with
  | none => exact ⟨{ mgr with vmaList := n }, rfl, fun b => rfl, rfl, rfl, rfl, rfl, fun _ => Iff.rfl⟩
  | some p =>
    obtain ⟨vma, hNode⟩ := hPrev p rfl
    obtain ⟨mgr', hSet, hNext, hPrevOf, hList, hSame⟩ := setNext_spec hNode n
    refine ⟨mgr', hSet, ?_, hPrevOf, hList, hSame⟩
    intro b
    rw [hNext, update_apply]
    simp only [Option.some.injEq, eq_comm]

theorem linkPrev_spec {next : Option Addr} (hNext : ∀ p, next = some p → ∃ vma, mgr.nodes p = some vma)
    (n : Option Addr) : ∃ mgr', linkPrev mgr next n = some mgr' ∧ nextOf mgr' = nextOf mgr ∧
      (∀ b, prevOf mgr' b = if next = some b then n else prevOf mgr b) ∧ mgr'.vmaList = mgr.vmaList ∧
      SameAreas mgr mgr' := by
  cases next with
  | none => exact ⟨mgr, rfl, rfl, fun b => rfl, rfl, rfl, rfl, fun _ => Iff.rfl⟩
  | some p =>
    obtain ⟨vma, hNode⟩ := hNext p rfl
    obtain ⟨mgr', hSet, hNextOf, hPrev, hList, hSame⟩ := setPrev_spec hNode n
    refine ⟨mgr', hSet, hNextOf, ?_, hList, hSame⟩
    intro b
    rw [hPrev, update_apply]
    simp only [Option.some.injEq, eq_comm]

theorem head?_append_removed (pre rest : List Addr) (a : Addr) :
    (if pre.getLast? = none then rest.head? else (pre ++ a :: rest).head?) = (pre ++ rest).head? := by
  cases pre with
  | nil => rfl
  | cons b pre =>
    rw [if_neg (by simp)]
    rfl

theorem Chained.remove (h : Chained mgr pre (a :: rest) xs (x :: ys)) (hNode : mgr.nodes a = some vma) :
    ∃ mgr', vmaRemove mgr a = some mgr' ∧ Chained (vmaFree mgr' a) pre rest xs ys ∧
      mgr'.vmUsed = mgr.vmUsed - (vma.vmEnd - vma.vmStart) := by
  obtain ⟨vma', hNode', hArea, hPrev, hNext⟩ := h.node
  rw [hNode] at hNode'
  cases hNode'
  obtain ⟨mgr₁, hFirst, hNextOf₁, hPrevOf₁, hList₁, hSame₁⟩ := @linkNext_spec mgr pre.getLast?
    (fun p hp => h.present (List.mem_append_left _ (List.mem_of_getLast? hp))) rest.head?
  obtain ⟨mgr₂, hSecond, hNextOf₂, hPrevOf₂, hList₂, hSame₂⟩ := @linkPrev_spec mgr₁ rest.head? (fun p hp =>
    hSame₁.present (h.present (mem_append_right pre (.tail a (List.mem_of_head? hp))))) pre.getLast?
  have hSame := hSame₁.trans hSame₂
  refine ⟨{ mgr₂ with vmUsed := mgr₂.vmUsed - (vma.vmEnd - vma.vmStart) }, ?_, ?_, ?_⟩
  · rw [vmaRemove, hNode]
    simp only [Option.bind_eq_bind, Option.bind_some, hPrev, hNext, hFirst, hSecond]
  · have hOthers : ∀ b ∈ pre ++ rest, b ≠ a := by
      rintro b hb rfl
      have hNodup := h.nodup
      rw [nodup_middle] at hNodup
      exact (List.nodup_cons.mp hNodup).1 hb
    have hNodes : ∀ b, b ≠ a → (vmaFree { mgr₂ with vmUsed := mgr₂.vmUsed - (vma.vmEnd - vma.vmStart) } a).nodes b =
        mgr₂.nodes b := fun b hb => update_of_ne hb _ _
    have hAreas : ∀ b, b ≠ a → areaOf (vmaFree { mgr₂ with vmUsed := mgr₂.vmUsed - (vma.vmEnd - vma.vmStart) } a) b =
        areaOf mgr b := by
      intro b hb
      rw [areaOf, hNodes b hb, ← areaOf, hSame.area]
    have hNodup := h.nodup
    rw [nodup_middle] at hNodup
    refine ⟨(List.nodup_cons.mp hNodup).2, ?_, h.links.remove h.nodup ?_ ?_, ?_, ?_⟩
    · change mgr₂.vmaList = _
      rw [hList₂, hList₁, h.head, head?_append_removed]
    · intro b hb
      rw [nextOf, hNodes b (hOthers b hb), ← nextOf, hNextOf₂, hNextOf₁]
    · intro b hb
      rw [prevOf, hNodes b (hOthers b hb), ← prevOf, hPrevOf₂, hPrevOf₁]
    · rw [← h.before]
      exact List.map_congr_left fun b hb => hAreas b (hOthers b (List.mem_append_left _ hb))
    · rw [← (List.cons.inj h.after).2]
      exact List.map_congr_left fun b hb => hAreas b (hOthers b (mem_append_right _ hb))
  · change mgr₂.vmUsed - _ = _
    rw [hSame.used]

theorem Chained.link (h : Chained mgr pre rest xs ys) (hNew : b ∉ pre ++ rest) (new : VmaT) :
    ∃ mgr', linkBetween mgr b new pre.getLast? rest.head? = some mgr' ∧
      Chained mgr' pre (b :: rest) xs (new.area :: ys) ∧ mgr'.vmUsed = mgr.vmUsed := by
  have hNe : ∀ c ∈ pre ++ rest, c ≠ b := by
    rintro c hc rfl
    exact hNew hc
  generalize hLinked : ({ new with vmNext := rest.head?, vmPrev := pre.getLast? } : VmaT) = linked
  have hPresent : ∀ c ∈ pre ++ rest, ∃ vma, (Vma.store mgr b linked).nodes c = some vma := by
    intro c hc
    obtain ⟨vma, hNode⟩ := h.present hc
    exact ⟨vma, (update_of_ne (hNe c hc) _ _).trans hNode⟩
  obtain ⟨mgr₁, hFirst, hNextOf₁, hPrevOf₁, hList₁, hSame₁⟩ := @linkNext_spec (Vma.store mgr b linked) pre.getLast?
    (fun c hc => hPresent c (List.mem_append_left _ (List.mem_of_getLast? hc))) (some b)
  obtain ⟨mgr₂, hSecond, hNextOf₂, hPrevOf₂, hList₂, hSame₂⟩ := @linkPrev_spec mgr₁ rest.head?
    (fun c hc => hSame₁.present (hPresent c (mem_append_right _ (List.mem_of_head? hc)))) (some b)
  have hSame := hSame₁.trans hSame₂
  refine ⟨mgr₂, ?_, ⟨?_, ?_, h.links.insert h.nodup ?_ ?_ ?_ ?_, ?_, ?_⟩, hSame.used⟩
  · rw [linkBetween, hLinked, hFirst]
    exact hSecond
  · rw [nodup_middle]
    exact List.nodup_cons.mpr ⟨hNew, h.nodup⟩
  · rw [hList₂, hList₁]
    cases pre with
    | nil => rfl
    | cons c pre =>
      rw [if_neg (by simp)]
      exact h.head
  · rw [hNextOf₂, hNextOf₁, if_neg fun hLast => hNe b (List.mem_append_left _ (List.mem_of_getLast? hLast)) rfl,
      nextOf_store, update_self, ← hLinked]
  · rw [hPrevOf₂, if_neg fun hHead => hNe b (mem_append_right _ (List.mem_of_head? hHead)) rfl, hPrevOf₁,
      prevOf_store, update_self, ← hLinked]
  · intro c hc
    rw [hNextOf₂, hNextOf₁, nextOf_store, update_of_ne (hNe c hc)]
  · intro c hc
    rw [hPrevOf₂, hPrevOf₁, prevOf_store, update_of_ne (hNe c hc)]
  · rw [hSame.area, areaOf_store, map_update_of_notMem fun hIn => hNew (List.mem_append_left _ hIn)]
    exact h.before
  · rw [hSame.area, areaOf_store, map_cons, map_cons, update_self,
      map_update_of_notMem fun hIn => hNew (mem_append_right _ hIn), h.after, ← hLinked]
    rfl

theorem linkBetween_store (hNe : a ≠ b) (left right : VmaT) (next : Option Addr) :
    linkBetween (store mgr a left) b right (some a) next =
      linkPrev (store (store mgr b { right with vmNext := next, vmPrev := some a }) a { left with vmNext := some b })
        next (some b) := by
  simp only [linkBetween, linkNext, setNext, store, update_comm hNe, update_idem, update_self, Option.map_some]
  rfl

theorem ofNat_toNat_sub {u v : U64} (hLe : v ≤ u) : BitVec.ofNat 64 (u.toNat - v.toNat) = u - v := by
  rw [← BitVec.ofNat_sub_ofNat_of_le u.toNat v.toNat v.isLt hLe, BitVec.ofNat_toNat, BitVec.ofNat_toNat,
    BitVec.setWidth_eq, BitVec.setWidth_eq]

theorem shift_area {addr : U64} (vma : VmaT) (hLe : vma.vmStart ≤ addr) :
    shift (addr.toNat - vma.vmStart.toNat) vma.area.value = { vma.area.value with
        vmOffset := if vma.vmType = .file then vma.vmOffset + (addr - vma.vmStart) else vma.vmOffset } := by
  rw [shift, ofNat_toNat_sub hLe]
  by_cases hFile : vma.vmType = .file
  · rw [if_pos hFile]
    exact if_pos hFile
  · rw [if_neg hFile]
    exact if_neg hFile

theorem Chained.split {supply : Supply} {addr : U64} (h : Chained mgr pre (a :: rest) xs (x :: ys))
    (hNode : mgr.nodes a = some vma) (hInside : vma.vmStart < addr ∧ addr < vma.vmEnd)
    (hSupply : supply.node mgr.nodes = some b) (hFresh : mgr.nodes b = none)
    (hName : copyName supply vma.vmName = some vma.vmName) : ∃ mgr', vmaSplit supply mgr a addr = some (mgr', 0) ∧
      Chained mgr' pre (a :: b :: rest) xs
        (⟨x.lo, addr.toNat, x.value⟩ :: ⟨addr.toNat, x.hi, shift (addr.toNat - x.lo) x.value⟩ :: ys) ∧
      mgr'.vmUsed = mgr.vmUsed := by
  obtain ⟨vma', hNode', rfl, -, hNext⟩ := h.node
  rw [hNode] at hNode'
  cases hNode'
  have hOffset := shift_area vma (BitVec.le_of_lt hInside.1)
  have hNew : b ∉ pre ++ [a] ++ rest := by
    rw [← List.append_cons]
    exact h.notMem_of_free hFresh
  have hNe : a ≠ b := by
    rintro rfl
    exact hNew (by simp)
  generalize hRight : ({ vma with
    vmStart := addr, vmPrev := some a, vmName := vma.vmName
    vmOffset := if vma.vmType = .file then vma.vmOffset + (addr - vma.vmStart) else vma.vmOffset } : VmaT) = right
  have hRightArea : right.area = ⟨addr.toNat, vma.area.hi, shift (addr.toNat - vma.area.lo) vma.area.value⟩ := by
    rw [← hRight]
    change _ = (⟨addr.toNat, vma.vmEnd.toNat, shift (addr.toNat - vma.vmStart.toNat) vma.area.value⟩ : Interval _)
    rw [hOffset]
    rfl
  have hShort := h.store { vma with vmEnd := addr } hNode rfl rfl mgr.vmUsed
  obtain ⟨mgr', hLink, hLinked, hUsed⟩ := (Chained.step.mpr hShort).link hNew right
  rw [hRightArea] at hLinked
  refine ⟨mgr', ?_, ?_, hUsed⟩
  · rw [vmaSplit, hNode]
    simp only [Option.bind_eq_bind, Option.bind_some]
    rw [if_neg (by simp only [not_or, ge_iff_le, BitVec.not_le]; exact hInside), hSupply]
    simp only [hName, Option.bind_some, hRight]
    rw [List.getLast?_concat] at hLink
    subst hRight
    rw [hNext, show linkPrev _ rest.head? (some b) = some mgr' from
      (linkBetween_store hNe { vma with vmEnd := addr } _ _).symm.trans hLink]
    rfl
  · exact Chained.step.mp hLinked

end OpenXJ380.Vma
