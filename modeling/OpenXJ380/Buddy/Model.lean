import Mathlib.Algebra.Group.Nat.Defs
import Mathlib.Data.Nat.Log
import OpenXJ380.Lib.LinkedList

/-! # The buddy allocator (`kernel/memory/buddy.cpp`)

Addresses are physical and `size_t` arithmetic wraps at `2 ^ 64`. The free lists
of a zone run through the first word of their blocks, and 0 ends a list.
-/

namespace OpenXJ380.Buddy

open LinkedList

def pageSize : Nat := 4096
def minOrder : Nat := 12
def maxOrder : Nat := 31

def u64 (n : Nat) : Nat := n % 2 ^ 64

abbrev Memory := Nat → Nat

structure ZoneT where
  freeArea : Nat → Nat
  zoneStartPfn : Nat
  zoneEndPfn : Nat
  managedPages : Nat
  freePages : Nat

def orderValid (order : Nat) : Bool := minOrder ≤ order ∧ order ≤ maxOrder

def log2FloorU64 (x : Nat) : Nat := if x = 0 then 0 else Nat.log2 x

def nextPowerOf2 (x : Nat) : Nat :=
  if x ≤ 1 then 1 else if x &&& (x - 1) = 0 then x else 2 ^ ((log2FloorU64 x + 1) % 64)

def orderToBlockSize (order : Nat) : Nat := 2 ^ order

def orderToPages (order : Nat) : Nat := 2 ^ (order - minOrder)

def countToBlockPages (count : Nat) : Nat := nextPowerOf2 count

def countToOrder (count : Nat) : Nat := log2FloorU64 (countToBlockPages count) + minOrder

def orderToIndex (order : Nat) : Nat := order - minOrder

def blockListSetNext (m : Memory) (base next : Nat) : Memory := Function.update m base next

def pointer (base : Nat) : Option Nat := if base = 0 then none else some base

def blockListNext (m : Memory) (base : Nat) : Option Nat := pointer (m base)

def zoneContainsBlock (zone : ZoneT) (base order : Nat) : Bool :=
  let zoneStart := u64 (zone.zoneStartPfn * pageSize)
  let zoneEnd := u64 (zone.zoneEndPfn * pageSize)
  orderValid order ∧ ¬ base < zoneStart ∧ ¬ zoneEnd < base ∧ ¬ zoneEnd - base < orderToBlockSize order

def pushBlock (m : Memory) (zone : ZoneT) (order base : Nat) : Memory × ZoneT :=
  let index := orderToIndex order
  (blockListSetNext m base (zone.freeArea index),
    { zone with freeArea := Function.update zone.freeArea index base })

def popBlock (m : Memory) (zone : ZoneT) (order : Nat) : Memory × ZoneT × Nat :=
  let index := orderToIndex order
  let head := zone.freeArea index
  if head = 0 then (m, zone, 0)
  else
    (blockListSetNext m head 0, { zone with freeArea := Function.update zone.freeArea index (m head) }, head)

def walkFuel : Nat := 2 ^ 64

/-- Whether the block was there; `none` where the list does not end. -/
def removeBlock (m : Memory) (zone : ZoneT) (order base : Nat) : Option (Memory × ZoneT × Bool) := do
  let index := orderToIndex order
  match ← search (blockListNext m) (fun prev curr => if curr = base then .inr prev else .inl curr) walkFuel
      (pointer (zone.freeArea index)) 0 with
  | .inl _ => some (m, zone, false)
  | .inr prev =>
    let next := m base
    if prev = 0 then
      some (blockListSetNext m base 0, { zone with freeArea := Function.update zone.freeArea index next }, true)
    else some (blockListSetNext (blockListSetNext m prev next) base 0, zone, true)

/-- The loop over the orders from `order` on, `n` of them. -/
def popFrom (m : Memory) (zone : ZoneT) : Nat → Nat → Memory × ZoneT × Nat × Nat
  | 0, order => (m, zone, 0, order)
  | n + 1, order =>
    let (m, zone, addr) := popBlock m zone order
    if addr ≠ 0 then (m, zone, addr, order) else popFrom m zone n (order + 1)

/-- Halving the block at `addr` down to `order`, `n` times. -/
def splitDown (addr order : Nat) : Nat → Memory → ZoneT → Memory × ZoneT
  | 0, m, zone => (m, zone)
  | n + 1, m, zone =>
    let (m, zone) := pushBlock m zone (order + n) (u64 (addr + orderToBlockSize (order + n)))
    splitDown addr order n m zone

def buddyAllocZone (m : Memory) (zone : ZoneT) (count : Nat) : Memory × ZoneT × Nat :=
  if count = 0 then (m, zone, 0)
  else
    let order := countToOrder count
    if !orderValid order then (m, zone, 0)
    else
      let (m, zone, addr, currentOrder) := popFrom m zone (maxOrder - order) order
      if addr = 0 then (m, zone, 0)
      else
        let (m, zone) := splitDown addr order (currentOrder - order) m zone
        (m, { zone with freePages := u64 (zone.freePages + 2 ^ 64 - orderToPages order) }, addr)

/-- Merging the block with its buddies, at most `n` times. -/
def mergeUp : Nat → Memory → ZoneT → Nat → Nat → Option (Memory × ZoneT × Nat × Nat)
  | 0, m, zone, order, base => some (m, zone, order, base)
  | n + 1, m, zone, order, base =>
    let buddy := base ^^^ orderToBlockSize order
    if !zoneContainsBlock zone buddy order then some (m, zone, order, base)
    else do
      let (m, zone, removed) ← removeBlock m zone order buddy
      if !removed then some (m, zone, order, base) else mergeUp n m zone (order + 1) (min base buddy)

def buddyFreeZone (m : Memory) (zone : ZoneT) (base order : Nat) : Option (Memory × ZoneT) :=
  if base = 0 ∨ !orderValid order then some (m, zone)
  else if base &&& (orderToBlockSize order - 1) ≠ 0 then some (m, zone)
  else if !zoneContainsBlock zone base order then some (m, zone)
  else do
    let released := orderToPages order
    let (m, zone, order, base) ← mergeUp (maxOrder - 1 - order) m zone order base
    let (m, zone) := pushBlock m zone order base
    some (m, { zone with freePages := u64 (zone.freePages + released) })

def initZone (startPfn endPfn : Nat) : ZoneT :=
  { freeArea := fun _ => 0, zoneStartPfn := startPfn, zoneEndPfn := endPfn, managedPages := 0, freePages := 0 }

def paddingDown (size unit : Nat) : Nat := size / unit * unit

def paddingUp (size unit : Nat) : Nat := paddingDown (u64 (size + unit - 1)) unit

/-- The largest order at most `order` whose block starts at `start` and ends by `stop`. -/
def regionOrder (start stop : Nat) : Nat → Nat
  | 0 => 0
  | order + 1 =>
    if order + 1 > minOrder ∧
        ¬ (start &&& (orderToBlockSize (order + 1) - 1) = 0 ∧ u64 (start + orderToBlockSize (order + 1)) ≤ stop) then
      regionOrder start stop order
    else order + 1

def regionFuel : Nat := 2 ^ 64

def addBlocks (stop : Nat) : Nat → Memory → ZoneT → Nat → Option (Memory × ZoneT)
  | 0, _, _, _ => none
  | fuel + 1, m, zone, start =>
    if start < stop then do
      let order := regionOrder start stop (maxOrder - 1)
      let (m, zone) ← buddyFreeZone m zone start order
      let zone := { zone with managedPages := u64 (zone.managedPages + orderToPages order) }
      addBlocks stop fuel m zone (u64 (start + orderToBlockSize order))
    else some (m, zone)

/-- The part of a region that lies in a zone, or `none` where nothing is left. -/
def clipRegion (zone : ZoneT) (start stop : Nat) : Option (Nat × Nat) :=
  let start := paddingUp start pageSize
  let stop := paddingDown stop pageSize
  if start ≥ stop then none
  else
    let start := max start (u64 (zone.zoneStartPfn * pageSize))
    let stop := min stop (u64 (zone.zoneEndPfn * pageSize))
    if start ≥ stop then none else some (start, stop)

def addMemoryRegion (m : Memory) (zone : ZoneT) (start stop : Nat) : Option (Memory × ZoneT) :=
  match clipRegion zone start stop with
  | none => some (m, zone)
  | some (start, stop) => addBlocks stop regionFuel m zone start

end OpenXJ380.Buddy
