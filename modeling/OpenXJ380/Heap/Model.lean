import OpenXJ380.Lib.WordMemory
import OpenXJ380.Lib.LinkedList

/-! # The kernel heap (`arch/arm32/src/heap.c`)

On the target a block header is 24 bytes of six words and the payload follows.
A function is `none` where the source walks a list that does not end.
-/

namespace OpenXJ380.Heap

open ByteMemory LinkedList

abbrev U32 := BitVec 32

inductive HeapErr where
  | ok
  | notInit
  | badArgs
  | oom
  | badPointer
  | doubleFree
  | badMagic
  | corrupt
  deriving DecidableEq, Repr

def heapAlign : U32 := 8
def heapHeaderSize : U32 := 24
def heapMinBlock : U32 := heapHeaderSize + heapAlign
def heapMagic : U32 := 0x4B524C48
def heapStateFree : U32 := 0xF4EEF4EE
def heapStateUsed : U32 := 0x055ED055

def alignUp8 (x : U32) : U32 := (x + 7) &&& ~~~7
def alignDown8 (x : U32) : U32 := x &&& ~~~7

inductive Field where
  | magic
  | state
  | size
  | next
  | prev
  | pad
  deriving DecidableEq, Repr

def Field.offset : Field → U32
  | .magic => 0
  | .state => 4
  | .size => 8
  | .next => 12
  | .prev => 16
  | .pad => 20

def field (m : Memory) (b : U32) (f : Field) : U32 := load m (b + f.offset)

def setField (m : Memory) (b : U32) (f : Field) (w : U32) : Memory := store m (b + f.offset) w

def payloadOf (b : U32) : U32 := b + heapHeaderSize

def blockOf (payload : U32) : U32 := payload - heapHeaderSize

def initHeader (m : Memory) (b state size : U32) : Memory :=
  let m := setField m b .magic heapMagic
  let m := setField m b .state state
  let m := setField m b .size size
  let m := setField m b .next 0
  let m := setField m b .prev 0
  setField m b .pad 0

/-- `grow` says whether a callback is set; what it answers is given with each call. -/
structure HeapT where
  mem : Memory
  base : U32
  size : U32
  head : U32
  grow : Bool
  totalBytes : U32
  usedBytes : U32
  freeBytes : U32
  largestFree : U32
  allocCount : U32
  freeCount : U32
  failCount : U32
  growCount : U32
  inited : Bool

/-- `if (next != NULL) next->prev = prev;` -/
def linkBack (m : Memory) (next prev : U32) : Memory := if next ≠ 0 then setField m next .prev prev else m

def pointer (b : U32) : Option U32 := if b = 0 then none else some b

def nextBlock (m : Memory) (b : U32) : Option U32 := pointer (field m b .next)

def walkFuel : Nat := 2 ^ 32

def heapLargestFree (h : HeapT) : Option U32 :=
  if !h.inited then some 0
  else
    walk (nextBlock h.mem)
      (fun largest b =>
        if field h.mem b .state = heapStateFree ∧ field h.mem b .size > largest then field h.mem b .size
        else largest)
      walkFuel (pointer h.head) 0

def withLargest (h : HeapT) : Option HeapT :=
  (heapLargestFree h).map fun largest => { h with largestFree := largest }

def heapInit (mem : Memory) (base size : U32) : Except HeapErr HeapT :=
  if base &&& (heapAlign - 1) ≠ 0 then .error .badArgs
  else
    let size := alignDown8 size
    if size < heapMinBlock then .error .badArgs
    else .ok
      { mem := initHeader mem base heapStateFree (size - heapHeaderSize)
        base := base, size := size, head := base, grow := false
        totalBytes := size, usedBytes := 0, freeBytes := size - heapHeaderSize
        largestFree := size - heapHeaderSize
        allocCount := 0, freeCount := 0, failCount := 0, growCount := 0, inited := true }

def heapSetGrow (h : HeapT) (grow : Bool) : HeapT := { h with grow := grow }

def lastBlock (h : HeapT) : Option U32 := walk (nextBlock h.mem) (fun _ b => b) walkFuel (nextBlock h.mem h.head) h.head

def heapAppend (h : HeapT) (tail base size : U32) : HeapT :=
  let m := initHeader h.mem base heapStateFree (size - heapHeaderSize)
  let m := setField m base .prev tail
  let m := setField m tail .next base
  { h with
    mem := m, size := h.size + size, totalBytes := h.totalBytes + size
    freeBytes := h.freeBytes + (size - heapHeaderSize), growCount := h.growCount + 1 }

def heapExtend (h : HeapT) (base size : U32) : Option (HeapT × HeapErr) :=
  let size := alignDown8 size
  if size < heapMinBlock then some (h, .badArgs)
  else if base ≠ h.base + h.size then some (h, .badArgs)
  else do
    let tail ← lastBlock h
    let h := heapAppend h tail base size
    let h :=
      if field h.mem tail .state = heapStateFree then
        let m := setField h.mem tail .size (field h.mem tail .size + (heapHeaderSize + field h.mem base .size))
        let m := setField m tail .next 0
        { h with mem := m, freeBytes := h.freeBytes + heapHeaderSize }
      else h
    let h ← withLargest h
    some (h, .ok)

/-- `grow` is what the callback answers to a need. -/
def heapTryGrow (grow : U32 → U32) (h : HeapT) (need : U32) : Option (HeapT × Bool) :=
  if !h.grow then some (h, false)
  else
    let got := grow (need + heapHeaderSize)
    if got = 0 then some (h, false)
    else do
      let (h, e) ← heapExtend h got (need + heapHeaderSize)
      some (h, e = .ok)

def heapFind (h : HeapT) (size : U32) : Option (Unit ⊕ U32) :=
  search (nextBlock h.mem)
    (fun _ b =>
      if field h.mem b .state ≠ heapStateFree ∨ field h.mem b .size < size then .inl () else .inr b)
    walkFuel (pointer h.head) ()

/-- The first `size` bytes of a free block stay with it, the rest becomes a block. -/
def heapSplit (h : HeapT) (b size leftover : U32) : HeapT :=
  let rest := b + heapHeaderSize + size
  let m := initHeader h.mem rest heapStateFree (leftover - heapHeaderSize)
  let m := setField m rest .next (field m b .next)
  let m := setField m rest .prev b
  let m := linkBack m (field m b .next) rest
  let m := setField m b .next rest
  let m := setField m b .size size
  { h with mem := m, freeBytes := h.freeBytes - heapHeaderSize }

def heapTake (h : HeapT) (b : U32) : HeapT :=
  let m := setField h.mem b .state heapStateUsed
  { h with
    mem := m, usedBytes := h.usedBytes + field m b .size, freeBytes := h.freeBytes - field m b .size
    allocCount := h.allocCount + 1 }

/-- The endless loop of scans; `grow round` is what the callback answers in that round. -/
def heapAllocLoop (grow : Nat → U32 → U32) (size : U32) : Nat → Nat → HeapT → Option (HeapT × U32)
  | 0, _, _ => none
  | fuel + 1, round, h => do
    match ← heapFind h size with
    | .inr b =>
      let leftover := field h.mem b .size - size
      let h := if leftover ≥ heapMinBlock then heapSplit h b size leftover else h
      let h ← withLargest (heapTake h b)
      some (h, payloadOf b)
    | .inl _ =>
      let (h, grown) ← heapTryGrow (grow round) h size
      if !grown then some ({ h with failCount := h.failCount + 1 }, 0)
      else heapAllocLoop grow size fuel (round + 1) h

def roundSize (size : U32) : U32 := if alignUp8 size = 0 then heapAlign else alignUp8 size

def heapAlloc (grow : Nat → U32 → U32) (h : HeapT) (size : U32) : Option (HeapT × U32) :=
  if !h.inited then some (h, 0) else heapAllocLoop grow (roundSize size) walkFuel 0 h

/-- The bytes to allocate, or `none` where the product overflows. -/
def callocTotal (count size : U32) : Option U32 :=
  if count = 0 ∨ size = 0 then some heapAlign
  else if count * size / size ≠ count then none else some (count * size)

def heapCalloc (grow : Nat → U32 → U32) (h : HeapT) (count size : U32) : Option (HeapT × U32) :=
  match callocTotal count size with
  | none => some (h, 0)
  | some total => do
    let (h, p) ← heapAlloc grow h total
    some (if p ≠ 0 then { h with mem := fill h.mem p 0 total.toNat } else h, p)

/-- The block behind `keep` becomes part of it. -/
def heapAbsorb (h : HeapT) (keep victim : U32) : HeapT :=
  let m := setField h.mem keep .size (field h.mem keep .size + (heapHeaderSize + field h.mem victim .size))
  let m := setField m keep .next (field m victim .next)
  let m := linkBack m (field m victim .next) keep
  { h with mem := m, freeBytes := h.freeBytes + heapHeaderSize }

def heapGiveBack (h : HeapT) (b : U32) : HeapT :=
  let m := setField h.mem b .state heapStateFree
  { h with
    mem := m, usedBytes := h.usedBytes - field m b .size, freeBytes := h.freeBytes + field m b .size
    freeCount := h.freeCount + 1 }

def heapJoinNext (h : HeapT) (b : U32) : HeapT :=
  let next := field h.mem b .next
  if next ≠ 0 ∧ field h.mem next .state = heapStateFree then heapAbsorb h b next else h

def heapJoinPrev (h : HeapT) (b : U32) : HeapT :=
  let prev := field h.mem b .prev
  if prev ≠ 0 ∧ field h.mem prev .state = heapStateFree then heapAbsorb h prev b else h

def heapFree (h : HeapT) (ptr : U32) : Option (HeapT × HeapErr) :=
  if !h.inited then some (h, .notInit)
  else if ptr = 0 then some (h, .badPointer)
  else if ptr < h.base + heapHeaderSize ∨ ptr ≥ h.base + h.size then some (h, .badPointer)
  else
    let b := blockOf ptr
    if field h.mem b .magic ≠ heapMagic then some (h, .badMagic)
    else if field h.mem b .state = heapStateFree then some (h, .doubleFree)
    else if field h.mem b .state ≠ heapStateUsed then some (h, .badMagic)
    else do
      let h ← withLargest (heapJoinPrev (heapJoinNext (heapGiveBack h b) b) b)
      some (h, .ok)

def heapRealloc (grow : Nat → U32 → U32) (h : HeapT) (ptr size : U32) : Option (HeapT × U32) :=
  if !h.inited then some (h, 0)
  else if ptr = 0 then heapAlloc grow h size
  else
    let b := blockOf ptr
    if field h.mem b .magic ≠ heapMagic ∨ field h.mem b .state ≠ heapStateUsed then some (h, 0)
    else
      let size := alignUp8 size
      if field h.mem b .size ≥ size then some (h, ptr)
      else do
        let (h, fresh) ← heapAlloc grow h size
        if fresh = 0 then some (h, 0)
        else
          let bytes := if field h.mem b .size > size then size else field h.mem b .size
          let (h, _) ← heapFree { h with mem := copy h.mem fresh ptr bytes.toNat } ptr
          some (h, fresh)

structure CheckState where
  prev : U32
  expect : U32
  freeSum : U32
  usedSum : U32
  largest : U32

def checkBlock (m : Memory) (s : CheckState) (b : U32) : CheckState ⊕ HeapErr :=
  let size := field m b .size
  let state := field m b .state
  let s' := { s with prev := b, expect := b + heapHeaderSize + size }
  if field m b .magic ≠ heapMagic then .inr .badMagic
  else if b ≠ s.expect then .inr .corrupt
  else if field m b .prev ≠ s.prev then .inr .corrupt
  else if size = 0 ∨ size &&& (heapAlign - 1) ≠ 0 then .inr .corrupt
  else if state = heapStateFree then
    if s.prev ≠ 0 ∧ field m s.prev .state = heapStateFree then .inr .corrupt
    else .inl { s' with freeSum := s.freeSum + size, largest := if size > s.largest then size else s.largest }
  else if state = heapStateUsed then .inl { s' with usedSum := s.usedSum + size }
  else .inr .corrupt

def heapCheck (h : HeapT) : Option HeapErr :=
  if !h.inited then some .notInit
  else do
    match ← search (nextBlock h.mem) (checkBlock h.mem) walkFuel (pointer h.head) ⟨0, h.base, 0, 0, 0⟩ with
    | .inr e => some e
    | .inl s =>
      if s.expect ≠ h.base + h.size then some .corrupt
      else if s.freeSum ≠ h.freeBytes ∨ s.usedSum ≠ h.usedBytes then some .corrupt
      else if s.largest ≠ h.largestFree then some .corrupt
      else some .ok

end OpenXJ380.Heap
