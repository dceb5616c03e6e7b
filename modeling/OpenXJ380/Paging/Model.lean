import OpenXJ380.Frames.Model

/-! # Page tables (`kernel/memory/page.cpp`)

Four levels of tables with 512 entries each. The words of a physical page are
reached through the direct map, so that `phys_to_virt` needs no model of its
own: a page is named by its physical address.
-/

namespace OpenXJ380.Paging

abbrev U64 := BitVec 64

abbrev Memory := U64 → BitVec 9 → U64

def ptePresent : U64 := 0x1
def pteWriteable : U64 := 0x2
def pteUser : U64 := 0x4
def pteHuge : U64 := 0x80
def pteFrameAllocated : U64 := 0x4000000000000000
def pteAddrMask : U64 := 0x000ffffffffff000

def pageSize : U64 := 4096
def pageMask : U64 := ~~~(pageSize - 1)

structure PageDirectory where
  self : Nat
  table : U64

def l4Index (addr : U64) : BitVec 9 := (addr >>> 39).truncate 9
def l3Index (addr : U64) : BitVec 9 := (addr >>> 30).truncate 9
def l2Index (addr : U64) : BitVec 9 := (addr >>> 21).truncate 9
def l1Index (addr : U64) : BitVec 9 := (addr >>> 12).truncate 9

def isPresent (entry : U64) : Bool := entry &&& ptePresent ≠ 0

def archPtIsLarge (entry : U64) : Bool := entry &&& (ptePresent ||| pteHuge) = ptePresent ||| pteHuge

def pageAlignUp (length : U64) : U64 :=
  if length = 0 then 0 else (length + pageSize - 1) &&& pageMask

def lowMask (bits : Nat) : U64 := 1 <<< bits - 1

def translateAddress (memory : Memory) (pageDir : PageDirectory) (virtualAddress : U64) : U64 :=
  let pml4Entry := memory pageDir.table (l4Index virtualAddress)
  if !isPresent pml4Entry then 0
  else if archPtIsLarge pml4Entry then
    (pml4Entry &&& ~~~lowMask 30) + (virtualAddress &&& lowMask 30)
  else
    let pdptEntry := memory (pml4Entry &&& pteAddrMask) (l3Index virtualAddress)
    if !isPresent pdptEntry then 0
    else if archPtIsLarge pdptEntry then
      (pdptEntry &&& (pteAddrMask &&& ~~~lowMask 30)) + (virtualAddress &&& lowMask 30)
    else
      let pdEntry := memory (pdptEntry &&& pteAddrMask) (l2Index virtualAddress)
      if !isPresent pdEntry then 0
      else if archPtIsLarge pdEntry then
        (pdEntry &&& (pteAddrMask &&& ~~~lowMask 21)) + (virtualAddress &&& lowMask 21)
      else
        let ptEntry := memory (pdEntry &&& pteAddrMask) (l1Index virtualAddress)
        if !isPresent ptEntry then 0
        else (ptEntry &&& pteAddrMask) + (virtualAddress &&& ~~~pageMask)

/-! # Looking for free user addresses (`kernel/memory/page.cpp`)

Areas, lazy records and pages that are mapped are passed in turn, each time by
another step. Areas are inserted with at least one byte in them, and a lazy
record has at least one page and ends below the last page of all.
-/

def userMmapStart : U64 := 0x0000400000000000
def userBrkStart : U64 := 0x0000700000000000

structure Area where
  vmStart : U64
  vmEnd : U64
  nonempty : vmStart < vmEnd

structure LazyRecord where
  start : U64
  count : U64
  nonempty : count ≠ 0
  fits : start.toNat + count.toNat * 4096 + 4095 < 2 ^ 64

structure Owner where
  pagedir : Nat
  vmaManager : List Area
  virtQueue : Option (List (Option LazyRecord))

def findProcessByPagedir (pcbGroupQueue : List (Option Owner)) (directory : PageDirectory) : Option Owner :=
  (pcbGroupQueue.find? fun node => node.any fun pcb => pcb.pagedir = directory.self).join

def vmaFindIntersection (areas : List Area) (start stop : U64) : Option Area :=
  areas.find? fun vma => !(stop ≤ vma.vmStart || start ≥ vma.vmEnd)

def LazyRecord.stop (vpage : LazyRecord) : U64 := vpage.start + vpage.count * pageSize

def findLazy (records : List (Option LazyRecord)) (start stop : U64) : Option LazyRecord :=
  (records.find? fun node => node.any fun vpage => !(stop ≤ vpage.start || start ≥ vpage.stop)).join

/-- The first page from `addr` on that is mapped, among as many as `rounds`. -/
def findMapped (memory : Memory) (directory : PageDirectory) : Nat → U64 → Option U64
  | 0, _ => none
  | rounds + 1, addr =>
    if translateAddress memory directory addr ≠ 0 then some addr
    else findMapped memory directory rounds (addr + pageSize)

/-- Where the search goes on, or `none` where nothing is in the way. -/
def nextCandidate (memory : Memory) (directory : PageDirectory) (owner : Option Owner) (length candidate : U64) :
    Option U64 :=
  if (owner.bind fun pcb => vmaFindIntersection pcb.vmaManager candidate (candidate + length)).isSome then
    some (candidate + pageSize)
  else
    match (owner.bind Owner.virtQueue).bind fun records => findLazy records candidate (candidate + length) with
    | some vpage => some ((vpage.stop + pageSize - 1) &&& pageMask)
    | none =>
      (findMapped memory directory (length.toNat / 4096) candidate).map fun addr => (addr &&& pageMask) + pageSize

/-- `fuel` bounds the rounds. -/
def searchFrom (memory : Memory) (directory : PageDirectory) (owner : Option Owner) (length limit : U64) :
    Nat → U64 → Option U64
  | 0, _ => none
  | fuel + 1, candidate =>
    if candidate ≤ limit then
      match nextCandidate memory directory owner length candidate with
      | some next => searchFrom memory directory owner length limit fuel next
      | none => some candidate
    else some 0

def findFreeUserRange (memory : Memory) (pcbGroupQueue : List (Option Owner)) (fuel : Nat)
    (directory : Option PageDirectory) (start length : U64) : Option U64 :=
  match directory with
  | none => some 0
  | some directory =>
    if length = 0 then some 0
    else
      let owner := findProcessByPagedir pcbGroupQueue directory
      let alignedLength := pageAlignUp length
      if alignedLength = 0 ∨ alignedLength ≥ userBrkStart then some 0
      else
        searchFrom memory directory owner alignedLength (userBrkStart - alignedLength) fuel
          (if start < userMmapStart then userMmapStart else start &&& pageMask)

/-! # Mapping and unmapping (`kernel/memory/page.cpp`)

The page tables stand in frames of the allocator. `page_table_create` does not
look at what the allocator returns, and a table without a frame is then the page
at address 0.
-/

open Function

section

open Frames

/-- `exhausted` remembers that some frame was asked for in vain. -/
structure Machine where
  memory : Memory
  frames : FrameState
  exhausted : Bool

/-- `alloc_frames(1)`. -/
def allocFrame (m : Machine) : Machine × U64 :=
  let (frames, addr) := allocFrames m.frames 1
  ({ m with frames := frames, exhausted := m.exhausted || addr == 0 }, BitVec.ofNat 64 addr)

/-- `none` where a free list does not end. -/
def freeFrame (m : Machine) (addr : U64) : Option Machine :=
  (freeFrames m.frames addr.toNat 1).map fun frames => { m with frames := frames }

def setEntry (m : Machine) (table : U64) (index : BitVec 9) (value : U64) : Machine :=
  { m with memory := update m.memory table (update (m.memory table) index value) }

def pageTableClear (m : Machine) (table : U64) : Machine :=
  { m with memory := update m.memory table fun _ => 0 }

def pageTableCreate (m : Machine) (table : U64) (index : BitVec 9) (user : Bool) : Machine × U64 :=
  let entry := m.memory table index
  if entry = 0 then
    let (m, frame) := allocFrame m
    let entry := frame ||| ptePresent ||| pteWriteable ||| (if user then pteUser else 0)
    (pageTableClear (setEntry m table index entry) (entry &&& pteAddrMask), entry &&& pteAddrMask)
  else
    let entry := entry ||| (if user then pteUser else 0)
    (setEntry m table index entry, entry &&& pteAddrMask)

def isUser (flags : U64) : Bool := flags &&& pteUser ≠ 0

def pageMapTo (m : Machine) (directory : PageDirectory) (addr frame flags : U64) : Machine :=
  let (m, l3Table) := pageTableCreate m directory.table (l4Index addr) (isUser flags)
  let (m, l2Table) := pageTableCreate m l3Table (l3Index addr) (isUser flags)
  let (m, l1Table) := pageTableCreate m l2Table (l2Index addr) (isUser flags)
  setEntry m l1Table (l1Index addr) ((frame &&& pteAddrMask) ||| flags)

def isTable (entry : U64) : Bool := isPresent entry && entry &&& pteHuge = 0

def unmapPage (m : Machine) (directory : PageDirectory) (vaddr : U64) : Option Machine :=
  let l4Entry := m.memory directory.table (l4Index vaddr)
  if !isTable l4Entry then some m
  else
    let l3Entry := m.memory (l4Entry &&& pteAddrMask) (l3Index vaddr)
    if !isTable l3Entry then some m
    else
      let l2Entry := m.memory (l3Entry &&& pteAddrMask) (l2Index vaddr)
      if !isTable l2Entry then some m
      else
        let l1Table := l2Entry &&& pteAddrMask
        let l1Entry := m.memory l1Table (l1Index vaddr)
        if !isPresent l1Entry then some m
        else do
          let m ← if l1Entry &&& pteFrameAllocated ≠ 0 then freeFrame m (l1Entry &&& pteAddrMask) else some m
          some (setEntry m l1Table (l1Index vaddr) 0)

/-- The entry that decides about an address: the last one, or the first on the way that leads to no table. -/
def pageEntryValue (memory : Memory) (directory : PageDirectory) (addr : U64) : U64 :=
  let e4 := memory directory.table (l4Index addr)
  if !isTable e4 then e4
  else
    let e3 := memory (e4 &&& pteAddrMask) (l3Index addr)
    if !isTable e3 then e3
    else
      let e2 := memory (e3 &&& pteAddrMask) (l2Index addr)
      if !isTable e2 then e2 else memory (e2 &&& pteAddrMask) (l1Index addr)

end

/-! # Copies of a directory (`kernel/memory/page.cpp`)

A copy has tables and pages of its own for the user half, and the kernel half of
the directory it is made from. Freeing a directory goes over the same entries.
-/

section

open Frames

def entries (n : Nat) : List (BitVec 9) := (List.range n).map (BitVec.ofNat 9)

def userEntries (level : Nat) : Nat := if level = 4 then 256 else 512

def copyLastEntry (source new : U64) (m : Machine) (i : BitVec 9) : Machine :=
  let sourceEntry := m.memory source i
  if !isPresent sourceEntry then setEntry m new i 0
  else if sourceEntry &&& pteHuge ≠ 0 then setEntry m new i sourceEntry
  else
    let (m, newPhys) := allocFrame m
    if newPhys = 0 then m
    else
      let m := { m with memory := update m.memory newPhys (m.memory (sourceEntry &&& pteAddrMask)) }
      setEntry m new i (sourceEntry &&& ~~~pteAddrMask ||| newPhys ||| pteFrameAllocated)

def copyLastTable (kernelSpace : Bool) (m : Machine) (source : U64) : Machine × U64 :=
  if kernelSpace then (m, source)
  else
    let (m, frame) := allocFrame m
    ((entries 512).foldl (copyLastEntry source frame) (pageTableClear m frame), frame)

/-- An entry of a higher level, whose table is copied by `copy`. -/
def copyTableEntry (copy : BitVec 9 → Machine → U64 → Machine × U64) (source new : U64) (m : Machine) (i : BitVec 9) :
    Machine :=
  if !isPresent (m.memory source i) then setEntry m new i 0
  else if m.memory source i &&& pteHuge ≠ 0 then setEntry m new i (m.memory source i)
  else
    let (m, table) := copy i m (m.memory source i &&& pteAddrMask)
    setEntry m new i (table ||| m.memory source i &&& ~~~pteAddrMask)

def copyPageTableRecursive (allCopy : Bool) : Nat → Bool → Machine → U64 → Machine × U64
  | 0, kernelSpace, m, source => copyLastTable kernelSpace m source
  | 1, kernelSpace, m, source => copyLastTable kernelSpace m source
  | level + 2, kernelSpace, m, source =>
    let (m, frame) := allocFrame m
    let copy (i : BitVec 9) :=
      copyPageTableRecursive allCopy (level + 1) (if level + 2 ≠ 4 then kernelSpace else 256 ≤ i.toNat)
    let count := if allCopy then 512 else userEntries (level + 2)
    ((entries count).foldl (copyTableEntry copy source frame) (pageTableClear m frame), frame)

def copyKernelHalf (m : Machine) (new source : U64) : Machine :=
  let page := fun i : BitVec 9 => if i.toNat < 256 then m.memory new i else m.memory source i
  { m with memory := update m.memory new page }

/-- `self` is where `malloc` puts the new directory, if anywhere. -/
def clonePageDirectory (m : Machine) (self : Option Nat) (dir : PageDirectory) (allCopy : Bool) :
    Machine × Option PageDirectory :=
  match self with
  | none => (m, none)
  | some self =>
    let (m, table) := copyPageTableRecursive allCopy 4 false m dir.table
    (if allCopy then m else copyKernelHalf m table dir.table, some { self := self, table := table })

def freeLastEntry (table : U64) (m : Machine) (i : BitVec 9) : Option Machine :=
  let entry := m.memory table i
  if isPresent entry && entry &&& pteFrameAllocated ≠ 0 then
    (freeFrame m (entry &&& pteAddrMask)).map fun m => setEntry m table i 0
  else some m

def freeLastTable (m : Machine) (table : U64) : Option Machine := do
  freeFrame (← (entries 512).foldlM (freeLastEntry table) m) table

def freeTableEntry (free : Machine → U64 → Option Machine) (table : U64) (m : Machine) (i : BitVec 9) :
    Option Machine :=
  let entry := m.memory table i
  if !isPresent entry then some m
  else if entry &&& pteHuge ≠ 0 then some m
  else free m (entry &&& pteAddrMask)

def freePageTableRecursive : Nat → Machine → U64 → Option Machine
  | 0, m, table => freeLastTable m table
  | 1, m, table => freeLastTable m table
  | level + 2, m, table => do
    freeFrame (← (entries (userEntries (level + 2))).foldlM
        (freeTableEntry (freePageTableRecursive (level + 1)) table) m)
      table

def freePageDirectory (m : Machine) (dir : PageDirectory) : Option Machine := freePageTableRecursive 4 m dir.table

end

/-! # Pages at any address (`kernel/memory/page.cpp`)

One block of frames is taken for all pages of a mapping. The pages are unmapped
one by one, and each gives back its frame.
-/

open Frames

structure Mapper extends Owner where
  mmapStart : U64

def owners (pcbGroupQueue : List (Option Mapper)) : List (Option Owner) :=
  pcbGroupQueue.map fun node => node.map Mapper.toOwner

def findMapper (pcbGroupQueue : List (Option Mapper)) (directory : PageDirectory) : Option Mapper :=
  (pcbGroupQueue.find? fun node => node.any fun pcb => pcb.pagedir = directory.self).join

/-- `owner->mmap_start`, where there is an owner. -/
def setMmapStart (directory : PageDirectory) (value : U64) : List (Option Mapper) → List (Option Mapper)
  | [] => []
  | node :: pcbGroupQueue =>
    if node.any fun pcb => pcb.pagedir = directory.self then
      (node.map fun pcb => { pcb with mmapStart := value }) :: pcbGroupQueue
    else node :: setMmapStart directory value pcbGroupQueue

def offset (i : Nat) : U64 := BitVec.ofNat 64 (i * 4096)

def mapFrames (m : Machine) (directory : PageDirectory) (addr frame flags : U64) : Nat → Machine
  | 0 => m
  | n + 1 =>
    pageMapTo (mapFrames m directory addr frame flags n) directory (addr + offset n) (frame + offset n)
      (flags ||| pteFrameAllocated)

def searchStart (owner : Option Mapper) : U64 :=
  match owner with
  | some pcb => if pcb.mmapStart ≥ userMmapStart then pcb.mmapStart else userMmapStart
  | none => userMmapStart

def searchTwice (memory : Memory) (pcbGroupQueue : List (Option Mapper)) (fuel : Nat) (directory : PageDirectory)
    (length : U64) : Option U64 := do
  let start := searchStart (findMapper pcbGroupQueue directory)
  let addr ← findFreeUserRange memory (owners pcbGroupQueue) fuel (some directory) start length
  if addr = 0 ∧ start ≠ userMmapStart then
    findFreeUserRange memory (owners pcbGroupQueue) fuel (some directory) userMmapStart length
  else some addr

/-- Whoever asks for a block looks at what comes back, so that `exhausted` stays. -/
def pageAllocRandom (m : Machine) (pcbGroupQueue : List (Option Mapper)) (fuel : Nat) (directory : PageDirectory)
    (length flags : U64) : Option (Machine × List (Option Mapper) × U64) :=
  let alignedLength := pageAlignUp length
  if length = 0 ∨ alignedLength = 0 then some (m, pcbGroupQueue, 0)
  else
    let frameCount := (alignedLength / pageSize).toNat
    let (frames, frame) := allocFrames m.frames frameCount
    let m := { m with frames := frames }
    if frame = 0 then some (m, pcbGroupQueue, 0)
    else
      let frame := BitVec.ofNat 64 frame
      if isUser flags then do
        let addr ← searchTwice m.memory pcbGroupQueue fuel directory alignedLength
        if addr = 0 then
          let frames ← freeFrames m.frames frame.toNat frameCount
          some ({ m with frames := frames }, pcbGroupQueue, 0)
        else
          some (mapFrames m directory addr frame flags frameCount,
            setMmapStart directory (addr + alignedLength) pcbGroupQueue, addr)
      else some (mapFrames m directory frame frame flags frameCount, pcbGroupQueue, frame)

/-- `fuel` bounds the pages. -/
def unmapFrom (directory : PageDirectory) (stop : U64) : Nat → Machine → U64 → Option Machine
  | 0, _, _ => none
  | fuel + 1, m, va =>
    if va < stop then do unmapFrom directory stop fuel (← unmapPage m directory va) (va + pageSize)
    else some m

def unmapPageRange (m : Machine) (fuel : Nat) (directory : PageDirectory) (vaddr size : U64) : Option Machine :=
  unmapFrom directory (vaddr + size) fuel m vaddr

def mapAndUnmap (m : Machine) (pcbGroupQueue : List (Option Mapper)) (fuel : Nat) (directory : PageDirectory)
    (length flags : U64) : Option Machine := do
  let (m, _, addr) ← pageAllocRandom m pcbGroupQueue fuel directory length flags
  if addr = 0 then some m else unmapPageRange m fuel directory addr length

end OpenXJ380.Paging
