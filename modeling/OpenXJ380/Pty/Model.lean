import OpenXJ380.Lib.LinearBuffer
import OpenXJ380.Lib.Transition
import OpenXJ380.Device.Model

/-! # Pseudo-terminals (`driver/fs/vfs/pty.cpp`)

Each read and write first looks, under the lock, whether it can go on, and then copies
under the lock again. What runs between a lock and its unlock is one step.
-/

namespace OpenXJ380.Pty

open Errno LinearBuffer Transition

abbrev Byte := UInt8

def ptyBuffSize : Nat := 4096

def CR : Byte := 13
def LF : Byte := 10

def ICRNL : BitVec 32 := 0x100
def OPOST : BitVec 32 := 0x1
def ONLCR : BitVec 32 := 0x4
def ICANON : BitVec 32 := 0x2

def VEOF : Nat := 4
def VEOL : Nat := 11
def VEOL2 : Nat := 16

structure Termios where
  cIflag : BitVec 32
  cOflag : BitVec 32
  cLflag : BitVec 32
  cCc : Nat → Byte

structure PtyHandle where
  term : Termios
  masterFds : Nat
  slaveFds : Nat
  ptrMaster : Nat
  ptrSlave : Nat
  masterBuffer : Nat → Byte
  slaveBuffer : Nat → Byte

def ptmxDataAvailable (pair : PtyHandle) : Nat := pair.ptrMaster

def endsLine (term : Termios) (ch : Byte) : Bool :=
  ch = LF || ch = term.cCc VEOF || ch = term.cCc VEOL || ch = term.cCc VEOL2

def ptsDataAvailable (pair : PtyHandle) : Nat :=
  if pair.term.cLflag &&& ICANON = 0 then pair.ptrSlave
  else
    match (List.range pair.ptrSlave).find? fun i => endsLine pair.term (pair.slaveBuffer i) with
    | none => 0
    | some i => i + 1

def ptmxReadCopy (pair : PtyHandle) (size : Nat) : List Byte × PtyHandle :=
  let toCopy := min size (ptmxDataAvailable pair)
  (contents pair.masterBuffer toCopy,
    { pair with
      masterBuffer := move pair.masterBuffer 0 toCopy (pair.ptrMaster - toCopy)
      ptrMaster := pair.ptrMaster - toCopy })

def ptsReadCopy (pair : PtyHandle) (size : Nat) : List Byte × PtyHandle :=
  let toCopy := min size (ptsDataAvailable pair)
  (contents pair.slaveBuffer toCopy,
    { pair with
      slaveBuffer := move pair.slaveBuffer 0 toCopy (pair.ptrSlave - toCopy)
      ptrSlave := pair.ptrSlave - toCopy })

/-- `ICRNL` on what has been copied. -/
def crToLf (term : Termios) (ch : Byte) : Byte := if term.cIflag &&& ICRNL ≠ 0 ∧ ch = CR then LF else ch

def ptmxWriteCopy (pair : PtyHandle) (data : List Byte) : PtyHandle × Nat :=
  let writable := min data.length (ptyBuffSize - pair.ptrSlave)
  let copied := put pair.slaveBuffer pair.ptrSlave (data.take writable)
  ({ pair with
      slaveBuffer := fun i =>
        if pair.ptrSlave ≤ i ∧ i < pair.ptrSlave + writable then crToLf pair.term (copied i) else copied i
      ptrSlave := pair.ptrSlave + writable },
    writable)

def translates (term : Termios) : Bool := term.cOflag &&& OPOST ≠ 0 && term.cOflag &&& ONLCR ≠ 0

def PtyHandle.store (pair : PtyHandle) (chs : List Byte) : PtyHandle :=
  { pair with
    masterBuffer := put pair.masterBuffer pair.ptrMaster chs
    ptrMaster := pair.ptrMaster + chs.length }

def ptsWriteInner (translate : Bool) : PtyHandle → List Byte → PtyHandle × Nat
  | pair, [] => (pair, 0)
  | pair, ch :: rest =>
    if translate ∧ ch = LF then
      if pair.ptrMaster + 2 > ptyBuffSize then (pair, 0)
      else
        let r := ptsWriteInner translate ((pair.store [CR]).store [LF]) rest
        (r.1, r.2 + 1)
    else if pair.ptrMaster + 1 > ptyBuffSize then (pair, 0)
    else
      let r := ptsWriteInner translate (pair.store [ch]) rest
      (r.1, r.2 + 1)

def ptsWriteCopy (pair : PtyHandle) (data : List Byte) : PtyHandle × Nat :=
  ptsWriteInner (translates pair.term) pair data

/-- What `pts_write` waits for; it looks at the settings without the lock. -/
def minSpace (term : Termios) : Nat := if translates term then 2 else 1

inductive Side where
  | master
  | slave
deriving DecidableEq

def Side.other : Side → Side
  | .master => .slave
  | .slave => .master

def available (pair : PtyHandle) : Side → Nat
  | .master => ptmxDataAvailable pair
  | .slave => ptsDataAvailable pair

def fds (pair : PtyHandle) : Side → Nat
  | .master => pair.masterFds
  | .slave => pair.slaveFds

def setFds (pair : PtyHandle) (n : Nat) : Side → PtyHandle
  | .master => { pair with masterFds := n }
  | .slave => { pair with slaveFds := n }

def readCopy (pair : PtyHandle) (size : Nat) : Side → List Byte × PtyHandle
  | .master => ptmxReadCopy pair size
  | .slave => ptsReadCopy pair size

def writeCopy (pair : PtyHandle) (data : List Byte) : Side → PtyHandle × Nat
  | .master => ptmxWriteCopy pair data
  | .slave => ptsWriteCopy pair data

def hasRoom (pair : PtyHandle) (space : Nat) : Side → Bool
  | .master => pair.ptrSlave < ptyBuffSize
  | .slave => ptyBuffSize - pair.ptrMaster ≥ space

/-- `pts_write` fails when there is no master. -/
def writeFails (pair : PtyHandle) : Side → Bool
  | .master => false
  | .slave => pair.masterFds = 0

abbrev ThreadId := Nat

inductive Pc where
  | idle
  | reading (side : Side) (size : Nat)
  | copyingOut (side : Side) (size : Nat)
  | writing (side : Side) (data : List Byte) (space : Nat)
  | copyingIn (side : Side) (data : List Byte)

/-- A byte that a write has accepted, and the settings it was accepted with. -/
structure Accepted where
  byte : Byte
  term : Termios

/-- The pair until it is destroyed, and the threads; then what each side has accepted and each side has read; for each
read how much was wanted, how much it returned and the open descriptors of the other side; for each write its length,
what it returned and how much was accepted. -/
structure World where
  pair : PtyHandle
  destroyed : Bool
  pc : ThreadId → Pc
  accepted : Side → List Accepted
  returned : Side → List Byte
  reads : List (Nat × Nat × Nat)
  writes : List (Nat × Int × Nat)

def World.enter (w : World) (t : ThreadId) (pc : Pc) : World := { w with pc := Function.update w.pc t pc }

def World.hungUp (w : World) (t : ThreadId) (side : Side) (size : Nat) : World :=
  { w.enter t .idle with reads := w.reads ++ [(size, 0, fds w.pair side.other)] }

def World.copyOut (w : World) (t : ThreadId) (side : Side) (size : Nat) : World :=
  let r := readCopy w.pair size side
  { w.enter t .idle with
    pair := r.2
    returned := Function.update w.returned side (w.returned side ++ r.1)
    reads := w.reads ++ [(size, r.1.length, fds w.pair side.other)] }

def World.fail (w : World) (t : ThreadId) (data : List Byte) : World :=
  { w.enter t .idle with writes := w.writes ++ [(data.length, -Eio, 0)] }

def World.copyIn (w : World) (t : ThreadId) (side : Side) (data : List Byte) : World :=
  let r := writeCopy w.pair data side
  { w.enter t .idle with
    pair := r.1
    accepted := Function.update w.accepted side
      (w.accepted side ++ (data.take r.2).map fun ch => ⟨ch, w.pair.term⟩)
    writes := w.writes ++ [(data.length, (r.2 : Int), r.2)] }

/-- `pts_close` and `ptmx_close`; the pair goes with the last descriptor. -/
def World.close (w : World) (side : Side) : World :=
  { w with
    pair := setFds w.pair (fds w.pair side - 1) side
    destroyed := fds w.pair side - 1 = 0 && fds w.pair side.other = 0 }

inductive Act where
  | callRead (t : ThreadId) (side : Side) (size : Nat)
  | readSection (t : ThreadId)
  | copyOut (t : ThreadId)
  | callWrite (t : ThreadId) (side : Side) (data : List Byte)
  | writeSection (t : ThreadId)
  | copyIn (t : ThreadId)
  | tcsets (term : Termios)
  | dup (side : Side)
  | close (side : Side)

inductive Acts : World → Act → World → Prop
  | callRead {w : World} {t : ThreadId} {side : Side} {size : Nat} (hIdle : w.pc t = .idle) :
      Acts w (.callRead t side size) (w.enter t (.reading side size))
  | finds {w : World} {t : ThreadId} {side : Side} {size : Nat} (hReading : w.pc t = .reading side size)
      (hData : 0 < available w.pair side) : Acts w (.readSection t) (w.enter t (.copyingOut side size))
  | hungUp {w : World} {t : ThreadId} {side : Side} {size : Nat} (hReading : w.pc t = .reading side size)
      (hNone : available w.pair side = 0) (hGone : fds w.pair side.other = 0) :
      Acts w (.readSection t) (w.hungUp t side size)
  | readWaits {w : World} {t : ThreadId} {side : Side} {size : Nat} (hReading : w.pc t = .reading side size)
      (hNone : available w.pair side = 0) (hOther : fds w.pair side.other ≠ 0) : Acts w (.readSection t) w
  | copyOut {w : World} {t : ThreadId} {side : Side} {size : Nat} (hCopying : w.pc t = .copyingOut side size) :
      Acts w (.copyOut t) (w.copyOut t side size)
  | writeNothing {w : World} {t : ThreadId} {side : Side} (hIdle : w.pc t = .idle) :
      Acts w (.callWrite t side []) { w with writes := w.writes ++ [(0, 0, 0)] }
  | callWrite {w : World} {t : ThreadId} {side : Side} {data : List Byte} (hIdle : w.pc t = .idle)
      (hSome : data ≠ []) : Acts w (.callWrite t side data) (w.enter t (.writing side data (minSpace w.pair.term)))
  | fails {w : World} {t : ThreadId} {side : Side} {data : List Byte} {space : Nat}
      (hWriting : w.pc t = .writing side data space) (hFails : writeFails w.pair side = true) :
      Acts w (.writeSection t) (w.fail t data)
  | goesOn {w : World} {t : ThreadId} {side : Side} {data : List Byte} {space : Nat}
      (hWriting : w.pc t = .writing side data space) (hFine : writeFails w.pair side = false)
      (hRoom : hasRoom w.pair space side = true) : Acts w (.writeSection t) (w.enter t (.copyingIn side data))
  | writeWaits {w : World} {t : ThreadId} {side : Side} {data : List Byte} {space : Nat}
      (hWriting : w.pc t = .writing side data space) (hFine : writeFails w.pair side = false)
      (hFull : hasRoom w.pair space side = false) : Acts w (.writeSection t) w
  | copyIn {w : World} {t : ThreadId} {side : Side} {data : List Byte} (hCopying : w.pc t = .copyingIn side data) :
      Acts w (.copyIn t) (w.copyIn t side data)
  | tcsets {w : World} {term : Termios} : Acts w (.tcsets term) { w with pair := { w.pair with term := term } }
  | dup {w : World} {side : Side} : Acts w (.dup side) { w with pair := setFds w.pair (fds w.pair side + 1) side }
  | close {w : World} {side : Side} (hOpen : fds w.pair side ≠ 0) : Acts w (.close side) (w.close side)

def ptySystem : System World Act := ⟨fun w a w' => w.destroyed = false ∧ Acts w a w'⟩

/-- `ptmx_open` has made the pair for one master. -/
def World.init (term : Termios) : World where
  pair :=
    { term := term, masterFds := 1, slaveFds := 0, ptrMaster := 0, ptrSlave := 0, masterBuffer := fun _ => 0,
      slaveBuffer := fun _ => 0 }
  destroyed := false
  pc := fun _ => .idle
  accepted := fun _ => []
  returned := fun _ => []
  reads := []
  writes := []

def expand (a : Accepted) : List Byte := if translates a.term ∧ a.byte = LF then [CR, LF] else [a.byte]

def input (a : Accepted) : List Byte := [crToLf a.term a.byte]

def fits (pair : PtyHandle) (data : List Byte) : Side → Prop
  | .master => pair.ptrSlave < ptyBuffSize
  | .slave => ∀ ch ∈ data.head?, pair.ptrMaster + (expand ⟨ch, pair.term⟩).length ≤ ptyBuffSize

/-- What a read or a write has been let go on for is still there when it copies. -/
def StillThere (w : World) : Act → Prop
  | .copyOut t => ∀ side size, w.pc t = .copyingOut side size →
      size = 0 ∨ 0 < available w.pair side ∨ fds w.pair side.other = 0
  | .copyIn t => ∀ side data, w.pc t = .copyingIn side data → fits w.pair data side
  | _ => True

end OpenXJ380.Pty

/-! # Opening and closing pseudo-terminals (`driver/fs/vfs/pty.cpp`, `driver/fs/vfs/vfs.cpp`)

A node that has no handle is opened by its file system; one that has a handle is not. The
node `/dev/ptmx` becomes the master of a new pair, and another takes its place.
-/

namespace OpenXJ380.Pty.Lifetime

open Device Transition

abbrev PairId := Nat
abbrev NodeId := Nat

def maxPtyDevice : Nat := 256

/-- A node of `/dev/ptmx` or of `/dev/pts`; `name` is the number in `/dev/pts`, and `linked` says whether it has a
parent. -/
structure Node where
  side : Side
  name : Nat
  refcount : Nat
  handle : Option PairId
  linked : Bool
  freed : Bool

structure Pair where
  id : Nat
  masterFds : Nat
  slaveFds : Nat
  masterNode : NodeId
  slaveNode : NodeId
  freed : Nat

/-- The nodes named `ptmx` in `/dev` and those in `/dev/pts`, the list of pairs and the allocator of their ids; then how
many descriptors of each node are open. -/
structure World where
  pair : PairId → Pair
  pairs : Nat
  node : NodeId → Node
  nodes : Nat
  dev : List NodeId
  pts : List NodeId
  listed : List PairId
  ids : IdAllocator
  opened : NodeId → Nat

namespace World

def setNode (w : World) (n : NodeId) (node : Node) : World := { w with node := Function.update w.node n node }

def setPair (w : World) (p : PairId) (pair : Pair) : World := { w with pair := Function.update w.pair p pair }

def setOpened (w : World) (n : NodeId) (count : Nat) : World := { w with opened := Function.update w.opened n count }

def live (w : World) (p : PairId) : Prop := p < w.pairs ∧ (w.pair p).freed = 0

end World

def Pair.setFds (b : Pair) (count : Nat) : Side → Pair
  | .master => { b with masterFds := count }
  | .slave => { b with slaveFds := count }

def Pair.fds (b : Pair) : Side → Nat
  | .master => b.masterFds
  | .slave => b.slaveFds

/-- A node in `/dev/pts` of the name of a new slave is taken out. -/
def removeOldSlave (w : World) (id : Nat) : World :=
  match w.pts.find? fun n => (w.node n).name = id with
  | none => w
  | some n => { w.setNode n { w.node n with linked := false, handle := none } with pts := w.pts.erase n }

/-- `ptmx_open`, with the id that it has been given. -/
def ptmxOpen (w : World) (n : NodeId) (ids : IdAllocator) (id : Nat) : World :=
  let w := removeOldSlave w id
  let slave : Node := { side := .slave, name := id, refcount := 1, handle := none, linked := true, freed := false }
  let ptmx : Node := { side := .master, name := 0, refcount := 1, handle := none, linked := true, freed := false }
  let master : Node := { w.node n with refcount := 1, handle := some w.pairs, linked := false }
  { ((w.setNode w.nodes slave).setNode (w.nodes + 1) ptmx).setNode n master with
    nodes := w.nodes + 2
    pts := w.nodes :: w.pts
    dev := (w.nodes + 1) :: w.dev.erase n
    pair := Function.update w.pair w.pairs
      { id := id, masterFds := 1, slaveFds := 0, masterNode := n, slaveNode := w.nodes, freed := 0 }
    pairs := w.pairs + 1
    listed := w.listed ++ [w.pairs]
    ids := ids }

/-- `pts_open`. -/
def ptsOpen (w : World) (n : NodeId) : World :=
  match w.listed.find? fun p => (w.pair p).id = (w.node n).name with
  | none => w
  | some p =>
    (w.setPair p { w.pair p with slaveFds := (w.pair p).slaveFds + 1 }).setNode n
      { w.node n with handle := some p }

/-- `do_update` on a node of `/dev/pts`. -/
def updateSlave (w : World) (n : NodeId) : World := if (w.node n).handle = none then ptsOpen w n else w

/-- `vfs_child_find_and_ref`. -/
def reference (w : World) (n : NodeId) : World := w.setNode n { w.node n with refcount := (w.node n).refcount + 1 }

/-- `vfs_open("/dev/ptmx")`, where `none` says that there is no id left. -/
def openMaster (w : World) : Option World :=
  match w.dev.head? with
  | none => none
  | some n =>
    let w := reference w n
    if (w.node n).handle = none then
      match idAlloc w.ids with
      | (_, none) => none
      | (ids, some id) => some ((ptmxOpen w n ids id).setOpened n (w.opened n + 1))
    else some (w.setOpened n (w.opened n + 1))

/-- The node that `vfs_open` finds in `/dev/pts`. -/
def findSlave (w : World) (number : Nat) : Option NodeId := w.pts.find? fun n => (w.node n).name = number

/-- `vfs_open` on a number in `/dev/pts`. -/
def openSlave (w : World) (number : Nat) : Option World :=
  match findSlave w number with
  | none => none
  | some n => some ((updateSlave (reference w n) n).setOpened n (w.opened n + 1))

/-- `fd_dup`, with `ptmx_dup` or `pts_dup`. -/
def fdDup (w : World) (n : NodeId) : World :=
  let counted :=
    match (w.node n).handle with
    | none => w
    | some p => w.setPair p ((w.pair p).setFds ((w.pair p).fds (w.node n).side + 1) (w.node n).side)
  (reference counted n).setOpened n (w.opened n + 1)

/-- `pty_pair_destroy_locked`. -/
def pairDestroy (w : World) (p : PairId) : World :=
  let b := w.pair p
  let slave := w.node b.slaveNode
  let w :=
    if slave.linked then
      { w.setNode b.slaveNode { slave with handle := none, linked := false, freed :=
        slave.freed || slave.handle = none } with
        pts := w.pts.erase b.slaveNode }
    else w
  { w.setPair p { b with freed := b.freed + 1 } with
    listed := w.listed.erase p
    ids := (idFree w.ids b.id).1 }

/-- `ptmx_close` and `pts_close`. -/
def ptyClose (w : World) (p : PairId) (side : Side) : World :=
  let b := (w.pair p).setFds ((w.pair p).fds side - 1) side
  let w := w.setPair p b
  if b.masterFds = 0 ∧ b.slaveFds = 0 then pairDestroy w p else w

/-- The end of `vfs_close`: nobody has a reference to the node any more. -/
def dropHandle (w : World) (n : NodeId) : World :=
  if 0 < (w.node n).refcount then w
  else w.setNode n { w.node n with handle := none, freed := (w.node n).freed || !(w.node n).linked }

def vfsClose (w : World) (n : NodeId) : World :=
  let unreferenced := w.setNode n { w.node n with refcount := (w.node n).refcount - 1 }
  let closed :=
    match (w.node n).handle with
    | none => unreferenced
    | some p => ptyClose unreferenced p (w.node n).side
  (dropHandle closed n).setOpened n (w.opened n - 1)

inductive Act where
  | openMaster
  | openSlave (number : Nat)
  | dup (n : NodeId)
  | close (n : NodeId)

inductive Acts : World → Act → World → Prop
  | openMaster {w w' : World} (hOpen : openMaster w = some w') : Acts w .openMaster w'
  | openSlave {w w' : World} {number : Nat} (hOpen : openSlave w number = some w') : Acts w (.openSlave number) w'
  | notFound {w : World} {number : Nat} (hOpen : openSlave w number = none) : Acts w (.openSlave number) w
  | dup {w : World} {n : NodeId} (hOpened : 0 < w.opened n) :
      Acts w (.dup n) ((fdDup w n))
  | close {w : World} {n : NodeId} (hOpened : 0 < w.opened n) : Acts w (.close n) (vfsClose w n)

def ptySystem : System World Act := ⟨Acts⟩

/-- `pty_init` has made `/dev/ptmx` and `/dev/pts`. -/
def World.init : World where
  pair _ := { id := 0, masterFds := 0, slaveFds := 0, masterNode := 0, slaveNode := 0, freed := 0 }
  pairs := 0
  node _ := { side := .master, name := 0, refcount := 1, handle := none, linked := true, freed := false }
  nodes := 1
  dev := [0]
  pts := []
  listed := []
  ids := idAllocatorCreate maxPtyDevice
  opened _ := 0

structure Lives (w : World) : Prop where
  counts : ∀ p, w.live p → (w.pair p).masterFds = w.opened (w.pair p).masterNode ∧
    (w.pair p).slaveFds = w.opened (w.pair p).slaveNode
  destroyed : ∀ p < w.pairs, (w.pair p).freed ≤ 1 ∧
    ((w.pair p).freed = 1 ↔ w.opened (w.pair p).masterNode = 0 ∧ w.opened (w.pair p).slaveNode = 0)
  handles : ∀ n, 0 < w.opened n → ∃ p, w.live p ∧ (w.node n).handle = some p ∧
    (n = (w.pair p).masterNode ∨ n = (w.pair p).slaveNode)
  ids : ∀ p q, w.live p → w.live q → (w.pair p).id = (w.pair q).id → p = q

def OpensOnce (w : World) : Act → Prop
  | .openSlave number => ∀ n, findSlave w number = some n → (w.node n).handle = none
  | _ => True

end OpenXJ380.Pty.Lifetime
