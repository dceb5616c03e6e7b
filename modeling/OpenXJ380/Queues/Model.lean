import Mathlib.Data.BitVec

/-! # Queues with indices (`kernel/lock_queue.cpp`)

The nodes of a queue are linked in both directions, and each has an index. The calls run one after the
other, since each of them holds the lock. Reading through a pointer to nothing has no result. A
loop over the nodes takes one round more than the queue counts nodes.
-/

namespace OpenXJ380.Queues

abbrev Addr := Nat

/-- A `void *`, where 0 is `NULL`. -/
abbrev Data := Nat

abbrev Index := BitVec 64

structure LockNode where
  data : Data
  next : Option Addr
  prev : Option Addr
  index : Index

abbrev Nodes := Addr → Option LockNode

structure LockQueue where
  head : Option Addr
  tail : Option Addr
  rrCursor : Option Addr
  size : BitVec 64
  nextIndex : Index

structure State where
  nodes : Nodes
  q : LockQueue

/-- What `malloc` answers, which depends on the memory. -/
abbrev Malloc := Nodes → Option Addr

/-- `(size_t)-1`. -/
def noIndex : Index := BitVec.allOnes 64

def State.rounds (s : State) : Nat := s.q.size.toNat + 1

def State.store (s : State) (a : Addr) (node : LockNode) : State :=
  { s with nodes := Function.update s.nodes a (some node) }

def State.free (s : State) (a : Addr) : State := { s with nodes := Function.update s.nodes a none }

def State.setNext (s : State) (a : Addr) (next : Option Addr) : Option State :=
  (s.nodes a).map fun node => s.store a { node with next }

def State.setPrev (s : State) (a : Addr) (prev : Option Addr) : Option State :=
  (s.nodes a).map fun node => s.store a { node with prev }

def State.setHead (s : State) (head : Option Addr) : State := { s with q := { s.q with head } }

def State.setTail (s : State) (tail : Option Addr) : State := { s with q := { s.q with tail } }

def State.setCursor (s : State) (rrCursor : Option Addr) : State := { s with q := { s.q with rrCursor } }

def State.counted (s : State) : State :=
  let s := if s.q.rrCursor = none then s.setCursor s.q.head else s
  { s with q := { s.q with size := s.q.size + 1 } }

def queueAppendNode (s : State) (new : Addr) : Option State := do
  let s ← s.setNext new none
  let s ←
    match s.q.head with
    | none => do
      let s ← s.setPrev new none
      some ((s.setHead (some new)).setTail (some new))
    | some _ => do
      let s ← s.setPrev new s.q.tail
      let tail ← s.q.tail
      let s ← s.setNext tail (some new)
      some (s.setTail (some new))
  some s.counted

/-- `next` comes behind `prev`, or first. -/
def State.linkNext (s : State) (prev next : Option Addr) : Option State :=
  match prev with
  | some p => s.setNext p next
  | none => some (s.setHead next)

/-- `prev` comes in front of `next`, or last. -/
def State.linkPrev (s : State) (next prev : Option Addr) : Option State :=
  match next with
  | some n => s.setPrev n prev
  | none => some (s.setTail prev)

def State.leave (s : State) (a : Addr) (next nextCursor : Option Addr) : State :=
  let s := if s.q.rrCursor = some a then s.setCursor (next.or s.q.head) else s
  if s.q.head = none then (s.setTail none).setCursor none
  else if s.q.rrCursor = none then s.setCursor (nextCursor.or s.q.head)
  else s

def State.drop (s : State) (a : Addr) : State :=
  { s.free a with q := { s.q with size := s.q.size - 1 } }

def queueRemoveLocked (s : State) (a : Addr) : Option (State × Data) := do
  let node ← s.nodes a
  let nextCursor := node.next.or s.q.head
  let s ← s.linkNext node.prev node.next
  let s ← s.linkPrev node.next node.prev
  some ((s.leave a node.next nextCursor).drop a, node.data)

def findNode (nodes : Nodes) (kind : LockNode → Bool) : Nat → Option Addr → Option (Option Addr)
  | 0, _ => none
  | _ + 1, none => some none
  | rounds + 1, some a => do
    let node ← nodes a
    if kind node then some (some a) else findNode nodes kind rounds node.next

def State.find (s : State) (kind : LockNode → Bool) : Option (Option Addr) := findNode s.nodes kind s.rounds s.q.head

def lockNode (data : Data) (index : Index) : LockNode := { data, next := none, prev := none, index }

def enqueueNext (malloc : Malloc) (data : Data) (s : State) : Option (State × Index × Option Addr) :=
  match malloc s.nodes with
  | none => some (s, noIndex, none)
  | some new =>
    if s.q.nextIndex = noIndex then some (s, noIndex, none)
    else do
      let index := s.q.nextIndex
      let s := s.store new (lockNode data index)
      let s ← queueAppendNode { s with q := { s.q with nextIndex := index + 1 } } new
      some (s, index, some new)

def queueEnqueue (malloc : Malloc) (data : Data) (s : State) : Option (State × Index) := do
  let (s, index, _) ← enqueueNext malloc data s
  some (s, index)

def queueEnqueueRef (malloc : Malloc) (data : Data) (s : State) : Option (State × Index × Option Addr) :=
  enqueueNext malloc data s

def enqueueAt (new : Addr) (data : Data) (id : Index) (s : State) : Option (State × Index) := do
  let s ← queueAppendNode (s.store new (lockNode data id)) new
  let s := if s.q.nextIndex ≤ id ∧ id ≠ noIndex then { s with q := { s.q with nextIndex := id + 1 } } else s
  some (s, id)

def lowestUnused (s : State) : Nat → Index → Option Index
  | 0, _ => none
  | rounds + 1, id => do
    match ← s.find fun node => node.index = id with
    | some _ => lowestUnused s rounds (id + 1)
    | none => some id

def queueEnqueueLowest (malloc : Malloc) (data : Data) (s : State) : Option (State × Index) :=
  match malloc s.nodes with
  | none => some (s, noIndex)
  | some new => do
    let id ← lowestUnused s s.rounds 0
    if id = noIndex then some (s, noIndex) else enqueueAt new data id s

def queueEnqueueId (malloc : Malloc) (data : Data) (id : Index) (s : State) : Option (State × Index) :=
  if id = noIndex then some (s, noIndex)
  else
    match malloc s.nodes with
    | none => some (s, noIndex)
    | some new => do
      match ← s.find fun node => node.index = id with
      | some _ => some (s, noIndex)
      | none => enqueueAt new data id s

def queueGet (index : Index) (s : State) : Option Data := do
  match ← s.find fun node => node.index = index with
  | some a => (s.nodes a).map LockNode.data
  | none => some 0

def removeFound (found : Option Addr) (s : State) : Option (State × Data) :=
  match found with
  | some a => queueRemoveLocked s a
  | none => some (s, 0)

def queueRemoveAt (index : Index) (s : State) : Option (State × Data) := do
  let found ← s.find fun node => node.index = index
  removeFound found s

def queueRemoveData (data : Data) (s : State) : Option (State × Data) :=
  if data = 0 then some (s, 0)
  else do
    let found ← s.find fun node => node.data = data
    removeFound found s

def queueRemoveNode (node : Addr) (s : State) : Option (State × Data) := queueRemoveLocked s node

def queueDequeue (s : State) : Option (State × Data) :=
  match s.q.head with
  | none => some (s, 0)
  | some temp => do
    let node ← s.nodes temp
    let s := s.setHead node.next
    let s ←
      match node.next with
      | some n => s.setPrev n none
      | none => some (s.setTail none)
    let s := if s.q.rrCursor = some temp then s.setCursor s.q.head else s
    some (s.drop temp, node.data)

def queueInit : LockQueue where
  head := none
  tail := none
  rrCursor := none
  size := 0
  nextIndex := 0

def appendCopy (s : State) (new : Addr) (data : Data) (index : Index) : Option State := do
  let s := s.store new { data, next := none, prev := s.q.tail, index }
  match s.q.head with
  | none => do
    let s ← s.setPrev new none
    some ((s.setHead (some new)).setTail (some new))
  | some _ => do
    let tail ← s.q.tail
    let s ← s.setNext tail (some new)
    some (s.setTail (some new))

/-- The loop over the nodes that are copied to the queue of the state. It says whether the memory sufficed. -/
def copyLoop (malloc : Malloc) (dataCopy : Option (Data → Data)) : Nat → Option Addr → State → Option (State × Bool)
  | 0, _, _ => none
  | _ + 1, none, s => some (s, true)
  | rounds + 1, some current, s =>
    match malloc s.nodes with
    | none => some (s, false)
    | some new => do
      let node ← s.nodes current
      let s ← appendCopy s new ((dataCopy.getD id) node.data) node.index
      let node ← s.nodes current
      copyLoop malloc dataCopy rounds node.next s

/-- The loop of `queue_destroy`. -/
def destroyLoop : Nat → Option Addr → Nodes → Option Nodes
  | 0, _, _ => none
  | _ + 1, none, nodes => some nodes
  | rounds + 1, some current, nodes => do
    let node ← nodes current
    destroyLoop rounds node.next (Function.update nodes current none)

def queueCopy (malloc : Malloc) (dataCopy : Option (Data → Data)) (src : State) :
    Option (Nodes × Option LockQueue) := do
  let (s, complete) ← copyLoop malloc dataCopy src.rounds src.q.head { src with q := queueInit }
  if complete then some (s.nodes, some { s.q with size := src.q.size, nextIndex := src.q.nextIndex })
  else
    let nodes ← destroyLoop src.rounds s.q.head s.nodes
    some (nodes, none)

/-- `queue_foreach`. -/
def foreachNode (nodes : Nodes) : Nat → Option Addr → Option (List (Index × Data))
  | 0, _ => none
  | _ + 1, none => some []
  | rounds + 1, some a => do
    let node ← nodes a
    let rest ← foreachNode nodes rounds node.next
    some ((node.index, node.data) :: rest)

def State.items (s : State) : Option (List (Index × Data)) := foreachNode s.nodes s.rounds s.q.head

end OpenXJ380.Queues
