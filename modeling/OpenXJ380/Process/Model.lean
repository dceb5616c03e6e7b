import OpenXJ380.Ipc.Delivery

/-! # Tables of open files (`kernel/task/pcb.cpp`, `kernel/lock_queue.cpp`, `fd_dup`)

A table is a queue of handles under their descriptors. Processes share a table
through a counter. What is closed or destroyed is counted.
-/

namespace OpenXJ380.Process

open Function

abbrev HandleId := Nat
abbrev TableId := Nat
abbrev CounterId := Nat

/-- `fd_file_handle`. -/
structure FdFileHandle where
  node : Nat
  offset : Nat
  flags : BitVec 64
  fd : Nat

structure Descriptor where
  index : Nat
  data : HandleId

/-- The handles, the tables and the counters, and how often each was given back. -/
structure Files where
  handle : HandleId → FdFileHandle
  handles : Nat
  closed : HandleId → Nat
  table : TableId → List Descriptor
  tables : Nat
  destroyed : TableId → Nat
  counter : CounterId → Nat
  counters : Nat
  dropped : CounterId → Nat

/-- `malloc` and the fields of a handle. -/
def Files.newHandle (f : Files) (h : FdFileHandle) : Files :=
  { f with handle := update f.handle f.handles h, handles := f.handles + 1 }

/-- `vfs_close(handle->node)` and `free(handle)`. -/
def Files.closeHandle (f : Files) (h : HandleId) : Files :=
  { f with closed := update f.closed h (f.closed h + 1) }

/-- `fd_dup`, into the next handle. -/
def fdDup (f : Files) (src : HandleId) : Files := f.newHandle (f.handle src)

def Files.setTable (f : Files) (t : TableId) (queue : List Descriptor) : Files :=
  { f with table := update f.table t queue }

/-- `queue_init`. -/
def Files.newTable (f : Files) : Files :=
  { f.setTable f.tables [] with tables := f.tables + 1 }

/-- `queue_destroy`: the nodes and the table, not the handles. -/
def Files.destroyTable (f : Files) (t : TableId) : Files :=
  { f.setTable t [] with destroyed := update f.destroyed t (f.destroyed t + 1) }

def Files.enqueue (f : Files) (t : TableId) (d : Descriptor) : Files := f.setTable t (f.table t ++ [d])

/-- `queue_remove_at`: the first node of the index, and its handle. -/
def queueRemoveAt (f : Files) (t : TableId) (index : Nat) : Files × Option HandleId :=
  match (f.table t).find? (·.index = index) with
  | none => (f, none)
  | some d => (f.setTable t ((f.table t).eraseP (·.index = index)), some d.data)

/-- The loop over `queue_dequeue` of `close_process_file_table` and `free_fd_handle_queue`, then `queue_destroy`. -/
def freeFdHandleQueue (f : Files) (t : TableId) : Files :=
  (((f.table t).map Descriptor.data).foldl Files.closeHandle f).destroyTable t

def lowestIndex (queue : List Descriptor) : Nat → Nat → Nat
  | 0, id => id
  | rounds + 1, id => if queue.any (·.index = id) then lowestIndex queue rounds (id + 1) else id

/-- `queue_enqueue_lowest` of a handle that is then told its descriptor. -/
def queueEnqueueLowest (f : Files) (t : TableId) (h : HandleId) : Files :=
  let index := lowestIndex (f.table t) ((f.table t).length + 1) 0
  { f.enqueue t ⟨index, h⟩ with handle := update f.handle h { f.handle h with fd := index } }

/-- The loop of `queue_copy` over `fd_dup`, as long as there is memory for nodes; whether it got to the end. -/
def copyNodes (node : Nat → Bool) (t : TableId) : List Descriptor → Nat → Files → Files × Bool
  | [], _, f => (f, true)
  | d :: rest, k, f =>
    if node k then copyNodes node t rest (k + 1) ((fdDup f d.data).enqueue t ⟨d.index, f.handles⟩) else (f, false)

/-- `queue_copy(src, file_copy)`. -/
def queueCopy (f : Files) (src : TableId) (queue : Bool) (node : Nat → Bool) : Files × Option TableId :=
  if !queue then (f, none)
  else
    match copyNodes node f.tables (f.table src) 0 f.newTable with
    | (f', true) => (f', some f.tables)
    | (f', false) => (f'.destroyTable f.tables, none)

/-- `O_CLOEXEC`. -/
def oCloexec : BitVec 64 := 0x80000

def Files.closesOnExec (f : Files) (d : Descriptor) : Bool := (f.handle d.data).flags &&& oCloexec ≠ 0

/-- `close_exec_file_descriptors`: one descriptor after the other, until none is left to close. -/
def closeExecLoop (t : TableId) : Nat → Files → Files
  | 0, f => f
  | rounds + 1, f =>
    match (f.table t).find? f.closesOnExec with
    | none => f
    | some d =>
      match queueRemoveAt f t d.index with
      | (f', none) => closeExecLoop t rounds f'
      | (f', some h) => closeExecLoop t rounds (f'.closeHandle h)

/-- `alloc_fd_table_ref`. -/
def Files.newCounter (f : Files) : Files :=
  { f with counter := update f.counter f.counters 1, counters := f.counters + 1 }

/-- `fd_table_ref`. -/
def fdTableRef (f : Files) (refs : Option CounterId) : Files :=
  match refs with
  | none => f
  | some c => { f with counter := update f.counter c (f.counter c + 1) }

/-- `fd_table_unref`: whether the table is to be closed. The process has no counter afterwards. -/
def fdTableUnref (f : Files) (refs : Option CounterId) : Files × Bool :=
  match refs with
  | none => (f, true)
  | some c =>
    let f' := { f with counter := update f.counter c (f.counter c - 1) }
    if f.counter c ≤ 1 then ({ f' with dropped := update f.dropped c (f.dropped c + 1) }, true)
    else (f', false)

/-! # Processes and their threads (`kernel/task/pcb.cpp`, `kernel/task/reaper.cpp`)

Creating, ending and freeing a process. A control block that was freed keeps what
was in it; how often it was freed is counted, and so for the stacks of a thread.
-/

abbrev PcbId := Nat
abbrev TcbId := Nat
abbrev CpuId := Nat

inductive TaskStatus where
  | create
  | running
  | wait
  | death
  | start
  | futex
  | out
  | zombie
deriving DecidableEq

structure Pcb where
  pid : Nat
  ppid : Nat
  parentTask : Option PcbId
  status : TaskStatus
  threadQueue : List TcbId
  childPcb : List PcbId
  exitCode : BitVec 32
  ipcQueue : Ipc.LockQueue
  fileOpen : Option TableId
  fileOpenSharedRefs : Option CounterId

structure Tcb where
  parentGroup : PcbId
  status : TaskStatus
  /-- `TASK_IDLE_LEVEL`. -/
  idle : Bool
  messages : Bool

structure State where
  kernelGroup : PcbId
  pcb : PcbId → Pcb
  pcbs : Nat
  pcbFreed : PcbId → Nat
  tcb : TcbId → Tcb
  tcbs : Nat
  tcbFreed : TcbId → Nat
  stackFreed : TcbId → Nat
  nowPid : Nat
  cpus : Nat
  /-- `get_cpu(i)->current_task`. -/
  currentTask : CpuId → Option TcbId
  files : Files

namespace State

def setPcb (s : State) (p : PcbId) (b : Pcb) : State := { s with pcb := update s.pcb p b }

@[simp] theorem setPcb_self (s : State) (p : PcbId) (b : Pcb) : (s.setPcb p b).pcb p = b := update_self ..

theorem setPcb_of_ne {s : State} {p q : PcbId} (h : q ≠ p) (b : Pcb) : (s.setPcb p b).pcb q = s.pcb q :=
  update_of_ne h ..

theorem setPcb_rel {R : Pcb → Pcb → Prop} (hRefl : ∀ b, R b b) {s : State} {p : PcbId} {b : Pcb}
    (h : R b (s.pcb p)) (q : PcbId) : R ((s.setPcb p b).pcb q) (s.pcb q) := by
  obtain rfl | hne := eq_or_ne q p
  · rw [setPcb_self]
    exact h
  · rw [setPcb_of_ne hne]
    exact hRefl _

theorem setPcb_pcb {α : Type} {f : Pcb → α} {s : State} {p : PcbId} {b : Pcb} (h : f b = f (s.pcb p)) (q : PcbId) :
    f ((s.setPcb p b).pcb q) = f (s.pcb q) :=
  setPcb_rel (R := fun b b' => f b = f b') (fun _ => rfl) h q

def setTcb (s : State) (t : TcbId) (b : Tcb) : State := { s with tcb := update s.tcb t b }

/-- What becomes of the files, and of the table and the counter of the process. -/
def withFiles (s : State) (p : PcbId) (files : Files) (fileOpen : Option TableId)
    (fileOpenSharedRefs : Option CounterId) : State :=
  { s.setPcb p { s.pcb p with fileOpen, fileOpenSharedRefs } with files }

def setStatus (s : State) (p : PcbId) (status : TaskStatus) : State := s.setPcb p { s.pcb p with status }

def setThreadStatus (s : State) (t : TcbId) (status : TaskStatus) : State := s.setTcb t { s.tcb t with status }

@[simp] theorem setThreadStatus_self (s : State) (t : TcbId) (status : TaskStatus) :
    ((s.setThreadStatus t status).tcb t).status = status := by
  have h : (s.setThreadStatus t status).tcb t = { s.tcb t with status } := update_self ..
  rw [h]

theorem setThreadStatus_tcb {α : Type} {f : Tcb → α} (hf : ∀ b status, f { b with status } = f b) (s : State)
    (t : TcbId) (status : TaskStatus) (r : TcbId) : f ((s.setThreadStatus t status).tcb r) = f (s.tcb r) := by
  rw [setThreadStatus, setTcb]
  simp only [update_apply]
  split
  · next hr => rw [hf, hr]
  · rfl

def freePcb (s : State) (p : PcbId) : State :=
  { s with pcbFreed := update s.pcbFreed p (s.pcbFreed p + 1) }

/-- The test of `kill_proc` for the kernel's own group. -/
def isKernel (s : State) (p : PcbId) : Bool := (s.pcb p).pid = (s.pcb s.kernelGroup).pid

end State

def killThread (s : State) (t : TcbId) : State :=
  if (s.tcb t).idle then s else s.setThreadStatus t .death

/-- `kill_thread0` and `free(thread)`: both stacks, then the control block. -/
def killThread0 (s : State) (t : TcbId) : State :=
  let s := s.setThreadStatus t .out
  { s with
    stackFreed := update s.stackFreed t (s.stackFreed t + 1)
    tcbFreed := update s.tcbFreed t (s.tcbFreed t + 1) }

def processHasOtherLiveThread (s : State) (p : PcbId) (exiting : TcbId) : Bool :=
  (s.pcb p).threadQueue.any fun t =>
    t ≠ exiting && (s.tcb t).status ≠ .death && (s.tcb t).status ≠ .out && !(s.tcb t).messages

def closeProcessFileTable (s : State) (p : PcbId) : State :=
  match (s.pcb p).fileOpen with
  | none => s
  | some table =>
    let (files, close) := fdTableUnref s.files (s.pcb p).fileOpenSharedRefs
    let files := if close then freeFdHandleQueue files table else files
    s.withFiles p files none none

/-- `queue_remove_data` on the children of a process, which may be none. -/
def removeChild (s : State) (parent : Option PcbId) (p : PcbId) : State :=
  match parent with
  | none => s
  | some q => s.setPcb q { s.pcb q with childPcb := (s.pcb q).childPcb.erase p }

def addChild (s : State) (q p : PcbId) : State := s.setPcb q { s.pcb q with childPcb := (s.pcb q).childPcb ++ [p] }

def killThreads (s : State) (p : PcbId) : State := (s.pcb p).threadQueue.foldl killThread s

/-- What `kill_proc0` does to the threads before it takes them off the queue. -/
def markThreads (s : State) (p : PcbId) : State :=
  (s.pcb p).threadQueue.foldl (fun s t => s.setThreadStatus t .death) s

/-- The loop of `kill_proc0` over `queue_dequeue(pcb->thread_queue)`. -/
def freeThreads (s : State) (p : PcbId) : State :=
  let s' := (s.pcb p).threadQueue.foldl killThread0 s
  s'.setPcb p { s'.pcb p with threadQueue := [] }

def killProc0 (s : State) (p : PcbId) : State :=
  (freeThreads (closeProcessFileTable (markThreads s p) p) p).freePcb p

/-- `kill_proc(pcb, exit_code, false)`. -/
def killProc (s : State) (p : PcbId) (exitCode : BitVec 32) : State :=
  if s.isKernel p then s
  else
    let s := s.setPcb p { s.pcb p with exitCode }
    killProc0 ((removeChild s (s.pcb p).parentTask p).setStatus p .death) p

/-- `kill_proc(pcb, exit_code, true)` up to where the process can be seen to be a zombie. -/
def killProcZombie (s : State) (p : PcbId) (exitCode : BitVec 32) : State :=
  (closeProcessFileTable (s.setPcb p { s.pcb p with exitCode }) p).setStatus p .zombie

/-- `kill_proc_deferred`, for a process of another parent than the kernel's group: the queues. -/
def moveToReaper (s : State) (p : PcbId) : State :=
  let s' := removeChild (addChild s s.kernelGroup p) (s.pcb p).parentTask p
  s'.setPcb p { s'.pcb p with parentTask := some s.kernelGroup, ppid := (s.pcb s.kernelGroup).pid }

/-- `listed` says whether the kernel's queue of children has memory for a node. -/
def killProcDeferred (s : State) (p : PcbId) (exitCode : BitVec 32) (listed : Bool) : State × Bool :=
  if s.isKernel p then (s, false)
  else if (s.pcb p).parentTask ≠ some s.kernelGroup ∧ listed = false then (s, false)
  else
    let s := if (s.pcb p).parentTask ≠ some s.kernelGroup then moveToReaper s p else s
    let s := closeProcessFileTable (s.setPcb p { s.pcb p with exitCode }) p
    (killThreads (s.setStatus p .death) p, true)

/-- `IPC_MSG_TYPE_EPID`. -/
def epid : BitVec 8 := 5

/-- The value as an `int`. -/
def asInt (n : Int) : Int := n.bmod (2 ^ 32)

/-- The message of `kill_proc`; the bytes behind the exit code are not written. -/
def exitMessage (pid : Nat) (exitCode : BitVec 32) : Ipc.IpcMessage where
  pid := asInt pid
  type := epid
  data := Vector.ofFn fun i => if i.val < 4 then exitCode.extractLsb' (8 * i.val) 8 else 0
  index := 0

def exitCodeOf (m : Ipc.IpcMessage) : BitVec 32 :=
  (m.data.get 0).setWidth 32 ||| (m.data.get 1).setWidth 32 <<< 8 ||| (m.data.get 2).setWidth 32 <<< 16
    ||| (m.data.get 3).setWidth 32 <<< 24

/-- `ipc_send(pcb->parent_task, msg)`, where `node` says whether the queue has memory. -/
def sendExit (s : State) (p : PcbId) (exitCode : BitVec 32) (node : Bool) : State :=
  match (s.pcb p).parentTask with
  | none => s
  | some q => s.setPcb q { s.pcb q with
      ipcQueue := Ipc.ipcSend (s.pcb q).ipcQueue (exitMessage (s.pcb p).pid exitCode) node }

/-- What `process_fork` has memory for. -/
structure ForkMemory where
  block : Bool
  space : Bool
  queue : Bool
  node : Nat → Bool
  counter : Bool
  rest : Bool
  listed : Bool
  thread : Bool

/-- `free_partial_process`, where `listed` is `pcb->child_index != (size_t)-1`. -/
def freePartialProcess (s : State) (p : PcbId) (listed : Bool) : State :=
  let s := if listed then removeChild s (s.pcb p).parentTask p else s
  let (files, close) := fdTableUnref s.files (s.pcb p).fileOpenSharedRefs
  let files :=
    if close then
      (match (s.pcb p).fileOpen with | none => files | some t => freeFdHandleQueue files t)
    else files
  { s.freePcb p with files }

/-- The table and the counter of a child, with `CLONE_FILES` or without. -/
def forkFiles (s : State) (parent : PcbId) (cloneFiles : Bool) (m : ForkMemory) :
    Files × Option TableId × Option CounterId :=
  if cloneFiles then
    (fdTableRef s.files (s.pcb parent).fileOpenSharedRefs, (s.pcb parent).fileOpen, (s.pcb parent).fileOpenSharedRefs)
  else
    let (files, fileOpen) :=
      match (s.pcb parent).fileOpen with
      | none => (s.files, none)
      | some t => queueCopy s.files t m.queue m.node
    if m.counter then (files.newCounter, fileOpen, some files.counters) else (files, fileOpen, none)

def forkBlock (s : State) (parent : PcbId) : Pcb where
  pid := s.nowPid
  ppid := (s.pcb parent).pid
  parentTask := some parent
  status := .start
  threadQueue := []
  childPcb := []
  exitCode := 0
  ipcQueue := Ipc.queueInit
  fileOpen := none
  fileOpenSharedRefs := none

def State.newPcb (s : State) (b : Pcb) : State :=
  { s.setPcb s.pcbs b with
    pcbs := s.pcbs + 1, nowPid := s.nowPid + 1, pcbFreed := update s.pcbFreed s.pcbs 0 }

def State.newTcb (s : State) (p : PcbId) : State :=
  { (s.setPcb p { s.pcb p with threadQueue := (s.pcb p).threadQueue ++ [s.tcbs] }).setTcb s.tcbs
      { parentGroup := p, status := .start, idle := false, messages := false } with
    tcbs := s.tcbs + 1
    tcbFreed := update s.tcbFreed s.tcbs 0
    stackFreed := update s.stackFreed s.tcbs 0 }

def processFork (s : State) (parent : PcbId) (cloneFiles : Bool) (m : ForkMemory) : State × Option PcbId :=
  let p := s.pcbs
  if !m.block then (s, none)
  else
    let new := s.newPcb (forkBlock s parent)
    if !m.space then (new.freePcb p, none)
    else
      let (files, fileOpen, fileOpenSharedRefs) := forkFiles s parent cloneFiles m
      let s := new.withFiles p files fileOpen fileOpenSharedRefs
      if fileOpen = none ∨ fileOpenSharedRefs = none ∨ m.rest = false ∨ m.listed = false then
        (freePartialProcess s p false, none)
      else if !m.thread then (freePartialProcess (addChild s parent p) p true, none)
      else ((addChild s parent p).newTcb p, some p)

/-- `create_process_group`, where `parent` may be `NULL`, and `create_user_thread` on what it returns. -/
def createProcessGroup (s : State) (parent : Option PcbId) : State :=
  let q := parent.getD s.kernelGroup
  let new := s.newPcb { forkBlock s q with ppid := 0 }
  let s' := new.withFiles s.pcbs s.files.newTable.newCounter (some s.files.tables) (some s.files.counters)
  (addChild s' q s.pcbs).newTcb s.pcbs

def isTaskSchedulable (s : State) (t : TcbId) : Bool :=
  let task := s.tcb t
  let group := (s.pcb task.parentGroup).status
  (task.status = .running || task.status = .start || task.status = .create) && !task.idle
    && group ≠ .death && group ≠ .futex && group ≠ .out && group ≠ .wait

/-- The test of `timer_handle` before it gives a process to the kernel's group. -/
def orphan (s : State) (p : PcbId) : Bool :=
  match (s.pcb p).parentTask with
  | none => true
  | some q => (s.pcb q).status = .death || (s.pcb q).status = .out

def adoptOrphan (s : State) (p : PcbId) : State :=
  if orphan s p then s.setPcb p { s.pcb p with parentTask := some s.kernelGroup } else s

/-- What `timer_handle` does to the statuses of the thread that runs and of the one that it has chosen. -/
def stopCurrent (s : State) (c : CpuId) : State :=
  match s.currentTask c with
  | none => s
  | some t => if (s.tcb t).status = .running then s.setThreadStatus t .start else s

def startBest (s : State) (t : TcbId) : State :=
  if (s.tcb t).status = .start ∨ (s.tcb t).status = .create then s.setThreadStatus t .running else s

/-- `timer_handle` on the processor `c`, from where it has chosen the thread. -/
def switchTo (s : State) (c : CpuId) (t : TcbId) : State :=
  let s := startBest (stopCurrent (adoptOrphan s (s.tcb t).parentGroup) c) t
  { s with currentTask := update s.currentTask c (some t) }

theorem startBest_stopCurrent {R : State → State → Prop} (hRefl : ∀ s, R s s)
    (hTrans : ∀ {s s' s''}, R s s' → R s' s'' → R s s'') (hStatus : ∀ s t status, R s (s.setThreadStatus t status))
    (s : State) (c : CpuId) (t : TcbId) : R s (startBest (stopCurrent s c) t) := by
  have hStop : R s (stopCurrent s c) := by
    unfold stopCurrent
    split
    · exact hRefl s
    · split
      · exact hStatus s _ .start
      · exact hRefl s
  have hStart : R (stopCurrent s c) (startBest (stopCurrent s c) t) := by
    unfold startBest
    split
    · exact hStatus _ t .running
    · exact hRefl _
  exact hTrans hStop hStart

def processIsCurrentOnAnyCpu (s : State) (p : PcbId) : Bool :=
  (List.range s.cpus).any fun c => (s.currentTask c).any fun t => (s.tcb t).parentGroup = p

def findReapableChild (s : State) (parent : PcbId) : Option PcbId :=
  (s.pcb parent).childPcb.find? fun p => (s.pcb p).status = .death && !processIsCurrentOnAnyCpu s p

end OpenXJ380.Process
