import OpenXJ380.Process.Model

/-! # Exiting, waiting and reaping (`kernel/syscall/sys.cpp`, `kernel/task/reaper.cpp`)

The threads of all processes take the steps of `sys_exit`, `sys_exit_group` and
`sys_wait4` in any order; each step is one critical section or less.
-/

namespace OpenXJ380.Process

open Function

open Transition

def wait4PidMatches (s : State) (child : PcbId) (pid : Int) : Bool := pid = -1 || ((s.pcb child).pid : Int) = pid

def wait4FindChild (s : State) (parent : PcbId) (pid : Int) : Option PcbId :=
  (s.pcb parent).childPcb.find? fun child => wait4PidMatches s child pid

def wait4FindZombieChild (s : State) (parent : PcbId) (pid : Int) : Option PcbId :=
  (s.pcb parent).childPcb.find? fun child => (s.pcb child).status = .zombie && wait4PidMatches s child pid

/-- The loop of `wait4_pop_exit_message`; `node` says which enqueuing has memory. -/
def popLoop (pid : Int) : Nat → (Nat → Bool) → Ipc.LockQueue → Ipc.LockQueue × Option Ipc.IpcMessage
  | 0, _, q => (q, none)
  | remaining + 1, node, q =>
    match Ipc.queueDequeue q with
    | (q, none) => (q, none)
    | (q, some message) =>
      if message.type = epid ∧ (pid = -1 ∨ message.pid = pid) then (q, some message)
      else popLoop pid remaining (fun k => node (k + 1)) (Ipc.enqueueMessage q message (node 0))

/-- `wait4_pop_exit_message(parent, pid, false)`. -/
def wait4PopExitMessage (s : State) (parent : PcbId) (pid : Int) (node : Nat → Bool) : State × Option Ipc.IpcMessage :=
  let (q, message) := popLoop pid (s.pcb parent).ipcQueue.size node (s.pcb parent).ipcQueue
  (s.setPcb parent { s.pcb parent with ipcQueue := q }, message)

def waitStatus (exitCode : BitVec 32) : BitVec 32 := (exitCode &&& 0xff) <<< 8

inductive Answer where
  | child (child : PcbId) (pid : Nat) (status : BitVec 32)
  | none
  | echild
  | efault

structure Outcome where
  /-- `copy_to_user_pagedir`, or there is nothing to copy to. -/
  copied : Bool
  message : Bool
  node : Nat → Bool

inductive Call where
  | user
  | finding (pid : Int) (nohang : Bool)
  | searching (pid : Int)
  | checking (pid : Int)
  | popping (pid : Int)
  | announced (pid : Int) (child : Int) (exitCode : BitVec 32)
  | rechecking (pid : Int)
  | marking (child : PcbId) (exitCode : BitVec 32)
  | reaping (child : PcbId)
  | discarding (child : PcbId) (pid : Nat) (status : BitVec 32)
  | freeing (child : PcbId) (pid : Nat) (status : BitVec 32)
  | dying (process : PcbId) (exitCode : BitVec 32)
  | telling (process : PcbId) (exitCode : BitVec 32)
  | gone
deriving DecidableEq

structure Progress where
  state : State
  call : Call
  answer : Option Answer

def Progress.next (s : State) (call : Call) : Progress := ⟨s, call, none⟩

def Progress.ret (s : State) (answer : Answer) : Progress := ⟨s, .user, some answer⟩

/-- The start of `sys_wait4`, behind the checks of its arguments. -/
def wait4Enter (s : State) (parent : PcbId) (pid : Int) (nohang : Bool) : Progress :=
  match wait4FindChild s parent pid with
  | none => .ret s .echild
  | some _ => .next s (.finding pid nohang)

def advance (s : State) (parent : PcbId) (o : Outcome) : Call → Option Progress
  | .user => none
  | .gone => none
  | .finding pid nohang =>
    match wait4FindZombieChild s parent pid with
    | some zombie => some (.next s (.reaping zombie))
    | none => if nohang then some (.ret s .none) else some (.next s (.searching pid))
  | .searching pid =>
    match wait4FindZombieChild s parent pid with
    | some zombie => some (.next s (.reaping zombie))
    | none => some (.next s (.checking pid))
  | .checking pid =>
    match wait4FindChild s parent pid with
    | none => some (.ret s .echild)
    | some _ => some (.next s (.popping pid))
  | .popping pid =>
    match wait4PopExitMessage s parent pid o.node with
    | (s, none) => some (.next s (.searching pid))
    | (s, some message) => some (.next s (.announced pid message.pid (exitCodeOf message)))
  | .announced pid childPid exitCode =>
    match wait4FindChild s parent childPid with
    | none => some (.next s (.rechecking pid))
    | some child => some (.next s (.marking child exitCode))
  | .rechecking pid =>
    match wait4FindChild s parent pid with
    | none => some (.ret s .echild)
    | some _ => some (.next s (.searching pid))
  | .marking child exitCode =>
    some (.next (s.setPcb child { s.pcb child with exitCode, status := .zombie }) (.reaping child))
  | .reaping child =>
    if !o.copied then some (.ret s .efault)
    else some (.next s (.discarding child (s.pcb child).pid (waitStatus (s.pcb child).exitCode)))
  | .discarding child pid status =>
    some (.next (wait4PopExitMessage s parent (asInt pid) o.node).1 (.freeing child pid status))
  | .freeing child pid status =>
    some (.ret (killProc s child (s.pcb child).exitCode) (.child child pid status))
  | .dying process exitCode => some (.next (killThreads s process) (.telling process exitCode))
  | .telling process exitCode =>
    if !o.message then some (.next s .gone) else some (.next (sendExit s process exitCode (o.node 0)) .gone)

/-- The processes, the calls of their threads and the child that the reaper has found; then, for the
statements, who was forked, the codes that a process exited with and how many calls returned it. -/
structure Kernel extends State where
  call : TcbId → Call
  reaper : Option PcbId
  forked : PcbId → Bool
  exits : PcbId → List (BitVec 32)
  returned : PcbId → Nat

inductive Act where
  | schedule (c : CpuId) (t : TcbId)
  | fork (t : TcbId) (cloneFiles : Bool) (m : ForkMemory)
  | spawn (parent : Option PcbId)
  | openFile (t : TcbId) (h : FdFileHandle)
  | close (t : TcbId) (fd : Nat)
  | closeExec (t : TcbId)
  | exit (t : TcbId) (exitCode : BitVec 32)
  | exitGroup (t : TcbId) (exitCode : BitVec 32)
  | wait4 (t : TcbId) (pid : Int) (nohang : Bool) (answer : Option Answer)
  | advance (t : TcbId) (o : Outcome) (answer : Option Answer)
  | killDeferred (p : PcbId) (exitCode : BitVec 32) (listed : Bool)
  | reaperFind
  | reaperKill

namespace Kernel

def group (k : Kernel) (t : TcbId) : PcbId := (k.tcb t).parentGroup

def Runs (k : Kernel) (t : TcbId) : Prop := ∃ c, c < k.cpus ∧ k.currentTask c = some t

def Calls (k : Kernel) (t : TcbId) : Prop := k.Runs t ∧ k.group t ≠ k.kernelGroup ∧ k.call t = .user

def withState (k : Kernel) (s : State) : Kernel := { k with toState := s }

def setCall (k : Kernel) (t : TcbId) (call : Call) : Kernel := { k with call := update k.call t call }

def record (k : Kernel) : Option Answer → Kernel
  | some (.child z _ _) => { k with returned := update k.returned z (k.returned z + 1) }
  | _ => k

def proceed (k : Kernel) (t : TcbId) (p : Progress) : Kernel := ((k.withState p.state).setCall t p.call).record p.answer

/-- `kill_proc(pcb, exit_code, true)` by a thread, up to its next step. -/
def leave (k : Kernel) (t : TcbId) (exitCode : BitVec 32) : Kernel :=
  let p := k.group t
  let k := (k.withState (killProcZombie k.toState p exitCode)).setCall t (.dying p exitCode)
  { k with exits := update k.exits p (exitCode :: k.exits p) }

/-- `process_fork` by the thread. -/
def fork (k : Kernel) (t : TcbId) (cloneFiles : Bool) (m : ForkMemory) : Kernel :=
  match processFork k.toState (k.group t) cloneFiles m with
  | (s, none) => k.withState s
  | (s, some p) => { k.withState s with forked := update k.forked p true }

def spawn (k : Kernel) (parent : Option PcbId) : Kernel :=
  { k.withState (createProcessGroup k.toState parent) with forked := update k.forked k.pcbs false }

def exit (k : Kernel) (t : TcbId) (exitCode : BitVec 32) : Kernel :=
  if processHasOtherLiveThread k.toState (k.group t) t then (k.withState (killThread k.toState t)).setCall t .gone
  else k.leave t exitCode

/-- `sys_open`, from where it has the node. -/
def openFile (k : Kernel) (t : TcbId) (h : FdFileHandle) : Kernel :=
  match (k.pcb (k.group t)).fileOpen with
  | none => k
  | some table => { k with files := queueEnqueueLowest (k.files.newHandle h) table k.files.handles }

def close (k : Kernel) (t : TcbId) (fd : Nat) : Kernel :=
  match (k.pcb (k.group t)).fileOpen with
  | none => k
  | some table =>
    match queueRemoveAt k.files table fd with
    | (_, none) => k
    | (files, some h) => { k with files := files.closeHandle h }

def closeExec (k : Kernel) (t : TcbId) : Kernel :=
  match (k.pcb (k.group t)).fileOpen with
  | none => k
  | some table => { k with files := closeExecLoop table (k.files.table table).length k.files }

end Kernel

inductive Acts : Kernel → Act → Kernel → Prop
  | schedule {k : Kernel} (c : CpuId) (t : TcbId) (hCpu : c < k.cpus) (hThread : t < k.tcbs) (hWaits : ¬k.Runs t)
      (hTask : isTaskSchedulable k.toState t ∨ (k.tcb t).idle) :
      Acts k (.schedule c t) (k.withState (switchTo k.toState c t))
  | fork {k : Kernel} (t : TcbId) (cloneFiles : Bool) (m : ForkMemory) (hCalls : k.Calls t) :
      Acts k (.fork t cloneFiles m) (k.fork t cloneFiles m)
  | spawn {k : Kernel} (parent : Option PcbId) (hParent : ∀ p ∈ parent, p < k.pcbs ∧ k.pcbFreed p = 0) :
      Acts k (.spawn parent) (k.spawn parent)
  | openFile {k : Kernel} (t : TcbId) (h : FdFileHandle) (hCalls : k.Calls t) : Acts k (.openFile t h) (k.openFile t h)
  | close {k : Kernel} (t : TcbId) (fd : Nat) (hCalls : k.Calls t) : Acts k (.close t fd) (k.close t fd)
  | closeExec {k : Kernel} (t : TcbId) (hCalls : k.Calls t) : Acts k (.closeExec t) (k.closeExec t)
  | exit {k : Kernel} (t : TcbId) (exitCode : BitVec 32) (hCalls : k.Calls t) :
      Acts k (.exit t exitCode) (k.exit t exitCode)
  | exitGroup {k : Kernel} (t : TcbId) (exitCode : BitVec 32) (hCalls : k.Calls t) :
      Acts k (.exitGroup t exitCode) (k.leave t exitCode)
  | wait4 {k : Kernel} (t : TcbId) (pid : Int) (nohang : Bool) (hCalls : k.Calls t) (hPid : pid = -1 ∨ 0 < pid) :
      Acts k (.wait4 t pid nohang (wait4Enter k.toState (k.group t) pid nohang).answer)
        (k.proceed t (wait4Enter k.toState (k.group t) pid nohang))
  | advance {k : Kernel} (t : TcbId) (o : Outcome) (p : Progress) (hRuns : k.Runs t)
      (hStep : advance k.toState (k.group t) o (k.call t) = some p) : Acts k (.advance t o p.answer) (k.proceed t p)
  | killDeferred {k : Kernel} (p : PcbId) (exitCode : BitVec 32) (listed : Bool)
      (hLive : p < k.pcbs ∧ k.pcbFreed p = 0) :
      Acts k (.killDeferred p exitCode listed) (k.withState (killProcDeferred k.toState p exitCode listed).1)
  | reaperFind {k : Kernel} (hIdle : k.reaper = none) :
      Acts k .reaperFind { k with reaper := findReapableChild k.toState k.kernelGroup }
  | reaperKill {k : Kernel} (target : PcbId) (hTarget : k.reaper = some target) :
      Acts k .reaperKill { k.withState (killProc k.toState target 0) with reaper := none }

def processSystem : System Kernel Act where
  step := Acts

def noFiles : Files where
  handle _ := ⟨0, 0, 0, 0⟩
  handles := 0
  closed _ := 0
  table _ := []
  tables := 0
  destroyed _ := 0
  counter _ := 0
  counters := 0
  dropped _ := 0

def familyPcb (p : PcbId) : Pcb where
  pid := p
  ppid := p - 1
  parentTask := some (p - 1)
  status := .start
  threadQueue := if p < 4 then [p] else []
  childPcb := if p < 3 then [p + 1] else []
  exitCode := 0
  ipcQueue := Ipc.queueInit
  fileOpen := none
  fileOpenSharedRefs := none

/-- The kernel's group, a process, its child and the child of that, with a thread each; the middle two run. -/
def family : Kernel where
  kernelGroup := 0
  pcb := familyPcb
  pcbs := 4
  pcbFreed _ := 0
  tcb t := ⟨t, .running, false, false⟩
  tcbs := 4
  tcbFreed _ := 0
  stackFreed _ := 0
  nowPid := 4
  cpus := 2
  currentTask c := if c = 0 then some 1 else if c = 1 then some 2 else none
  files := noFiles
  call _ := .user
  reaper := none
  forked _ := false
  exits _ := []
  returned _ := 0

def plenty : Outcome := ⟨true, true, fun _ => true⟩

/-! # What the parts of an exit leave alone

Each function is written as the state before with the fields that it changes.
-/

variable {f : State → TcbId → State} {s : State} {parent : PcbId} {o : Outcome} {call : Call} {p : Progress}

theorem foldl_of {R : State → State → Prop} (hRefl : ∀ s, R s s) (hTrans : ∀ {s s' s''}, R s s' → R s' s'' → R s s'')
    (hf : ∀ s t, R s (f s t)) (threads : List TcbId) (s : State) : R s (threads.foldl f s) := by
  induction threads generalizing s with
  | nil => exact hRefl s
  | cons t rest ih => exact hTrans (hf s t) (ih (f s t))

theorem foldl_threads (hf : ∀ s t, ∃ tcb stackFreed tcbFreed,
      f s t = { s with tcb, stackFreed, tcbFreed }) (threads : List TcbId) (s : State) :
    ∃ tcb stackFreed tcbFreed, threads.foldl f s = { s with tcb, stackFreed, tcbFreed } := by
  induction threads generalizing s with
  | nil => exact ⟨s.tcb, s.stackFreed, s.tcbFreed, rfl⟩
  | cons t rest ih =>
    obtain ⟨tcb, stackFreed, tcbFreed, h⟩ := hf s t
    obtain ⟨tcb', stackFreed', tcbFreed', h'⟩ := ih (f s t)
    refine ⟨tcb', stackFreed', tcbFreed', ?_⟩
    rw [List.foldl_cons, h', h]

theorem foldl_tcb (hf : ∀ s t, ∃ tcb, f s t = { s with tcb }) (threads : List TcbId)
    (s : State) : ∃ tcb, threads.foldl f s = { s with tcb } := by
  induction threads generalizing s with
  | nil => exact ⟨s.tcb, rfl⟩
  | cons t rest ih =>
    obtain ⟨tcb, h⟩ := hf s t
    obtain ⟨tcb', h'⟩ := ih (f s t)
    refine ⟨tcb', ?_⟩
    rw [List.foldl_cons, h', h]

theorem killThread_eq (s : State) (t : TcbId) : ∃ tcb, killThread s t = { s with tcb } := by
  unfold killThread
  split
  · exact ⟨s.tcb, rfl⟩
  · exact ⟨_, rfl⟩

theorem killThreads_eq (s : State) (p : PcbId) : ∃ tcb, killThreads s p = { s with tcb } :=
  foldl_tcb killThread_eq _ s

theorem markThreads_eq (s : State) (p : PcbId) : ∃ tcb, markThreads s p = { s with tcb } :=
  foldl_tcb (fun _ _ => ⟨_, rfl⟩) _ s

theorem freeThreads_eq (s : State) (p : PcbId) : ∃ tcb stackFreed tcbFreed,
    freeThreads s p = { s.setPcb p { s.pcb p with threadQueue := [] } with tcb, stackFreed, tcbFreed } := by
  obtain ⟨tcb, stackFreed, tcbFreed, h⟩ :=
    foldl_threads (f := killThread0) (fun _ _ => ⟨_, _, _, rfl⟩) (s.pcb p).threadQueue s
  refine ⟨tcb, stackFreed, tcbFreed, ?_⟩
  rw [freeThreads, h]
  rfl

theorem closeProcessFileTable_eq (s : State) (p : PcbId) : ∃ files fileOpen fileOpenSharedRefs,
    closeProcessFileTable s p = s.withFiles p files fileOpen fileOpenSharedRefs := by
  unfold closeProcessFileTable
  split
  · refine ⟨s.files, (s.pcb p).fileOpen, (s.pcb p).fileOpenSharedRefs, ?_⟩
    rw [State.withFiles, State.setPcb, Function.update_eq_self]
  · exact ⟨_, none, none, rfl⟩

inductive Advances (s : State) (parent : PcbId) (o : Outcome) : Call → Progress → Prop
  | found {pid : Int} {nohang : Bool} {z : PcbId} (hFound : wait4FindZombieChild s parent pid = some z) :
      Advances s parent o (.finding pid nohang) (.next s (.reaping z))
  | nohang {pid : Int} (hNone : wait4FindZombieChild s parent pid = none) :
      Advances s parent o (.finding pid true) (.ret s .none)
  | search {pid : Int} (hNone : wait4FindZombieChild s parent pid = none) :
      Advances s parent o (.finding pid false) (.next s (.searching pid))
  | searched {pid : Int} {z : PcbId} (hFound : wait4FindZombieChild s parent pid = some z) :
      Advances s parent o (.searching pid) (.next s (.reaping z))
  | check {pid : Int} (hNone : wait4FindZombieChild s parent pid = none) :
      Advances s parent o (.searching pid) (.next s (.checking pid))
  | childless {pid : Int} (hNone : wait4FindChild s parent pid = none) :
      Advances s parent o (.checking pid) (.ret s .echild)
  | pop {pid : Int} {child : PcbId} (hChild : wait4FindChild s parent pid = some child) :
      Advances s parent o (.checking pid) (.next s (.popping pid))
  | silent {pid : Int} (hPop : (wait4PopExitMessage s parent pid o.node).2 = none) :
      Advances s parent o (.popping pid) (.next (wait4PopExitMessage s parent pid o.node).1 (.searching pid))
  | announce {pid : Int} {message : Ipc.IpcMessage}
      (hPop : (wait4PopExitMessage s parent pid o.node).2 = some message) :
      Advances s parent o (.popping pid)
        (.next (wait4PopExitMessage s parent pid o.node).1 (.announced pid message.pid (exitCodeOf message)))
  | recheck {pid childPid : Int} {exitCode : BitVec 32} (hNone : wait4FindChild s parent childPid = none) :
      Advances s parent o (.announced pid childPid exitCode) (.next s (.rechecking pid))
  | known {pid childPid : Int} {exitCode : BitVec 32} {child : PcbId}
      (hFound : wait4FindChild s parent childPid = some child) :
      Advances s parent o (.announced pid childPid exitCode) (.next s (.marking child exitCode))
  | bereft {pid : Int} (hNone : wait4FindChild s parent pid = none) :
      Advances s parent o (.rechecking pid) (.ret s .echild)
  | again {pid : Int} {child : PcbId} (hChild : wait4FindChild s parent pid = some child) :
      Advances s parent o (.rechecking pid) (.next s (.searching pid))
  | mark {child : PcbId} {exitCode : BitVec 32} :
      Advances s parent o (.marking child exitCode)
        (.next (s.setPcb child { s.pcb child with exitCode, status := .zombie }) (.reaping child))
  | fault {child : PcbId} : Advances s parent o (.reaping child) (.ret s .efault)
  | reap {child : PcbId} :
      Advances s parent o (.reaping child)
        (.next s (.discarding child (s.pcb child).pid (waitStatus (s.pcb child).exitCode)))
  | discard {child : PcbId} {pid : Nat} {status : BitVec 32} :
      Advances s parent o (.discarding child pid status)
        (.next (wait4PopExitMessage s parent (asInt pid) o.node).1 (.freeing child pid status))
  | free {child : PcbId} {pid : Nat} {status : BitVec 32} :
      Advances s parent o (.freeing child pid status)
        (.ret (killProc s child (s.pcb child).exitCode) (.child child pid status))
  | die {process : PcbId} {exitCode : BitVec 32} :
      Advances s parent o (.dying process exitCode) (.next (killThreads s process) (.telling process exitCode))
  | lost {process : PcbId} {exitCode : BitVec 32} : Advances s parent o (.telling process exitCode) (.next s .gone)
  | tell {process : PcbId} {exitCode : BitVec 32} :
      Advances s parent o (.telling process exitCode) (.next (sendExit s process exitCode (o.node 0)) .gone)

theorem advance_cases (h : advance s parent o call = some p) : Advances s parent o call p := by
  cases call with
  | user => cases h
  | gone => cases h
  | finding pid nohang =>
    simp only [advance] at h
    split at h
    next hFound =>
      cases h
      exact .found hFound
    next hNone =>
      cases nohang with
      | true =>
        cases h
        exact .nohang hNone
      | false =>
        cases h
        exact .search hNone
  | searching pid =>
    simp only [advance] at h
    split at h
    next hFound =>
      cases h
      exact .searched hFound
    next hNone =>
      cases h
      exact .check hNone
  | checking pid =>
    simp only [advance] at h
    split at h
    next hNone =>
      cases h
      exact .childless hNone
    next hChild =>
      cases h
      exact .pop hChild
  | popping pid =>
    simp only [advance] at h
    split at h
    next hPop =>
      cases h
      have hSilent : (wait4PopExitMessage s parent pid o.node).2 = none := by rw [hPop]
      simpa only [hPop] using Advances.silent hSilent
    next hPop =>
      cases h
      have hAnnounce := congrArg Prod.snd hPop
      simpa only [hPop] using Advances.announce hAnnounce
  | announced pid childPid exitCode =>
    simp only [advance] at h
    split at h
    next hNone =>
      cases h
      exact .recheck hNone
    next hFound =>
      cases h
      exact .known hFound
  | rechecking pid =>
    simp only [advance] at h
    split at h
    next hNone =>
      cases h
      exact .bereft hNone
    next hChild =>
      cases h
      exact .again hChild
  | marking child exitCode =>
    cases h
    exact .mark
  | reaping child =>
    simp only [advance] at h
    split at h
    · cases h
      exact .fault
    · cases h
      exact .reap
  | discarding child pid status =>
    cases h
    exact .discard
  | freeing child pid status =>
    cases h
    exact .free
  | dying process exitCode =>
    cases h
    exact .die
  | telling process exitCode =>
    simp only [advance] at h
    split at h
    · cases h
      exact .lost
    · cases h
      exact .tell

inductive StepState (s : State) (parent : PcbId) (o : Outcome) : Call → State → Prop
  | same {call : Call} : StepState s parent o call s
  | popped {call : Call} (pid : Int) : StepState s parent o call (wait4PopExitMessage s parent pid o.node).1
  | marked (child : PcbId) (exitCode : BitVec 32) :
      StepState s parent o (.marking child exitCode) (s.setPcb child { s.pcb child with exitCode, status := .zombie })
  | freed (child : PcbId) (pid : Nat) (status : BitVec 32) :
      StepState s parent o (.freeing child pid status) (killProc s child (s.pcb child).exitCode)
  | died (process : PcbId) (exitCode : BitVec 32) :
      StepState s parent o (.dying process exitCode) (killThreads s process)
  | told (process : PcbId) (exitCode : BitVec 32) :
      StepState s parent o (.telling process exitCode) (sendExit s process exitCode (o.node 0))

theorem advance_state (h : advance s parent o call = some p) : StepState s parent o call p.state := by
  cases advance_cases h with
  | silent => exact .popped _
  | announce => exact .popped _
  | discard => exact .popped _
  | mark => exact .marked _ _
  | free => exact .freed _ _ _
  | die => exact .died _ _
  | tell => exact .told _ _
  | _ => exact .same

/-- The child that a thread has found in `sys_wait4` and will free. -/
def Call.child : Call → Option PcbId
  | .marking child _ => some child
  | .reaping child => some child
  | .discarding child _ _ => some child
  | .freeing child _ _ => some child
  | _ => none

def finds (s : State) (parent : PcbId) : Call → Option PcbId
  | .finding pid _ => wait4FindZombieChild s parent pid
  | .searching pid => wait4FindZombieChild s parent pid
  | .announced _ childPid _ => wait4FindChild s parent childPid
  | _ => none

theorem finds_mem {z : PcbId} (h : finds s parent call = some z) : z ∈ (s.pcb parent).childPcb := by
  cases call <;> first | exact List.mem_of_find?_eq_some h | cases h

theorem advance_finds (h : advance s parent o call = some p) {z : PcbId} (hz : p.call.child = some z) :
    call.child = some z ∨ finds s parent call = some z := by
  cases advance_cases h with
  | found hFound =>
    cases hz
    exact .inr hFound
  | searched hFound =>
    cases hz
    exact .inr hFound
  | known hFound =>
    cases hz
    exact .inr hFound
  | mark => exact .inl hz
  | reap => exact .inl hz
  | discard => exact .inl hz
  | _ => cases hz

theorem record_state (k : Kernel) (answer : Option Answer) : (k.record answer).toState = k.toState ∧
    (k.record answer).forked = k.forked ∧ (k.record answer).reaper = k.reaper ∧ (k.record answer).call = k.call ∧
    (k.record answer).exits = k.exits := by
  unfold Kernel.record
  split <;> exact ⟨rfl, rfl, rfl, rfl, rfl⟩

theorem proceed_state (k : Kernel) (t : TcbId) (p : Progress) : (k.proceed t p).toState = p.state ∧
    (k.proceed t p).forked = k.forked ∧ (k.proceed t p).reaper = k.reaper ∧
    (k.proceed t p).call = Function.update k.call t p.call ∧ (k.proceed t p).exits = k.exits :=
  record_state ((k.withState p.state).setCall t p.call) p.answer

theorem wait4Enter_state (s : State) (parent : PcbId) (pid : Int) (nohang : Bool) :
    (wait4Enter s parent pid nohang).state = s := by
  unfold wait4Enter
  split <;> rfl

end OpenXJ380.Process
