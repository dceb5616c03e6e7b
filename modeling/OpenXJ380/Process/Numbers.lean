import OpenXJ380.Errno
import OpenXJ380.Process.Tree

/-! # The numbers of processes and threads (`kernel/task/pcb.cpp`, `kernel/syscall/sys.cpp`)

Pids and tids come from two counters. The thread of a forked process takes the pid of
its process, and the counter of tids is moved behind it.
-/

namespace OpenXJ380.Process

open Function

section

open Errno Transition

/-- The processes, the tids of the threads, and the pid that each process was created with. -/
structure Numbered extends Kernel where
  tid : TcbId → BitVec 64
  nowTid : BitVec 64
  issued : PcbId → Nat

def State.LiveThread (s : State) (t : TcbId) : Prop := t < s.tcbs ∧ s.tcbFreed t = 0

def State.pcbGroupQueue (s : State) : List PcbId := (List.range s.pcbs).filter fun p => s.pcbFreed p = 0

def foundPcb (s : State) (pid : BitVec 32) : Option PcbId :=
  s.pcbGroupQueue.find? fun p => BitVec.ofNat 64 (s.pcb p).pid = pid.signExtend 64

/-- The process that `sys_setpgid` is about. -/
def setpgidTarget (s : State) (caller : PcbId) (pid : BitVec 32) : Option PcbId :=
  if pid = 0 then some caller else foundPcb s pid

def sysSetpgid (s : State) (caller : PcbId) (pid pgid : BitVec 32) : State × Int :=
  match setpgidTarget s caller pid with
  | none => (s, -ESRCH)
  | some process =>
    if (s.pcb process).status = .death then (s, -ESRCH)
    else
      let pgid := if pgid = 0 then BitVec.ofNat 32 (s.pcb process).pid else pgid
      (s.setPcb process { s.pcb process with pid := (pgid.signExtend 64).toNat }, 0)

def reserveTidValue (nowTid tid : BitVec 64) : BitVec 64 := if nowTid ≤ tid then tid + 1 else nowTid

/-- The thread of another processor that runs when there is nothing to do; it is in no queue of threads. -/
def State.newIdle (s : State) (c : CpuId) : State :=
  { s.setTcb s.tcbs { parentGroup := s.kernelGroup, status := .running, idle := true, messages := false } with
    tcbs := s.tcbs + 1
    tcbFreed := update s.tcbFreed s.tcbs 0
    stackFreed := update s.stackFreed s.tcbs 0
    currentTask := update s.currentTask c (some s.tcbs) }

/-- `create_process_group` alone. -/
def createGroup (s : State) (parent : Option PcbId) : State :=
  let q := parent.getD s.kernelGroup
  let new := s.newPcb { forkBlock s q with ppid := 0 }
  let s' := new.withFiles s.pcbs s.files.newTable.newCounter (some s.files.tables) (some s.files.counters)
  addChild s' q s.pcbs

namespace Numbered

def allocTid (n : Numbered) (t : TcbId) : Numbered :=
  { n with tid := update n.tid t n.nowTid, nowTid := n.nowTid + 1 }

def createThread (n : Numbered) (p : PcbId) (status : TaskStatus) : Numbered :=
  { n.allocTid n.tcbs with toKernel := n.withState ((n.newTcb p).setThreadStatus n.tcbs status) }

/-- `pcb` may be `NULL`; `memory` says whether there is memory for all that is needed. -/
def createKernelThread (n : Numbered) (pcb : Option PcbId) (memory : Bool) : Numbered :=
  if memory then n.createThread (pcb.getD n.kernelGroup) .create else n

def createUserThread (n : Numbered) (pcb : PcbId) (memory : Bool) : Numbered :=
  if memory then n.createThread pcb .create else n

/-- `thread_clone` with `CLONE_THREAD`; when it fails behind `alloc_tid`, the tid is lost. -/
def threadClone (n : Numbered) (t : TcbId) (memory finished : Bool) : Numbered :=
  if !memory then n
  else if !finished then { n with nowTid := n.nowTid + 1 }
  else n.createThread (n.group t) .start

/-- `reserved` says whether a fork that fails has come as far as `reserve_tid_value`. -/
def fork (n : Numbered) (t : TcbId) (cloneFiles : Bool) (m : ForkMemory) (reserved : Bool) : Numbered :=
  let tid := BitVec.ofNat 64 n.nowPid
  let n' := { n with toKernel := n.toKernel.fork t cloneFiles m }
  match (processFork n.toState (n.group t) cloneFiles m).2 with
  | none => if reserved then { n' with nowTid := reserveTidValue n.nowTid tid } else n'
  | some p =>
    { n' with
      tid := update n.tid n.tcbs tid
      nowTid := reserveTidValue n.nowTid tid
      issued := update n.issued p n.nowPid }

/-- `thread` says whether there is memory for the thread; without it the process has none. -/
def spawn (n : Numbered) (parent : Option PcbId) (thread : Bool) : Numbered :=
  let issued := update n.issued n.pcbs n.nowPid
  if thread then { n.allocTid n.tcbs with toKernel := n.toKernel.spawn parent, issued }
  else { n with toKernel := n.withState (createGroup n.toState parent), issued }

/-- `ap_entry` on the processor `c`. -/
def apuIdle (n : Numbered) (c : CpuId) : Numbered :=
  { n.allocTid n.tcbs with toKernel := n.withState (n.newIdle c) }

def setpgid (n : Numbered) (t : TcbId) (pid pgid : BitVec 32) : Numbered :=
  { n with toKernel := n.withState (sysSetpgid n.toState (n.group t) pid pgid).1 }

end Numbered

inductive NumberedAct where
  | kernel (act : Act)
  | fork (t : TcbId) (cloneFiles : Bool) (m : ForkMemory) (reserved : Bool)
  | spawn (parent : Option PcbId) (thread : Bool)
  | spawnFails
  | createKernelThread (pcb : Option PcbId) (memory : Bool)
  | createUserThread (pcb : PcbId) (memory : Bool)
  | threadClone (t : TcbId) (memory finished : Bool)
  | apuIdle (c : CpuId)
  | setpgid (t : TcbId) (pid pgid : BitVec 32)

def Act.creates : Act → Bool
  | .fork _ _ _ => true
  | .spawn _ => true
  | _ => false

inductive NumberedActs : Numbered → NumberedAct → Numbered → Prop
  | kernel {n : Numbered} {act : Act} {k : Kernel} (hOther : act.creates = false) (hStep : Acts n.toKernel act k) :
      NumberedActs n (.kernel act) { n with toKernel := k }
  | fork {n : Numbered} (t : TcbId) (cloneFiles : Bool) (m : ForkMemory) (reserved : Bool) (hCalls : n.Calls t)
      (hReserved : reserved = true → m.block ∧ m.space ∧ m.rest ∧ m.listed) :
      NumberedActs n (.fork t cloneFiles m reserved) (n.fork t cloneFiles m reserved)
  | spawn {n : Numbered} (parent : Option PcbId) (thread : Bool) (hParent : ∀ p ∈ parent, n.Live p) :
      NumberedActs n (.spawn parent thread) (n.spawn parent thread)
  | spawnFails {n : Numbered} :
      NumberedActs n .spawnFails { n with toKernel := n.withState { n.toState with nowPid := n.nowPid + 1 } }
  | createKernelThread {n : Numbered} (pcb : Option PcbId) (memory : Bool) (hPcb : n.Live (pcb.getD n.kernelGroup)) :
      NumberedActs n (.createKernelThread pcb memory) (n.createKernelThread pcb memory)
  | createUserThread {n : Numbered} (pcb : PcbId) (memory : Bool) (hPcb : n.Live pcb) :
      NumberedActs n (.createUserThread pcb memory) (n.createUserThread pcb memory)
  | threadClone {n : Numbered} (t : TcbId) (memory finished : Bool) (hCalls : n.Calls t) :
      NumberedActs n (.threadClone t memory finished) (n.threadClone t memory finished)
  | apuIdle {n : Numbered} (c : CpuId) (hCpu : c < n.cpus) (hNone : n.currentTask c = none) :
      NumberedActs n (.apuIdle c) (n.apuIdle c)
  | setpgid {n : Numbered} (t : TcbId) (pid pgid : BitVec 32) (hCalls : n.Calls t) :
      NumberedActs n (.setpgid t pid pgid) (n.setpgid t pid pgid)

/-- `process_setup`, and the thread that the first processor runs. -/
def boot (cpus : Nat) : Numbered where
  kernelGroup := 0
  pcb _ :=
    { pid := 0, ppid := 0, parentTask := some 0, status := .running, threadQueue := [0], childPcb := [], exitCode := 0,
      ipcQueue := Ipc.queueInit, fileOpen := some 0, fileOpenSharedRefs := some 0 }
  pcbs := 1
  pcbFreed _ := 0
  tcb _ := { parentGroup := 0, status := .running, idle := false, messages := false }
  tcbs := 1
  tcbFreed _ := 0
  stackFreed _ := 0
  nowPid := 1
  cpus := cpus
  currentTask c := if c = 0 then some 0 else none
  files := noFiles.newTable.newCounter
  call _ := .user
  reaper := none
  forked _ := false
  exits _ := []
  returned _ := 0
  tid _ := 0
  nowTid := 1
  issued _ := 0

def Numbered.Unused (n : Numbered) (tid : BitVec 64) : Prop := ∀ t, n.LiveThread t → n.tid t ≠ tid

/-- The number that a new process or thread is given is an `int` and not in use, and a process keeps its own. -/
def TakesUnused (n : Numbered) : NumberedAct → Prop
  | .fork t cloneFiles m _ => (processFork n.toState (n.group t) cloneFiles m).2 ≠ none →
      n.nowPid < 2 ^ 31 ∧ n.Unused (BitVec.ofNat 64 n.nowPid)
  | .spawn _ thread => n.nowPid < 2 ^ 31 ∧ (thread = true → n.Unused n.nowTid)
  | .createKernelThread _ memory => memory = true → n.Unused n.nowTid
  | .createUserThread _ memory => memory = true → n.Unused n.nowTid
  | .threadClone _ memory finished => memory = true → finished = true → n.Unused n.nowTid
  | .apuIdle _ => n.Unused n.nowTid
  | .setpgid t pid pgid => ∀ process, setpgidTarget n.toState (n.group t) pid = some process → n.Live process →
      (n.pcb process).status ≠ .death → pgid = 0 ∨ (pgid.signExtend 64).toNat = (n.pcb process).pid
  | _ => True

end

/-! # Steps that create nothing

A step ages the processes and threads that there are: some are freed, and the others keep
their numbers.
-/

structure Ages (s s' : State) : Prop where
  pcbs : s'.pcbs = s.pcbs
  tcbs : s'.tcbs = s.tcbs
  nowPid : s'.nowPid = s.nowPid
  pid : ∀ p, s'.Live p → (s'.pcb p).pid = (s.pcb p).pid
  freed : ∀ p, s.pcbFreed p ≤ s'.pcbFreed p
  threads : ∀ t, s.tcbFreed t ≤ s'.tcbFreed t

variable {s s' s'' : State} {p : PcbId} {t : TcbId}

theorem Ages.live (h : Ages s s') (hLive : s'.Live p) : s.Live p :=
  ⟨h.pcbs ▸ hLive.1, Nat.le_zero.mp (hLive.2 ▸ h.freed p)⟩

theorem Ages.liveThread (h : Ages s s') (hLive : s'.LiveThread t) : s.LiveThread t :=
  ⟨h.tcbs ▸ hLive.1, Nat.le_zero.mp (hLive.2 ▸ h.threads t)⟩

theorem Ages.refl (s : State) : Ages s s :=
  ⟨rfl, rfl, rfl, fun _ _ => rfl, fun _ => le_rfl, fun _ => le_rfl⟩

theorem Ages.trans (h : Ages s s') (h' : Ages s' s'') : Ages s s'' where
  pcbs := h'.pcbs.trans h.pcbs
  tcbs := h'.tcbs.trans h.tcbs
  nowPid := h'.nowPid.trans h.nowPid
  pid p hp := (h'.pid p hp).trans (h.pid p (h'.live hp))
  freed p := (h.freed p).trans (h'.freed p)
  threads t := (h.threads t).trans (h'.threads t)

theorem Ages.setPcb {b : Pcb} (h : b.pid = (s.pcb p).pid) : Ages s (s.setPcb p b) := by
  refine ⟨rfl, rfl, rfl, ?_, fun _ => le_rfl, fun _ => le_rfl⟩
  intro q _
  exact State.setPcb_pcb h q

theorem Ages.setTcb (s : State) (t : TcbId) (b : Tcb) : Ages s (s.setTcb t b) :=
  ⟨rfl, rfl, rfl, fun _ _ => rfl, fun _ => le_rfl, fun _ => le_rfl⟩

theorem Ages.foldl {f : State → TcbId → State} (hf : ∀ s t, Ages s (f s t)) (threads : List TcbId) (s : State) :
    Ages s (threads.foldl f s) :=
  foldl_of Ages.refl Ages.trans hf threads s

section

variable (s : State)

theorem freePcb_ages (p : PcbId) : Ages s (s.freePcb p) := by
  refine ⟨rfl, rfl, rfl, fun _ _ => rfl, ?_, fun _ => le_rfl⟩
  intro q
  have hAt : (s.freePcb p).pcbFreed q = if q = p then s.pcbFreed p + 1 else s.pcbFreed q := update_apply ..
  rw [hAt]
  split
  · next hEq => exact hEq ▸ Nat.le_succ _
  · exact le_rfl

theorem killThread0_ages (t : TcbId) : Ages s (killThread0 s t) := by
  refine ⟨rfl, rfl, rfl, fun _ _ => rfl, fun _ => le_rfl, ?_⟩
  intro u
  have hAt : (killThread0 s t).tcbFreed u = if u = t then s.tcbFreed t + 1 else s.tcbFreed u := update_apply ..
  rw [hAt]
  split
  · next hEq => exact hEq ▸ Nat.le_succ _
  · exact le_rfl

theorem killThread_ages (t : TcbId) : Ages s (killThread s t) := by
  unfold killThread
  split
  · exact .refl s
  · exact .setTcb s t _

theorem withFiles_ages (p : PcbId) (files : Files) (fileOpen : Option TableId)
    (fileOpenSharedRefs : Option CounterId) : Ages s (s.withFiles p files fileOpen fileOpenSharedRefs) := by
  have h : Ages s (s.setPcb p { s.pcb p with fileOpen, fileOpenSharedRefs }) := Ages.setPcb rfl
  exact { h with }

theorem closeProcessFileTable_ages (p : PcbId) : Ages s (closeProcessFileTable s p) := by
  obtain ⟨files, fileOpen, fileOpenSharedRefs, h⟩ := closeProcessFileTable_eq s p
  rw [h]
  exact withFiles_ages s p files fileOpen fileOpenSharedRefs

theorem removeChild_ages (q : Option PcbId) (p : PcbId) : Ages s (removeChild s q p) := by
  unfold removeChild
  split
  · exact .refl s
  · exact .setPcb rfl

theorem addChild_ages (q p : PcbId) : Ages s (addChild s q p) := Ages.setPcb rfl

section

variable (p : PcbId)

theorem setStatus_ages (status : TaskStatus) : Ages s (s.setStatus p status) := Ages.setPcb rfl

theorem killProc0_ages : Ages s (killProc0 s p) := by
  have hMarked : Ages s (markThreads s p) := Ages.foldl (fun s t => Ages.setTcb s t _) _ s
  have hClosed := hMarked.trans (closeProcessFileTable_ages _ p)
  have hThreads := hClosed.trans
      (.foldl killThread0_ages ((closeProcessFileTable (markThreads s p) p).pcb p).threadQueue _)
  have hFreed : Ages s (freeThreads (closeProcessFileTable (markThreads s p) p) p) := hThreads.trans (.setPcb rfl)
  exact hFreed.trans (freePcb_ages _ p)

theorem killProc_ages (exitCode : BitVec 32) : Ages s (killProc s p exitCode) := by
  unfold killProc
  split
  · exact .refl s
  · have hCode : Ages s (s.setPcb p { s.pcb p with exitCode }) := Ages.setPcb rfl
    exact ((hCode.trans (removeChild_ages _ _ p)).trans (setStatus_ages _ p .death)).trans (killProc0_ages _ p)

theorem killProcZombie_ages (exitCode : BitVec 32) : Ages s (killProcZombie s p exitCode) := by
  have hCode : Ages s (s.setPcb p { s.pcb p with exitCode }) := Ages.setPcb rfl
  exact (hCode.trans (closeProcessFileTable_ages _ p)).trans (setStatus_ages _ p .zombie)

theorem moveToReaper_ages : Ages s (moveToReaper s p) :=
  ((addChild_ages s _ p).trans (removeChild_ages _ _ p)).trans (.setPcb rfl)

theorem killProcDeferred_ages (exitCode : BitVec 32) (listed : Bool) :
    Ages s (killProcDeferred s p exitCode listed).1 := by
  have hRest : ∀ s' : State, Ages s' (killThreads ((closeProcessFileTable
      (s'.setPcb p { s'.pcb p with exitCode }) p).setStatus p .death) p) := by
    intro s'
    have hCode : Ages s' (s'.setPcb p { s'.pcb p with exitCode }) := Ages.setPcb rfl
    exact ((hCode.trans (closeProcessFileTable_ages _ p)).trans (setStatus_ages _ p .death)).trans
      (.foldl killThread_ages _ _)
  unfold killProcDeferred
  split_ifs with hKernel hListed hParent
  · exact .refl s
  · exact .refl s
  · exact (moveToReaper_ages s p).trans (hRest _)
  · exact hRest s

theorem sendExit_ages (exitCode : BitVec 32) (node : Bool) : Ages s (sendExit s p exitCode node) := by
  unfold sendExit
  split
  · exact .refl s
  · exact .setPcb rfl

end

theorem switchTo_ages (c : CpuId) (t : TcbId) : Ages s (switchTo s c t) := by
  have hAdopted : Ages s (adoptOrphan s (s.tcb t).parentGroup) := by
    unfold adoptOrphan
    split
    · exact .setPcb rfl
    · exact .refl s
  have h := hAdopted.trans (startBest_stopCurrent Ages.refl Ages.trans (fun s t _ => Ages.setTcb s t _) _ c t)
  exact { h with }

end

theorem StepState.ages {parent : PcbId} {o : Outcome} {call : Call} (h : StepState s parent o call s') : Ages s s' := by
  cases h with
  | same => exact .refl s
  | popped pid => exact .setPcb rfl
  | marked child exitCode => exact .setPcb rfl
  | freed child pid status => exact killProc_ages s child _
  | died process exitCode => exact .foldl killThread_ages _ s
  | told process exitCode => exact sendExit_ages s process exitCode _

theorem Acts.ages {k k' : Kernel} {act : Act} (hStep : Acts k act k') (hOther : act.creates = false) :
    Ages k.toState k'.toState := by
  cases hStep with
  | schedule c t hCpu hThread hWaits hTask => exact switchTo_ages k.toState c t
  | fork t cloneFiles m hCalls => cases hOther
  | spawn parent hParent => cases hOther
  | openFile t h hCalls =>
    unfold Kernel.openFile
    split <;> exact ⟨rfl, rfl, rfl, fun _ _ => rfl, fun _ => le_rfl, fun _ => le_rfl⟩
  | close t fd hCalls =>
    unfold Kernel.close
    split
    · exact .refl k.toState
    · split <;> exact ⟨rfl, rfl, rfl, fun _ _ => rfl, fun _ => le_rfl, fun _ => le_rfl⟩
  | closeExec t hCalls =>
    unfold Kernel.closeExec
    split <;> exact ⟨rfl, rfl, rfl, fun _ _ => rfl, fun _ => le_rfl, fun _ => le_rfl⟩
  | exit t exitCode hCalls =>
    unfold Kernel.exit
    split
    · exact killThread_ages k.toState t
    · exact killProcZombie_ages k.toState (k.group t) exitCode
  | exitGroup t exitCode hCalls => exact killProcZombie_ages k.toState (k.group t) exitCode
  | wait4 t pid nohang hCalls hPid =>
    rw [(proceed_state k t (wait4Enter k.toState (k.group t) pid nohang)).1, wait4Enter_state]
    exact .refl k.toState
  | advance t o p hRuns hAdvance =>
    rw [(proceed_state k t p).1]
    exact (advance_state hAdvance).ages
  | killDeferred p exitCode listed hLive => exact killProcDeferred_ages k.toState p exitCode listed
  | reaperFind hIdle => exact .refl k.toState
  | reaperKill target hTarget => exact killProc_ages k.toState target 0

end OpenXJ380.Process
