import OpenXJ380.Sched.Entity

/-! # The scheduling policy of the source kernel (`kernel/task/scheduler.cpp`)

The queue allocates its own nodes, so it is the list of their data here. Unlike
the port, a task belongs to a process group, whose status can keep the task from
being chosen.
-/

namespace OpenXJ380.KernelSched

open Function

section

open Sched

def timeSlice : UInt64 := 4
def minSlice : UInt64 := 1
def eevdfTickNs : UInt64 := 1000000
def eevdfBaseSliceNs : UInt64 := timeSlice * eevdfTickNs
def eevdfMinSliceNs : UInt64 := minSlice * eevdfTickNs
def eevdfWakeupCredit : UInt64 := eevdfBaseSliceNs
def eevdfSleeperCredit : UInt64 := eevdfBaseSliceNs * 2
def eevdfDefaultWeight : UInt64 := 1024

structure ProcessGroup (PcbT : Type) where
  status : TaskStatus
  parentTask : Option PcbT

/-- Of `context0` only `rip` is read by the scheduler; 0 marks an invalid context. -/
structure Tcb (PcbT : Type) extends Entity where
  parentGroup : Option PcbT
  rip : UInt64

structure Memory (Task PcbT : Type) where
  tcbs : Task → Tcb PcbT
  groups : PcbT → ProcessGroup PcbT

variable {Task PcbT : Type} [DecidableEq Task]

def Memory.modify (m : Memory Task PcbT) (t : Task) (f : Entity → Entity) : Memory Task PcbT :=
  { m with tcbs := update m.tcbs t { m.tcbs t with toEntity := f (m.tcbs t).toEntity } }

omit [DecidableEq Task] in
def Memory.groupRunnable (m : Memory Task PcbT) (task : Task) : Bool :=
  match (m.tcbs task).parentGroup with
  | none => false
  | some group =>
    if (m.groups group).status = .death ∨ (m.groups group).status = .futex ∨
        (m.groups group).status = .out ∨ (m.groups group).status = .wait then false
    else true

@[simp] theorem Memory.modify_same (m : Memory Task PcbT) (t : Task) (f : Entity → Entity) :
    ((m.modify t f).tcbs t).toEntity = f (m.tcbs t).toEntity := by
  simp [Memory.modify]

theorem Memory.modify_other (m : Memory Task PcbT) {t u : Task} (f : Entity → Entity) (h : u ≠ t) :
    (m.modify t f).tcbs u = m.tcbs u := by
  simp [Memory.modify, h]

@[simp] theorem Memory.modify_rip (m : Memory Task PcbT) (t u : Task) (f : Entity → Entity) :
    ((m.modify t f).tcbs u).rip = (m.tcbs u).rip := by
  obtain rfl | hOther := eq_or_ne u t
  · simp [Memory.modify]
  · rw [modify_other m f hOther]

@[simp] theorem Memory.modify_groupRunnable (m : Memory Task PcbT) (t u : Task) (f : Entity → Entity) :
    (m.modify t f).groupRunnable u = m.groupRunnable u := by
  have hGroup : ((m.modify t f).tcbs u).parentGroup = (m.tcbs u).parentGroup := by
    obtain rfl | hOther := eq_or_ne u t
    · simp [Memory.modify]
    · rw [modify_other m f hOther]
  simp only [Memory.groupRunnable, hGroup]
  rfl

def isTaskSchedulable (m : Memory Task PcbT) (task : Task) (current : Option Task) : Bool :=
  if some task = current then false
  else if (m.tcbs task).status ≠ .running ∧ (m.tcbs task).status ≠ .start ∧
      (m.tcbs task).status ≠ .create then false
  else if (m.tcbs task).taskLevel = taskIdleLevel then false
  else m.groupRunnable task

omit [DecidableEq Task] in
def isCurrentTaskRunnable (m : Memory Task PcbT) (task : Option Task) : Bool :=
  match task with
  | none => false
  | some task =>
    if (m.tcbs task).status ≠ .running ∧ (m.tcbs task).status ≠ .start ∧
        (m.tcbs task).status ≠ .create then false
    else m.groupRunnable task

def taskSchedSlice (task : Entity) : UInt64 :=
  if task.eevdfSlice < eevdfMinSliceNs then eevdfBaseSliceNs else task.eevdfSlice

def applyEevdfWakeupCredit (task : Entity) (baseVruntime : UInt64) : Entity :=
  if task.taskLevel = taskIdleLevel then task
  else
    let credit := taskSchedSlice task
    let credit := if credit < eevdfWakeupCredit then eevdfWakeupCredit else credit
    let credit := if credit > eevdfSleeperCredit then eevdfSleeperCredit else credit
    let placedVruntime := if baseVruntime > credit then baseVruntime - credit else 0
    let task := if task.eevdfVruntime > placedVruntime then
        { task with eevdfVruntime := placedVruntime } else task
    { task with eevdfDeadline := task.eevdfVruntime + taskSchedSlice task }

/-- The update of `wake_sleeping_task`; every caller drops the flag it returns. -/
def wakeSleepingTask (task : Entity) (now baseVruntime : UInt64) : Entity :=
  if task.status = .wait ∧ task.wakeupTime ≠ 0 ∧ now ≥ task.wakeupTime then
    applyEevdfWakeupCredit { task with wakeupTime := 0, status := .start } baseVruntime
  else task

def vruntimeDelta (runtimeNs : UInt64) : UInt64 :=
  (runtimeNs * eevdfDefaultWeight) / eevdfDefaultWeight

omit [DecidableEq Task] in
def deadlineBefore (m : Memory Task PcbT) (left right : Option Task) : Bool :=
  match right, left with
  | none, _ => true
  | some _, none => false
  | some right, some left =>
    if (m.tcbs left).eevdfDeadline ≠ (m.tcbs right).eevdfDeadline then
      (m.tcbs left).eevdfDeadline < (m.tcbs right).eevdfDeadline
    else (m.tcbs left).eevdfVruntime < (m.tcbs right).eevdfVruntime

def chargeCurrentEevdfRuntime (current : Entity) (runtimeNs : UInt64) : Entity :=
  if current.taskLevel = taskIdleLevel then current
  else if current.status ≠ .running then current
  else if runtimeNs = 0 then current
  else
    let current := { current with eevdfVruntime := current.eevdfVruntime + vruntimeDelta runtimeNs }
    { current with eevdfDeadline := current.eevdfVruntime + taskSchedSlice current }

/-- The locals of `queue_average_vruntime` with the memory it writes. -/
structure Average (Task PcbT : Type) where
  m : Memory Task PcbT
  sum : UInt64
  count : UInt64
  fallback : Option Task
  idle : Option Task

omit [DecidableEq Task] in
/-- The compensation base: the current task's virtual time, or the candidate's own without one. -/
def wakeBase (m : Memory Task PcbT) (current : Option Task) (candidate : Task) : UInt64 :=
  match current with
  | some current => (m.tcbs current).eevdfVruntime
  | none => (m.tcbs candidate).eevdfVruntime

def Average.wake (current : Option Task) (now : UInt64) (s : Average Task PcbT) (candidate : Task) :
    Average Task PcbT :=
  let base := wakeBase s.m current candidate
  { s with m := s.m.modify candidate (wakeSleepingTask · now base) }

def Average.record (current : Option Task) (s : Average Task PcbT) (candidate : Task) :
    Average Task PcbT :=
  let s := if some candidate ≠ current ∧ (s.m.tcbs candidate).taskLevel = taskIdleLevel then
      { s with idle := some candidate } else s
  let counted := { s with sum := s.sum + (s.m.tcbs candidate).eevdfVruntime, count := s.count + 1 }
  if some candidate = current then
    if isCurrentTaskRunnable s.m (some candidate) then counted else s
  else if isTaskSchedulable s.m candidate current then
    if deadlineBefore s.m (some candidate) s.fallback then
      { counted with fallback := some candidate } else counted
  else s

def Average.visit (current : Option Task) (now : UInt64) (s : Average Task PcbT) (candidate : Task) :
    Average Task PcbT :=
  (s.wake current now candidate).record current candidate

/-- A caller that passes NULL out parameters drops `fallback` and `idle`. -/
def queueAverageVruntime (m : Memory Task PcbT) (queue : List Task) (current : Option Task)
    (now : UInt64) : Average Task PcbT :=
  queue.foldl (Average.visit current now) { m := m, sum := 0, count := 0, fallback := none, idle := none }

omit [DecidableEq Task] in
def Average.value (s : Average Task PcbT) : UInt64 := if s.count = 0 then 0 else s.sum / s.count

def markTaskDispatched (task : Entity) (now : UInt64) : Entity :=
  let task := if task.eevdfSlice < eevdfMinSliceNs then { task with eevdfSlice := eevdfBaseSliceNs } else task
  let task := if task.eevdfDeadline = 0 then
      { task with eevdfDeadline := task.eevdfVruntime + taskSchedSlice task } else task
  { task with eevdfLastStart := now }

/-- The second pass: the earliest deadline among the candidates at or below the average. -/
def earliestEligible (m : Memory Task PcbT) (queue : List Task) (current : Option Task)
    (avgVruntime : UInt64) : Option Task :=
  queue.foldl
    (fun best candidate =>
      if isTaskSchedulable m candidate current ∧ (m.tcbs candidate).eevdfVruntime ≤ avgVruntime ∧
          deadlineBefore m (some candidate) best then some candidate else best)
    none

/-- The fallback when it passes the gate, else the second pass, else the fallback after all. -/
def Average.best (s : Average Task PcbT) (queue : List Task) (current : Option Task) : Option Task :=
  let gate := s.fallback.filter fun task => (s.m.tcbs task).eevdfVruntime ≤ s.value
  let best := if gate = none ∧ s.fallback ≠ none then earliestEligible s.m queue current s.value else gate
  best.or s.fallback

def Average.result (s : Average Task PcbT) (queue : List Task) (current : Option Task) : Option Task :=
  (s.best queue current).or (if isCurrentTaskRunnable s.m current then current else s.idle)

def markDispatched (m : Memory Task PcbT) (task : Option Task) (now : UInt64) : Memory Task PcbT :=
  match task with
  | none => m
  | some task => m.modify task (markTaskDispatched · now)

def wakeCurrent (m : Memory Task PcbT) (current : Option Task) (now : UInt64) : Memory Task PcbT :=
  match current with
  | none => m
  | some task => m.modify task fun e => wakeSleepingTask e now e.eevdfVruntime

def selectNextTaskSafe (m : Memory Task PcbT) (queue : Option (List Task)) (current : Option Task)
    (now : UInt64) : Option Task × Memory Task PcbT :=
  match queue.filter fun queue => !queue.isEmpty with
  | none => (none, m)
  | some queue =>
    let m := wakeCurrent m current now
    let scan := queueAverageVruntime m queue current now
    (scan.result queue current, markDispatched scan.m (scan.result queue current) now)

def selectNextTask (m : Memory Task PcbT) (queue : Option (List Task)) (current : Option Task)
    (now : UInt64) : Option Task × Memory Task PcbT :=
  let next := selectNextTaskSafe m queue current now
  if next.1 = none then
    (current.filter fun task =>
      (next.2.tcbs task).status = .running ∨ (next.2.tcbs task).status = .start, next.2)
  else next

end

/-! # The timer of the source kernel (`kernel/task/scheduler.cpp`)

`timer_handle` changes the statuses before it looks at the target's context and
repairs the current one when the context is invalid. As in the port, the
selection is an argument of the handler.
-/

open Sched

variable {Task PcbT : Type} [DecidableEq Task]

/-- One processor, with the two global tick counts and the switch `is_scheduler`. -/
structure Cpu (Task PcbT : Type) where
  memory : Memory Task PcbT
  schedulerQueue : Option (List Task)
  currentTask : Option Task
  schedulerTicks : UInt64
  isScheduler : Bool
  systemCpuTotalTicks : UInt64
  systemCpuBusyTicks : UInt64

def Cpu.modify (c : Cpu Task PcbT) (t : Task) (f : Entity → Entity) : Cpu Task PcbT :=
  { c with memory := c.memory.modify t f }

/-- The counting and charging of a tick, and whether the tick goes on to the selection. -/
def timerAccount (c : Cpu Task PcbT) (current : Task) : Cpu Task PcbT × Bool :=
  let c := { c with systemCpuTotalTicks := c.systemCpuTotalTicks + 1 }
  if (c.memory.tcbs current).status = .running ∧ (c.memory.tcbs current).taskLevel ≠ taskIdleLevel then
    let c := { c with systemCpuBusyTicks := c.systemCpuBusyTicks + 1 }
    let c := c.modify current fun task => { task with runtimeTicks := task.runtimeTicks + 1 }
    let c := { c with schedulerTicks := c.schedulerTicks + 1 }
    let c := c.modify current (chargeCurrentEevdfRuntime · eevdfTickNs)
    (c, !(c.schedulerTicks < timeSlice))
  else ({ c with schedulerTicks := 0 }, true)

/-- A process group whose parent is gone is handed to `kernelGroup`. -/
def adoptGroup [DecidableEq PcbT] (kernelGroup : PcbT) (m : Memory Task PcbT) (best : Task) :
    Memory Task PcbT :=
  match (m.tcbs best).parentGroup with
  | none => m
  | some group =>
    let orphan := (m.groups group).parentTask.all fun parent =>
      (m.groups parent).status = .death ∨ (m.groups parent).status = .out
    let adopted := { m.groups group with parentTask := some kernelGroup }
    if orphan then { m with groups := update m.groups group adopted } else m

/-- `change_proccess` as far as `context0.rip` is concerned: `rip` is the interrupted one. -/
def changeProccess (m : Memory Task PcbT) (rip : UInt64) (current target : Task) :
    Memory Task PcbT × UInt64 :=
  let m := { m with tcbs := update m.tcbs current { m.tcbs current with rip := rip } }
  (m, (m.tcbs target).rip)

/-- The statuses change first; an invalid target context then sets the current one back. -/
def timerSwitch (c : Cpu Task PcbT) (current best : Task) (rip : UInt64) : Cpu Task PcbT × UInt64 :=
  let c := { c with isScheduler := false }
  let c := (c.modify current Entity.leave).modify best Entity.enter
  if (c.memory.tcbs best).rip ≠ 0 then
    let switched := changeProccess c.memory rip current best
    ({ c with memory := switched.1, schedulerTicks := 0, currentTask := some best, isScheduler := true },
      switched.2)
  else
    let c := c.modify current fun task => { task with status := .running }
    ({ c with schedulerTicks := 0, isScheduler := true }, rip)

def timerHandleWith [DecidableEq PcbT] (kernelGroup : PcbT)
    (select : Cpu Task PcbT → Option Task × Memory Task PcbT) (c : Cpu Task PcbT) (rip : UInt64) :
    Cpu Task PcbT × UInt64 :=
  if !c.isScheduler then (c, rip)
  else
    match c.currentTask with
    | none => (c, rip)
    | some current =>
      let (c, goesOn) := timerAccount c current
      if !goesOn then (c, rip)
      else
        let (best, memory) := select c
        let c := { c with memory := memory }
        match best with
        | none => ({ c with schedulerTicks := 0 }, rip)
        | some best =>
          if best = current then ({ c with schedulerTicks := 0 }, rip)
          else
            let c := { c with memory := adoptGroup kernelGroup c.memory best }
            if c.currentTask ≠ some best then timerSwitch c current best rip else (c, rip)

/-- `now` is what `nanoTime` returns at the selection. -/
def timerHandle [DecidableEq PcbT] (kernelGroup : PcbT) (c : Cpu Task PcbT) (rip now : UInt64) :
    Cpu Task PcbT × UInt64 :=
  timerHandleWith kernelGroup (fun c => selectNextTask c.memory c.schedulerQueue c.currentTask now) c rip

end OpenXJ380.KernelSched
