import OpenXJ380.Sched.Select

/-! # The running half of the port's scheduler (`arch/arm32/src/sched_kern.c`)

One CPU: its ready queue, its current task and the counters of its `percpu_t`.
The tick takes the selection as an argument, so that what a tick does with a
choice can be stated apart from how the choice is made.
-/

namespace OpenXJ380.ArmSched

open Function

section

open LinkedList Sched

def armCpsrKernel : UInt32 := 0x153
def armCpsrMustMatch : UInt32 := 0x11F
def armExcFrameBytes : UInt32 := 64

structure ArmExcFrame where
  address : UInt32
  r : Fin 13 → UInt32
  svcLr : UInt32
  ret : UInt32
  spsr : UInt32

structure Cpu where
  memory : Memory
  queue : SchedQueue
  currentTask : Option TcbT
  schedulerTicks : UInt64
  switched : UInt32
  preempted : UInt32
  invalidCtx : UInt32
  gSchedEnabled : UInt32
  gRelocSkip : UInt32
  gExitLegacy : UInt32
  gExitCount : UInt32
  gExitRefused : UInt32

def Memory.set (m : Memory) (t : TcbT) (tcb : Tcb) : Memory :=
  { m with tcbs := update m.tcbs t tcb }

@[simp] theorem Memory.set_same (m : Memory) (t : TcbT) (tcb : Tcb) : (m.set t tcb).tcbs t = tcb := by
  simp [Memory.set]

theorem Memory.set_other (m : Memory) {t u : TcbT} (tcb : Tcb) (h : u ≠ t) : (m.set t tcb).tcbs u = m.tcbs u := by
  simp [Memory.set, h]

def Cpu.modify (c : Cpu) (t : TcbT) (f : Entity → Entity) : Cpu :=
  { c with memory := c.memory.modify t f }

def armCpsrMust (cpsr : UInt32) : UInt32 := cpsr &&& armCpsrMustMatch

def schedCtxSwitchable (t : Tcb) : Bool :=
  if t.ctx.pc = 0 then false
  else if armCpsrMust t.ctx.cpsr ≠ armCpsrMust armCpsrKernel then false
  else if t.ctx.sp = 0 ∨ t.ctx.sp &&& 3 ≠ 0 then false
  else if !t.ownsKstack then true
  else if t.ctx.sp ≤ t.kstackBase ∨ t.ctx.sp > t.kernelStack then false
  else if t.ctx.sp - armExcFrameBytes < t.kstackBase then false
  else true

def schedCtxFromFrame (t : Tcb) (f : ArmExcFrame) : Tcb :=
  { t with ctx :=
      { r := f.r, sp := f.address + armExcFrameBytes, lr := f.svcLr, pc := f.ret, cpsr := f.spsr } }

def schedFrameFor (t : Tcb) : Option UInt32 :=
  if schedCtxSwitchable t then some (t.ctx.sp - armExcFrameBytes) else none

def schedFrameFromCtx (t : Tcb) (address : UInt32) : ArmExcFrame :=
  { address := address, r := t.ctx.r, svcLr := t.ctx.lr, ret := t.ctx.pc, spsr := t.ctx.cpsr }

@[simp] theorem Cpu.modify_next (c : Cpu) (t : TcbT) (f : Entity → Entity) :
    (c.modify t f).memory.next = c.memory.next :=
  Memory.modify_next c.memory t f

@[simp] theorem Memory.set_ctx_next (m : Memory) (t : TcbT) (f : ArmExcFrame) :
    (m.set t (schedCtxFromFrame (m.tcbs t) f)).next = m.next := by
  funext u
  obtain rfl | hOther := eq_or_ne u t
  · rw [Memory.next, Memory.set_same, Memory.next]
    rfl
  · rw [Memory.next, Memory.set_other m _ hOther, Memory.next]

def chargeTick (t : Entity) : Entity :=
  let t := schedAccountRun t schedTickNs
  { t with runtimeTicks := t.runtimeTicks + 1 }

/-- The time-slice accounting of a tick, and whether the tick goes on to the selection. -/
def tickAccount (c : Cpu) (cur : TcbT) : Cpu × Bool :=
  if (c.memory.tcbs cur).status = .running ∧ (c.memory.tcbs cur).taskLevel ≠ taskIdleLevel then
    let c := { c with schedulerTicks := c.schedulerTicks + 1 }
    let c := c.modify cur chargeTick
    (c, !(c.schedulerTicks < schedTimeSlice))
  else ({ c with schedulerTicks := 0 }, true)

def tickSwitch (c : Cpu) (cur next : TcbT) (frame : ArmExcFrame) : Cpu × ArmExcFrame :=
  if !schedCtxSwitchable (c.memory.tcbs next) then
    ({ c with schedulerTicks := 0, invalidCtx := c.invalidCtx + 1 }, frame)
  else
    match schedFrameFor (c.memory.tcbs next) with
    | none => ({ c with schedulerTicks := 0, invalidCtx := c.invalidCtx + 1 }, frame)
    | some address =>
      let c := (c.modify cur Entity.leave).modify next Entity.enter
      let c := { c with memory := c.memory.set cur (schedCtxFromFrame (c.memory.tcbs cur) frame) }
      let nf := schedFrameFromCtx (c.memory.tcbs next) address
      let c := { c with
        currentTask := some next, schedulerTicks := 0, switched := c.switched + 1
        preempted := if (c.memory.tcbs cur).taskLevel ≠ taskIdleLevel then c.preempted + 1
          else c.preempted }
      (c, if c.gRelocSkip ≠ 0 then frame else nf)

def schedTickWith (select : Cpu → Option TcbT × Memory) (c : Cpu) (frame : ArmExcFrame) :
    Cpu × ArmExcFrame :=
  if c.gSchedEnabled = 0 then (c, frame)
  else
    match c.currentTask with
    | none => (c, frame)
    | some cur =>
      let (c, goesOn) := tickAccount c cur
      if !goesOn then (c, frame)
      else
        let (next, memory) := select c
        let c := { c with memory := memory }
        match next with
        | none => ({ c with schedulerTicks := 0 }, frame)
        | some next =>
          if next = cur then ({ c with schedulerTicks := 0 }, frame) else tickSwitch c cur next frame

/-- `now` is what `timer_read_ns` returns at the selection. -/
def schedTick (c : Cpu) (frame : ArmExcFrame) (now : UInt64) : Cpu × ArmExcFrame :=
  schedTickWith (fun c => schedSelectNext c.memory (some c.queue) c.currentTask now) c frame

def schedYield (c : Cpu) (frame : ArmExcFrame) (now : UInt64) : Cpu × ArmExcFrame :=
  schedTick { c with schedulerTicks := schedTimeSlice } frame now

/-- `sched_sleep_ns` up to its loop, or `none` where it only yields. -/
def schedSleepBegin (c : Cpu) (ns now : UInt64) : Option Cpu :=
  if c.gSchedEnabled = 0 ∨ ns = 0 then none
  else
    match c.currentTask with
    | none => none
    | some cur =>
      if (c.memory.tcbs cur).taskLevel = taskIdleLevel then none
      else
        let wakeup := if now + ns < now then 0 - 1 else now + ns
        some (c.modify cur fun t => { t with wakeupTime := wakeup, status := .wait })

def schedWakeTask (c : Cpu) (t : Option TcbT) : Cpu :=
  match t with
  | none => c
  | some t =>
    if (c.memory.tcbs t).status ≠ .wait then c
    else
      let base := match c.currentTask with
        | some cur =>
          if (c.memory.tcbs cur).taskLevel ≠ taskIdleLevel then (c.memory.tcbs cur).eevdfVruntime else 0
        | none => 0
      c.modify t fun e => schedApplyWakeupCredit { e with wakeupTime := 0, status := .start } base

/-- `sched_thread_exit` up to its final yield, or `none` where it returns to its caller. -/
def schedThreadExit (c : Cpu) : Cpu × Bool :=
  match c.currentTask with
  | none => (c, false)
  | some cur =>
    if (c.memory.tcbs cur).taskLevel = taskIdleLevel then
      ({ c with gExitRefused := c.gExitRefused + 1 }, false)
    else if c.gExitLegacy ≠ 0 then
      (c.modify cur fun t => { t with status := .wait, wakeupTime := 0 }, true)
    else
      ({ c.modify cur fun t => { t with status := .death } with gExitCount := c.gExitCount + 1 }, true)

/-- The stack that `kstack_alloc` handed out. -/
structure ThreadStack where
  base : UInt32
  top : UInt32

def zeroedTcb : Tcb :=
  { taskLevel := 0, status := .create, wakeupTime := 0, eevdfVruntime := 0, eevdfDeadline := 0
    eevdfSlice := 0, eevdfLastStart := 0, runtimeTicks := 0
    ctx := { r := fun _ => 0, sp := 0, lr := 0, pc := 0, cpsr := 0 }
    kernelStack := 0, kstackBase := 0, ownsKstack := false, schedNext := none }

def kthreadTcb (entry arg : UInt32) (stack : ThreadStack) (level : Int32) : Tcb :=
  { zeroedTcb with
    taskLevel := level, status := .start, kernelStack := stack.top, kstackBase := stack.base
    ownsKstack := true
    ctx := { r := fun i => if i = 0 then arg else 0, sp := stack.top, lr := 0, pc := entry
             cpsr := armCpsrKernel } }

def kthreadInit (m : Memory) (q : SchedQueue) (t : TcbT) (tcb : Tcb) (now : UInt64) : Memory :=
  let m := m.set t tcb
  m.set t (schedEntityInit (m.tcbs t) (schedQueueAvgVruntime m q none 0) now)

/-- `tcb` and `stack` are what the heap and the stack pool returned; `q` is the queue picked. -/
def schedKthreadCreateLevel (m : Memory) (q : SchedQueue) (tcb : Option TcbT)
    (stack : Option ThreadStack) (entry arg : UInt32) (level : Int32) (now : UInt64) :
    Memory × SchedQueue × Option TcbT :=
  if entry = 0 then (m, q, none)
  else
    match tcb with
    | none => (m, q, none)
    | some t =>
      let m := m.set t zeroedTcb
      match stack with
      | none => (m, q, none)
      | some stack =>
        let m := kthreadInit m q t (kthreadTcb entry arg stack level) now
        let (m, q, ok) := schedQueueAppend m q t
        if ok then (m, q, some t) else (m, q, none)

/-- `sched_register_boot_idle` on an empty queue; `sp` is the stack pointer it runs on. -/
def registerIdle (c : Cpu) (idle : TcbT) (sp : UInt32) (now : UInt64) : Cpu :=
  let tcb := { zeroedTcb with
    taskLevel := taskIdleLevel, status := .running, kernelStack := sp
    ctx := { zeroedTcb.ctx with sp := sp, cpsr := armCpsrKernel } }
  let m := c.memory.set idle (schedEntityInit tcb 0 now)
  let (m, q, ok) := schedQueueAppend m c.queue idle
  { c with memory := m, queue := q, currentTask := if ok then some idle else none }

end

/-! # Appending to the ready queue

The port refuses a task that is already queued. A fresh one is linked behind the
last, and no policy field changes.
-/

open LinkedList Sched

theorem Memory.roster_eq {m : Memory} {q : SchedQueue} {roster : List TcbT}
    (h : Linked m.next q.head roster) : m.roster q = roster :=
  nodes_eq h (length_le_traversalFuel h)

def Memory.link (m : Memory) (t : TcbT) (next : Option TcbT) : Memory :=
  m.set t { m.tcbs t with schedNext := next }

theorem Memory.link_entity (m : Memory) (t u : TcbT) (next : Option TcbT) :
    ((m.link t next).tcbs u).toEntity = (m.tcbs u).toEntity := by
  obtain rfl | hOther := eq_or_ne u t
  · rw [Memory.link, Memory.set_same]
  · rw [Memory.link, Memory.set_other m _ hOther]

theorem Memory.link_next (m : Memory) (t : TcbT) (next : Option TcbT) :
    (m.link t next).next = update m.next t next := by
  funext u
  obtain rfl | hOther := eq_or_ne u t
  · rw [update_self, Memory.next, Memory.link, Memory.set_same]
  · rw [update_of_ne hOther, Memory.next, Memory.link, Memory.set_other m _ hOther, Memory.next]

theorem schedQueueAppend_eq (m : Memory) (q : SchedQueue) (t : TcbT) : schedQueueAppend m q t =
      if t ∈ m.roster q then (m, q, false) else match (m.roster q).getLast? with
        | none => (m.link t none, { head := some t, count := q.count + 1 }, true)
        | some last => ((m.link last (some t)).link t none, { q with count := q.count + 1 }, true) := by
  rw [schedQueueAppend]
  split
  · rfl
  · cases hRoster : m.roster q with
    | nil => rfl
    | cons u roster =>
      rw [List.getLast?_cons]
      rfl

theorem schedQueueAppend_entity (m : Memory) (q : SchedQueue) (t u : TcbT) :
    ((schedQueueAppend m q t).1.tcbs u).toEntity = (m.tcbs u).toEntity := by
  rw [schedQueueAppend_eq]
  split
  · rfl
  · split
    · rw [Memory.link_entity]
    · rw [Memory.link_entity, Memory.link_entity]

theorem schedQueueAppend_fresh {m : Memory} {q : SchedQueue} {roster : List TcbT} {t : TcbT}
    (hLinks : Linked m.next q.head roster) (hFresh : t ∉ roster) : (schedQueueAppend m q t).2.2 ∧
      Linked (schedQueueAppend m q t).1.next (schedQueueAppend m q t).2.1.head (roster ++ [t]) ∧
      (schedQueueAppend m q t).2.1.count = q.count + 1 := by
  rw [schedQueueAppend_eq, Memory.roster_eq hLinks, if_neg hFresh]
  obtain rfl | ⟨front, last, rfl⟩ := List.eq_nil_or_concat roster
  · refine ⟨rfl, ?_, rfl⟩
    change Linked (m.link t none).next (some t) [t]
    apply Linked.cons
    rw [Memory.link_next, update_self]
    exact Linked.nil
  · rw [List.concat_eq_append] at hLinks hFresh ⊢
    rw [List.getLast?_concat]
    refine ⟨rfl, ?_, rfl⟩
    rw [Memory.link_next, Memory.link_next]
    exact hLinks.append hFresh

theorem kthreadInit_status (m : Memory) (q : SchedQueue) (t : TcbT) (tcb : Tcb) (now : UInt64) :
    ((kthreadInit m q t tcb now).tcbs t).status = tcb.status := by
  rw [kthreadInit, Memory.set_same, Memory.set_same]
  rfl

end OpenXJ380.ArmSched

/-! # Where a new thread starts

The port averages the virtual time of every member of the roster, the source
kernel only that of the members it could schedule. A new thread starts one
credit below the average, so the two agree exactly when the averages do.
-/

namespace OpenXJ380.SchedNewThread

open LinkedList Sched ArmSched KernelSched SchedSelect

variable {PcbT : Type}

variable {a : ArmMemory} {q : SchedQueue} {roster : List TcbT} {k : KernelMemory PcbT} {now : UInt64} {t : TcbT}

def startOf (base : UInt64) : UInt64 :=
  if base > schedWakeupCredit then base - schedWakeupCredit else 0

end OpenXJ380.SchedNewThread
