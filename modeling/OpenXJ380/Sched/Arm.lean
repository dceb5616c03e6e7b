import OpenXJ380.Sched.Entity

/-! # The scheduling policy of the ARM port (`arch/arm32/src/sched.c`)

The ready queue threads its links through the task control blocks. A NULL
pointer is `none`, and a function the source calls on a possibly NULL task takes
an option here.
-/

namespace OpenXJ380.ArmSched

open LinkedList Sched

def schedTickNs : UInt64 := 1000000
def schedTimeSlice : UInt64 := 4
def schedMinSlice : UInt64 := 1
def schedBaseSliceNs : UInt64 := schedTimeSlice * schedTickNs
def schedMinSliceNs : UInt64 := schedMinSlice * schedTickNs
def schedWakeupCredit : UInt64 := schedBaseSliceNs
def schedSleeperCredit : UInt64 := schedBaseSliceNs * 2
def schedDefaultWeight : UInt64 := 1024

structure ArmTaskCtx where
  r : Fin 13 → UInt32
  sp : UInt32
  lr : UInt32
  pc : UInt32
  cpsr : UInt32

structure Tcb extends Entity where
  ctx : ArmTaskCtx
  kernelStack : UInt32
  kstackBase : UInt32
  ownsKstack : Bool
  schedNext : Option TcbT

structure SchedQueue where
  head : Option TcbT
  count : UInt32
  deriving DecidableEq

/-- The task control blocks in memory and the two test switches the policy reads. -/
structure Memory where
  tcbs : TcbT → Tcb
  gWakeSkip : UInt32
  gPickSticky : UInt32

def Memory.modify (m : Memory) (t : TcbT) (f : Entity → Entity) : Memory :=
  { m with tcbs := Function.update m.tcbs t { m.tcbs t with toEntity := f (m.tcbs t).toEntity } }

def Memory.next (m : Memory) (t : TcbT) : Option TcbT := (m.tcbs t).schedNext

def traversalFuel : Nat := 2 ^ 32

@[simp] theorem Memory.modify_same (m : Memory) (t : TcbT) (f : Entity → Entity) :
    ((m.modify t f).tcbs t).toEntity = f (m.tcbs t).toEntity := by
  simp [Memory.modify]

theorem Memory.modify_other (m : Memory) {t u : TcbT} (f : Entity → Entity) (h : u ≠ t) :
    (m.modify t f).tcbs u = m.tcbs u := by
  simp [Memory.modify, h]

@[simp] theorem Memory.modify_next (m : Memory) (t : TcbT) (f : Entity → Entity) : (m.modify t f).next = m.next := by
  funext u
  obtain rfl | hOther := eq_or_ne u t
  · simp [Memory.modify, Memory.next]
  · rw [Memory.next, modify_other m f hOther, Memory.next]

theorem length_le_traversalFuel {next : TcbT → Option TcbT} {head : Option TcbT} {roster : List TcbT}
    (h : Linked next head roster) : roster.length ≤ traversalFuel :=
  Nat.le_of_lt (roster_length_lt h.nodup)

def schedSlice (t : Entity) : UInt64 :=
  if t.eevdfSlice < schedMinSliceNs then schedBaseSliceNs else t.eevdfSlice

def schedVruntimeDelta (runtimeNs : UInt64) : UInt64 :=
  (runtimeNs * schedDefaultWeight) / schedDefaultWeight

def schedDeadlineBefore (m : Memory) (left right : Option TcbT) : Bool :=
  match right, left with
  | none, _ => true
  | some _, none => false
  | some right, some left =>
    if (m.tcbs left).eevdfDeadline ≠ (m.tcbs right).eevdfDeadline then
      (m.tcbs left).eevdfDeadline < (m.tcbs right).eevdfDeadline
    else (m.tcbs left).eevdfVruntime < (m.tcbs right).eevdfVruntime

def schedAccountRun (t : Entity) (runtimeNs : UInt64) : Entity :=
  if t.taskLevel = taskIdleLevel then t
  else if t.status ≠ .running then t
  else if runtimeNs = 0 then t
  else
    let t := { t with eevdfVruntime := t.eevdfVruntime + schedVruntimeDelta runtimeNs }
    { t with eevdfDeadline := t.eevdfVruntime + schedSlice t }

def schedApplyWakeupCredit (t : Entity) (baseVruntime : UInt64) : Entity :=
  if t.taskLevel = taskIdleLevel then t
  else
    let credit := schedSlice t
    let credit := if credit < schedWakeupCredit then schedWakeupCredit else credit
    let credit := if credit > schedSleeperCredit then schedSleeperCredit else credit
    let placed := if baseVruntime > credit then baseVruntime - credit else 0
    let t := if t.eevdfVruntime > placed then { t with eevdfVruntime := placed } else t
    { t with eevdfDeadline := t.eevdfVruntime + schedSlice t }

/-- The update of `sched_wake_if_due`; every caller drops the flag it returns. -/
def schedWakeIfDue (t : Entity) (now baseVruntime : UInt64) : Entity :=
  if t.status = .wait ∧ t.wakeupTime ≠ 0 ∧ now ≥ t.wakeupTime then
    schedApplyWakeupCredit { t with wakeupTime := 0, status := .start } baseVruntime
  else t

def schedEntityInit (t : Tcb) (baseVruntime now : UInt64) : Tcb :=
  let t := { t with eevdfSlice := schedSlice t.toEntity }
  let t := { t with
    eevdfVruntime := if baseVruntime > schedWakeupCredit then baseVruntime - schedWakeupCredit else 0 }
  { t with
    eevdfDeadline := t.eevdfVruntime + t.eevdfSlice, eevdfLastStart := now, runtimeTicks := 0,
    schedNext := none }

def schedMarkDispatched (t : Entity) (now : UInt64) : Entity :=
  let t := if t.eevdfSlice < schedMinSliceNs then { t with eevdfSlice := schedBaseSliceNs } else t
  let t := if t.eevdfDeadline = 0 then { t with eevdfDeadline := t.eevdfVruntime + schedSlice t } else t
  { t with eevdfLastStart := now }

def schedStatusRunnable (st : TaskStatus) : Bool :=
  st = .running ∨ st = .start ∨ st = .create

def schedTaskSchedulable (m : Memory) (t : TcbT) (current : Option TcbT) : Bool :=
  if some t = current then false
  else if !schedStatusRunnable (m.tcbs t).status then false
  else if (m.tcbs t).taskLevel = taskIdleLevel then false
  else true

def schedCurrentRunnable (m : Memory) (t : Option TcbT) : Bool :=
  match t with
  | none => false
  | some t => schedStatusRunnable (m.tcbs t).status

/-- The tasks on the queue, in the order every loop of the source visits them. -/
def Memory.roster (m : Memory) (q : SchedQueue) : List TcbT := nodes m.next traversalFuel q.head

def schedQueueAppend (m : Memory) (q : SchedQueue) (t : TcbT) : Memory × SchedQueue × Bool :=
  if t ∈ m.roster q then (m, q, false)
  else
    let m' := match (m.roster q).getLast? with
      | none => m
      | some last =>
        { m with tcbs := Function.update m.tcbs last { m.tcbs last with schedNext := some t } }
    let q' := { q with head := if (m.roster q).isEmpty then some t else q.head, count := q.count + 1 }
    ({ m' with tcbs := Function.update m'.tcbs t { m'.tcbs t with schedNext := none } }, q', true)

def schedQueueAvgVruntime (m : Memory) (q : SchedQueue) (ignore : Option TcbT) (fallback : UInt64) :
    UInt64 :=
  let total := forEach (fun _ : UInt64 × UInt64 => m.next)
    (fun total t =>
      if some t = ignore then total else (total.1 + (m.tcbs t).eevdfVruntime, total.2 + 1))
    traversalFuel q.head (0, 0)
  if total.2 = 0 then fallback else total.1 / total.2

/-- The locals of `sched_queue_scan` with the memory it writes. -/
structure Scan where
  m : Memory
  sum : UInt64
  count : UInt64
  fallback : Option TcbT
  idle : Option TcbT

/-- The compensation base: the current task's virtual time, or the candidate's own without one. -/
def wakeBase (m : Memory) (current : Option TcbT) (candidate : TcbT) : UInt64 :=
  match current with
  | some current => (m.tcbs current).eevdfVruntime
  | none => (m.tcbs candidate).eevdfVruntime

def Scan.wake (current : Option TcbT) (now : UInt64) (s : Scan) (candidate : TcbT) : Scan :=
  let base := wakeBase s.m current candidate
  { s with m := if s.m.gWakeSkip = 0 then s.m.modify candidate (schedWakeIfDue · now base) else s.m }

def Scan.record (current : Option TcbT) (s : Scan) (candidate : TcbT) : Scan :=
  let s := if some candidate ≠ current ∧ (s.m.tcbs candidate).taskLevel = taskIdleLevel then
      { s with idle := some candidate } else s
  let counted := { s with sum := s.sum + (s.m.tcbs candidate).eevdfVruntime, count := s.count + 1 }
  if some candidate = current then
    if schedCurrentRunnable s.m (some candidate) then counted else s
  else if schedTaskSchedulable s.m candidate current then
    if schedDeadlineBefore s.m (some candidate) s.fallback then
      { counted with fallback := some candidate } else counted
  else s

def Scan.visit (current : Option TcbT) (now : UInt64) (s : Scan) (candidate : TcbT) : Scan :=
  (s.wake current now candidate).record current candidate

def schedQueueScan (m : Memory) (q : SchedQueue) (current : Option TcbT) (now : UInt64) : Scan :=
  forEach (fun s => s.m.next) (Scan.visit current now) traversalFuel q.head
    { m := m, sum := 0, count := 0, fallback := none, idle := none }

def Scan.average (s : Scan) : UInt64 := if s.count = 0 then 0 else s.sum / s.count

/-- The second pass: the earliest deadline among the candidates at or below the average. -/
def earliestEligible (m : Memory) (q : SchedQueue) (current : Option TcbT) (avg : UInt64) : Option TcbT :=
  forEach (fun _ : Option TcbT => m.next)
    (fun best candidate =>
      if schedTaskSchedulable m candidate current ∧ (m.tcbs candidate).eevdfVruntime ≤ avg ∧
          schedDeadlineBefore m (some candidate) best then some candidate else best)
    traversalFuel q.head none

/-- The fallback when it passes the gate, else the second pass, else the fallback after all. -/
def Scan.best (s : Scan) (q : SchedQueue) (current : Option TcbT) : Option TcbT :=
  let gate := s.fallback.filter fun t => (s.m.tcbs t).eevdfVruntime ≤ s.average
  let best := if gate = none ∧ s.fallback ≠ none then earliestEligible s.m q current s.average else gate
  best.or s.fallback

def Scan.result (s : Scan) (q : SchedQueue) (current : Option TcbT) : Option TcbT :=
  (s.best q current).or (if schedCurrentRunnable s.m current then current else s.idle)

def markDispatched (m : Memory) (t : Option TcbT) (now : UInt64) : Memory :=
  match t with
  | none => m
  | some t => m.modify t (schedMarkDispatched · now)

def wakeCurrent (m : Memory) (current : Option TcbT) (now : UInt64) : Memory :=
  match current with
  | none => m
  | some t => m.modify t fun e => schedWakeIfDue e now e.eevdfVruntime

/-- Without a queue to scan, only a current task that is RUNNING or START is returned. -/
def selectWithoutQueue (m : Memory) (current : Option TcbT) : Option TcbT :=
  current.filter fun t => (m.tcbs t).status = .running ∨ (m.tcbs t).status = .start

def schedSelectNext (m : Memory) (q : Option SchedQueue) (current : Option TcbT) (now : UInt64) :
    Option TcbT × Memory :=
  match q.filter fun q => q.head.isSome with
  | none => (selectWithoutQueue m current, m)
  | some q =>
    let m := wakeCurrent m current now
    let scan := schedQueueScan m q current now
    if scan.m.gPickSticky ≠ 0 ∧ schedCurrentRunnable scan.m current ∧
        current.all (fun t => (scan.m.tcbs t).taskLevel ≠ taskIdleLevel) then
      (current, markDispatched { scan.m with gPickSticky := scan.m.gPickSticky - 1 } current now)
    else (scan.result q current, markDispatched scan.m (scan.result q current) now)

end OpenXJ380.ArmSched
