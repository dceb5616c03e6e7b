import OpenXJ380.Sched.Kernel
import OpenXJ380.Sched.Selection

/-! # Both policies choose the same task

The two memories agree when every task has the same policy fields in both. The
scan, the gate and the second pass keep this agreement and compute the same
values, provided no process group keeps a task from being chosen.
-/

namespace OpenXJ380.SchedSelect

open LinkedList Sched ArmSched KernelSched

variable {PcbT : Type}

abbrev ArmMemory := ArmSched.Memory
abbrev KernelMemory (PcbT : Type) := KernelSched.Memory TcbT PcbT

def SameEntities (a : ArmMemory) (k : KernelMemory PcbT) : Prop :=
  ∀ t, (a.tcbs t).toEntity = (k.tcbs t).toEntity

inductive SameQueue (a : ArmMemory) : Option SchedQueue → Option (List TcbT) → Prop
  | null : SameQueue a none none
  | roster {q : SchedQueue} {roster : List TcbT} (links : Linked a.next q.head roster) :
      SameQueue a (some q) (some roster)

variable {a : ArmMemory} {k k₀ : KernelMemory PcbT} {current : Option TcbT} {s : Scan} {v : Average TcbT PcbT}
  {q : SchedQueue} {roster : List TcbT}

theorem SameEntities.modify (h : SameEntities a k) (t : TcbT)
    (f : Entity → Entity) : SameEntities (a.modify t f) (k.modify t f) := by
  intro u
  obtain rfl | hOther := eq_or_ne u t
  · rw [ArmSched.Memory.modify_same, KernelSched.Memory.modify_same, h u]
  · rw [ArmSched.Memory.modify_other a f hOther, KernelSched.Memory.modify_other k f hOther, h u]

theorem SameEntities.deadlineBefore_eq (h : SameEntities a k) (left right : Option TcbT) :
    schedDeadlineBefore a left right = deadlineBefore k left right := by
  cases right with
  | none => rfl
  | some right =>
    cases left with
    | none => rfl
    | some left => simp only [schedDeadlineBefore, deadlineBefore, h left, h right]

theorem SameEntities.schedulable_eq (h : SameEntities a k)
    {t : TcbT} (hGroup : k.groupRunnable t) (current : Option TcbT) :
    schedTaskSchedulable a t current = isTaskSchedulable k t current := by
  simp only [schedTaskSchedulable, isTaskSchedulable, schedStatusRunnable, h t, hGroup]
  split
  · rfl
  · cases (k.tcbs t).status <;> simp

theorem SameEntities.currentRunnable_eq (h : SameEntities a k) (hGroup : ∀ t, current = some t → k.groupRunnable t) :
    schedCurrentRunnable a current = isCurrentTaskRunnable k current := by
  cases current with
  | none => rfl
  | some t =>
    simp only [schedCurrentRunnable, isCurrentTaskRunnable, schedStatusRunnable, h t, hGroup t rfl]
    cases (k.tcbs t).status <;> simp

structure SameScan (k₀ : KernelMemory PcbT) (s : Scan) (v : Average TcbT PcbT) : Prop where
  entities : SameEntities s.m v.m
  groups : ∀ t, v.m.groupRunnable t = k₀.groupRunnable t
  wakes : s.m.gWakeSkip = 0
  sticky : s.m.gPickSticky = 0
  sum : s.sum = v.sum
  count : s.count = v.count
  fallback : s.fallback = v.fallback
  idle : s.idle = v.idle

theorem SameEntities.wakeBase_eq (h : SameEntities a k) (current : Option TcbT) (candidate : TcbT) :
    ArmSched.wakeBase a current candidate = KernelSched.wakeBase k current candidate := by
  cases current with
  | none => simp only [ArmSched.wakeBase, KernelSched.wakeBase, h candidate]
  | some current => simp only [ArmSched.wakeBase, KernelSched.wakeBase, h current]

section

variable (h : SameScan k₀ s v)

include h

theorem SameScan.wake (current : Option TcbT) (now : UInt64) (candidate : TcbT) :
    SameScan k₀ (s.wake current now candidate) (v.wake current now candidate) := by
  simp only [Scan.wake, Average.wake, h.wakes, if_true, h.entities.wakeBase_eq current candidate]
  refine { h with entities := ?_, groups := ?_ }
  · exact h.entities.modify candidate fun e =>
      wakeSleepingTask e now (KernelSched.wakeBase v.m current candidate)
  · intro t
    rw [KernelSched.Memory.modify_groupRunnable, h.groups]

theorem SameScan.noteIdle (current : Option TcbT) (candidate : TcbT) :
    SameScan k₀ (if some candidate ≠ current ∧ (s.m.tcbs candidate).taskLevel = taskIdleLevel then
        { s with idle := some candidate } else s)
      (if some candidate ≠ current ∧ (v.m.tcbs candidate).taskLevel = taskIdleLevel then
        { v with idle := some candidate } else v) := by
  simp only [h.entities candidate]
  split
  · exact { h with idle := rfl }
  · exact h

theorem SameScan.record {candidate : TcbT} (hGroup : k₀.groupRunnable candidate)
    (current : Option TcbT) : SameScan k₀ (s.record current candidate) (v.record current candidate) := by
  simp only [Scan.record, Average.record]
  have hNoted := h.noteIdle current candidate
  revert hNoted
  generalize (if some candidate ≠ current ∧ (s.m.tcbs candidate).taskLevel = taskIdleLevel then
    { s with idle := some candidate } else s) = s'
  generalize (if some candidate ≠ current ∧ (v.m.tcbs candidate).taskLevel = taskIdleLevel then
    { v with idle := some candidate } else v) = v'
  intro h
  have hCandidate := (h.groups candidate).trans hGroup
  have hCandidateGroup : ∀ t, some candidate = some t → v'.m.groupRunnable t :=
    fun t hEq => Option.some.inj hEq ▸ hCandidate
  have hRunnable := h.entities.currentRunnable_eq hCandidateGroup
  simp only [hRunnable, h.entities.schedulable_eq hCandidate current,
    h.entities.deadlineBefore_eq, h.fallback, h.entities candidate, h.sum, h.count]
  split
  · split
    · exact { h with sum := rfl, count := rfl, fallback := rfl }
    · exact h
  · split
    · split
      · exact { h with sum := rfl, count := rfl, fallback := rfl }
      · exact { h with sum := rfl, count := rfl, fallback := rfl }
    · exact h

theorem SameScan.visit {candidate : TcbT} (hGroup : k₀.groupRunnable candidate) (current : Option TcbT) (now : UInt64) :
    SameScan k₀ (s.visit current now candidate) (v.visit current now candidate) :=
  (h.wake current now candidate).record hGroup current

end

section

variable (hLinks : Linked a.next q.head roster)

include hLinks

theorem sameScan_of_roster (hSame : SameEntities a k)
    (hGroups : ∀ t ∈ roster, k.groupRunnable t) (hWake : a.gWakeSkip = 0)
    (hSticky : a.gPickSticky = 0) (current : Option TcbT) (now : UInt64) :
    SameScan k (schedQueueScan a q current now) (queueAverageVruntime k roster current now) := by
  rw [schedQueueScan_eq_foldl hLinks]
  apply List.foldl_rel
  · exact ⟨hSame, fun _ => rfl, hWake, hSticky, rfl, rfl, rfl, rfl⟩
  · intro t hMem s v hScan
    exact hScan.visit (hGroups t hMem) current now

theorem schedQueueScan_next (current : Option TcbT) (now : UInt64) : (schedQueueScan a q current now).m.next = a.next :=
  (schedQueueScan_sound hLinks current now).woken.next_eq

theorem earliestEligible_eq (hSame : SameEntities a k)
    (hGroups : ∀ t ∈ roster, k.groupRunnable t) (current : Option TcbT) (avg : UInt64) :
    ArmSched.earliestEligible a q current avg = KernelSched.earliestEligible k roster current avg := by
  rw [ArmSched.earliestEligible, forEach_fixed hLinks (length_le_traversalFuel hLinks), KernelSched.earliestEligible]
  apply List.foldl_rel
  · rfl
  · rintro t hMem best _ rfl
    simp only [hSame.schedulable_eq (hGroups t hMem), hSame.deadlineBefore_eq, hSame t]

end

theorem SameEntities.dispatch (h : SameEntities a k) (t : Option TcbT) (now : UInt64) :
    SameEntities (ArmSched.markDispatched a t now) (KernelSched.markDispatched k t now) := by
  cases t with
  | none => exact h
  | some t => exact h.modify t fun e => markTaskDispatched e now

theorem SameEntities.wakeCurrent (h : SameEntities a k) (current : Option TcbT) (now : UInt64) :
    SameEntities (ArmSched.wakeCurrent a current now) (KernelSched.wakeCurrent k current now) := by
  cases current with
  | none => exact h
  | some t => exact h.modify t fun e => wakeSleepingTask e now e.eevdfVruntime

@[simp] theorem armWakeCurrent_next (a : ArmMemory) (current : Option TcbT) (now : UInt64) :
    (ArmSched.wakeCurrent a current now).next = a.next := by
  cases current with
  | none => rfl
  | some t => exact ArmSched.Memory.modify_next a t _

theorem kernelWakeCurrent_groupRunnable (k : KernelMemory PcbT) (current : Option TcbT) (now : UInt64)
    (t : TcbT) : (KernelSched.wakeCurrent k current now).groupRunnable t = k.groupRunnable t := by
  cases current with
  | none => rfl
  | some u => exact KernelSched.Memory.modify_groupRunnable k u t _

theorem armWakeCurrent_switches (a : ArmMemory) (current : Option TcbT) (now : UInt64) :
    (ArmSched.wakeCurrent a current now).gWakeSkip = a.gWakeSkip ∧
      (ArmSched.wakeCurrent a current now).gPickSticky = a.gPickSticky := by
  cases current <;> exact ⟨rfl, rfl⟩

theorem head_isSome_iff (hLinks : Linked a.next q.head roster) : q.head.isSome = !roster.isEmpty := by
  rw [← hLinks.head?_eq]
  cases roster <;> rfl

theorem SameEntities.selectWithoutQueue_eq (h : SameEntities a k) (current : Option TcbT) :
    selectWithoutQueue a current = current.filter fun t =>
      (k.tcbs t).status = .running ∨ (k.tcbs t).status = .start := by
  cases current with
  | none => rfl
  | some t => simp only [selectWithoutQueue, Option.filter, h t]

theorem lastResort_eq_none (hGroup : ∀ t, current = some t → k.groupRunnable t)
    (hNot : isCurrentTaskRunnable k current = false) :
    (current.filter fun t => (k.tcbs t).status = .running ∨ (k.tcbs t).status = .start) = none := by
  cases current with
  | none => rfl
  | some t =>
    simp only [isCurrentTaskRunnable, hGroup t rfl] at hNot
    cases hStatus : (k.tcbs t).status <;> simp_all [Option.filter]

theorem SameScan.average_eq (h : SameScan k s v) : s.average = v.value := by
  rw [Scan.average, Average.value, h.sum, h.count]

theorem SameScan.best_eq (h : SameScan k s v)
    (hLinks : Linked s.m.next q.head roster) (hRoster : ∀ t ∈ roster, k.groupRunnable t)
    (current : Option TcbT) : s.best q current = v.best roster current := by
  have hGroups : ∀ t ∈ roster, v.m.groupRunnable t := fun t ht => (h.groups t).trans (hRoster t ht)
  have hGate : (s.fallback.filter fun t => (s.m.tcbs t).eevdfVruntime ≤ s.average) =
      v.fallback.filter fun t => (v.m.tcbs t).eevdfVruntime ≤ v.value := by
    rw [h.fallback, h.average_eq]
    apply congrArg (Option.filter · v.fallback)
    funext t
    simp only [h.entities t]
  simp only [Scan.best, Average.best]
  rw [hGate, h.fallback, h.average_eq, earliestEligible_eq hLinks h.entities hGroups current]

theorem SameScan.result_eq (h : SameScan k s v)
    (hLinks : Linked s.m.next q.head roster) (hRoster : ∀ t ∈ roster, k.groupRunnable t)
    (hCurrent : ∀ t, current = some t → k.groupRunnable t) : s.result q current = v.result roster current := by
  have hGroup : ∀ t, current = some t → v.m.groupRunnable t := fun t ht =>
    (h.groups t).trans (hCurrent t ht)
  rw [Scan.result, Average.result, h.best_eq hLinks hRoster current, h.entities.currentRunnable_eq hGroup, h.idle]

theorem not_runnable_of_result_none
    (h : v.result roster current = none) : isCurrentTaskRunnable v.m current = false := by
  rw [Average.result, Option.or_eq_none_iff] at h
  cases hRunnable : isCurrentTaskRunnable v.m current with
  | false => rfl
  | true =>
    rw [hRunnable, if_pos rfl] at h
    rw [h.2] at hRunnable
    cases hRunnable

theorem select_from_roster {t : TcbT} (current : Option TcbT) (now : UInt64)
    (hLinks : Linked a.next q.head (t :: roster)) (hSame : SameEntities a k)
    (hRoster : ∀ u ∈ t :: roster, k.groupRunnable u) (hCurrent : ∀ u, current = some u → k.groupRunnable u)
    (hWake : a.gWakeSkip = 0) (hSticky : a.gPickSticky = 0) :
    (schedSelectNext a (some q) current now).1 = (selectNextTask k (some (t :: roster)) current now).1 ∧
      SameEntities (schedSelectNext a (some q) current now).2
        (selectNextTask k (some (t :: roster)) current now).2 := by
  have hHead : q.head.isSome := by
    rw [head_isSome_iff hLinks]
    rfl
  obtain ⟨hWake', hSticky'⟩ := armWakeCurrent_switches a current now
  have hWoken := kernelWakeCurrent_groupRunnable k current now
  have hLinks' : Linked (ArmSched.wakeCurrent a current now).next q.head (t :: roster) := by
    rwa [armWakeCurrent_next]
  have hScan := sameScan_of_roster hLinks' (hSame.wakeCurrent current now) (fun u hu => (hWoken u).trans (hRoster u hu))
    (hWake'.trans hWake) (hSticky'.trans hSticky) current now
  have hNext := schedQueueScan_next hLinks' current now
  rw [← hNext] at hLinks'
  simp only [schedSelectNext, selectNextTask, selectNextTaskSafe, Option.filter_some, hHead,
    List.isEmpty_cons, Bool.not_false, if_true]
  generalize schedQueueScan (ArmSched.wakeCurrent a current now) q current now = s at hScan hLinks'
  generalize queueAverageVruntime (KernelSched.wakeCurrent k current now) (t :: roster) current now = v at hScan
  have hResult := hScan.result_eq hLinks' (fun u hu => (hWoken u).trans (hRoster u hu))
    (fun u hu => (hWoken u).trans (hCurrent u hu))
  have hDispatched := hScan.entities.dispatch (v.result (t :: roster) current) now
  rw [if_neg (by simp [hScan.sticky]), hResult]
  split
  · rename_i hNone
    refine ⟨?_, hDispatched⟩
    rw [hNone]
    refine (lastResort_eq_none (k := v.m) ?_ (not_runnable_of_result_none hNone)).symm
    intro u hu
    rw [hScan.groups, hWoken, hCurrent u hu]
  · exact ⟨rfl, hDispatched⟩

theorem select_same {q : Option SchedQueue} {queue : Option (List TcbT)} (current : Option TcbT) (now : UInt64)
    (hQueue : SameQueue a q queue) (hSame : SameEntities a k)
    (hRoster : ∀ roster, queue = some roster → ∀ t ∈ roster, k.groupRunnable t)
    (hCurrent : ∀ t, current = some t → k.groupRunnable t) (hWake : a.gWakeSkip = 0) (hSticky : a.gPickSticky = 0) :
    (schedSelectNext a q current now).1 = (selectNextTask k queue current now).1 ∧
      SameEntities (schedSelectNext a q current now).2 (selectNextTask k queue current now).2 := by
  cases hQueue with
  | null => exact ⟨hSame.selectWithoutQueue_eq current, hSame⟩
  | roster hLinks =>
    rename_i q roster
    cases roster with
    | nil =>
      have hHead : q.head.isSome = false := by
        rw [head_isSome_iff hLinks]
        rfl
      simp only [schedSelectNext, Option.filter_some, hHead]
      exact ⟨hSame.selectWithoutQueue_eq current, hSame⟩
    | cons t roster =>
      exact select_from_roster current now hLinks hSame (hRoster _ rfl) hCurrent hWake hSticky

/-- Both kernels choose the same task and leave the same policy fields behind. -/
theorem sched_select_next_eq_select_next_task {a : ArmMemory} {k : KernelMemory PcbT}
    {q : Option SchedQueue} {queue : Option (List TcbT)} (current : Option TcbT) (now : UInt64)
    (hQueue : SameQueue a q queue) (hSame : SameEntities a k)
    (hRoster : ∀ roster, queue = some roster → ∀ t ∈ roster, k.groupRunnable t = true)
    (hCurrent : ∀ t, current = some t → k.groupRunnable t = true)
    (hWake : a.gWakeSkip = 0) (hSticky : a.gPickSticky = 0) :
    let arm := schedSelectNext a q current now
    let kernel := selectNextTask k queue current now
    arm.1 = kernel.1 ∧ ∀ t,
      (arm.2.tcbs t).status = (kernel.2.tcbs t).status ∧
      (arm.2.tcbs t).wakeupTime = (kernel.2.tcbs t).wakeupTime ∧
      (arm.2.tcbs t).eevdfVruntime = (kernel.2.tcbs t).eevdfVruntime ∧
      (arm.2.tcbs t).eevdfDeadline = (kernel.2.tcbs t).eevdfDeadline ∧
      (arm.2.tcbs t).eevdfSlice = (kernel.2.tcbs t).eevdfSlice ∧
      (arm.2.tcbs t).eevdfLastStart = (kernel.2.tcbs t).eevdfLastStart := by
  obtain ⟨hChoice, hAfter⟩ := select_same current now hQueue hSame hRoster hCurrent hWake hSticky
  refine ⟨hChoice, fun t => ?_⟩
  rw [hAfter t]
  exact ⟨rfl, rfl, rfl, rfl, rfl, rfl⟩

/-! A sleeper that is due and an idle current task, in both memories. -/

def sampleIdle : TcbT := ⟨0x1000, firstTcb_ne_zero⟩

def sampleSleeper : TcbT := ⟨0x2000, secondTcb_ne_zero⟩

def sampleEntity (t : TcbT) : Entity :=
  { taskLevel := if t = sampleIdle then taskIdleLevel else taskKernelLevel
    status := if t = sampleIdle then .running else .wait
    wakeupTime := 7, eevdfVruntime := 9000000, eevdfDeadline := 13000000, eevdfSlice := 4000000
    eevdfLastStart := 0, runtimeTicks := 0 }

def sampleArm : ArmMemory :=
  { tcbs := fun t =>
      { toEntity := sampleEntity t, ctx := { r := fun _ => 0, sp := 0, lr := 0, pc := 0, cpsr := 0 }
        kernelStack := 0, kstackBase := 0, ownsKstack := false
        schedNext := if t = sampleIdle then some sampleSleeper else none }
    gWakeSkip := 0, gPickSticky := 0 }

def sampleKernel : KernelMemory Unit :=
  { tcbs := fun t => { toEntity := sampleEntity t, parentGroup := some (), rip := 0 }
    groups := fun _ => { status := .running, parentTask := none } }

theorem sampleQueue : SameQueue sampleArm (some { head := some sampleIdle, count := 2 })
    (some [sampleIdle, sampleSleeper]) :=
  SameQueue.roster (.cons (.cons .nil))

theorem select_wakes_sleeper :
    (selectNextTask sampleKernel (some [sampleIdle, sampleSleeper]) (some sampleIdle) 8).1 =
      some sampleSleeper := by
  rw [← (sched_select_next_eq_select_next_task (some sampleIdle) 8 sampleQueue (fun _ => rfl)
    (fun _ _ _ _ => rfl) (fun _ _ => rfl) rfl rfl).1]
  decide

end OpenXJ380.SchedSelect
