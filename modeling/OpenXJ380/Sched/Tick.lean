import OpenXJ380.Sched.ArmKern

/-! # One tick in both kernels

The accounting and a completed switch have the same effect. A refused switch
does not: the source kernel has changed the statuses by then and undoes only the
current task's, always to RUNNING.
-/

namespace OpenXJ380.SchedTick

open LinkedList Sched ArmSched KernelSched SchedSelect

variable {PcbT : Type}

structure SameCpu (a : ArmSched.Cpu) (k : KernelSched.Cpu TcbT PcbT) : Prop where
  entities : SameEntities a.memory k.memory
  currentTask : a.currentTask = k.currentTask
  schedulerTicks : a.schedulerTicks = k.schedulerTicks

/-- Both selections choose the same task, whose context is valid in both or invalid in both. -/
structure SameChoice (selectArm : ArmSched.Cpu → Option TcbT × ArmMemory)
    (selectKernel : KernelSched.Cpu TcbT PcbT → Option TcbT × KernelMemory PcbT)
    (a : ArmSched.Cpu) (k : KernelSched.Cpu TcbT PcbT) : Prop where
  next : (selectArm a).1 = (selectKernel k).1
  entities : SameEntities (selectArm a).2 (selectKernel k).2
  target : ∀ t, (selectArm a).1 = some t →
    (schedCtxSwitchable ((selectArm a).2.tcbs t) = true ↔ ((selectKernel k).2.tcbs t).rip ≠ 0)

/-- The tick gets as far as a task other than the current one, whose context is invalid. -/
structure Refuses (select : ArmSched.Cpu → Option TcbT × ArmMemory) (a : ArmSched.Cpu)
    (cur next : TcbT) : Prop where
  current : a.currentTask = some cur
  sliceOver : (tickAccount a cur).2 = true
  chosen : (select (tickAccount a cur).1).1 = some next
  other : next ≠ cur
  invalid : schedCtxSwitchable ((select (tickAccount a cur).1).2.tcbs next) = false

/-- Same statuses and same current task; a refused tick leaves the statuses it found. -/
structure TickAgrees [DecidableEq PcbT] (kernelGroup : PcbT)
    (selectArm : ArmSched.Cpu → Option TcbT × ArmMemory)
    (selectKernel : KernelSched.Cpu TcbT PcbT → Option TcbT × KernelMemory PcbT)
    (a : ArmSched.Cpu) (k : KernelSched.Cpu TcbT PcbT) (frame : ArmExcFrame) (rip : UInt64) : Prop where
  statuses : ∀ t, ((schedTickWith selectArm a frame).1.memory.tcbs t).status =
    ((timerHandleWith kernelGroup selectKernel k rip).1.memory.tcbs t).status
  currentTask : (schedTickWith selectArm a frame).1.currentTask =
    (timerHandleWith kernelGroup selectKernel k rip).1.currentTask
  refusal : ∀ cur next, Refuses selectArm a cur next → ∀ t,
    ((schedTickWith selectArm a frame).1.memory.tcbs t).status =
        ((selectArm (tickAccount a cur).1).2.tcbs t).status ∧
      ((timerHandleWith kernelGroup selectKernel k rip).1.memory.tcbs t).status =
        ((selectKernel (timerAccount k cur).1).2.tcbs t).status

/-- Undoing a refused switch restores what was there only for a RUNNING current task and a
target that the switch would not have started. -/
def RefusalHarmless (select : ArmSched.Cpu → Option TcbT × ArmMemory) (a : ArmSched.Cpu) : Prop :=
  ∀ cur next, Refuses select a cur next →
    ((select (tickAccount a cur).1).2.tcbs cur).status = .running ∧
      ((select (tickAccount a cur).1).2.tcbs next).status ≠ .start ∧
      ((select (tickAccount a cur).1).2.tcbs next).status ≠ .create

theorem charge_counted (t : Entity) (runtimeNs : UInt64) :
    chargeCurrentEevdfRuntime { t with runtimeTicks := t.runtimeTicks + 1 } runtimeNs =
      { schedAccountRun t runtimeNs with runtimeTicks := (schedAccountRun t runtimeNs).runtimeTicks + 1 } := by
  simp only [schedAccountRun, chargeCurrentEevdfRuntime]
  split_ifs <;> rfl

theorem kernelModify_modify (k : KernelMemory PcbT) (t : TcbT) (f g : Entity → Entity) :
    (k.modify t f).modify t g = k.modify t (g ∘ f) := by
  simp [KernelSched.Memory.modify]

variable {a : ArmSched.Cpu} {k : KernelSched.Cpu TcbT PcbT}

theorem account_same (h : SameCpu a k) (cur : TcbT) : SameCpu (tickAccount a cur).1 (timerAccount k cur).1 ∧
      (tickAccount a cur).2 = (timerAccount k cur).2 := by
  simp only [tickAccount, timerAccount, h.entities cur]
  split
  · refine ⟨⟨?_, h.currentTask, ?_⟩, ?_⟩
    · simp only [ArmSched.Cpu.modify, KernelSched.Cpu.modify, kernelModify_modify]
      have hCounted : (fun t : Entity => chargeCurrentEevdfRuntime t eevdfTickNs) ∘
          (fun t : Entity => { t with runtimeTicks := t.runtimeTicks + 1 }) = chargeTick :=
        funext fun t => charge_counted t eevdfTickNs
      rw [hCounted]
      exact h.entities.modify cur _
    · simp only [ArmSched.Cpu.modify, KernelSched.Cpu.modify, h.schedulerTicks]
    · simp only [ArmSched.Cpu.modify, KernelSched.Cpu.modify, h.schedulerTicks]
      rfl
  · exact ⟨⟨h.entities, h.currentTask, rfl⟩, rfl⟩

theorem adoptGroup_tcbs [DecidableEq PcbT] (kernelGroup : PcbT) (k : KernelMemory PcbT) (best : TcbT) :
    (adoptGroup kernelGroup k best).tcbs = k.tcbs := by
  simp only [adoptGroup]
  split
  · rfl
  · split <;> rfl

theorem armSet_ctx_entities {a : ArmMemory} {k : KernelMemory PcbT} (h : SameEntities a k) (cur : TcbT)
    (frame : ArmExcFrame) (rip : UInt64) (best : TcbT) :
    SameEntities (a.set cur (schedCtxFromFrame (a.tcbs cur) frame)) (changeProccess k rip cur best).1 := by
  intro t
  obtain rfl | hOther := eq_or_ne t cur
  · simp only [ArmSched.Memory.set, changeProccess, Function.update_self, schedCtxFromFrame]
    exact h t
  · simp only [ArmSched.Memory.set, changeProccess, Function.update_of_ne hOther]
    exact h t

theorem switch_same {cur next : TcbT} {frame : ArmExcFrame} {rip : UInt64} (h : SameEntities a.memory k.memory)
    (hValid : schedCtxSwitchable (a.memory.tcbs next)) (hRip : (k.memory.tcbs next).rip ≠ 0) :
    SameEntities (tickSwitch a cur next frame).1.memory (timerSwitch k cur next rip).1.memory ∧
      (tickSwitch a cur next frame).1.currentTask = (timerSwitch k cur next rip).1.currentTask := by
  simp only [tickSwitch, schedFrameFor, hValid, Bool.not_true, Bool.false_eq_true, if_false, if_true,
    timerSwitch, KernelSched.Cpu.modify, KernelSched.Memory.modify_rip]
  rw [if_pos hRip]
  exact ⟨armSet_ctx_entities ((h.modify cur Entity.leave).modify next Entity.enter) cur frame rip next, rfl⟩

theorem timerSwitch_refused {cur next : TcbT} (rip : UInt64)
    (hOther : next ≠ cur) (hRip : (k.memory.tcbs next).rip = 0) (t : TcbT) :
    (((timerSwitch k cur next rip).1.memory.tcbs t).status = if t = cur then .running
      else if t = next ∧ ((k.memory.tcbs t).status = .start ∨ (k.memory.tcbs t).status = .create) then .running
      else (k.memory.tcbs t).status) ∧ (timerSwitch k cur next rip).1.currentTask = k.currentTask := by
  simp only [timerSwitch, KernelSched.Cpu.modify, KernelSched.Memory.modify_rip, hRip, ne_eq,
    not_true_eq_false, if_false, and_true]
  obtain rfl | hCur := eq_or_ne t cur
  · rw [if_pos rfl, KernelSched.Memory.modify_same]
  · rw [if_neg hCur, KernelSched.Memory.modify_other _ _ hCur]
    obtain rfl | hNext := eq_or_ne t next
    · rw [KernelSched.Memory.modify_same, KernelSched.Memory.modify_other _ _ hCur]
      simp only [true_and, Entity.enter]
      split <;> rfl
    · rw [KernelSched.Memory.modify_other _ _ hNext, KernelSched.Memory.modify_other _ _ hCur,
        if_neg fun h => hNext h.1]

section Whole

variable [DecidableEq PcbT] {kernelGroup : PcbT} {selectArm : ArmSched.Cpu → Option TcbT × ArmMemory}
  {selectKernel : KernelSched.Cpu TcbT PcbT → Option TcbT × KernelMemory PcbT}
  {a : ArmSched.Cpu} {k : KernelSched.Cpu TcbT PcbT} {frame : ArmExcFrame} {rip : UInt64}

variable {cur next : TcbT}

theorem schedTickWith_refused (hEnabled : a.gSchedEnabled ≠ 0) (h : Refuses selectArm a cur next) :
    (schedTickWith selectArm a frame).1.memory = (selectArm (tickAccount a cur).1).2 ∧
      (schedTickWith selectArm a frame).1.currentTask = (tickAccount a cur).1.currentTask := by
  simp only [schedTickWith, if_neg hEnabled, h.current, h.sliceOver, h.chosen, Bool.not_true, Bool.false_eq_true,
    if_false, if_neg h.other, tickSwitch, h.invalid, Bool.not_false, if_true, and_self]

theorem timerHandleWith_attempted (hEnabled : k.isScheduler)
    (hCurrent : k.currentTask = some cur) (hSlice : (timerAccount k cur).2)
    (hChosen : (selectKernel (timerAccount k cur).1).1 = some next) (hOther : next ≠ cur) :
    (timerHandleWith kernelGroup selectKernel k rip).1 = (timerSwitch { (timerAccount k cur).1 with
        memory := adoptGroup kernelGroup (selectKernel (timerAccount k cur).1).2 next } cur next rip).1 := by
  have hKept : (timerAccount k cur).1.currentTask = some cur := by
    rw [← hCurrent]
    simp only [timerAccount]
    split <;> rfl
  have hDifferent : some cur ≠ some next := fun h => hOther (Option.some.inj h).symm
  simp only [timerHandleWith, hEnabled, hCurrent, hSlice, hChosen, Bool.not_true, Bool.false_eq_true,
    if_false, if_neg hOther, hKept, ne_eq, hDifferent, not_false_eq_true, if_true]

theorem tick_same_of_not_refused (kernelGroup : PcbT) (frame : ArmExcFrame) (rip : UInt64)
    (h : SameCpu a k) (hArm : a.gSchedEnabled ≠ 0) (hKernel : k.isScheduler)
    (hChoice : ∀ cur, a.currentTask = some cur →
      SameChoice selectArm selectKernel (tickAccount a cur).1 (timerAccount k cur).1)
    (hNot : ∀ cur next, ¬ Refuses selectArm a cur next) : SameEntities (schedTickWith selectArm a frame).1.memory
        (timerHandleWith kernelGroup selectKernel k rip).1.memory ∧ (schedTickWith selectArm a frame).1.currentTask =
        (timerHandleWith kernelGroup selectKernel k rip).1.currentTask := by
  have hCurrent := h.currentTask
  cases hCur : a.currentTask with
  | none =>
    rw [hCur] at hCurrent
    simp only [schedTickWith, timerHandleWith, if_neg hArm, hKernel, hCur, ← hCurrent, Bool.not_true,
      Bool.false_eq_true, if_false]
    exact ⟨h.entities, trivial⟩
  | some cur =>
    rw [hCur] at hCurrent
    obtain ⟨hAccount, hSlice⟩ := account_same h cur
    obtain ⟨hNext, hSelected, hTarget⟩ := hChoice cur hCur
    cases hOver : (tickAccount a cur).2 with
    | false =>
      rw [hOver] at hSlice
      simp only [schedTickWith, timerHandleWith, if_neg hArm, hKernel, hCur, ← hCurrent, hOver, ← hSlice,
        Bool.not_true, Bool.not_false, Bool.false_eq_true, if_false, if_true]
      exact ⟨hAccount.entities, hAccount.currentTask⟩
    | true =>
      rw [hOver] at hSlice
      cases hChosen : (selectArm (tickAccount a cur).1).1 with
      | none =>
        rw [hChosen] at hNext
        simp only [schedTickWith, timerHandleWith, if_neg hArm, hKernel, hCur, ← hCurrent, hOver, ← hSlice,
          hChosen, ← hNext, Bool.not_true, Bool.false_eq_true, if_false]
        exact ⟨hSelected, hAccount.currentTask⟩
      | some next =>
        rw [hChosen] at hNext
        obtain rfl | hOther := eq_or_ne next cur
        · simp only [schedTickWith, timerHandleWith, if_neg hArm, hKernel, hCur, ← hCurrent, hOver,
            ← hSlice, hChosen, ← hNext, Bool.not_true, Bool.false_eq_true, if_false, if_true]
          exact ⟨hSelected, hAccount.currentTask⟩
        · have hValid : schedCtxSwitchable ((selectArm (tickAccount a cur).1).2.tcbs next) := by
            cases hCtx : schedCtxSwitchable ((selectArm (tickAccount a cur).1).2.tcbs next) with
            | true => rfl
            | false => exact absurd ⟨hCur, hOver, hChosen, hOther, hCtx⟩ (hNot cur next)
          rw [timerHandleWith_attempted hKernel hCurrent.symm hSlice.symm hNext.symm hOther]
          simp only [schedTickWith, if_neg hArm, hCur, hOver, hChosen, Bool.not_true, Bool.false_eq_true,
            if_false, if_neg hOther]
          apply switch_same
          · intro t
            rw [adoptGroup_tcbs]
            exact hSelected t
          · exact hValid
          · rw [adoptGroup_tcbs]
            exact (hTarget next hChosen).mp hValid

theorem timerHandleWith_refused (kernelGroup : PcbT) (rip : UInt64) (h : SameCpu a k) (hKernel : k.isScheduler)
    (hChoice : SameChoice selectArm selectKernel (tickAccount a cur).1 (timerAccount k cur).1)
    (hRefuses : Refuses selectArm a cur next) (t : TcbT) :
    ((timerHandleWith kernelGroup selectKernel k rip).1.memory.tcbs t).status = (if t = cur then .running
        else if t = next ∧ (((selectArm (tickAccount a cur).1).2.tcbs t).status = .start ∨
            ((selectArm (tickAccount a cur).1).2.tcbs t).status = .create) then .running
        else ((selectArm (tickAccount a cur).1).2.tcbs t).status) ∧
      (timerHandleWith kernelGroup selectKernel k rip).1.currentTask = (timerAccount k cur).1.currentTask := by
  obtain ⟨-, hSlice⟩ := account_same h cur
  obtain ⟨hNext, hSelected, hTarget⟩ := hChoice
  have hRip : ((selectKernel (timerAccount k cur).1).2.tcbs next).rip = 0 := by
    obtain hZero | hNonzero := eq_or_ne ((selectKernel (timerAccount k cur).1).2.tcbs next).rip 0
    · exact hZero
    · have hValid := (hTarget next hRefuses.chosen).mpr hNonzero
      rw [hRefuses.invalid] at hValid
      cases hValid
  rw [timerHandleWith_attempted hKernel (h.currentTask ▸ hRefuses.current)
    (hSlice ▸ hRefuses.sliceOver) (hNext ▸ hRefuses.chosen) hRefuses.other, hSelected t]
  have hFinal := timerSwitch_refused (k := { (timerAccount k cur).1 with
    memory := adoptGroup kernelGroup (selectKernel (timerAccount k cur).1).2 next }) rip
    hRefuses.other (by rw [adoptGroup_tcbs]; exact hRip) t
  simp only [adoptGroup_tcbs] at hFinal
  exact hFinal

theorem harmless_of_agrees (h : SameCpu a k) (hKernel : k.isScheduler) (hChoice : ∀ cur, a.currentTask = some cur →
      SameChoice selectArm selectKernel (tickAccount a cur).1 (timerAccount k cur).1)
    (hAgrees : TickAgrees kernelGroup selectArm selectKernel a k frame rip) : RefusalHarmless selectArm a := by
  intro cur next hRefuses
  have hSelected := (hChoice cur hRefuses.current).entities
  have hLeft := fun t =>
    (timerHandleWith_refused kernelGroup rip h hKernel (hChoice cur hRefuses.current) hRefuses t).1
  have hKept := fun t => (hAgrees.refusal cur next hRefuses t).2
  have hCur := (hLeft cur).symm.trans (hKept cur)
  have hNext := (hLeft next).symm.trans (hKept next)
  rw [← hSelected cur, if_pos rfl] at hCur
  rw [← hSelected next, if_neg hRefuses.other] at hNext
  refine ⟨hCur.symm, ?_, ?_⟩
  · intro hStart
    rw [if_pos ⟨rfl, .inl hStart⟩, hStart] at hNext
    cases hNext
  · intro hCreate
    rw [if_pos ⟨rfl, .inr hCreate⟩, hCreate] at hNext
    cases hNext

theorem refused_statuses (h : SameCpu a k) (hKernel : k.isScheduler)
    (hChoice : SameChoice selectArm selectKernel (tickAccount a cur).1 (timerAccount k cur).1)
    (hHarmless : RefusalHarmless selectArm a) (hRefuses : Refuses selectArm a cur next) (t : TcbT) :
    ((timerHandleWith kernelGroup selectKernel k rip).1.memory.tcbs t).status =
      ((selectArm (tickAccount a cur).1).2.tcbs t).status := by
  obtain ⟨hRunning, hStart, hCreate⟩ := hHarmless cur next hRefuses
  rw [(timerHandleWith_refused kernelGroup rip h hKernel hChoice hRefuses t).1]
  obtain rfl | hCur := eq_or_ne t cur
  · rw [if_pos rfl, hRunning]
  · rw [if_neg hCur, if_neg]
    rintro ⟨rfl, hEither⟩
    obtain hEq | hEq := hEither
    · exact hStart hEq
    · exact hCreate hEq

theorem agrees_of_harmless (h : SameCpu a k) (hArm : a.gSchedEnabled ≠ 0) (hKernel : k.isScheduler)
    (hChoice : ∀ cur, a.currentTask = some cur →
      SameChoice selectArm selectKernel (tickAccount a cur).1 (timerAccount k cur).1)
    (hHarmless : RefusalHarmless selectArm a) : TickAgrees kernelGroup selectArm selectKernel a k frame rip := by
  have hRefusal : ∀ cur next, Refuses selectArm a cur next → ∀ t,
      ((schedTickWith selectArm a frame).1.memory.tcbs t).status = ((selectArm (tickAccount a cur).1).2.tcbs t).status ∧
        ((timerHandleWith kernelGroup selectKernel k rip).1.memory.tcbs t).status =
          ((selectKernel (timerAccount k cur).1).2.tcbs t).status := by
    intro cur next hRefuses t
    have hSame := hChoice cur hRefuses.current
    refine ⟨by rw [(schedTickWith_refused hArm hRefuses).1], ?_⟩
    rw [← hSame.entities t]
    exact refused_statuses h hKernel hSame hHarmless hRefuses t
  obtain ⟨cur, next, hRefuses⟩ | hNone := Classical.em (∃ cur next, Refuses selectArm a cur next)
  · have hSame := hChoice cur hRefuses.current
    refine ⟨?_, ?_, hRefusal⟩
    · intro t
      rw [(hRefusal cur next hRefuses t).1, (hRefusal cur next hRefuses t).2, hSame.entities t]
    · rw [(schedTickWith_refused hArm hRefuses).2,
        (timerHandleWith_refused kernelGroup rip h hKernel hSame hRefuses cur).2]
      exact (account_same h cur).1.currentTask
  · have hNot : ∀ cur next, ¬ Refuses selectArm a cur next := fun cur next hRefuses =>
      hNone ⟨cur, next, hRefuses⟩
    obtain ⟨hEntities, hCurrent⟩ := tick_same_of_not_refused kernelGroup frame rip h hArm hKernel hChoice hNot
    exact ⟨fun t => congrArg Entity.status (hEntities t), hCurrent, hRefusal⟩

end Whole

theorem Average.visit_rip (current : Option TcbT) (now : UInt64) (v : Average TcbT PcbT) (candidate t : TcbT) :
    ((v.visit current now candidate).m.tcbs t).rip = (v.m.tcbs t).rip := by
  have hRecord : ∀ w : Average TcbT PcbT, (w.record current candidate).m = w.m := by
    intro w
    simp only [Average.record]
    split_ifs <;> rfl
  rw [Average.visit, hRecord, Average.wake, KernelSched.Memory.modify_rip]

theorem queueAverageVruntime_rip (k : KernelMemory PcbT) (queue : List TcbT) (current : Option TcbT)
    (now : UInt64) (t : TcbT) : ((queueAverageVruntime k queue current now).m.tcbs t).rip = (k.tcbs t).rip := by
  rw [queueAverageVruntime]
  apply List.foldlRecOn (motive := fun v : Average TcbT PcbT => (v.m.tcbs t).rip = (k.tcbs t).rip)
  · rfl
  · intro v hv candidate _
    rw [Average.visit_rip, hv]

theorem selectNextTask_rip (k : KernelMemory PcbT) (queue : Option (List TcbT)) (current : Option TcbT)
    (now : UInt64) (t : TcbT) : ((selectNextTask k queue current now).2.tcbs t).rip = (k.tcbs t).rip := by
  have hCurrent : ((KernelSched.wakeCurrent k current now).tcbs t).rip = (k.tcbs t).rip := by
    cases current with
    | none => rfl
    | some cur =>
      exact KernelSched.Memory.modify_rip k cur t fun e => wakeSleepingTask e now e.eevdfVruntime
  have hMark : ∀ (m : KernelMemory PcbT) (best : Option TcbT),
      ((KernelSched.markDispatched m best now).tcbs t).rip = (m.tcbs t).rip := by
    intro m best
    cases best with
    | none => rfl
    | some best => exact KernelSched.Memory.modify_rip m best t fun e => markTaskDispatched e now
  have hSafe : ((selectNextTaskSafe k queue current now).2.tcbs t).rip = (k.tcbs t).rip := by
    simp only [selectNextTaskSafe]
    split
    · rfl
    · rw [hMark, queueAverageVruntime_rip, hCurrent]
  simp only [selectNextTask]
  split <;> exact hSafe

/-- Queues, groups and contexts that agree make the real selections choose alike. -/
structure SameRoster (a : ArmSched.Cpu) (k : KernelSched.Cpu TcbT PcbT) (roster : List TcbT) : Prop where
  cpu : SameCpu a k
  links : Linked a.memory.next a.queue.head roster
  queue : k.schedulerQueue = some roster
  groups : ∀ t, t ∈ roster ∨ k.currentTask = some t → k.memory.groupRunnable t = true
  wakes : a.memory.gWakeSkip = 0
  sticky : a.memory.gPickSticky = 0
  contexts : ∀ t, schedCtxSwitchable (a.memory.tcbs t) = true ↔ (k.memory.tcbs t).rip ≠ 0

theorem tickAccount_kept (a : ArmSched.Cpu) (cur : TcbT) :
    (tickAccount a cur).1.memory.next = a.memory.next ∧ (tickAccount a cur).1.queue = a.queue ∧
      (tickAccount a cur).1.memory.gWakeSkip = a.memory.gWakeSkip ∧
      (tickAccount a cur).1.memory.gPickSticky = a.memory.gPickSticky ∧
      ∀ t, schedCtxSwitchable ((tickAccount a cur).1.memory.tcbs t) = schedCtxSwitchable (a.memory.tcbs t) := by
  simp only [tickAccount]
  split
  · refine ⟨ArmSched.Memory.modify_next a.memory cur chargeTick, rfl, rfl, rfl, ?_⟩
    intro t
    obtain rfl | hOther := eq_or_ne t cur
    · simp [ArmSched.Cpu.modify, ArmSched.Memory.modify, schedCtxSwitchable]
    · simp only [ArmSched.Cpu.modify, ArmSched.Memory.modify_other _ _ hOther]
  · exact ⟨rfl, rfl, rfl, rfl, fun _ => rfl⟩

theorem timerAccount_kept (k : KernelSched.Cpu TcbT PcbT) (cur : TcbT) :
    (timerAccount k cur).1.schedulerQueue = k.schedulerQueue ∧ (timerAccount k cur).1.currentTask = k.currentTask ∧ ∀ t,
        (timerAccount k cur).1.memory.groupRunnable t = k.memory.groupRunnable t ∧
        ((timerAccount k cur).1.memory.tcbs t).rip = (k.memory.tcbs t).rip := by
  simp only [timerAccount]
  split
  · refine ⟨rfl, rfl, fun t => ?_⟩
    simp only [KernelSched.Cpu.modify, KernelSched.Memory.modify_groupRunnable, KernelSched.Memory.modify_rip, and_self]
  · exact ⟨rfl, rfl, fun _ => ⟨rfl, rfl⟩⟩

theorem SameRoster.choice {roster : List TcbT} (h : SameRoster a k roster) (cur : TcbT) (now : UInt64) :
    SameChoice (fun c => schedSelectNext c.memory (some c.queue) c.currentTask now)
      (fun c => selectNextTask c.memory c.schedulerQueue c.currentTask now)
      (tickAccount a cur).1 (timerAccount k cur).1 := by
  obtain ⟨hNext, hQueueArm, hWake, hSticky, hCtx⟩ := tickAccount_kept a cur
  obtain ⟨hQueue, hCurrent, hKept⟩ := timerAccount_kept k cur
  have hAccount := (account_same h.cpu cur).1
  have hLinks : Linked (tickAccount a cur).1.memory.next (tickAccount a cur).1.queue.head roster := by
    rw [hNext, hQueueArm]
    exact h.links
  have hSelect := select_same (timerAccount k cur).1.currentTask now (.roster hLinks) hAccount.entities
    (fun _ hEq t ht => by
      cases hEq
      rw [(hKept t).1, h.groups t (.inl ht)])
    (fun t ht => by rw [(hKept t).1, h.groups t (.inr (hCurrent ▸ ht))])
    (hWake.trans h.wakes) (hSticky.trans h.sticky)
  refine ⟨?_, ?_, ?_⟩
  · rw [hQueue, h.queue, hAccount.currentTask]
    exact hSelect.1
  · simp only [hQueue, h.queue, hAccount.currentTask]
    exact hSelect.2
  · intro t _
    have hRest := (schedSelectNext_sound hLinks (tickAccount a cur).1.currentTask now).1.rest t
    have hSwitchable : schedCtxSwitchable ((schedSelectNext (tickAccount a cur).1.memory
        (some (tickAccount a cur).1.queue) (tickAccount a cur).1.currentTask now).2.tcbs t) =
          schedCtxSwitchable ((tickAccount a cur).1.memory.tcbs t) := by
      rw [hRest]
      rfl
    rw [hSwitchable, hCtx, selectNextTask_rip, (hKept t).2]
    exact h.contexts t

/-- For every choice of next task, a tick has the same effect in both kernels exactly when
undoing a refused switch does no harm. -/
theorem tick_agrees_iff [DecidableEq PcbT] (kernelGroup : PcbT)
    {selectArm : ArmSched.Cpu → Option TcbT × ArmMemory}
    {selectKernel : KernelSched.Cpu TcbT PcbT → Option TcbT × KernelMemory PcbT}
    {a : ArmSched.Cpu} {k : KernelSched.Cpu TcbT PcbT} (frame : ArmExcFrame) (rip : UInt64)
    (h : SameCpu a k) (hArm : a.gSchedEnabled ≠ 0) (hKernel : k.isScheduler = true)
    (hChoice : ∀ cur, a.currentTask = some cur →
      SameChoice selectArm selectKernel (tickAccount a cur).1 (timerAccount k cur).1) :
    TickAgrees kernelGroup selectArm selectKernel a k frame rip ↔ RefusalHarmless selectArm a :=
  ⟨harmless_of_agrees h hKernel hChoice, agrees_of_harmless h hArm hKernel hChoice⟩

def sampleArmCpu (cur : TcbT) : ArmSched.Cpu :=
  { memory := sampleArm, queue := { head := some sampleIdle, count := 2 }, currentTask := some cur
    schedulerTicks := 0, switched := 0, preempted := 0, invalidCtx := 0, gSchedEnabled := 1
    gRelocSkip := 0, gExitLegacy := 0, gExitCount := 0, gExitRefused := 0 }

def sampleKernelCpu (cur : TcbT) : KernelSched.Cpu TcbT Unit :=
  { memory := sampleKernel, schedulerQueue := some [sampleIdle, sampleSleeper]
    currentTask := some cur, schedulerTicks := 0, isScheduler := true, systemCpuTotalTicks := 0
    systemCpuBusyTicks := 0 }

def sampleFrame : ArmExcFrame := { address := 0x10000, r := fun _ => 0, svcLr := 0, ret := 0x8000, spsr := 0x153 }

theorem sampleRoster (cur : TcbT) :
    SameRoster (sampleArmCpu cur) (sampleKernelCpu cur) [sampleIdle, sampleSleeper] where
  cpu := ⟨fun _ => rfl, rfl, rfl⟩
  links := .cons (.cons .nil)
  queue := rfl
  groups := fun _ _ => rfl
  wakes := rfl
  sticky := rfl
  contexts := fun _ => by simp [sampleArmCpu, sampleKernelCpu, schedCtxSwitchable, sampleArm, sampleKernel]

theorem tick_of_idle_agrees :
    TickAgrees () (fun c => schedSelectNext c.memory (some c.queue) c.currentTask 5)
      (fun c => selectNextTask c.memory c.schedulerQueue c.currentTask 5)
      (sampleArmCpu sampleIdle) (sampleKernelCpu sampleIdle) sampleFrame 0x8000 := by
  refine (tick_agrees_iff () sampleFrame 0x8000 (sampleRoster sampleIdle).cpu (by decide) rfl
    fun cur _ => (sampleRoster sampleIdle).choice cur 5).mpr ?_
  intro cur next hRefuses
  cases Option.some.inj hRefuses.current
  have hChosen : (schedSelectNext (tickAccount (sampleArmCpu sampleIdle) sampleIdle).1.memory
      (some (tickAccount (sampleArmCpu sampleIdle) sampleIdle).1.queue)
      (tickAccount (sampleArmCpu sampleIdle) sampleIdle).1.currentTask 5).1 = some sampleIdle := by
    decide
  exact absurd (Option.some.inj (hRefuses.chosen.symm.trans hChosen)) hRefuses.other

/-- A sleeping current task whose only alternative has no valid context: the source kernel
leaves it RUNNING, the port leaves it WAIT. -/
theorem refused_tick_differs :
    SameRoster (sampleArmCpu sampleSleeper) (sampleKernelCpu sampleSleeper) [sampleIdle, sampleSleeper] ∧
      ((schedTick (sampleArmCpu sampleSleeper) sampleFrame 5).1.memory.tcbs sampleSleeper).status = .wait ∧
      ((timerHandle () (sampleKernelCpu sampleSleeper) 0x8000 5).1.memory.tcbs sampleSleeper).status =
        .running :=
  ⟨sampleRoster sampleSleeper, by decide, by decide⟩

end OpenXJ380.SchedTick
