import OpenXJ380.Lib.Transition
import OpenXJ380.Sched.ArmKern

/-! # At most one running task per CPU

A run interleaves ticks and wakes, which come at any time, with what the current
task does: it yields, creates threads, exits, or goes round the loop of
`sched_sleep_ns`. Each task has a phase that says where in that code it is.
-/

namespace OpenXJ380.ArmSched

open Function

open LinkedList Sched Transition

inductive Phase where
  | normal
  | yielding
  | testing
  | ending
  | writing
  | exiting
  | halted
  deriving DecidableEq, Repr

structure State where
  cpu : Cpu
  phase : TcbT → Phase

def State.enter (s : State) (t : TcbT) (cpu : Cpu) (phase : Phase) : State :=
  { cpu := cpu, phase := update s.phase t phase }

structure Creation where
  tcb : Option TcbT
  stack : Option ThreadStack
  entry : UInt32
  arg : UInt32
  level : Int32
  now : UInt64

def Cpu.create (c : Cpu) (new : Creation) : Cpu :=
  let made := schedKthreadCreateLevel c.memory c.queue new.tcb new.stack new.entry new.arg new.level new.now
  { c with memory := made.1, queue := made.2.1 }

inductive Label where
  | tick (frame : ArmExcFrame) (now : UInt64)
  | yield (frame : ArmExcFrame) (now : UInt64)
  | sleep (ns now : UInt64)
  | sleepRefused (ns now : UInt64) (frame : ArmExcFrame) (later : UInt64)
  | sleepYield (frame : ArmExcFrame) (now : UInt64)
  | sleepAgain
  | sleepOver
  | sleepSkip
  | sleepStarted
  | sleepWrite
  | wake (t : Option TcbT)
  | create (new : Creation)
  | exit
  | exitRefused
  | exitYield (frame : ArmExcFrame) (now : UInt64)

def State.Runs (s : State) (cur : TcbT) (phase : Phase) : Prop :=
  s.cpu.currentTask = some cur ∧ s.phase cur = phase

inductive Step : State → Label → State → Prop
  | tick (s : State) (frame : ArmExcFrame) (now : UInt64) :
      Step s (.tick frame now) { s with cpu := (schedTick s.cpu frame now).1 }
  | yield {s : State} {cur : TcbT} (frame : ArmExcFrame) (now : UInt64) (hRuns : s.Runs cur .normal) :
      Step s (.yield frame now) { s with cpu := (schedYield s.cpu frame now).1 }
  | sleep {s : State} {cur : TcbT} {cpu : Cpu} {ns now : UInt64} (hRuns : s.Runs cur .normal)
      (hBegin : schedSleepBegin s.cpu ns now = some cpu) :
      Step s (.sleep ns now) (s.enter cur cpu .yielding)
  | sleepRefused {s : State} {cur : TcbT} {ns now : UInt64} (frame : ArmExcFrame) (later : UInt64)
      (hRuns : s.Runs cur .normal) (hBegin : schedSleepBegin s.cpu ns now = none) :
      Step s (.sleepRefused ns now frame later) { s with cpu := (schedYield s.cpu frame later).1 }
  | sleepYield {s : State} {cur : TcbT} (frame : ArmExcFrame) (now : UInt64)
      (hRuns : s.Runs cur .yielding) :
      Step s (.sleepYield frame now) (s.enter cur (schedYield s.cpu frame now).1 .testing)
  | sleepAgain {s : State} {cur : TcbT} (hRuns : s.Runs cur .testing)
      (hWait : (s.cpu.memory.tcbs cur).status = .wait) :
      Step s .sleepAgain (s.enter cur s.cpu .yielding)
  | sleepOver {s : State} {cur : TcbT} (hRuns : s.Runs cur .testing)
      (hWait : (s.cpu.memory.tcbs cur).status ≠ .wait) :
      Step s .sleepOver (s.enter cur s.cpu .ending)
  | sleepSkip {s : State} {cur : TcbT} (hRuns : s.Runs cur .ending)
      (hStart : (s.cpu.memory.tcbs cur).status ≠ .start) :
      Step s .sleepSkip (s.enter cur s.cpu .normal)
  | sleepStarted {s : State} {cur : TcbT} (hRuns : s.Runs cur .ending)
      (hStart : (s.cpu.memory.tcbs cur).status = .start) :
      Step s .sleepStarted (s.enter cur s.cpu .writing)
  | sleepWrite {s : State} {cur : TcbT} (hRuns : s.Runs cur .writing) :
      Step s .sleepWrite (s.enter cur (s.cpu.modify cur ({ · with status := .running })) .normal)
  | wake (s : State) (t : Option TcbT) : Step s (.wake t) { s with cpu := schedWakeTask s.cpu t }
  | create {s : State} {new : Creation} (hFresh : ∀ t, new.tcb = some t → t ∉ s.cpu.memory.roster s.cpu.queue) :
      Step s (.create new) { s with cpu := s.cpu.create new }
  | exit {s : State} {cur : TcbT} (hRuns : s.Runs cur .normal) (hStops : (schedThreadExit s.cpu).2 = true) :
      Step s .exit (s.enter cur (schedThreadExit s.cpu).1 .exiting)
  | exitRefused {s : State} {cur : TcbT} (hRuns : s.Runs cur .normal)
      (hStops : (schedThreadExit s.cpu).2 = false) :
      Step s .exitRefused { s with cpu := (schedThreadExit s.cpu).1 }
  | exitYield {s : State} {cur : TcbT} (frame : ArmExcFrame) (now : UInt64)
      (hRuns : s.Runs cur .exiting) :
      Step s (.exitYield frame now) (s.enter cur (schedYield s.cpu frame now).1 .halted)

def schedSystem : System State Label where
  step := Step

def boot (c : Cpu) (idle : TcbT) (sp : UInt32) (now : UInt64) : State :=
  { cpu := registerIdle { c with queue := { head := none, count := 0 }, gRelocSkip := 0 } idle sp now
    phase := fun _ => .normal }

def Stopped (phase : Phase) : Prop := phase = .exiting ∨ phase = .halted

structure Invariant (roster : List TcbT) (s : State) : Prop where
  links : Linked s.cpu.memory.next s.cpu.queue.head roster
  count : s.cpu.queue.count.toNat = roster.length
  current : ∃ cur ∈ roster, s.cpu.currentTask = some cur
  running : ∀ t ∈ roster, (s.cpu.memory.tcbs t).status = .running → s.cpu.currentTask = some t
  idle : ∀ t ∈ roster, (s.cpu.memory.tcbs t).taskLevel = taskIdleLevel →
    (s.cpu.memory.tcbs t).status = .start ∨ (s.cpu.memory.tcbs t).status = .running
  dead : ∀ t ∈ roster, (s.cpu.memory.tcbs t).status = .death → Stopped (s.phase t)

def Gone (roster : List TcbT) (s : State) (t : TcbT) : Prop :=
  t ∈ roster ∧ (s.cpu.memory.tcbs t).status = .death ∧ s.cpu.currentTask ≠ some t

/-- The invariant is kept, possibly on a longer roster, and the dead stay away. -/
def Keeps (roster roster' : List TcbT) (s s' : State) : Prop :=
  Invariant roster' s' ∧ ∀ t, Gone roster s t → Gone roster' s' t

variable {roster : List TcbT} {s s' : State} {cpu : Cpu} {cur next : TcbT}

theorem Keeps.trans {roster' roster'' : List TcbT} {s'' : State}
    (h : Keeps roster roster' s s') (h' : Keeps roster' roster'' s' s'') : Keeps roster roster'' s s'' :=
  ⟨h'.1, fun t ht => h'.2 t (h.2 t ht)⟩

theorem Invariant.woken (h : Invariant roster s) (cpu : Cpu)
    (phase : TcbT → Phase) (hWoken : Woken s.cpu.memory cpu.memory) (hQueue : cpu.queue = s.cpu.queue)
    (hCurrent : cpu.currentTask = s.cpu.currentTask) (hPhase : ∀ t, Stopped (s.phase t) → Stopped (phase t)) :
    Keeps roster roster s { cpu := cpu, phase := phase } := by
  have hStatus : ∀ t st, st ≠ .start → (cpu.memory.tcbs t).status = st → (s.cpu.memory.tcbs t).status = st := by
    intro t st hNot hEq
    obtain hSame | ⟨-, hStart⟩ := hWoken.status t
    · rw [← hSame, hEq]
    · exact absurd (hEq.symm.trans hStart) hNot
  refine ⟨⟨?_, ?_, ?_, ?_, ?_, ?_⟩, ?_⟩
  · rw [hQueue, hWoken.next_eq]
    exact h.links
  · rw [hQueue]
    exact h.count
  · rw [hCurrent]
    exact h.current
  · intro t ht hRunning
    rw [hCurrent]
    exact h.running t ht (hStatus t _ (by decide) hRunning)
  · intro t ht hLevel
    rw [hWoken.taskLevel t] at hLevel
    obtain hSame | ⟨-, hStart⟩ := hWoken.status t
    · rw [hSame]
      exact h.idle t ht hLevel
    · exact .inl hStart
  · intro t ht hDeath
    exact hPhase t (h.dead t ht (hStatus t _ (by decide) hDeath))
  · rintro t ⟨hMem, hDeath, hAway⟩
    refine ⟨hMem, ?_, by rwa [hCurrent]⟩
    obtain hSame | ⟨hWait, -⟩ := hWoken.status t
    · exact hSame.trans hDeath
    · rw [hDeath] at hWait
      cases hWait

theorem Keeps.of_phase {phase phase' : TcbT → Phase} (h : Keeps roster roster s { cpu := cpu, phase := phase })
    (hPhase : ∀ t, Stopped (phase t) → Stopped (phase' t)) : Keeps roster roster s { cpu := cpu, phase := phase' } := by
  obtain ⟨hInv, hGone⟩ := h
  refine ⟨{ hInv with dead := ?_ }, hGone⟩
  intro t ht hDeath
  exact hPhase t (hInv.dead t ht hDeath)

theorem Invariant.modifyCurrent {f : Entity → Entity}
    {phase : Phase} (h : Invariant roster s) (hCur : s.cpu.currentTask = some cur)
    (hLevel : (f (s.cpu.memory.tcbs cur).toEntity).taskLevel = (s.cpu.memory.tcbs cur).taskLevel)
    (hIdle : (s.cpu.memory.tcbs cur).taskLevel = taskIdleLevel →
      (f (s.cpu.memory.tcbs cur).toEntity).status = .start ∨ (f (s.cpu.memory.tcbs cur).toEntity).status = .running)
    (hDead : (f (s.cpu.memory.tcbs cur).toEntity).status = .death → Stopped phase) :
    Keeps roster roster s (s.enter cur (s.cpu.modify cur f) phase) := by
  have hSelf : ((s.cpu.memory.modify cur f).tcbs cur).toEntity = f (s.cpu.memory.tcbs cur).toEntity :=
    Memory.modify_same s.cpu.memory cur f
  have hOther : ∀ t, t ≠ cur → (s.cpu.memory.modify cur f).tcbs t = s.cpu.memory.tcbs t := fun t ht =>
    Memory.modify_other _ _ ht
  simp only [State.enter, Cpu.modify]
  refine ⟨⟨?_, h.count, h.current, ?_, ?_, ?_⟩, ?_⟩
  · simp only [Memory.modify_next]
    exact h.links
  · intro t ht hRunning
    obtain rfl | hNe := eq_or_ne t cur
    · exact hCur
    · simp only [hOther t hNe] at hRunning
      exact h.running t ht hRunning
  · intro t ht hTask
    obtain rfl | hNe := eq_or_ne t cur
    · simp only [hSelf] at hTask ⊢
      exact hIdle (hLevel ▸ hTask)
    · simp only [hOther t hNe] at hTask ⊢
      exact h.idle t ht hTask
  · intro t ht hDeath
    obtain rfl | hNe := eq_or_ne t cur
    · simp only [hSelf] at hDeath
      simp only [update_self]
      exact hDead hDeath
    · simp only [hOther t hNe] at hDeath
      simp only [update_of_ne hNe]
      exact h.dead t ht hDeath
  · rintro t ⟨hMem, hDeath, hAway⟩
    have hNe : t ≠ cur := by
      rintro rfl
      exact hAway hCur
    refine ⟨hMem, ?_, hAway⟩
    simp only [hOther t hNe]
    exact hDeath

theorem tickAccount_woken (c : Cpu) (cur : TcbT) :
    Woken c.memory (tickAccount c cur).1.memory ∧ (tickAccount c cur).1.queue = c.queue ∧
      (tickAccount c cur).1.currentTask = c.currentTask := by
  simp only [tickAccount]
  split
  · refine ⟨?_, rfl, rfl⟩
    have hKept : ∀ e : Entity, (chargeTick e).status = e.status ∧ (chargeTick e).taskLevel = e.taskLevel := by
      intro e
      simp only [chargeTick, schedAccountRun]
      split_ifs <;> exact ⟨rfl, rfl⟩
    change Woken c.memory (c.memory.modify cur chargeTick)
    exact .modify (hKept _).2 (.inl (hKept _).1)
  · exact ⟨.refl _, rfl, rfl⟩

theorem switch_entity {c : Cpu} (hOther : next ≠ cur) (frame : ArmExcFrame) (t : TcbT) :
    let m := ((c.modify cur Entity.leave).modify next Entity.enter).memory
    ((m.set cur (schedCtxFromFrame (m.tcbs cur) frame)).tcbs t).toEntity =
      if t = cur then (c.memory.tcbs t).toEntity.leave else if t = next then (c.memory.tcbs t).toEntity.enter
      else (c.memory.tcbs t).toEntity := by
  intro m
  have hSet : ((m.set cur (schedCtxFromFrame (m.tcbs cur) frame)).tcbs t).toEntity = (m.tcbs t).toEntity := by
    obtain rfl | hNe := eq_or_ne t cur
    · rw [Memory.set_same]
      rfl
    · rw [Memory.set_other m _ hNe]
  rw [hSet]
  obtain rfl | hCur := eq_or_ne t cur
  · rw [if_pos rfl]
    simp only [m, Cpu.modify, Memory.modify_other _ _ hOther.symm, Memory.modify_same]
  · rw [if_neg hCur]
    obtain rfl | hNext := eq_or_ne t next
    · rw [if_pos rfl]
      simp only [m, Cpu.modify, Memory.modify_same, Memory.modify_other _ _ hCur]
    · rw [if_neg hNext]
      simp only [m, Cpu.modify, Memory.modify_other _ _ hNext, Memory.modify_other _ _ hCur]

theorem leave_kept (e : Entity) : e.leave.taskLevel = e.taskLevel ∧ e.leave.status ≠ .running ∧
    (e.leave.status = e.status ∨ (e.status = .running ∧ e.leave.status = .start)) := by
  rw [Entity.leave]
  split
  · rename_i hRunning
    exact ⟨rfl, by simp, .inr ⟨hRunning, rfl⟩⟩
  · rename_i hNot
    exact ⟨rfl, hNot, .inl rfl⟩

theorem enter_kept (e : Entity) : e.enter.taskLevel = e.taskLevel ∧
    (e.enter.status = e.status ∨ e.enter.status = .running) := by
  rw [Entity.enter]
  split
  · exact ⟨rfl, .inr rfl⟩
  · exact ⟨rfl, .inl rfl⟩

section

variable (h : Invariant roster s)

include h

theorem Invariant.switch (hCur : s.cpu.currentTask = some cur) (hOther : next ≠ cur)
    (hChoice : Selectable s.cpu.memory roster (some cur) next)
    (hNext : cpu.memory.next = s.cpu.memory.next) (hQueue : cpu.queue = s.cpu.queue)
    (hCurrent : cpu.currentTask = some next) (hEntity : ∀ t, (cpu.memory.tcbs t).toEntity =
      if t = cur then (s.cpu.memory.tcbs t).toEntity.leave else if t = next then (s.cpu.memory.tcbs t).toEntity.enter
      else (s.cpu.memory.tcbs t).toEntity) : Keeps roster roster s { s with cpu := cpu } := by
  have hAlive : (s.cpu.memory.tcbs next).status ≠ .death ∧ next ∈ roster := by
    obtain ⟨hMem, -, hRunnable, -⟩ | hSelf | ⟨hMem, -, hLevel⟩ := hChoice
    · refine ⟨?_, hMem⟩
      intro hDeath
      rw [hDeath] at hRunnable
      cases hRunnable
    · exact absurd (Option.some.inj hSelf).symm hOther
    · refine ⟨?_, hMem⟩
      intro hDeath
      obtain hStart | hRunning := h.idle next hMem hLevel
      · rw [hDeath] at hStart
        cases hStart
      · rw [hDeath] at hRunning
        cases hRunning
  have hStays : ∀ t, t ≠ cur → t ≠ next →
      (cpu.memory.tcbs t).toEntity = (s.cpu.memory.tcbs t).toEntity := fun t hc hn => by
    rw [hEntity, if_neg hc, if_neg hn]
  have hLeft : (cpu.memory.tcbs cur).toEntity = (s.cpu.memory.tcbs cur).toEntity.leave := by
    rw [hEntity, if_pos rfl]
  have hEntered : (cpu.memory.tcbs next).toEntity = (s.cpu.memory.tcbs next).toEntity.enter := by
    rw [hEntity, if_neg hOther, if_pos rfl]
  have hCases : ∀ t, t = cur ∨ t = next ∨ (t ≠ cur ∧ t ≠ next) := fun t => by
    obtain hc | hc := eq_or_ne t cur
    · exact .inl hc
    · obtain hn | hn := eq_or_ne t next
      · exact .inr (.inl hn)
      · exact .inr (.inr ⟨hc, hn⟩)
  obtain ⟨hLeaveLevel, hLeaveStops, hLeaveStatus⟩ := leave_kept (s.cpu.memory.tcbs cur).toEntity
  obtain ⟨hEnterLevel, hEnterStatus⟩ := enter_kept (s.cpu.memory.tcbs next).toEntity
  refine ⟨⟨?_, ?_, ?_, ?_, ?_, ?_⟩, ?_⟩
  · change Linked cpu.memory.next cpu.queue.head roster
    rw [hQueue, hNext]
    exact h.links
  · change cpu.queue.count.toNat = roster.length
    rw [hQueue]
    exact h.count
  · exact ⟨next, hAlive.2, hCurrent⟩
  · intro t ht hRunning
    simp only at hRunning ⊢
    obtain rfl | rfl | ⟨hc, hn⟩ := hCases t
    · rw [hLeft] at hRunning
      exact absurd hRunning hLeaveStops
    · exact hCurrent
    · rw [hStays t hc hn] at hRunning
      have hEq := (h.running t ht hRunning).symm.trans hCur
      exact absurd (Option.some.inj hEq) hc
  · intro t ht hLevel
    simp only at hLevel ⊢
    obtain rfl | rfl | ⟨hc, hn⟩ := hCases t
    · rw [hLeft, hLeaveLevel] at hLevel
      rw [hLeft]
      obtain hSame | ⟨-, hStart⟩ := hLeaveStatus
      · rw [hSame]
        exact h.idle t ht hLevel
      · exact .inl hStart
    · rw [hEntered, hEnterLevel] at hLevel
      rw [hEntered]
      obtain hSame | hRunning := hEnterStatus
      · rw [hSame]
        exact h.idle t ht hLevel
      · exact .inr hRunning
    · rw [hStays t hc hn] at hLevel ⊢
      exact h.idle t ht hLevel
  · intro t ht hDeath
    simp only at hDeath ⊢
    obtain rfl | rfl | ⟨hc, hn⟩ := hCases t
    · rw [hLeft] at hDeath
      obtain hSame | ⟨-, hStart⟩ := hLeaveStatus
      · exact h.dead t ht (hSame.symm.trans hDeath)
      · rw [hStart] at hDeath
        cases hDeath
    · rw [hEntered] at hDeath
      obtain hSame | hRunning := hEnterStatus
      · exact absurd (hSame.symm.trans hDeath) hAlive.1
      · rw [hRunning] at hDeath
        cases hDeath
    · rw [hStays t hc hn] at hDeath
      exact h.dead t ht hDeath
  · rintro t ⟨hMem, hDeath, hAway⟩
    have hc : t ≠ cur := by
      rintro rfl
      exact hAway hCur
    have hn : t ≠ next := by
      rintro rfl
      exact hAlive.1 hDeath
    refine ⟨hMem, ?_, ?_⟩
    · simp only
      rw [hStays t hc hn]
      exact hDeath
    · simp only
      rw [hCurrent]
      intro hEq
      exact hn (Option.some.inj hEq).symm

theorem Invariant.tickSwitch (hCur : s.cpu.currentTask = some cur) (hOther : next ≠ cur)
    (hChoice : Selectable s.cpu.memory roster (some cur) next) (frame : ArmExcFrame) :
    Keeps roster roster s { s with cpu := (tickSwitch s.cpu cur next frame).1 } := by
  have hRefused : ∀ cpu : Cpu, cpu.memory = s.cpu.memory → cpu.queue = s.cpu.queue →
      cpu.currentTask = s.cpu.currentTask → Keeps roster roster s { s with cpu := cpu } := by
    intro cpu hMemory hQueue hCurrent
    exact h.woken cpu s.phase (hMemory ▸ Woken.refl _) hQueue hCurrent fun _ hStopped => hStopped
  simp only [ArmSched.tickSwitch]
  split
  · exact hRefused _ rfl rfl rfl
  · split
    · exact hRefused _ rfl rfl rfl
    · apply h.switch hCur hOther hChoice
      · rw [Memory.set_ctx_next, Cpu.modify_next, Cpu.modify_next]
      · rfl
      · rfl
      · exact switch_entity hOther frame

theorem Keeps.refl : Keeps roster roster s s :=
  ⟨h, fun _ ht => ht⟩

theorem Invariant.schedTick (frame : ArmExcFrame) (now : UInt64) :
    Keeps roster roster s { s with cpu := (schedTick s.cpu frame now).1 } := by
  obtain ⟨cur, -, hCur⟩ := h.current
  obtain ⟨hAccount, hQueue, hKept⟩ := tickAccount_woken s.cpu cur
  have hAccounted := h.woken _ s.phase hAccount hQueue hKept fun _ hStopped => hStopped
  have hCur' := hKept.trans hCur
  obtain ⟨hSelect, hChoice⟩ := schedSelectNext_sound hAccounted.1.links (tickAccount s.cpu cur).1.currentTask now
  have hAfter : ∀ cpu : Cpu, Woken (tickAccount s.cpu cur).1.memory cpu.memory →
      cpu.queue = (tickAccount s.cpu cur).1.queue →
      cpu.currentTask = (tickAccount s.cpu cur).1.currentTask →
      Keeps roster roster s { s with cpu := cpu } := fun cpu hWoken hSame hTask =>
    hAccounted.trans (hAccounted.1.woken cpu s.phase hWoken hSame hTask fun _ hStopped => hStopped)
  simp only [ArmSched.schedTick, schedTickWith, hCur]
  split
  · exact .refl h
  · split
    · exact hAccounted
    · split
      · exact hAfter _ hSelect rfl rfl
      · rename_i next hNext
        split
        · exact hAfter _ hSelect rfl rfl
        · rename_i hOther
          have hSelectable : ∀ current, (tickAccount s.cpu cur).1.currentTask = current →
              Selectable (schedSelectNext (tickAccount s.cpu cur).1.memory
                (some (tickAccount s.cpu cur).1.queue) (tickAccount s.cpu cur).1.currentTask now).2
                roster current next := by
            rintro _ rfl
            exact hChoice next hNext
          have hSelected := hAfter { (tickAccount s.cpu cur).1 with memory := _ } hSelect rfl rfl
          exact hSelected.trans (hSelected.1.tickSwitch hCur' hOther (hSelectable _ hCur') frame)

theorem Invariant.schedYield (frame : ArmExcFrame) (now : UInt64) :
    Keeps roster roster s { s with cpu := (schedYield s.cpu frame now).1 } := by
  have hMarked := h.woken { s.cpu with schedulerTicks := schedTimeSlice } s.phase (.refl _) rfl rfl
    fun _ hStopped => hStopped
  exact hMarked.trans (hMarked.1.schedTick frame now)

end

theorem stopped_update {phase : TcbT → Phase} {p : Phase}
    (h : Stopped (phase cur) → Stopped p) (t : TcbT) (ht : Stopped (phase t)) : Stopped (update phase cur p t) := by
  obtain rfl | hNe := eq_or_ne t cur
  · rw [update_self]
    exact h ht
  · rw [update_of_ne hNe]
    exact ht

theorem Invariant.advance (h : Invariant roster s) {phase : Phase} (hPhase : Stopped (s.phase cur) → Stopped phase) :
    Keeps roster roster s (s.enter cur s.cpu phase) :=
  (Keeps.refl h).of_phase (stopped_update hPhase)

theorem not_stopped {p q : Phase} (h : p = q) (hNot : ¬ Stopped q) {r : Phase} (hStopped : Stopped p) : Stopped r :=
  absurd (h ▸ hStopped) hNot

section

variable (h : Invariant roster s)

include h

section

variable (hCur : s.cpu.currentTask = some cur)

include hCur

theorem Invariant.sleepBegin {ns now : UInt64} (hBegin : schedSleepBegin s.cpu ns now = some cpu) :
    Keeps roster roster s (s.enter cur cpu .yielding) := by
  simp only [schedSleepBegin, hCur] at hBegin
  split at hBegin
  · cases hBegin
  · split at hBegin
    · cases hBegin
    · rename_i hLevel
      cases hBegin
      apply h.modifyCurrent hCur
      · rfl
      · intro hIdle
        exact absurd hIdle hLevel
      · intro hDeath
        cases hDeath

theorem Invariant.sleepWrite :
    Keeps roster roster s (s.enter cur (s.cpu.modify cur ({ · with status := .running })) .normal) := by
  apply h.modifyCurrent hCur
  · rfl
  · intro _
    exact .inr rfl
  · intro hDeath
    cases hDeath

theorem Invariant.threadExit (hStops : (schedThreadExit s.cpu).2) :
    Keeps roster roster s (s.enter cur (schedThreadExit s.cpu).1 .exiting) := by
  simp only [schedThreadExit, hCur] at hStops ⊢
  split at hStops
  · cases hStops
  · rename_i hLevel
    rw [if_neg hLevel]
    split
    · apply h.modifyCurrent hCur
      · rfl
      · intro hIdle
        exact absurd hIdle hLevel
      · intro _
        exact .inl rfl
    · have hDies : Keeps roster roster s
          (s.enter cur (s.cpu.modify cur fun t => { t with status := .death }) .exiting) := by
        apply h.modifyCurrent hCur
        · rfl
        · intro hIdle
          exact absurd hIdle hLevel
        · intro _
          exact .inl rfl
      exact hDies.trans (hDies.1.woken _ _ (.refl _) rfl rfl fun _ hStopped => hStopped)

theorem Invariant.exitRefused (hStops : (schedThreadExit s.cpu).2 = false) :
    Keeps roster roster s { s with cpu := (schedThreadExit s.cpu).1 } := by
  simp only [schedThreadExit, hCur] at hStops ⊢
  split at hStops
  · rename_i hLevel
    rw [if_pos hLevel]
    exact h.woken _ s.phase (.refl _) rfl hCur.symm fun _ hStopped => hStopped
  · split at hStops <;> cases hStops

end

theorem Invariant.wakeTask (t : Option TcbT) : Keeps roster roster s { s with cpu := schedWakeTask s.cpu t } := by
  cases t with
  | none => exact .refl h
  | some t =>
    simp only [schedWakeTask]
    split
    · exact .refl h
    · rename_i hWait
      rw [not_not] at hWait
      refine h.woken _ s.phase ?_ rfl rfl fun _ hStopped => hStopped
      simp only [Cpu.modify]
      apply Woken.modify
      · exact (schedApplyWakeupCredit_status _ _).2
      · exact .inr ⟨hWait, (schedApplyWakeupCredit_status _ _).1⟩

theorem Invariant.offRoster {m : Memory} (hSame : ∀ t ∈ roster, m.tcbs t = s.cpu.memory.tcbs t) :
    Keeps roster roster s { s with cpu := { s.cpu with memory := m } } := by
  refine ⟨⟨?_, h.count, h.current, ?_, ?_, ?_⟩, ?_⟩
  · exact h.links.congr fun t ht => congrArg ArmSched.Tcb.schedNext (hSame t ht)
  · intro t ht
    simp only [hSame t ht]
    exact h.running t ht
  · intro t ht
    simp only [hSame t ht]
    exact h.idle t ht
  · intro t ht
    simp only [hSame t ht]
    exact h.dead t ht
  · rintro t ⟨hMem, hDeath, hAway⟩
    exact ⟨hMem, (congrArg (fun tcb => tcb.status) (hSame t hMem)).trans hDeath, hAway⟩

theorem Invariant.append {t : TcbT} (hFresh : t ∉ roster) (hStart : (s.cpu.memory.tcbs t).status = .start) :
    Keeps roster (roster ++ [t]) s { s with cpu := { s.cpu with
      memory := (schedQueueAppend s.cpu.memory s.cpu.queue t).1
      queue := (schedQueueAppend s.cpu.memory s.cpu.queue t).2.1 } } := by
  obtain ⟨-, hLinks, hCount⟩ := schedQueueAppend_fresh h.links hFresh
  have hEntity := schedQueueAppend_entity s.cpu.memory s.cpu.queue t
  have hLength := roster_length_lt hLinks.nodup
  obtain ⟨cur, hMem, hCur⟩ := h.current
  refine ⟨⟨hLinks, ?_, ⟨cur, List.mem_append_left _ hMem, hCur⟩, ?_, ?_, ?_⟩, ?_⟩
  · simp only [hCount, UInt32.toNat_add, h.count, List.length_append, List.length_singleton] at hLength ⊢
    exact Nat.mod_eq_of_lt hLength
  · intro u hu
    simp only [hEntity u]
    obtain hOld | hNew := List.mem_append.mp hu
    · exact h.running u hOld
    · cases List.mem_singleton.mp hNew
      intro hRunning
      rw [hStart] at hRunning
      cases hRunning
  · intro u hu
    simp only [hEntity u]
    obtain hOld | hNew := List.mem_append.mp hu
    · exact h.idle u hOld
    · cases List.mem_singleton.mp hNew
      exact fun _ => .inl hStart
  · intro u hu
    simp only [hEntity u]
    obtain hOld | hNew := List.mem_append.mp hu
    · exact h.dead u hOld
    · cases List.mem_singleton.mp hNew
      intro hDeath
      rw [hStart] at hDeath
      cases hDeath
  · rintro u ⟨hOld, hDeath, hAway⟩
    refine ⟨List.mem_append_left _ hOld, ?_, hAway⟩
    simp only [hEntity u]
    exact hDeath

theorem Invariant.create {new : Creation} (hFresh : ∀ t, new.tcb = some t → t ∉ s.cpu.memory.roster s.cpu.queue) :
    ∃ roster', Keeps roster roster' s { s with cpu := s.cpu.create new } := by
  simp only [Cpu.create, schedKthreadCreateLevel]
  split
  · exact ⟨roster, Keeps.refl h⟩
  · split
    · exact ⟨roster, Keeps.refl h⟩
    · rename_i t hTcb
      have hAway : t ∉ roster := by
        have hNot := hFresh t hTcb
        rwa [Memory.roster_eq h.links] at hNot
      have hOther : ∀ (m : Memory) (tcb : Tcb), ∀ u ∈ roster, (m.set t tcb).tcbs u = m.tcbs u := by
        intro m tcb u hu
        have hNe : u ≠ t := by
          rintro rfl
          exact hAway hu
        exact Memory.set_other m tcb hNe
      split
      · exact ⟨roster, h.offRoster (hOther _ _)⟩
      · rename_i stack _
        refine ⟨roster ++ [t], ?_⟩
        have hMade : Keeps roster roster s { s with cpu := { s.cpu with
            memory := kthreadInit (s.cpu.memory.set t zeroedTcb) s.cpu.queue t
              (kthreadTcb new.entry new.arg stack new.level) new.now } } := by
          apply h.offRoster
          intro u hu
          rw [kthreadInit, hOther _ _ u hu, hOther _ _ u hu, hOther _ _ u hu]
        have hAppended := hMade.trans (hMade.1.append hAway (kthreadInit_status _ _ _ _ _))
        split
        · exact hAppended
        · exact hAppended

theorem Invariant.step {l : Label} (hStep : Step s l s') : ∃ roster', Keeps roster roster' s s' := by
  cases hStep with
  | tick frame now => exact ⟨roster, h.schedTick frame now⟩
  | yield frame now _ => exact ⟨roster, h.schedYield frame now⟩
  | sleep hRuns hBegin => exact ⟨roster, h.sleepBegin hRuns.1 hBegin⟩
  | sleepRefused frame later _ _ => exact ⟨roster, h.schedYield frame later⟩
  | sleepYield frame now hRuns =>
    exact ⟨roster, (h.schedYield frame now).of_phase (stopped_update (not_stopped hRuns.2 (by simp [Stopped])))⟩
  | sleepAgain hRuns _ => exact ⟨roster, h.advance (not_stopped hRuns.2 (by simp [Stopped]))⟩
  | sleepOver hRuns _ => exact ⟨roster, h.advance (not_stopped hRuns.2 (by simp [Stopped]))⟩
  | sleepSkip hRuns _ => exact ⟨roster, h.advance (not_stopped hRuns.2 (by simp [Stopped]))⟩
  | sleepStarted hRuns _ => exact ⟨roster, h.advance (not_stopped hRuns.2 (by simp [Stopped]))⟩
  | sleepWrite hRuns => exact ⟨roster, h.sleepWrite hRuns.1⟩
  | wake t => exact ⟨roster, h.wakeTask t⟩
  | create hFresh => exact h.create hFresh
  | exit hRuns hStops => exact ⟨roster, h.threadExit hRuns.1 hStops⟩
  | exitRefused hRuns hStops => exact ⟨roster, h.exitRefused hRuns.1 hStops⟩
  | exitYield frame now _ =>
    exact ⟨roster, (h.schedYield frame now).of_phase (stopped_update fun _ => .inr rfl)⟩

end

theorem Invariant.run {labels : List Label} (hRun : Run schedSystem s labels s') (h : Invariant roster s) :
    ∃ roster', Keeps roster roster' s s' := by
  induction hRun with
  | nil => exact ⟨roster, Keeps.refl h⟩
  | snoc _ last ih =>
    obtain ⟨roster', hKeeps⟩ := ih
    obtain ⟨roster'', hLast⟩ := hKeeps.1.step last
    exact ⟨roster'', hKeeps.trans hLast⟩

theorem invariant_boot (c : Cpu) (idle : TcbT) (sp : UInt32) (now : UInt64) :
    Invariant [idle] (boot c idle sp now) := by
  obtain ⟨m, hMemory, hStatus⟩ : ∃ m : Memory, (boot c idle sp now).cpu = { c with
        memory := (schedQueueAppend m { head := none, count := 0 } idle).1
        queue := (schedQueueAppend m { head := none, count := 0 } idle).2.1
        currentTask := if (schedQueueAppend m { head := none, count := 0 } idle).2.2 then some idle else none
        gRelocSkip := 0 } ∧ (m.tcbs idle).status = .running := by
    refine ⟨c.memory.set idle _, rfl, ?_⟩
    rw [Memory.set_same]
    rfl
  have hNil : Linked m.next (SchedQueue.head { head := none, count := 0 }) [] := Linked.nil
  obtain ⟨hOk, hLinks, hCount⟩ := schedQueueAppend_fresh hNil (List.not_mem_nil (a := idle))
  have hEntity := schedQueueAppend_entity m { head := none, count := 0 } idle idle
  have hCurrent : (boot c idle sp now).cpu.currentTask = some idle := by
    rw [hMemory]
    simp only [hOk, if_true]
  have hRunning : ((boot c idle sp now).cpu.memory.tcbs idle).status = .running := by
    rw [hMemory]
    simp only [hEntity, hStatus]
  refine ⟨?_, ?_, ⟨idle, List.mem_singleton_self idle, hCurrent⟩, ?_, ?_, ?_⟩
  · rw [hMemory]
    exact hLinks
  · rw [hMemory]
    simp only [hCount]
    rfl
  · intro t ht _
    rw [List.mem_singleton.mp ht]
    exact hCurrent
  · intro t ht _
    rw [List.mem_singleton.mp ht]
    exact .inr hRunning
  · intro t ht hDeath
    rw [List.mem_singleton.mp ht, hRunning] at hDeath
    cases hDeath

/-- After every step: what the roster looks like, and that the dead never come back. -/
theorem one_running_task {c : Cpu} {idle : TcbT} {sp : UInt32} {now : UInt64} {labels : List Label}
    {s : State} (hRun : Run schedSystem (boot c idle sp now) labels s) :
    ∃ roster : List TcbT, Linked s.cpu.memory.next s.cpu.queue.head roster ∧ roster.Nodup ∧
      s.cpu.queue.count.toNat = roster.length ∧
      (∃ cur ∈ roster, s.cpu.currentTask = some cur) ∧
      (∀ t ∈ roster, (s.cpu.memory.tcbs t).status = .running → s.cpu.currentTask = some t) ∧
      (∀ t ∈ roster, (s.cpu.memory.tcbs t).status = .death → s.cpu.currentTask ≠ some t →
        ∀ later s', Run schedSystem s later s' → s'.cpu.currentTask ≠ some t) := by
  obtain ⟨roster, hInv, -⟩ := (invariant_boot c idle sp now).run hRun
  refine ⟨roster, hInv.links, hInv.links.nodup, hInv.count, hInv.current, hInv.running, ?_⟩
  intro t ht hDeath hAway later s' hLater
  obtain ⟨roster', -, hGone⟩ := hInv.run hLater
  exact (hGone t ⟨ht, hDeath, hAway⟩).2.2

/-! One CPU creates a thread and takes a tick. -/

def sampleBootCpu : Cpu :=
  { memory := { tcbs := fun _ => zeroedTcb, gWakeSkip := 0, gPickSticky := 0 }
    queue := { head := none, count := 0 }, currentTask := none, schedulerTicks := 0, switched := 0
    preempted := 0, invalidCtx := 0, gSchedEnabled := 1, gRelocSkip := 0, gExitLegacy := 0
    gExitCount := 0, gExitRefused := 0 }

def sampleBoot : State := boot sampleBootCpu ⟨0x1000, firstTcb_ne_zero⟩ 0x8000 0

def sampleCreation : Creation :=
  { tcb := some ⟨0x2000, secondTcb_ne_zero⟩, stack := some { base := 0x9000, top := 0xA000 }
    entry := 0x100, arg := 7, level := taskKernelLevel, now := 1 }

def sampleFrame : ArmExcFrame :=
  { address := 0x7F00, r := fun _ => 0, svcLr := 0, ret := 0x40, spsr := armCpsrKernel }

def sampleAfter : State :=
  { sampleBoot with cpu := (schedTick (sampleBoot.cpu.create sampleCreation) sampleFrame 5).1 }

theorem one_running_after_creation :
    sampleAfter.cpu.currentTask = some ⟨0x2000, by decide⟩ ∧
      ∃ roster : List TcbT, Linked sampleAfter.cpu.memory.next sampleAfter.cpu.queue.head roster ∧
        ∃ cur ∈ roster, sampleAfter.cpu.currentTask = some cur := by
  have hCreate : Step sampleBoot (.create sampleCreation)
      { sampleBoot with cpu := sampleBoot.cpu.create sampleCreation } := by
    apply Step.create
    rintro t ⟨⟩
    have hLinks := (invariant_boot sampleBootCpu ⟨0x1000, by decide⟩ 0x8000 0).links
    rw [sampleBoot, Memory.roster_eq hLinks]
    decide
  have hRun := (Run.single (M := schedSystem) hCreate).snoc (Step.tick _ sampleFrame 5)
  obtain ⟨roster, hLinks, -, -, hCurrent, -⟩ := one_running_task hRun
  exact ⟨by decide, roster, hLinks, hCurrent⟩

end OpenXJ380.ArmSched
