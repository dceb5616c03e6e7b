import OpenXJ380.Process.System

/-! # Running threads and the processes that are freed

What is freed belongs to threads that can never be chosen again. A thread that still
runs when its process is freed is the one exception that has to be kept out.
-/

namespace OpenXJ380.Process

open Function

open Transition

def Tcb.Dead (t : Tcb) : Prop := t.status = .death ∨ t.status = .out

def State.Current (s : State) (p : PcbId) : Prop :=
    ∃ c t, c < s.cpus ∧ s.currentTask c = some t ∧ (s.tcb t).parentGroup = p

def State.Spared (s : State) : Prop :=
  ∀ c t, c < s.cpus → s.currentTask c = some t →
    s.stackFreed t = 0 ∧ s.tcbFreed t = 0 ∧ s.pcbFreed (s.tcb t).parentGroup = 0

def State.AllDead (s : State) (p : PcbId) : Prop := ∀ t, t < s.tcbs → (s.tcb t).parentGroup = p → (s.tcb t).Dead

structure Settled (s : State) (reaper : Option PcbId) : Prop where
  spared : s.Spared
  running : ∀ c t, c < s.cpus → s.currentTask c = some t → t < s.tcbs
  member : ∀ p t, t ∈ (s.pcb p).threadQueue → t < s.tcbs ∧ (s.tcb t).parentGroup = p
  born : ∀ t, t < s.tcbs → (s.tcb t).parentGroup < s.pcbs ∧
    (t ∈ (s.pcb (s.tcb t).parentGroup).threadQueue ∨ (s.tcb t).Dead)
  idle : ∀ t, (s.tcb t).idle = true → (s.tcb t).parentGroup = s.kernelGroup
  freedThread : ∀ t, t < s.tcbs → s.stackFreed t ≠ 0 ∨ s.tcbFreed t ≠ 0 →
    (s.tcb t).Dead ∧ (s.tcb t).parentGroup ≠ s.kernelGroup
  freedProcess : ∀ p, p < s.pcbs → s.pcbFreed p ≠ 0 → p ≠ s.kernelGroup ∧ s.AllDead p
  deadProcess : ∀ p, p < s.pcbs → (s.pcb p).status = .death → p ≠ s.kernelGroup ∧ s.AllDead p
  target : ∀ z ∈ reaper, z < s.pcbs ∧ z ≠ s.kernelGroup ∧ s.AllDead z ∧ ¬s.Current z
  kernel : s.kernelGroup < s.pcbs
  known : ∀ q p, p ∈ (s.pcb q).childPcb → p < s.pcbs

structure SameThreads (s s' : State) : Prop where
  kernelGroup : s'.kernelGroup = s.kernelGroup
  pcbs : s'.pcbs = s.pcbs
  pcbFreed : s'.pcbFreed = s.pcbFreed
  tcbs : s'.tcbs = s.tcbs
  tcbFreed : s'.tcbFreed = s.tcbFreed
  stackFreed : s'.stackFreed = s.stackFreed
  cpus : s'.cpus = s.cpus
  currentTask : s'.currentTask = s.currentTask
  group : ∀ t, (s'.tcb t).parentGroup = (s.tcb t).parentGroup
  idle : ∀ t, (s'.tcb t).idle = (s.tcb t).idle
  dead : ∀ t, (s.tcb t).Dead → (s'.tcb t).Dead
  threadQueue : ∀ p, (s'.pcb p).threadQueue = (s.pcb p).threadQueue
  death : ∀ p, (s'.pcb p).status = .death → (s.pcb p).status = .death
  known : ∀ q p, p ∈ (s'.pcb q).childPcb → p ∈ (s.pcb q).childPcb ∨ p < s.pcbs

theorem SameThreads.refl (s : State) : SameThreads s s :=
  ⟨rfl, rfl, rfl, rfl, rfl, rfl, rfl, rfl, fun _ => rfl, fun _ => rfl, fun _ h => h, fun _ => rfl, fun _ h => h,
    fun _ _ h => .inl h⟩

variable {s s' : State} {p z : PcbId}

theorem SameThreads.trans {s'' : State} (h : SameThreads s s') (h' : SameThreads s' s'') : SameThreads s s'' where
  kernelGroup := h'.kernelGroup.trans h.kernelGroup
  pcbs := h'.pcbs.trans h.pcbs
  pcbFreed := h'.pcbFreed.trans h.pcbFreed
  tcbs := h'.tcbs.trans h.tcbs
  tcbFreed := h'.tcbFreed.trans h.tcbFreed
  stackFreed := h'.stackFreed.trans h.stackFreed
  cpus := h'.cpus.trans h.cpus
  currentTask := h'.currentTask.trans h.currentTask
  group t := (h'.group t).trans (h.group t)
  idle t := (h'.idle t).trans (h.idle t)
  dead t hDead := h'.dead t (h.dead t hDead)
  threadQueue p := (h'.threadQueue p).trans (h.threadQueue p)
  death p hDeath := h.death p (h'.death p hDeath)
  known q p hp := by
    obtain hp | hp := h'.known q p hp
    · exact h.known q p hp
    · exact .inr (h.pcbs ▸ hp)

theorem SameThreads.allDead (h : SameThreads s s') (hDead : s.AllDead p) : s'.AllDead p := by
  intro t ht hp
  exact h.dead t (hDead t (h.tcbs ▸ ht) (h.group t ▸ hp))

theorem SameThreads.current (h : SameThreads s s') (hCurrent : s'.Current p) :
    s.Current p := by
  obtain ⟨c, t, hc, ht, hp⟩ := hCurrent
  exact ⟨c, t, h.cpus ▸ hc, h.currentTask ▸ ht, h.group t ▸ hp⟩

theorem Settled.congr {reaper : Option PcbId} (hSettled : Settled s reaper) (h : SameThreads s s') :
    Settled s' reaper where
  spared c t hc ht := by
    rw [h.stackFreed, h.tcbFreed, h.pcbFreed, h.group]
    exact hSettled.spared c t (h.cpus ▸ hc) (h.currentTask ▸ ht)
  running c t hc ht := by
    rw [h.tcbs]
    exact hSettled.running c t (h.cpus ▸ hc) (h.currentTask ▸ ht)
  member p t ht := by
    rw [h.tcbs, h.group]
    exact hSettled.member p t (h.threadQueue p ▸ ht)
  born t ht := by
    obtain ⟨hGroup, hQueue⟩ := hSettled.born t (h.tcbs ▸ ht)
    rw [h.group, h.pcbs, h.threadQueue]
    exact ⟨hGroup, hQueue.imp_right (h.dead t)⟩
  idle t ht := by
    rw [h.group, h.kernelGroup]
    exact hSettled.idle t (h.idle t ▸ ht)
  freedThread t ht hFreed := by
    rw [h.stackFreed, h.tcbFreed] at hFreed
    rw [h.group, h.kernelGroup]
    exact (hSettled.freedThread t (h.tcbs ▸ ht) hFreed).imp_left (h.dead t)
  freedProcess p hp hFreed := by
    rw [h.kernelGroup]
    exact (hSettled.freedProcess p (h.pcbs ▸ hp) (h.pcbFreed ▸ hFreed)).imp_right h.allDead
  deadProcess p hp hDeath := by
    rw [h.kernelGroup]
    exact (hSettled.deadProcess p (h.pcbs ▸ hp) (h.death p hDeath)).imp_right h.allDead
  target z hz := by
    obtain ⟨hLt, hne, hDead, hCurrent⟩ := hSettled.target z hz
    rw [h.pcbs, h.kernelGroup]
    exact ⟨hLt, hne, h.allDead hDead, fun hc => hCurrent (h.current hc)⟩
  kernel := by
    rw [h.kernelGroup, h.pcbs]
    exact hSettled.kernel
  known q p hp := by
    rw [h.pcbs]
    exact (h.known q p hp).elim (hSettled.known q p) id

theorem SameThreads.setPcb {b : Pcb} (hQueue : b.threadQueue = (s.pcb p).threadQueue)
    (hDeath : b.status = .death → (s.pcb p).status = .death)
    (hKnown : ∀ q, q ∈ b.childPcb → q ∈ (s.pcb p).childPcb ∨ q < s.pcbs) : SameThreads s (s.setPcb p b) := by
  refine ⟨rfl, rfl, rfl, rfl, rfl, rfl, rfl, rfl, fun _ => rfl, fun _ => rfl, fun _ h => h, ?_, ?_, ?_⟩
  · exact State.setPcb_pcb hQueue
  · exact State.setPcb_rel (R := fun b b' => b.status = .death → b'.status = .death) (fun _ => id) hDeath
  · exact State.setPcb_rel (R := fun b b' => ∀ q, q ∈ b.childPcb → q ∈ b'.childPcb ∨ q < s.pcbs)
      (fun _ _ => .inl) hKnown

theorem setThreadStatus_threads {t : TcbId} {status : TaskStatus}
    (h : (s.tcb t).Dead → status = .death ∨ status = .out) : SameThreads s (s.setThreadStatus t status) := by
  refine ⟨rfl, rfl, rfl, rfl, rfl, rfl, rfl, rfl, ?_, ?_, ?_, fun _ => rfl, fun _ h => h, fun _ _ h => .inl h⟩
  · exact State.setThreadStatus_tcb (fun _ _ => rfl) s t status
  · exact State.setThreadStatus_tcb (fun _ _ => rfl) s t status
  · intro r
    have hTcb : (s.setThreadStatus t status).tcb r = if r = t then { s.tcb t with status } else s.tcb r :=
      update_apply ..
    rw [hTcb]
    split_ifs with hr
    · rw [hr]
      exact h
    · exact id

theorem foldl_sameThreads {f : State → TcbId → State} (hf : ∀ s t, SameThreads s (f s t)) (threads : List TcbId)
    (s : State) : SameThreads s (threads.foldl f s) :=
  foldl_of SameThreads.refl SameThreads.trans hf threads s

section

variable (s : State)

theorem killThread_threads (t : TcbId) : SameThreads s (killThread s t) := by
  unfold killThread
  split
  · exact .refl s
  · exact setThreadStatus_threads fun _ => .inl rfl

theorem killThreads_threads (p : PcbId) : SameThreads s (killThreads s p) :=
  foldl_sameThreads killThread_threads _ s

theorem markThreads_threads (p : PcbId) : SameThreads s (markThreads s p) :=
  foldl_sameThreads (fun _ _ => setThreadStatus_threads fun _ => .inl rfl) _ s

theorem withFiles_threads (p : PcbId) (files : Files) (fileOpen : Option TableId)
    (fileOpenSharedRefs : Option CounterId) : SameThreads s (s.withFiles p files fileOpen fileOpenSharedRefs) := by
  have hSame : SameThreads s (s.setPcb p { s.pcb p with fileOpen, fileOpenSharedRefs }) :=
    SameThreads.setPcb rfl id fun _ => .inl
  exact ⟨rfl, rfl, rfl, rfl, rfl, rfl, rfl, rfl, hSame.group, hSame.idle, hSame.dead, hSame.threadQueue, hSame.death,
    hSame.known⟩

theorem closeProcessFileTable_threads (p : PcbId) : SameThreads s (closeProcessFileTable s p) := by
  obtain ⟨files, fileOpen, fileOpenSharedRefs, h⟩ := closeProcessFileTable_eq s p
  rw [h]
  exact withFiles_threads s p files fileOpen fileOpenSharedRefs

theorem removeChild_threads (q : Option PcbId) (p : PcbId) : SameThreads s (removeChild s q p) := by
  unfold removeChild
  split
  · exact .refl s
  · exact .setPcb rfl id fun _ h => .inl (List.mem_of_mem_erase h)

theorem killProcZombie_threads (p : PcbId) (exitCode : BitVec 32) :
    SameThreads s (killProcZombie s p exitCode) := by
  have hCode : SameThreads s (s.setPcb p { s.pcb p with exitCode }) := SameThreads.setPcb rfl id fun _ => .inl
  exact (hCode.trans (closeProcessFileTable_threads _ p)).trans (.setPcb rfl nofun fun _ => .inl)

theorem sendExit_threads (p : PcbId) (exitCode : BitVec 32) (node : Bool) :
    SameThreads s (sendExit s p exitCode node) := by
  unfold sendExit
  split
  · exact .refl s
  · exact .setPcb rfl id fun _ => .inl

end

theorem addChild_threads (q : PcbId) (hLt : p < s.pcbs) : SameThreads s (addChild s q p) := by
  refine .setPcb rfl id ?_
  intro r hr
  obtain hr | hr := List.mem_append.1 hr
  · exact .inl hr
  · exact .inr (List.mem_singleton.1 hr ▸ hLt)

theorem moveToReaper_threads (hLt : p < s.pcbs) : SameThreads s (moveToReaper s p) := by
  exact ((addChild_threads s.kernelGroup hLt).trans (removeChild_threads _ _ p)).trans (.setPcb rfl id fun _ => .inl)

theorem wait4PopExitMessage_threads (s : State) (parent : PcbId) (pid : Int) (node : Nat → Bool) :
    SameThreads s (wait4PopExitMessage s parent pid node).1 := SameThreads.setPcb rfl id fun _ => .inl

theorem foldl_killThread0_tcb (threads : List TcbId) (s : State) (t : TcbId) :
    (threads.foldl killThread0 s).tcb t = if t ∈ threads then { s.tcb t with status := .out } else s.tcb t := by
  induction threads generalizing s with
  | nil => rfl
  | cons r rest ih =>
    have hOnce : (killThread0 s r).tcb t = if t = r then { s.tcb r with status := .out } else s.tcb t := update_apply ..
    rw [List.foldl_cons, ih, hOnce]
    obtain rfl | hne := eq_or_ne t r
    · simp
    · rw [if_neg hne]
      simp [hne]

theorem foldl_killThread0_freed (threads : List TcbId) (s : State) {t : TcbId} (h : t ∉ threads) :
    (threads.foldl killThread0 s).stackFreed t = s.stackFreed t ∧
        (threads.foldl killThread0 s).tcbFreed t = s.tcbFreed t := by
  induction threads generalizing s with
  | nil => exact ⟨rfl, rfl⟩
  | cons r rest ih =>
    rw [List.mem_cons, not_or] at h
    obtain ⟨hStack, hTcb⟩ := ih (killThread0 s r) h.2
    rw [List.foldl_cons, hStack, hTcb]
    exact ⟨update_of_ne h.1 .., update_of_ne h.1 ..⟩

structure Releases (s s' : State) (z : PcbId) : Prop where
  kernelGroup : s'.kernelGroup = s.kernelGroup
  pcbs : s'.pcbs = s.pcbs
  pcbFreed : s'.pcbFreed = update s.pcbFreed z (s.pcbFreed z + 1)
  tcbs : s'.tcbs = s.tcbs
  cpus : s'.cpus = s.cpus
  currentTask : s'.currentTask = s.currentTask
  group : ∀ t, (s'.tcb t).parentGroup = (s.tcb t).parentGroup
  idle : ∀ t, (s'.tcb t).idle = (s.tcb t).idle
  dead : ∀ t, (s.tcb t).Dead → (s'.tcb t).Dead
  out : ∀ t, t ∈ (s.pcb z).threadQueue → (s'.tcb t).Dead
  kept : ∀ t, t ∉ (s.pcb z).threadQueue → s'.stackFreed t = s.stackFreed t ∧ s'.tcbFreed t = s.tcbFreed t
  threadQueue : ∀ p, (s'.pcb p).threadQueue = if p = z then [] else (s.pcb p).threadQueue
  death : ∀ p, p ≠ z → (s'.pcb p).status = .death → (s.pcb p).status = .death
  known : ∀ q p, p ∈ (s'.pcb q).childPcb → p ∈ (s.pcb q).childPcb ∨ p < s.pcbs

theorem freeThreads_releases (s : State) (z : PcbId) : Releases s ((freeThreads s z).freePcb z) z := by
  obtain ⟨tcb, stackFreed, tcbFreed, h⟩ :=
    foldl_threads (f := killThread0) (fun _ _ => ⟨_, _, _, rfl⟩) (s.pcb z).threadQueue s
  have hTcb := foldl_killThread0_tcb (s.pcb z).threadQueue s
  have hFreed := fun t => foldl_killThread0_freed (s.pcb z).threadQueue s (t := t)
  have hState : (freeThreads s z).freePcb z =
      ({ s.setPcb z { s.pcb z with threadQueue := [] } with tcb, stackFreed, tcbFreed } : State).freePcb z := by
    rw [freeThreads, h]
    rfl
  rw [h] at hTcb hFreed
  have hTcb : ∀ t, tcb t = if t ∈ (s.pcb z).threadQueue then { s.tcb t with status := .out } else s.tcb t := hTcb
  rw [hState]
  refine ⟨rfl, rfl, rfl, rfl, rfl, rfl, ?_, ?_, ?_, ?_, hFreed, ?_, ?_, ?_⟩
  · intro t
    refine (congrArg Tcb.parentGroup (hTcb t)).trans ?_
    split_ifs <;> rfl
  · intro t
    refine (congrArg Tcb.idle (hTcb t)).trans ?_
    split_ifs <;> rfl
  · intro t hDead
    show (tcb t).Dead
    rw [hTcb t]
    split_ifs
    · exact .inr rfl
    · exact hDead
  · intro t ht
    show (tcb t).Dead
    rw [hTcb t, if_pos ht]
    exact .inr rfl
  · intro p
    split_ifs with hp
    · rw [hp]
      exact congrArg Pcb.threadQueue (State.setPcb_self s z _)
    · exact congrArg Pcb.threadQueue (State.setPcb_of_ne hp _)
  · intro p hp hDeath
    exact (congrArg Pcb.status (State.setPcb_of_ne hp _)).symm.trans hDeath
  · intro q p hMem
    have hChild : ((s.setPcb z { s.pcb z with threadQueue := [] }).pcb q).childPcb = (s.pcb q).childPcb := by
      obtain rfl | hq := eq_or_ne q z
      · rw [State.setPcb_self]
      · rw [State.setPcb_of_ne hq]
    exact .inl (hChild ▸ hMem)

theorem SameThreads.releases {s'' : State} (h : SameThreads s s') (h' : Releases s' s'' z) :
    Releases s s'' z where
  kernelGroup := h'.kernelGroup.trans h.kernelGroup
  pcbs := h'.pcbs.trans h.pcbs
  pcbFreed := by rw [h'.pcbFreed, h.pcbFreed]
  tcbs := h'.tcbs.trans h.tcbs
  cpus := h'.cpus.trans h.cpus
  currentTask := h'.currentTask.trans h.currentTask
  group t := (h'.group t).trans (h.group t)
  idle t := (h'.idle t).trans (h.idle t)
  dead t hDead := h'.dead t (h.dead t hDead)
  out t ht := h'.out t (h.threadQueue z ▸ ht)
  kept t ht := by
    rw [← h.stackFreed, ← h.tcbFreed]
    exact h'.kept t (h.threadQueue z ▸ ht)
  threadQueue p := by rw [h'.threadQueue, h.threadQueue]
  death p hp hDeath := h.death p (h'.death p hp hDeath)
  known q p hp := by
    obtain hp | hp := h'.known q p hp
    · exact h.known q p hp
    · exact .inr (h.pcbs ▸ hp)

theorem Releases.of_setStatus {status : TaskStatus} (h : Releases (s.setStatus z status) s' z) : Releases s s' z where
  __ := h
  out t ht := h.out t (by rwa [State.setStatus, State.setPcb_self])
  kept t ht := h.kept t (by rwa [State.setStatus, State.setPcb_self])
  threadQueue p := by
    rw [h.threadQueue]
    split_ifs with hp
    · rfl
    · rw [State.setStatus, State.setPcb_of_ne hp]
  death p hp hDeath := by
    have hWas := h.death p hp hDeath
    rwa [State.setStatus, State.setPcb_of_ne hp] at hWas
  known q p hp := by
    have hChild : ((s.setStatus z status).pcb q).childPcb = (s.pcb q).childPcb := by
      obtain rfl | hq := eq_or_ne q z
      · rw [State.setStatus, State.setPcb_self]
      · rw [State.setStatus, State.setPcb_of_ne hq]
    exact hChild ▸ h.known q p hp

theorem killProc0_releases (s : State) (z : PcbId) : Releases s (killProc0 s z) z :=
  ((markThreads_threads s z).trans (closeProcessFileTable_threads _ z)).releases (freeThreads_releases _ z)

theorem killProc_releases (s : State) (z : PcbId) (exitCode : BitVec 32) (h : s.isKernel z = false) :
    Releases s (killProc s z exitCode) z := by
  have hCode : SameThreads s (s.setPcb z { s.pcb z with exitCode }) := SameThreads.setPcb rfl id fun _ => .inl
  rw [killProc, if_neg (by rw [h]; decide)]
  exact (hCode.trans (removeChild_threads _ _ z)).releases (killProc0_releases _ z).of_setStatus

theorem Settled.released {reaper : Option PcbId} (hSettled : Settled s reaper)
    (h : Releases s s' z) (hne : z ≠ s.kernelGroup) (hCurrent : ¬s.Current z) : Settled s' reaper := by
  have hAllDead : ∀ p, s.AllDead p → s'.AllDead p := by
    intro p hDead t ht hp
    exact h.dead t (hDead t (h.tcbs ▸ ht) (h.group t ▸ hp))
  have hDeadZ : s'.AllDead z := by
    intro t ht hz
    obtain ⟨-, hQueue | hDead⟩ := hSettled.born t (h.tcbs ▸ ht)
    · exact h.out t ((h.group t).symm.trans hz ▸ hQueue)
    · exact h.dead t hDead
  have hNotIn : ∀ t, (s.tcb t).parentGroup ≠ z → t ∉ (s.pcb z).threadQueue := fun t ht hMem =>
    ht (hSettled.member z t hMem).2
  constructor
  · intro c t hc ht
    have hGroup : (s.tcb t).parentGroup ≠ z := fun hz => hCurrent ⟨c, t, h.cpus ▸ hc, h.currentTask ▸ ht, hz⟩
    obtain ⟨hStack, hTcb, hPcb⟩ := hSettled.spared c t (h.cpus ▸ hc) (h.currentTask ▸ ht)
    obtain ⟨hStackKept, hTcbKept⟩ := h.kept t (hNotIn t hGroup)
    rw [hStackKept, hTcbKept, h.pcbFreed, h.group, update_of_ne hGroup]
    exact ⟨hStack, hTcb, hPcb⟩
  · intro c t hc ht
    rw [h.tcbs]
    exact hSettled.running c t (h.cpus ▸ hc) (h.currentTask ▸ ht)
  · intro p t ht
    rw [h.threadQueue] at ht
    split_ifs at ht
    · cases ht
    · rw [h.tcbs, h.group]
      exact hSettled.member p t ht
  · intro t ht
    obtain ⟨hGroup, hQueue⟩ := hSettled.born t (h.tcbs ▸ ht)
    rw [h.group, h.pcbs]
    refine ⟨hGroup, ?_⟩
    obtain hz | hz := eq_or_ne (s.tcb t).parentGroup z
    · exact .inr (hDeadZ t ht ((h.group t).trans hz))
    · rw [h.threadQueue, if_neg hz]
      exact hQueue.imp_right (h.dead t)
  · intro t ht
    rw [h.group, h.kernelGroup]
    exact hSettled.idle t (h.idle t ▸ ht)
  · intro t ht hFreed
    rw [h.group, h.kernelGroup]
    obtain hMem | hMem := Decidable.em (t ∈ (s.pcb z).threadQueue)
    · exact ⟨h.out t hMem, (hSettled.member z t hMem).2 ▸ hne⟩
    · obtain ⟨hStack, hTcb⟩ := h.kept t hMem
      rw [hStack, hTcb] at hFreed
      exact (hSettled.freedThread t (h.tcbs ▸ ht) hFreed).imp_left (h.dead t)
  · intro p hp hFreed
    rw [h.kernelGroup]
    obtain rfl | hpz := eq_or_ne p z
    · exact ⟨hne, hDeadZ⟩
    · rw [h.pcbFreed, update_of_ne hpz] at hFreed
      exact (hSettled.freedProcess p (h.pcbs ▸ hp) hFreed).imp_right (hAllDead p)
  · intro p hp hDeath
    rw [h.kernelGroup]
    obtain rfl | hpz := eq_or_ne p z
    · exact ⟨hne, hDeadZ⟩
    · exact (hSettled.deadProcess p (h.pcbs ▸ hp) (h.death p hpz hDeath)).imp_right (hAllDead p)
  · intro r hr
    obtain ⟨hLt, hrne, hDead, hNot⟩ := hSettled.target r hr
    rw [h.pcbs, h.kernelGroup]
    refine ⟨hLt, hrne, hAllDead r hDead, ?_⟩
    rintro ⟨c, t, hc, ht, hGroup⟩
    exact hNot ⟨c, t, h.cpus ▸ hc, h.currentTask ▸ ht, h.group t ▸ hGroup⟩
  · rw [h.kernelGroup, h.pcbs]
    exact hSettled.kernel
  · intro q p hp
    rw [h.pcbs]
    exact (h.known q p hp).elim (hSettled.known q p) id

end OpenXJ380.Process
