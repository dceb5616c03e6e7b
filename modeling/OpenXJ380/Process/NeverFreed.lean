import OpenXJ380.Process.NeverDangles
import OpenXJ380.Process.Running

/-! # When a running thread is never freed

The reaper looks for running threads before it frees a process; `wait4` does not.
-/

namespace OpenXJ380.Process

open Function

open Transition

variable {s s' : State} {reaper : Option PcbId} {p : PcbId} {t : TcbId} {b : Pcb}

theorem Settled.setDeath (hSettled : Settled s reaper)
    (hne : p ≠ s.kernelGroup) (hDead : s.AllDead p) : Settled (s.setStatus p .death) reaper := by
  have hQueue : ∀ q, ((s.setStatus p .death).pcb q).threadQueue = (s.pcb q).threadQueue :=
    State.setPcb_pcb (f := Pcb.threadQueue) rfl
  refine { hSettled with member := ?_, born := ?_, deadProcess := ?_, known := ?_ }
  · intro q t ht
    exact hSettled.member q t (hQueue q ▸ ht)
  · intro t ht
    rw [hQueue]
    exact hSettled.born t ht
  · intro q hq hDeath
    obtain rfl | hqp := eq_or_ne q p
    · exact ⟨hne, hDead⟩
    · rw [State.setStatus, State.setPcb_of_ne hqp] at hDeath
      exact hSettled.deadProcess q hq hDeath
  · intro q r hr
    have hChild : ((s.setStatus p .death).pcb q).childPcb = (s.pcb q).childPcb := by
      refine State.setPcb_pcb (f := Pcb.childPcb) ?_ q
      rfl
    exact hSettled.known q r (hChild ▸ hr)

theorem killThread_dead (h : (s.tcb t).idle = false) : ((killThread s t).tcb t).Dead := by
  rw [killThread, if_neg (by rw [h]; decide)]
  exact Or.inl (State.setThreadStatus_self s t .death)

theorem foldl_killThread_dead (threads : List TcbId) (hMem : t ∈ threads)
    (hIdle : (s.tcb t).idle = false) : ((threads.foldl killThread s).tcb t).Dead := by
  induction threads generalizing s with
  | nil => cases hMem
  | cons r rest ih =>
    have hRest := foldl_sameThreads killThread_threads rest (killThread s r)
    obtain rfl | hMem := List.mem_cons.1 hMem
    · exact hRest.dead t (killThread_dead hIdle)
    · exact ih hMem (((killThread_threads s r).idle t).trans hIdle)

theorem Settled.killThreads_allDead (hSettled : Settled s reaper)
    (hne : p ≠ s.kernelGroup) : (killThreads s p).AllDead p := by
  have hSame := killThreads_threads s p
  intro t ht hp
  have hGroup : (s.tcb t).parentGroup = p := (hSame.group t).symm.trans hp
  obtain ⟨-, hQueue | hDead⟩ := hSettled.born t (hSame.tcbs ▸ ht)
  · have hIdle : (s.tcb t).idle = false := by
      cases hIs : (s.tcb t).idle with
      | false => rfl
      | true => exact absurd (hGroup.symm.trans (hSettled.idle t hIs)) hne
    exact foldl_killThread_dead _ (hGroup ▸ hQueue) hIdle
  · exact hSame.dead t hDead

theorem killThreads_setStatus (s : State) (p : PcbId) (status : TaskStatus) :
    killThreads (s.setStatus p status) p = (killThreads s p).setStatus p status := by
  have hComm : ∀ threads : List TcbId, ∀ s : State, threads.foldl killThread (s.setStatus p status) =
      (threads.foldl killThread s).setStatus p status := by
    intro threads
    induction threads with
    | nil => exact fun _ => rfl
    | cons t rest ih =>
      intro s
      have hOnce : killThread (s.setStatus p status) t = (killThread s t).setStatus p status := by
        unfold killThread
        show (if (s.tcb t).idle = true then _ else _) = _
        split_ifs <;> rfl
      rw [List.foldl_cons, hOnce, ih, List.foldl_cons]
  rw [killThreads, killThreads, ← hComm]
  rw [State.setStatus, State.setPcb_self]

section

variable (hSettled : Settled s reaper)

include hSettled

theorem Settled.killDeferred (hLt : p < s.pcbs) (exitCode : BitVec 32) (listed : Bool) :
        Settled (killProcDeferred s p exitCode listed).1 reaper := by
  have hDie : ∀ s' : State, SameThreads s s' → s.isKernel p = false → Settled (killThreads ((closeProcessFileTable
      (s'.setPcb p { s'.pcb p with exitCode }) p).setStatus p .death) p) reaper := by
    intro s' hSame hKernel
    have hCode : SameThreads s' (s'.setPcb p { s'.pcb p with exitCode }) := SameThreads.setPcb rfl id fun _ => .inl
    have hClosed := hSame.trans (hCode.trans (closeProcessFileTable_threads _ p))
    have hBefore := hSettled.congr hClosed
    have hne : p ≠ s.kernelGroup := by
      rintro rfl
      rw [State.isKernel, decide_eq_false_iff_not] at hKernel
      exact hKernel rfl
    have hStill := hClosed.kernelGroup ▸ hne
    rw [killThreads_setStatus]
    have hThreads := killThreads_threads (closeProcessFileTable (s'.setPcb p { s'.pcb p with exitCode }) p) p
    exact (hBefore.congr hThreads).setDeath (hThreads.kernelGroup.symm ▸ hStill) (hBefore.killThreads_allDead hStill)
  unfold killProcDeferred
  split_ifs with hKernel hListed hParent
  · exact hSettled
  · exact hSettled
  · exact hDie _ (moveToReaper_threads hLt) (by simpa using hKernel)
  · exact hDie s (.refl s) (by simpa using hKernel)

theorem Settled.newPcb (hQueue : b.threadQueue = []) (hStatus : b.status ≠ .death) (hChild : b.childPcb = []) :
    Settled (s.newPcb b) reaper := by
  have hSelf : (s.newPcb b).pcb s.pcbs = b := update_self ..
  have hOther : ∀ p, p ≠ s.pcbs → (s.newPcb b).pcb p = s.pcb p := fun p hp => update_of_ne hp ..
  have hFreed : ∀ p, p ≠ s.pcbs → (s.newPcb b).pcbFreed p = s.pcbFreed p := fun p hp => update_of_ne hp ..
  have hBelow : ∀ p, p < (s.newPcb b).pcbs → p ≠ s.pcbs → p < s.pcbs :=
    fun p hp hne => lt_of_le_of_ne (Nat.le_of_lt_succ hp) hne
  constructor
  · intro c t hc ht
    obtain ⟨hGroup, -⟩ := hSettled.born t (hSettled.running c t hc ht)
    rw [show (s.newPcb b).tcb = s.tcb from rfl, hFreed _ hGroup.ne]
    exact hSettled.spared c t hc ht
  · exact hSettled.running
  · intro p t ht
    obtain rfl | hp := eq_or_ne p s.pcbs
    · rw [hSelf, hQueue] at ht
      cases ht
    · rw [hOther p hp] at ht
      exact hSettled.member p t ht
  · intro t ht
    obtain ⟨hGroup, hIn⟩ := hSettled.born t ht
    refine ⟨Nat.lt_succ_of_lt hGroup, ?_⟩
    rw [show (s.newPcb b).tcb = s.tcb from rfl, hOther _ hGroup.ne]
    exact hIn
  · exact hSettled.idle
  · exact hSettled.freedThread
  · intro p hp hGone
    obtain rfl | hne := eq_or_ne p s.pcbs
    · exact absurd (update_self ..) hGone
    · rw [hFreed p hne] at hGone
      exact hSettled.freedProcess p (hBelow p hp hne) hGone
  · intro p hp hDeath
    obtain rfl | hne := eq_or_ne p s.pcbs
    · rw [hSelf] at hDeath
      exact absurd hDeath hStatus
    · rw [hOther p hne] at hDeath
      exact hSettled.deadProcess p (hBelow p hp hne) hDeath
  · intro z hz
    obtain ⟨hLt, hRest⟩ := hSettled.target z hz
    exact ⟨Nat.lt_succ_of_lt hLt, hRest⟩
  · exact Nat.lt_succ_of_lt hSettled.kernel
  · intro q p hp
    obtain rfl | hne := eq_or_ne q s.pcbs
    · rw [hSelf, hChild] at hp
      cases hp
    · rw [hOther q hne] at hp
      exact Nat.lt_succ_of_lt (hSettled.known q p hp)

theorem Settled.freePcb {z : PcbId}
    (hne : z ≠ s.kernelGroup) (hNone : ∀ t, t < s.tcbs → (s.tcb t).parentGroup ≠ z) : Settled (s.freePcb z) reaper := by
  have hFreed : ∀ p, p ≠ z → (s.freePcb z).pcbFreed p = s.pcbFreed p := fun p hp => update_of_ne hp ..
  refine { hSettled with spared := ?_, freedProcess := ?_ }
  · intro c t hc ht
    rw [show (s.freePcb z).tcb = s.tcb from rfl, hFreed _ (hNone t (hSettled.running c t hc ht))]
    exact hSettled.spared c t hc ht
  · intro p hp hGone
    obtain rfl | hpz := eq_or_ne p z
    · exact ⟨hne, fun t ht hGroup => absurd hGroup (hNone t ht)⟩
    · rw [hFreed p hpz] at hGone
      exact hSettled.freedProcess p hp hGone

theorem Settled.newTcb (hLt : p < s.pcbs)
    (hLive : s.pcbFreed p = 0) (hStatus : (s.pcb p).status ≠ .death) (hTarget : p ∉ reaper) :
    Settled (s.newTcb p) reaper := by
  have hSelf : (s.newTcb p).tcb s.tcbs = ⟨p, .start, false, false⟩ := update_self ..
  have hOther : ∀ t, t ≠ s.tcbs → (s.newTcb p).tcb t = s.tcb t := fun t ht => update_of_ne ht ..
  have hBelow : ∀ t, t < (s.newTcb p).tcbs → t ≠ s.tcbs → t < s.tcbs :=
    fun t ht hne => lt_of_le_of_ne (Nat.le_of_lt_succ ht) hne
  have hPcb : ∀ q, (s.newTcb p).pcb q =
      if q = p then { s.pcb p with threadQueue := (s.pcb p).threadQueue ++ [s.tcbs] } else s.pcb q :=
    fun q => update_apply ..
  have hStatusAt : ∀ q, ((s.newTcb p).pcb q).status = (s.pcb q).status := by
    intro q
    rw [hPcb]
    split_ifs with hq
    · rw [hq]
    · rfl
  have hAllDead : ∀ q, q ≠ p → s.AllDead q → (s.newTcb p).AllDead q := by
    intro q hq hDead t ht hGroup
    obtain rfl | hne := eq_or_ne t s.tcbs
    · rw [hSelf] at hGroup
      exact absurd hGroup.symm hq
    · rw [hOther t hne] at hGroup ⊢
      exact hDead t (hBelow t ht hne) hGroup
  constructor
  · intro c t hc ht
    have hne : t ≠ s.tcbs := (hSettled.running c t hc ht).ne
    rw [hOther t hne]
    show update s.stackFreed s.tcbs 0 t = 0 ∧ update s.tcbFreed s.tcbs 0 t = 0 ∧ _
    rw [update_of_ne hne, update_of_ne hne]
    exact hSettled.spared c t hc ht
  · intro c t hc ht
    exact Nat.lt_succ_of_lt (hSettled.running c t hc ht)
  · intro q t ht
    rw [hPcb] at ht
    split_ifs at ht with hq
    · obtain hMem | hMem := List.mem_append.1 ht
      · obtain ⟨hIn, hGroup⟩ := hSettled.member p t hMem
        rw [hOther t hIn.ne, hq]
        exact ⟨Nat.lt_succ_of_lt hIn, hGroup⟩
      · rw [List.mem_singleton.1 hMem, hSelf]
        exact ⟨Nat.lt_succ_self _, hq.symm⟩
    · obtain ⟨hIn, hGroup⟩ := hSettled.member q t ht
      rw [hOther t hIn.ne]
      exact ⟨Nat.lt_succ_of_lt hIn, hGroup⟩
  · intro t ht
    obtain rfl | hne := eq_or_ne t s.tcbs
    · rw [hSelf, hPcb, if_pos rfl]
      exact ⟨hLt, .inl (List.mem_append_right _ (.head _))⟩
    · obtain ⟨hGroup, hIn⟩ := hSettled.born t (hBelow t ht hne)
      rw [hOther t hne]
      refine ⟨hGroup, hIn.imp_left fun hMem => ?_⟩
      rw [hPcb]
      split_ifs with hq
      · exact List.mem_append_left _ (hq ▸ hMem)
      · exact hMem
  · intro t ht
    obtain rfl | hne := eq_or_ne t s.tcbs
    · rw [hSelf] at ht
      cases ht
    · rw [hOther t hne] at ht ⊢
      exact hSettled.idle t ht
  · intro t ht hFreed
    obtain rfl | hne := eq_or_ne t s.tcbs
    · rcases hFreed with hFreed | hFreed <;> exact absurd (update_self ..) hFreed
    · have hWas : s.stackFreed t ≠ 0 ∨ s.tcbFreed t ≠ 0 := by
        refine hFreed.imp (fun h => ?_) (fun h => ?_)
        · rwa [show (s.newTcb p).stackFreed t = s.stackFreed t from update_of_ne hne ..] at h
        · rwa [show (s.newTcb p).tcbFreed t = s.tcbFreed t from update_of_ne hne ..] at h
      rw [hOther t hne]
      exact hSettled.freedThread t (hBelow t ht hne) hWas
  · intro q hq hGone
    have hqp : q ≠ p := by
      rintro rfl
      exact hGone hLive
    exact (hSettled.freedProcess q hq hGone).imp_right (hAllDead q hqp)
  · intro q hq hDeath
    rw [hStatusAt] at hDeath
    have hqp : q ≠ p := by
      rintro rfl
      exact hStatus hDeath
    exact (hSettled.deadProcess q hq hDeath).imp_right (hAllDead q hqp)
  · intro z hz
    obtain ⟨hIn, hne, hDead, hNot⟩ := hSettled.target z hz
    have hzp : z ≠ p := by
      rintro rfl
      exact hTarget hz
    refine ⟨hIn, hne, hAllDead z hzp hDead, ?_⟩
    rintro ⟨c, t, hc, ht, hGroup⟩
    rw [hOther t (hSettled.running c t hc ht).ne] at hGroup
    exact hNot ⟨c, t, hc, ht, hGroup⟩
  · exact hSettled.kernel
  · intro q r hr
    have hChild : ((s.newTcb p).pcb q).childPcb = (s.pcb q).childPcb := by
      rw [hPcb]
      split_ifs with hq
      · rw [hq]
      · rfl
    exact hSettled.known q r (hChild ▸ hr)

theorem Settled.started (hQueue : b.threadQueue = []) (hStatus : b.status ≠ .death) (hChild : b.childPcb = [])
    (hSame : SameThreads (s.newPcb b) s') : Settled (s'.newTcb s.pcbs) reaper := by
  have hNew := (hSettled.newPcb hQueue hStatus hChild).congr hSame
  have hLt : s.pcbs < s'.pcbs := hSame.pcbs ▸ Nat.lt_succ_self _
  have hLive : s'.pcbFreed s.pcbs = 0 := (congrFun hSame.pcbFreed s.pcbs).trans (update_self ..)
  have hDeath : (s'.pcb s.pcbs).status ≠ .death := by
    intro hDeath
    have hWas := hSame.death s.pcbs hDeath
    rw [show (s.newPcb b).pcb s.pcbs = b from update_self ..] at hWas
    exact hStatus hWas
  refine hNew.newTcb hLt hLive hDeath ?_
  intro hTarget
  exact absurd (hSettled.target s.pcbs hTarget).1 (lt_irrefl _)

theorem Settled.stillborn (hQueue : b.threadQueue = []) (hStatus : b.status ≠ .death) (hChild : b.childPcb = [])
    (hSame : SameThreads (s.newPcb b) s') : Settled (s'.freePcb s.pcbs) reaper := by
  have hNew := (hSettled.newPcb hQueue hStatus hChild).congr hSame
  refine hNew.freePcb ?_ ?_
  · rw [hSame.kernelGroup]
    exact hSettled.kernel.ne.symm
  · intro t ht
    rw [hSame.group]
    exact (hSettled.born t (hSame.tcbs ▸ ht)).1.ne

end

theorem freePartialProcess_threads (s : State) (p : PcbId) (listed : Bool) :
    SameThreads ((if listed then removeChild s (s.pcb p).parentTask p else s).freePcb p)
        (freePartialProcess s p listed) :=
  ⟨rfl, rfl, rfl, rfl, rfl, rfl, rfl, rfl, fun _ => rfl, fun _ => rfl, fun _ h => h, fun _ => rfl, fun _ h => h,
    fun _ _ h => .inl h⟩

theorem forkBlock_status (s : State) (parent : PcbId) : (forkBlock s parent).status ≠ .death := by
  have h : TaskStatus.start ≠ .death := nofun
  exact h

theorem Settled.fork (hSettled : Settled s reaper) (parent : PcbId) (cloneFiles : Bool)
    (m : ForkMemory) : Settled (processFork s parent cloneFiles m).1 reaper := by
  unfold processFork
  dsimp only
  generalize forkFiles s parent cloneFiles m = f
  have hFiles := withFiles_threads (s.newPcb (forkBlock s parent)) s.pcbs f.1 f.2.1 f.2.2
  have hListed := hFiles.trans (addChild_threads parent (Nat.lt_succ_self s.pcbs))
  split_ifs with hBlock hSpace hNull hThread
  · exact hSettled
  · exact hSettled.stillborn rfl (forkBlock_status s parent) rfl (.refl _)
  · exact (hSettled.stillborn rfl (forkBlock_status s parent) rfl hFiles).congr
      (freePartialProcess_threads _ s.pcbs false)
  · have hRemoved := hListed.trans (removeChild_threads _ ((addChild ((s.newPcb (forkBlock s parent)).withFiles s.pcbs
      f.1 f.2.1 f.2.2) parent s.pcbs).pcb s.pcbs).parentTask s.pcbs)
    exact (hSettled.stillborn rfl (forkBlock_status s parent) rfl hRemoved).congr
        (freePartialProcess_threads _ s.pcbs true)
  · exact hSettled.started rfl (forkBlock_status s parent) rfl hListed

theorem Settled.spawn (hSettled : Settled s reaper) (parent : Option PcbId) :
    Settled (createProcessGroup s parent) reaper :=
  hSettled.started (b := { forkBlock s (parent.getD s.kernelGroup) with ppid := 0 }) rfl
    (forkBlock_status s (parent.getD s.kernelGroup)) rfl
    ((withFiles_threads _ s.pcbs _ _ _).trans (addChild_threads _ (Nat.lt_succ_self s.pcbs)))

theorem stopCurrent_threads (s : State) (c : CpuId) : SameThreads s (stopCurrent s c) := by
  unfold stopCurrent
  split
  · exact .refl s
  · split
    · rename_i hRunning
      refine setThreadStatus_threads ?_
      rintro (h | h) <;> cases hRunning.symm.trans h
    · exact .refl s

theorem startBest_threads (s : State) (t : TcbId) : SameThreads s (startBest s t) := by
  unfold startBest
  split
  · rename_i hReady
    refine setThreadStatus_threads ?_
    rintro (h | h) <;> rcases hReady with hReady | hReady <;> cases hReady.symm.trans h
  · exact .refl s

theorem adoptOrphan_threads (s : State) (p : PcbId) : SameThreads s (adoptOrphan s p) := by
  unfold adoptOrphan
  split
  · exact .setPcb rfl id fun _ => .inl
  · exact .refl s

theorem schedulable_not_dead (h : isTaskSchedulable s t) : ¬(s.tcb t).Dead := by
  rintro (hDead | hDead) <;> simp [isTaskSchedulable, hDead] at h

theorem Settled.schedule (hSettled : Settled s reaper) (c : CpuId)
    (hThread : t < s.tcbs) (hTask : isTaskSchedulable s t ∨ (s.tcb t).idle) : Settled (switchTo s c t) reaper := by
  have hAlive : ∀ p, s.AllDead p → p ≠ s.kernelGroup → (s.tcb t).parentGroup ≠ p := by
    rintro p hDead hne rfl
    obtain hTask | hIdle := hTask
    · exact schedulable_not_dead hTask (hDead t hThread rfl)
    · exact hne (hSettled.idle t hIdle)
  have hStack : s.stackFreed t = 0 ∧ s.tcbFreed t = 0 := by
    have hNone : ¬(s.stackFreed t ≠ 0 ∨ s.tcbFreed t ≠ 0) := by
      intro hFreed
      obtain ⟨hDead, hne⟩ := hSettled.freedThread t hThread hFreed
      obtain hTask | hIdle := hTask
      · exact schedulable_not_dead hTask hDead
      · exact hne (hSettled.idle t hIdle)
    omega
  have hPcb : s.pcbFreed (s.tcb t).parentGroup = 0 := by
    obtain hZero | hPos := Nat.eq_zero_or_pos (s.pcbFreed (s.tcb t).parentGroup)
    · exact hZero
    · obtain ⟨hne, hDead⟩ := hSettled.freedProcess _ (hSettled.born t hThread).1 hPos.ne'
      exact absurd rfl (hAlive _ hDead hne)
  have hSame := ((adoptOrphan_threads s (s.tcb t).parentGroup).trans (stopCurrent_threads _ c)).trans
      (startBest_threads _ t)
  have hBefore := hSettled.congr hSame
  unfold switchTo
  generalize hState : startBest (stopCurrent (adoptOrphan s (s.tcb t).parentGroup) c) t = s' at hSame hBefore
  have hTask' : ∀ d u, update s'.currentTask c (some t) d = some u → u = t ∨ s'.currentTask d = some u := by
    intro d u hu
    obtain rfl | hd := eq_or_ne d c
    · rw [update_self] at hu
      exact .inl (Option.some.inj hu).symm
    · rw [update_of_ne hd] at hu
      exact .inr hu
  refine { hBefore with spared := ?_, running := ?_, target := ?_ }
  · intro d u hd hu
    obtain rfl | hu := hTask' d u hu
    · show s'.stackFreed u = 0 ∧ s'.tcbFreed u = 0 ∧ s'.pcbFreed (s'.tcb u).parentGroup = 0
      rw [hSame.stackFreed, hSame.tcbFreed, hSame.pcbFreed, hSame.group]
      exact ⟨hStack.1, hStack.2, hPcb⟩
    · exact hBefore.spared d u hd hu
  · intro d u hd hu
    obtain rfl | hu := hTask' d u hu
    · exact hSame.tcbs.symm ▸ hThread
    · exact hBefore.running d u hd hu
  · intro z hz
    obtain ⟨hLt, hne, hDead, hNot⟩ := hBefore.target z hz
    refine ⟨hLt, hne, hDead, ?_⟩
    rintro ⟨d, u, hd, hu, hGroup⟩
    obtain rfl | hu := hTask' d u hu
    · obtain ⟨-, hne', hDead', -⟩ := hSettled.target z hz
      exact hAlive z hDead' hne' ((hSame.group u).symm.trans hGroup)
    · exact hNot ⟨d, u, hd, hu, hGroup⟩

theorem processIsCurrentOnAnyCpu_iff (s : State) (p : PcbId) : processIsCurrentOnAnyCpu s p ↔ s.Current p := by
  unfold processIsCurrentOnAnyCpu State.Current
  rw [List.any_eq_true]
  constructor
  · rintro ⟨c, hc, hAny⟩
    cases hTask : s.currentTask c with
    | none =>
      rw [hTask] at hAny
      cases hAny
    | some t =>
      rw [hTask] at hAny
      exact ⟨c, t, List.mem_range.1 hc, hTask, of_decide_eq_true hAny⟩
  · rintro ⟨c, t, hc, hTask, hGroup⟩
    refine ⟨c, List.mem_range.2 hc, ?_⟩
    rw [hTask]
    exact decide_eq_true hGroup

theorem isKernel_self (s : State) : s.isKernel s.kernelGroup := decide_eq_true rfl

theorem Settled.killProc (hSettled : Settled s reaper) {z : PcbId}
    (exitCode : BitVec 32) (hCurrent : ¬s.Current z) : Settled (killProc s z exitCode) reaper := by
  cases hKernel : s.isKernel z with
  | true =>
    rw [Process.killProc, if_pos hKernel]
    exact hSettled
  | false =>
    have hne : z ≠ s.kernelGroup := by
      rintro rfl
      rw [isKernel_self] at hKernel
      cases hKernel
    exact hSettled.released (killProc_releases s z exitCode hKernel) hne hCurrent

theorem Settled.reaperFind (hSettled : Settled s none) : Settled s (findReapableChild s s.kernelGroup) := by
  refine { hSettled with target := ?_ }
  intro z hz
  have hFound := List.find?_some hz
  have hMem := List.mem_of_find?_eq_some hz
  rw [Bool.and_eq_true, decide_eq_true_eq, Bool.not_eq_true'] at hFound
  have hLt := hSettled.known s.kernelGroup z hMem
  obtain ⟨hne, hDead⟩ := hSettled.deadProcess z hLt hFound.1
  refine ⟨hLt, hne, hDead, ?_⟩
  rw [← processIsCurrentOnAnyCpu_iff, hFound.2]
  exact nofun

theorem Settled.advance (hSettled : Settled s reaper) {parent : PcbId} {o : Outcome}
    {call : Call} (h : StepState s parent o call s')
    (hCurrent : ∀ z pid status, call = .freeing z pid status → ¬s.Current z) : Settled s' reaper := by
  cases h with
  | same => exact hSettled
  | popped pid => exact hSettled.congr (wait4PopExitMessage_threads s parent pid o.node)
  | marked child exitCode => exact hSettled.congr (.setPcb rfl nofun fun _ => .inl)
  | freed child pid status => exact hSettled.killProc _ (hCurrent child pid status rfl)
  | died process exitCode => exact hSettled.congr (killThreads_threads s process)
  | told process exitCode => exact hSettled.congr (sendExit_threads s process exitCode _)

/-- A call of `wait4` frees a child only when no processor runs a thread of it any more. -/
def FreesStopped (k : Kernel) : Act → Prop
  | .advance t _ _ => ∀ z pid status, k.call t = .freeing z pid status → processIsCurrentOnAnyCpu k.toState z = false
  | _ => True

theorem Settled.step {k k' : Kernel} {act : Act} (hSettled : Settled k.toState k.reaper) (hStops : FreesStopped k act)
    (hStep : Acts k act k') : Settled k'.toState k'.reaper := by
  cases hStep with
  | schedule c t hCpu hThread hWaits hTask => exact hSettled.schedule c hThread hTask
  | fork t cloneFiles m hCalls =>
    have hForked := hSettled.fork (k.group t) cloneFiles m
    unfold Kernel.fork
    rcases h : processFork k.toState (k.group t) cloneFiles m with ⟨s', child⟩
    rw [h] at hForked
    cases child <;> exact hForked
  | spawn parent hParent => exact hSettled.spawn parent
  | openFile t h hCalls =>
    unfold Kernel.openFile
    split <;> exact hSettled.congr { SameThreads.refl k.toState with }
  | close t fd hCalls =>
    unfold Kernel.close
    split
    · exact hSettled
    · split <;> exact hSettled.congr { SameThreads.refl k.toState with }
  | closeExec t hCalls =>
    unfold Kernel.closeExec
    split <;> exact hSettled.congr { SameThreads.refl k.toState with }
  | exit t exitCode hCalls =>
    unfold Kernel.exit
    split
    · exact hSettled.congr (killThread_threads k.toState t)
    · exact hSettled.congr (killProcZombie_threads k.toState (k.group t) exitCode)
  | exitGroup t exitCode hCalls => exact hSettled.congr (killProcZombie_threads k.toState (k.group t) exitCode)
  | wait4 t pid nohang hCalls hPid =>
    obtain ⟨hState, -, hReaper, -⟩ := proceed_state k t (wait4Enter k.toState (k.group t) pid nohang)
    rw [hState, hReaper, wait4Enter_state]
    exact hSettled
  | advance t o p hRuns hAdvance =>
    obtain ⟨hState, -, hReaper, -⟩ := proceed_state k t p
    rw [hState, hReaper]
    refine hSettled.advance (advance_state hAdvance) ?_
    intro z pid status hCall
    rw [← processIsCurrentOnAnyCpu_iff, hStops z pid status hCall]
    exact nofun
  | killDeferred p exitCode listed hLive => exact hSettled.killDeferred hLive.1 exitCode listed
  | reaperFind hIdle =>
    rw [hIdle] at hSettled
    exact hSettled.reaperFind
  | reaperKill target hTarget =>
    have hNone : Settled k.toState none := { hSettled with target := nofun }
    exact hNone.killProc 0 (hSettled.target target hTarget).2.2.2

end OpenXJ380.Process
