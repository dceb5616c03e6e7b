import OpenXJ380.Process.WaitSteps

/-! # When each exited child is reaped once

Two threads of one process may find the same zombie, and both return it and free it.
When no other thread finds a child before the call that has found it is over, each
child is returned once, with a code that it has exited with.
-/

namespace OpenXJ380.Process

open Function

open Transition

/-- What freeing a process from the queue of its parent leaves of the others. -/
structure Frees (s s' : State) (z : PcbId) : Prop where
  pcbs : s'.pcbs = s.pcbs
  pid : ∀ p, (s'.pcb p).pid = (s.pcb p).pid
  child : ∀ r p, p ≠ z → p ∈ (s.pcb r).childPcb → p ∈ (s'.pcb r).childPcb
  freed : ∀ p, s'.pcbFreed p = if p = z then s.pcbFreed z + 1 else s.pcbFreed p
  lists : Lists s'
  buried : Buried s s' z

variable {s : State} {z : PcbId} {k : Kernel}

theorem Lists.frees (hLists : Lists s) {q : PcbId} (hz : z ∈ (s.pcb q).childPcb)
    (hParent : (s.pcb z).parentTask = some q) (exitCode : BitVec 32) : Frees s (Process.killProc s z exitCode) z := by
  obtain ⟨hLt, hne, -, -⟩ := hLists.known q z hz
  have hKernel := hLists.isKernel hLt hne
  have hTree := killProc_tree s z exitCode hKernel
  rw [hParent] at hTree
  refine ⟨hTree.pcbs, ?_, ?_, ?_, hLists.killProc hz hParent exitCode, killProc_buried exitCode hKernel⟩
  · intro p
    exact (hTree.children p).2.2.trans (removeChild_self s (some q) z p).1
  · intro r p hp hMem
    rw [(hTree.children r).1]
    obtain hSame | hErase := removeChild_children s (some q) z r
    · exact hSame.symm ▸ hMem
    · exact hErase.symm ▸ (List.mem_erase_of_ne hp).2 hMem
  · intro p
    rw [hTree.freed]
    exact update_apply ..

theorem Frees.later {s' : State} (h : Frees s s' z) (exits : PcbId → List (BitVec 32)) :
    Later s s' exits exits :=
  ⟨h.pcbs.symm.le, fun p _ => h.pid p, fun _ _ _ => id⟩

theorem Reaping.free (h : Reaping k) {t : TcbId} {pid : Nat} {status : BitVec 32}
    (hCall : k.call t = .freeing z pid status) (hParent : (k.pcb z).parentTask = some (k.group t)) :
    Reaping (k.proceed t (.ret (killProc k.toState z (k.pcb z).exitCode) (.child z pid status))) := by
  have hHas : (k.call t).child = some z := by
    rw [hCall]
    rfl
  have hMem := h.found t z hHas
  obtain ⟨ht, hGroup⟩ := h.of_child hHas
  obtain ⟨hLt, -, hAlive, -⟩ := h.lists.known (k.group t) z hMem
  have hFrees := h.lists.frees hMem hParent (k.pcb z).exitCode
  have hAlone : ∀ u w, u ≠ t → (k.call u).child = some w → w ≠ z := by
    rintro u w hu hw rfl
    exact hu (h.alone u t w hw hHas)
  have hReturned : ∀ w, update k.returned z (k.returned z + 1) w = if w = z then 1 else k.returned w := by
    intro w
    rw [update_apply, h.kept z (.inl ⟨hLt, hAlive⟩)]
  have hOther : ∀ u, u ≠ t → update k.call t Call.user u = k.call u := fun u hu => update_of_ne hu ..
  have hSelf : update k.call t Call.user t = .user := update_self ..
  refine h.moves hFrees.buried.quiet.group hFrees.buried.quiet.tcbs hFrees.buried.quiet.kernelGroup
    (hFrees.later k.exits) t ht (fun hNot => absurd hSelf hNot) hOther ?_ ?_ ?_ ?_ hFrees.lists
    (h.exited.buried hFrees.buried hLt (hFrees.later k.exits) hFrees.pcbs) ?_ ?_ ?_ ?_
  · show Told _ _ (update k.call t Call.user t)
    rw [hSelf]
    trivial
  · intro u w hu hReap
    have hWas := h.told u
    rw [hReap] at hWas
    have hne : w ≠ z := hAlone u w hu (by rw [hReap]; rfl)
    show ((killProc k.toState z (k.pcb z).exitCode).pcb w).exitCode ∈ k.exits w
    rw [(hFrees.buried.quiet.pcb w hne).1]
    exact hWas.2
  · intro u w hw
    have hw : (update k.call t Call.user u).child = some w := hw
    obtain rfl | hu := eq_or_ne u t
    · rw [hSelf] at hw
      cases hw
    · rw [hOther u hu] at hw
      exact hFrees.child _ w (hAlone u w hu hw) (h.found u w hw)
  · intro u w _ hw
    have hw : (update k.call t Call.user t).child = some w := hw
    rw [hSelf] at hw
    cases hw
  · intro w hw
    have hwMem := h.reaper w hw
    refine hFrees.child _ w ?_ hwMem
    rintro rfl
    exact hGroup (h.lists.only _ _ w hMem hwMem)
  · intro w
    show update k.returned z (k.returned z + 1) w ≤ 1
    rw [hReturned]
    split_ifs
    · exact Nat.le_refl 1
    · exact h.returned w
  · intro w hw
    show update k.returned z (k.returned z + 1) w = 0
    have hne : w ≠ z := by
      rintro rfl
      obtain ⟨-, hFreed⟩ | hGe := hw
      · have hNot := hFrees.freed w
        rw [if_pos rfl] at hNot
        exact absurd (hNot.symm.trans hFreed) (Nat.succ_ne_zero _)
      · exact absurd (hFrees.pcbs ▸ hGe) (not_le.2 hLt)
    rw [hReturned, if_neg hne]
    refine h.kept w ?_
    obtain ⟨hwLt, hFreed⟩ | hGe := hw
    · have hSame := hFrees.freed w
      rw [if_neg hne] at hSame
      exact .inl ⟨hFrees.pcbs ▸ hwLt, hSame.symm.trans hFreed⟩
    · exact .inr (hFrees.pcbs ▸ hGe)
  · intro w hw
    exact h.unborn w (hFrees.pcbs ▸ hw)

theorem Reaping.reaperKill (h : Reaping k) (hTarget : k.reaper = some z) :
    Reaping { k.withState (killProc k.toState z 0) with reaper := none } := by
  have hMem := h.reaper z hTarget
  obtain ⟨hLt, -, -, hTask⟩ := h.lists.known k.kernelGroup z hMem
  have hFrees := h.lists.frees hMem (hTask.elim id id) 0
  have hNot : ∀ t w, (k.call t).child = some w → w ≠ z := by
    rintro t w hw rfl
    exact (h.of_child hw).2 (h.lists.only _ _ w (h.found t w hw) hMem)
  refine h.next ⟨hFrees.buried.quiet.tcbs, hFrees.buried.quiet.group, hFrees.buried.quiet.kernelGroup,
    hFrees.later k.exits, ?_, ?_⟩ rfl hFrees.lists
    (h.exited.buried hFrees.buried hLt (hFrees.later k.exits) hFrees.pcbs) nofun rfl ?_ ?_
  · intro t w hReap
    have hWas := h.told t
    rw [hReap] at hWas
    have hne : w ≠ z := hNot t w (by rw [hReap]; rfl)
    show ((killProc k.toState z 0).pcb w).exitCode ∈ k.exits w
    rw [(hFrees.buried.quiet.pcb w hne).1]
    exact hWas.2
  · intro t w hw
    exact hFrees.child _ w (hNot t w hw) (h.found t w hw)
  · intro w _
    show k.pcbFreed w ≤ (killProc k.toState z 0).pcbFreed w
    rw [hFrees.freed]
    split_ifs with hw
    · exact hw ▸ Nat.le_succ _
    · exact le_rfl
  · intro w hw
    exact h.unborn w (hFrees.pcbs ▸ hw)

theorem Reaping.reaperFind (h : Reaping k) :
    Reaping { k with reaper := findReapableChild k.toState k.kernelGroup } :=
  { h with reaper := fun _ hz => List.mem_of_find?_eq_some hz }

theorem Reaping.killDeferred (h : Reaping k) {p : PcbId} (hLive : k.Live p)
    (hFree : ∀ t, (k.call t).child ≠ some p) (exitCode : BitVec 32) (listed : Bool) :
    Reaping (k.withState (killProcDeferred k.toState p exitCode listed).1) := by
  have hLists := h.lists.killDeferred hLive exitCode listed
  have hQuiet : Quiet (· = p) k.toState (killProcDeferred k.toState p exitCode listed).1 := by
    obtain hCalm | hBuried := killProcDeferred_buried k.toState p exitCode listed
    · exact hCalm.quiet _
    · exact hBuried.quiet
  have hRest : (killProcDeferred k.toState p exitCode listed).1.pcbs = k.pcbs ∧
      (killProcDeferred k.toState p exitCode listed).1.pcbFreed = k.pcbFreed ∧
      (∀ r, ((killProcDeferred k.toState p exitCode listed).1.pcb r).pid = (k.pcb r).pid) ∧
      (∀ r z, z ≠ p ∨ r = k.kernelGroup → z ∈ (k.pcb r).childPcb →
        z ∈ ((killProcDeferred k.toState p exitCode listed).1.pcb r).childPcb) := by
    obtain hSame | ⟨hKernel, hne, hSame⟩ := killProcDeferred_tree k.toState p exitCode listed
    · exact ⟨hSame.pcbs, hSame.freed, fun r => (hSame.children r).2.2, fun r z _ hz => (hSame.children r).1.symm ▸ hz⟩
    · have hNotKernel : p ≠ k.kernelGroup := by
        rintro rfl
        rw [isKernel_self] at hKernel
        cases hKernel
      obtain ⟨q, hq⟩ := h.lists.parent p hLive.1 hNotKernel
      have hqne : q ≠ k.kernelGroup := by
        rintro rfl
        exact hne hq
      obtain ⟨-, hPcbs, -, hFreed⟩ := moveToReaper_rest k.toState p
      refine ⟨hSame.pcbs.trans hPcbs, hSame.freed.trans hFreed,
        fun r => (hSame.children r).2.2.trans (moveToReaper_pid k.toState p r), ?_⟩
      intro r z hz hMem
      rw [(hSame.children r).1, moveToReaper_children hq hqne]
      split_ifs with hr hrq
      · exact List.mem_append_left _ hMem
      · exact (List.mem_erase_of_ne (hz.resolve_right hr)).2 hMem
      · exact hMem
  obtain ⟨hPcbs, hFreed, hPid, hChild⟩ := hRest
  have hLater : Later k.toState (killProcDeferred k.toState p exitCode listed).1 k.exits k.exits :=
    ⟨hPcbs.symm.le, fun r _ => hPid r, fun _ _ _ => id⟩
  have hExited : Exited (killProcDeferred k.toState p exitCode listed).1 k.exits := by
    obtain hCalm | hBuried := killProcDeferred_buried k.toState p exitCode listed
    · exact h.exited.calm hCalm hLater hPcbs
    · exact h.exited.buried hBuried hLive.1 hLater hPcbs
  refine h.next { hQuiet with later := hLater, code := ?_, child := ?_ } rfl hLists hExited ?_ rfl ?_ ?_
  · intro t z hReap
    have hWas := h.told t
    rw [hReap] at hWas
    have hne : z ≠ p := by
      rintro rfl
      exact hFree t (by rw [hReap]; rfl)
    show ((killProcDeferred k.toState p exitCode listed).1.pcb z).exitCode ∈ k.exits z
    rw [(hQuiet.pcb z hne).1]
    exact hWas.2
  · intro t z hz
    refine hChild _ z (.inl ?_) (h.found t z hz)
    rintro rfl
    exact hFree t hz
  · intro z hz
    exact hChild _ z (.inr rfl) (h.reaper z hz)
  · intro z _
    exact (congrFun hFreed z).symm.le
  · intro z hz
    exact h.unborn z (hPcbs ▸ hz)

/-- No other thread has the child that a call finds; the child that a call frees still has the caller as its parent;
a process is not killed from outside while a call has found it; and pids fit into an `int`. -/
def ReapsAlone (k : Kernel) : Act → Prop
  | .fork _ _ _ => k.nowPid < 2 ^ 31
  | .spawn _ => k.nowPid < 2 ^ 31
  | .killDeferred p _ _ => ∀ t, (k.call t).child ≠ some p
  | .advance t _ _ =>
    FindsAlone k t ∧ ∀ z pid status, k.call t = .freeing z pid status → (k.pcb z).parentTask = some (k.group t)
  | _ => True

theorem Reaping.step {k' : Kernel} {act : Act} (h : Reaping k) (hAlone : ReapsAlone k act) (hStep : Acts k act k') :
    Reaping k' := by
  have hRunning : ∀ {t : TcbId}, k.Runs t → t < k.tcbs := by
    rintro t ⟨c, hc, ht⟩
    exact h.exited.running c t hc ht
  have hFiles : ∀ files : Files, Reaping { k with files } := fun files =>
    h.same ⟨rfl, rfl, rfl, rfl, fun _ => rfl⟩ { Quiet.refl (fun _ => False) k.toState with } rfl rfl h.reaper rfl
  cases hStep with
  | schedule c t hCpu hThread hWaits hTask => exact h.schedule c hThread
  | fork t cloneFiles m hCalls => exact h.fork (hRunning hCalls.1) cloneFiles m hAlone
  | spawn parent hParent => exact h.spawn (fun p hp => (hParent p hp).1) hAlone
  | openFile t x hCalls =>
    unfold Kernel.openFile
    split
    · exact h
    · exact hFiles _
  | close t fd hCalls =>
    unfold Kernel.close
    split
    · exact h
    · split
      · exact h
      · exact hFiles _
  | closeExec t hCalls =>
    unfold Kernel.closeExec
    split
    · exact h
    · exact hFiles _
  | exit t exitCode hCalls => exact h.exit (hRunning hCalls.1) hCalls.2.1 exitCode
  | exitGroup t exitCode hCalls => exact h.leave (hRunning hCalls.1) hCalls.2.1 exitCode
  | wait4 t pid nohang hCalls hPid => exact h.wait4 (hRunning hCalls.1) hCalls.2.1 pid nohang
  | advance t o p hRuns hAdvance =>
    obtain ⟨z, pid, status, hCall⟩ | hNot := Classical.em (∃ z pid status, k.call t = .freeing z pid status)
    · rw [hCall] at hAdvance
      cases hAdvance
      exact h.free hCall (hAlone.2 z pid status hCall)
    · exact h.goesOn (hRunning hRuns) hAlone.1 hAdvance fun z pid status hCall => hNot ⟨z, pid, status, hCall⟩
  | killDeferred p exitCode listed hLive => exact h.killDeferred hLive hAlone exitCode listed
  | reaperFind hIdle => exact h.reaperFind
  | reaperKill target hTarget => exact h.reaperKill hTarget

/-- The pid that a call of `wait4` waits for. -/
def Call.pid : Call → Option Int
  | .finding pid _ => some pid
  | .searching pid => some pid
  | .checking pid => some pid
  | .popping pid => some pid
  | .announced pid _ _ => some pid
  | .rechecking pid => some pid
  | _ => none

def NoChild (k : Kernel) (t : TcbId) (pid : Int) : Prop :=
  ∀ z, k.Live z → (k.pcb z).parentTask = some (k.group t) → wait4PidMatches k.toState z pid = false

/-- A pid is that of a child that has exited, with its code, and `ECHILD` means that there is no child. -/
def AnswersRightly (k : Kernel) : Act → Prop
  | .wait4 t pid _ (some .echild) => NoChild k t pid
  | .advance t _ (some .echild) => ∃ pid ∈ (k.call t).pid, NoChild k t pid
  | .advance _ _ (some (.child z pid status)) =>
    pid = (k.pcb z).pid ∧ ∃ exitCode ∈ k.exits z, status = waitStatus exitCode
  | _ => True

theorem Reaping.noChild (h : Reaping k) {t : TcbId} (hGroup : k.group t ≠ k.kernelGroup) {pid : Int}
    (hNone : wait4FindChild k.toState (k.group t) pid = none) : NoChild k t pid := by
  intro z hLive hParent
  have hMem := h.lists.listed z (k.group t) hLive hParent hGroup
  exact Bool.eq_false_iff.2 (List.find?_eq_none.1 hNone z hMem)

theorem advance_echild {parent : PcbId} {o : Outcome} {call : Call} {p : Progress}
    (h : advance s parent o call = some p) (hAnswer : p.answer = some .echild) :
    ∃ pid ∈ call.pid, wait4FindChild s parent pid = none := by
  cases advance_cases h with
  | childless hNone => exact ⟨_, rfl, hNone⟩
  | bereft hNone => exact ⟨_, rfl, hNone⟩
  | _ => cases hAnswer

theorem Reaping.answers {k' : Kernel} {act : Act} (h : Reaping k) (hStep : Acts k act k') : AnswersRightly k act := by
  cases hStep with
  | wait4 t pid nohang hCalls hPid =>
    unfold wait4Enter
    split
    · rename_i hNone
      exact h.noChild hCalls.2.1 hNone
    · trivial
  | advance t o p hRuns hAdvance =>
    have hUser : k.call t ≠ .user := by
      intro hIs
      rw [hIs] at hAdvance
      cases hAdvance
    rcases hAnswer : p.answer with _ | answer
    · trivial
    · cases answer with
      | child z pid status =>
        have hTold := h.told t
        rw [advance_answer hAdvance hAnswer] at hTold
        exact hTold.2
      | none => trivial
      | echild =>
        obtain ⟨pid, hPid, hNone⟩ := advance_echild hAdvance hAnswer
        exact ⟨pid, hPid, h.noChild (h.idle t hUser).2 hNone⟩
      | efault => trivial
  | _ => trivial

/-- The family, where the parent has two threads; both run, and so does the child. -/
def pair : Kernel :=
  { family with
    pcb := fun p => { familyPcb p with threadQueue := if p = 1 then [1, 3] else if p < 3 then [p] else [] }
    tcb := fun t => ⟨if t = 3 then 1 else t, .running, false, false⟩
    cpus := 3
    currentTask := fun c => if c < 3 then some (c + 1) else none }

end OpenXJ380.Process
