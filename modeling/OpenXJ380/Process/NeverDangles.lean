import OpenXJ380.Process.Tree

/-! # When the tree of processes never dangles

Creating a process and moving it to the reaper keep the tree. So does freeing one,
as long as it has no children left.
-/

namespace OpenXJ380.Process

open Function

open Transition

theorem newTcb_tree (s : State) (p : PcbId) : SameTree s (s.newTcb p) := by
  have hSame : SameTree s (s.setPcb p { s.pcb p with threadQueue := (s.pcb p).threadQueue ++ [s.tcbs] }) :=
    SameTree.setPcb rfl
  exact ⟨rfl, rfl, rfl, rfl, hSame.links⟩

theorem freePartialProcess_tree (s : State) (p : PcbId) (listed : Bool) :
    SameTree ((if listed then removeChild s (s.pcb p).parentTask p else s).freePcb p) (freePartialProcess s p listed) :=
  ⟨rfl, rfl, rfl, rfl, fun _ => rfl⟩

theorem processFork_tree (s : State) (parent : PcbId) (cloneFiles : Bool) (m : ForkMemory) (hParent : parent ≠ s.pcbs) :
    ((processFork s parent cloneFiles m).2 = none ∧ (SameTree s (processFork s parent cloneFiles m).1 ∨
        SameTree ((s.newPcb (forkBlock s parent)).freePcb s.pcbs) (processFork s parent cloneFiles m).1 ∨
        SameTree ((removeChild (addChild (s.newPcb (forkBlock s parent)) parent s.pcbs)
            (some parent) s.pcbs).freePcb s.pcbs) (processFork s parent cloneFiles m).1)) ∨
    ((processFork s parent cloneFiles m).2 = some s.pcbs ∧
      SameTree (addChild (s.newPcb (forkBlock s parent)) parent s.pcbs) (processFork s parent cloneFiles m).1) := by
  unfold processFork
  dsimp only
  split_ifs with hBlock hSpace hNull hThread
  · exact .inl ⟨rfl, .inl (.refl s)⟩
  · exact .inl ⟨rfl, .inr (.inl (.refl _))⟩
  · refine .inl ⟨rfl, .inr (.inl ?_)⟩
    exact ((withFiles_tree _ s.pcbs _ _ _).freePcb s.pcbs).trans (freePartialProcess_tree _ _ false)
  · refine .inl ⟨rfl, .inr (.inr ?_)⟩
    generalize forkFiles s parent cloneFiles m = f
    have hListed := (withFiles_tree (s.newPcb (forkBlock s parent)) s.pcbs f.1 f.2.1 f.2.2).addChild parent s.pcbs
    have hLinks := (hListed.links s.pcbs).trans (addChild_links _ parent s.pcbs s.pcbs)
    rw [if_neg hParent.symm, newPcb_self] at hLinks
    have hWas : ((addChild ((s.newPcb (forkBlock s parent)).withFiles s.pcbs f.1 f.2.1 f.2.2) parent s.pcbs).pcb
        s.pcbs).parentTask = some parent := congrArg Links.parentTask hLinks
    have hPartial := freePartialProcess_tree
      (addChild ((s.newPcb (forkBlock s parent)).withFiles s.pcbs f.1 f.2.1 f.2.2) parent s.pcbs) s.pcbs true
    rw [if_pos rfl, hWas] at hPartial
    exact ((hListed.removeChild (some parent) s.pcbs).freePcb s.pcbs).trans hPartial
  · refine .inr ⟨rfl, ?_⟩
    exact ((withFiles_tree _ s.pcbs _ _ _).addChild parent s.pcbs).trans (newTcb_tree _ _)

variable {k : Kernel} {s : State} {p : PcbId} {forked : PcbId → Bool}

theorem Tree.fork (hTree : Tree k.toState k.forked) {t : TcbId} (cloneFiles : Bool) (m : ForkMemory)
    (hLive : k.Live (k.group t)) : Tree (k.fork t cloneFiles m).toState (k.fork t cloneFiles m).forked := by
  have hne : k.group t ≠ k.pcbs := hLive.1.ne
  have hLinks := forkBlock_links k.toState (k.group t)
  unfold Kernel.fork
  rcases h : processFork k.toState (k.group t) cloneFiles m with ⟨s', child⟩
  have hCases := processFork_tree k.toState (k.group t) cloneFiles m hne
  rw [h] at hCases
  obtain ⟨rfl, hSame | hSame | hSame⟩ | ⟨rfl, hSame⟩ := hCases
  · exact hTree.congr hSame
  · exact (hTree.stillborn hLive hLinks).congr hSame
  · exact (hTree.unlisted hLive hLinks).congr hSame
  · have hForked : ∀ p, p ≠ k.pcbs → update k.forked k.pcbs true p → k.forked p := by
      intro p hp hf
      rwa [update_of_ne hp] at hf
    exact (hTree.adopt hLive hLinks hForked (fun _ => rfl)).congr hSame

theorem Tree.spawn (hTree : Tree k.toState k.forked) {parent : Option PcbId}
    (hParent : ∀ p ∈ parent, k.Live p) : Tree (k.spawn parent).toState (k.spawn parent).forked := by
  have hLive : k.Live (parent.getD k.kernelGroup) := by
    cases parent with
    | none => exact hTree.kernel
    | some p => exact hParent p rfl
  have hForked : ∀ p, p ≠ k.pcbs → update k.forked k.pcbs false p → k.forked p := by
    intro p hp hf
    rwa [update_of_ne hp] at hf
  have hNot : update k.forked k.pcbs false k.pcbs → (0 : Nat) = (k.pcb (parent.getD k.kernelGroup)).pid := by
    intro hf
    rw [update_self] at hf
    cases hf
  have hAdopted := hTree.adopt
      (b := { forkBlock k.toState (parent.getD k.kernelGroup) with ppid := 0 }) hLive rfl hForked hNot
  exact hAdopted.congr (((withFiles_tree _ k.pcbs _ _ _).addChild _ k.pcbs).trans (newTcb_tree _ _))

theorem moveToReaper_children {q : PcbId} (hParent : (s.pcb p).parentTask = some q)
    (hq : q ≠ s.kernelGroup) (r : PcbId) : ((moveToReaper s p).pcb r).childPcb =
      if r = s.kernelGroup then (s.pcb r).childPcb ++ [p]
      else if r = q then (s.pcb r).childPcb.erase p else (s.pcb r).childPcb := by
  have hSet : ((moveToReaper s p).pcb r).childPcb =
      ((removeChild (addChild s s.kernelGroup p) (some q) p).pcb r).childPcb := by
    unfold moveToReaper
    rw [hParent]
    refine State.setPcb_pcb (f := Pcb.childPcb) ?_ r
    rfl
  have hRemoved := congrArg Links.childPcb (removeChild_links (addChild s s.kernelGroup p) q p r)
  have hAdded : ((addChild s s.kernelGroup p).pcb r).childPcb =
      (if r = s.kernelGroup then { (s.pcb r).links with childPcb := (s.pcb r).childPcb ++ [p] }
        else (s.pcb r).links).childPcb := congrArg Links.childPcb (addChild_links s s.kernelGroup p r)
  rw [hSet]
  obtain rfl | hr := eq_or_ne r s.kernelGroup
  · rw [if_neg hq.symm] at hRemoved
    rw [if_pos rfl] at hAdded ⊢
    exact hRemoved.trans hAdded
  · rw [if_neg hr] at hAdded ⊢
    obtain rfl | hrq := eq_or_ne r q
    · rw [if_pos rfl] at hRemoved ⊢
      exact hRemoved.trans (congrArg (List.erase · p) hAdded)
    · rw [if_neg hrq] at hRemoved ⊢
      exact hRemoved.trans hAdded

theorem moveToReaper_other {r : PcbId} (hr : r ≠ p) : ((moveToReaper s p).pcb r).ppid = (s.pcb r).ppid ∧
    ((moveToReaper s p).pcb r).parentTask = (s.pcb r).parentTask := by
  have hRemoved := removeChild_self (addChild s s.kernelGroup p) (s.pcb p).parentTask p r
  have hAdded := addChild_links s s.kernelGroup p r
  unfold moveToReaper
  dsimp only
  rw [State.setPcb_of_ne hr]
  constructor
  · refine hRemoved.2.1.trans ?_
    have h := congrArg Links.ppid hAdded
    split_ifs at h <;> exact h
  · refine hRemoved.2.2.trans ?_
    have h := congrArg Links.parentTask hAdded
    split_ifs at h <;> exact h

theorem moveToReaper_pid (s : State) (p r : PcbId) : ((moveToReaper s p).pcb r).pid = (s.pcb r).pid := by
  have hRemoved := removeChild_self (addChild s s.kernelGroup p) (s.pcb p).parentTask p r
  have hAdded : ((addChild s s.kernelGroup p).pcb r).pid = (s.pcb r).pid := by
    have h := congrArg Links.pid (addChild_links s s.kernelGroup p r)
    split_ifs at h <;> exact h
  unfold moveToReaper
  dsimp only
  obtain rfl | hr := eq_or_ne r p
  · rw [State.setPcb_self]
    exact hRemoved.1.trans hAdded
  · rw [State.setPcb_of_ne hr]
    exact hRemoved.1.trans hAdded

theorem moveToReaper_self (s : State) (p : PcbId) : ((moveToReaper s p).pcb p).ppid = (s.pcb s.kernelGroup).pid ∧
    ((moveToReaper s p).pcb p).parentTask = some s.kernelGroup := by
  unfold moveToReaper
  dsimp only
  rw [State.setPcb_self]
  exact ⟨rfl, rfl⟩

theorem moveToReaper_rest (s : State) (p : PcbId) : (moveToReaper s p).kernelGroup = s.kernelGroup ∧
    (moveToReaper s p).pcbs = s.pcbs ∧ (moveToReaper s p).nowPid = s.nowPid ∧
        (moveToReaper s p).pcbFreed = s.pcbFreed := by
  unfold moveToReaper
  cases (s.pcb p).parentTask <;> exact ⟨rfl, rfl, rfl, rfl⟩

theorem Tree.toReaper (hTree : Tree s forked) {q : PcbId} (hLive : s.Live p)
    (hne : p ≠ s.kernelGroup) (hParent : (s.pcb p).parentTask = some q) (hq : q ≠ s.kernelGroup) :
    Tree (moveToReaper s p) forked := by
  obtain ⟨hGroup, hPcbs, hNow, hFreed⟩ := moveToReaper_rest s p
  have hLives : ∀ r, (moveToReaper s p).Live r ↔ s.Live r := by
    intro r
    rw [State.Live, State.Live, hPcbs, hFreed]
  have hChild := moveToReaper_children hParent hq
  obtain ⟨q', hWas⟩ := hTree.attached p hLive hne
  have hEq : q' = q := Option.some.inj (hWas.parent.symm.trans hParent)
  subst hEq
  have hCount : ∀ o r, o ≠ p → ((moveToReaper s p).pcb r).childPcb.count o = (s.pcb r).childPcb.count o := by
    intro o r ho
    rw [hChild r]
    split_ifs
    · rw [List.count_append, List.count_singleton, if_neg (by simpa using ho.symm), add_zero]
    · rw [List.count_erase_of_ne ho]
    · rfl
  have hCountSelf : ∀ r, ((moveToReaper s p).pcb r).childPcb.count p = if r = s.kernelGroup then 1 else 0 := by
    intro r
    rw [hChild r]
    have hBefore : r ≠ q' → (s.pcb r).childPcb.count p = 0 := fun hr => List.count_eq_zero.2 (hWas.only r hr)
    split_ifs with h₁ h₂
    · rw [List.count_append, hBefore (h₁ ▸ hq.symm), List.count_singleton_self]
    · rw [List.count_erase_self, h₂, hWas.once]
    · exact hBefore h₂
  constructor
  · constructor
    · rw [hGroup]
      intro o ho hone
      obtain rfl | hop := eq_or_ne o p
      · refine ⟨s.kernelGroup, (moveToReaper_self s o).2, (hLives _).2 hTree.kernel, ?_, ?_⟩
        · rw [hCountSelf, if_pos rfl]
        · intro r hr
          rw [← List.count_eq_zero, hCountSelf, if_neg hr]
      · obtain ⟨r, hr⟩ := hTree.attached o ((hLives o).1 ho) hone
        refine ⟨r, (moveToReaper_other hop).2.trans hr.parent, (hLives r).2 hr.live, (hCount o r hop).trans hr.once, ?_⟩
        intro r' hr'
        have hOnly := hr.only r' hr'
        rw [← List.count_eq_zero] at hOnly ⊢
        exact (hCount o r' hop).trans hOnly
    · rw [hGroup]
      intro o r ho hone hf hr
      rw [moveToReaper_pid]
      obtain rfl | hop := eq_or_ne o p
      · have hEq : s.kernelGroup = r := Option.some.inj ((moveToReaper_self s o).2.symm.trans hr)
        rw [(moveToReaper_self s o).1, hEq]
      · rw [(moveToReaper_other hop).1]
        exact hTree.ppid o r ((hLives o).1 ho) hone hf ((moveToReaper_other hop).2 ▸ hr)
  · rw [hGroup]
    exact (hLives _).2 hTree.kernel
  · intro r o ho
    rw [hPcbs]
    obtain rfl | hop := eq_or_ne o p
    · exact hLive.1
    · have hMem : o ∈ (s.pcb r).childPcb := by
        rw [← List.count_pos_iff] at ho ⊢
        exact (hCount o r hop) ▸ ho
      exact hTree.known r o hMem
  · intro o ho
    rw [moveToReaper_pid, hNow]
    exact hTree.pids o (hPcbs ▸ ho)
  · intro o r ho hr hEq
    rw [moveToReaper_pid, moveToReaper_pid] at hEq
    exact hTree.distinct o r (hPcbs ▸ ho) (hPcbs ▸ hr) hEq

theorem killProcDeferred_tree (s : State) (p : PcbId) (exitCode : BitVec 32) (listed : Bool) :
    SameTree s (killProcDeferred s p exitCode listed).1 ∨
      (s.isKernel p = false ∧ (s.pcb p).parentTask ≠ some s.kernelGroup ∧
        SameTree (moveToReaper s p) (killProcDeferred s p exitCode listed).1) := by
  have hRest : ∀ s' : State, SameTree s' (killThreads ((closeProcessFileTable
      (s'.setPcb p { s'.pcb p with exitCode }) p).setStatus p .death) p) := by
    intro s'
    have hCode : SameTree s' (s'.setPcb p { s'.pcb p with exitCode }) := SameTree.setPcb rfl
    exact ((hCode.trans (closeProcessFileTable_tree _ p)).trans (setStatus_tree _ p .death)).trans
        (killThreads_tree _ p)
  unfold killProcDeferred
  split_ifs with hKernel hListed hParent
  · exact .inl (.refl s)
  · exact .inl (.refl s)
  · exact .inr ⟨by simpa using hKernel, hParent, hRest (moveToReaper s p)⟩
  · exact .inl (hRest s)

theorem Tree.killDeferred (hTree : Tree s forked) (hLive : s.Live p)
    (exitCode : BitVec 32) (listed : Bool) : Tree (killProcDeferred s p exitCode listed).1 forked := by
  obtain hSame | ⟨hKernel, hParent, hSame⟩ := killProcDeferred_tree s p exitCode listed
  · exact hTree.congr hSame
  · have hne : p ≠ s.kernelGroup := by
      rintro rfl
      rw [State.isKernel, decide_eq_false_iff_not] at hKernel
      exact hKernel rfl
    obtain ⟨q, hq⟩ := hTree.attached p hLive hne
    have hGroup : q ≠ s.kernelGroup := by
      rintro rfl
      exact hParent hq.parent
    exact (hTree.toReaper hLive hne hq.parent hGroup).congr hSame

def State.Childless (s : State) (z : PcbId) : Prop :=
  ∀ p, s.Live p → p ≠ s.kernelGroup → (s.pcb p).parentTask ≠ some z

theorem Tree.killProc (hTree : Tree s forked) {z : PcbId} (exitCode : BitVec 32)
    (hChildless : s.Childless z) : Tree (killProc s z exitCode) forked := by
  cases hKernel : s.isKernel z with
  | true =>
    rw [killProc_kernel s z exitCode hKernel]
    exact hTree
  | false =>
    have hne : z ≠ s.kernelGroup := by
      rintro rfl
      rw [State.isKernel, decide_eq_false_iff_not] at hKernel
      exact hKernel rfl
    exact (hTree.free (s.pcb z).parentTask hne hChildless).congr (killProc_tree s z exitCode hKernel)

theorem killThread_tree (s : State) (t : TcbId) : SameTree s (killThread s t) := by
  obtain ⟨tcb, h⟩ := killThread_eq s t
  rw [h]
  exact ⟨rfl, rfl, rfl, rfl, fun _ => rfl⟩

theorem switchTo_adopted (s : State) (c : CpuId) (t : TcbId) :
    SameTree (adoptOrphan s (s.tcb t).parentGroup) (switchTo s c t) := by
  have hBoth := startBest_stopCurrent SameTree.refl SameTree.trans (fun _ _ _ => ⟨rfl, rfl, rfl, rfl, fun _ => rfl⟩)
    (adoptOrphan s (s.tcb t).parentGroup) c t
  exact { hBoth with }

theorem switchTo_tree {t : TcbId} (c : CpuId) (h : orphan s (s.tcb t).parentGroup = false) :
    SameTree s (switchTo s c t) := by
  have hParent : adoptOrphan s (s.tcb t).parentGroup = s := by
    rw [adoptOrphan, h]
    rfl
  have hSwitched := switchTo_adopted s c t
  rwa [hParent] at hSwitched

theorem Tree.advance {s' : State} (hTree : Tree s forked) {parent : PcbId} {o : Outcome}
    {call : Call} (h : StepState s parent o call s')
    (hChildless : ∀ z pid status, call = .freeing z pid status → s.Childless z) : Tree s' forked := by
  cases h with
  | same => exact hTree
  | popped pid => exact hTree.congr (wait4PopExitMessage_tree s parent pid o.node)
  | marked child exitCode => exact hTree.congr (.setPcb rfl)
  | freed child pid status => exact hTree.killProc _ (hChildless child pid status rfl)
  | died process exitCode => exact hTree.congr (killThreads_tree s process)
  | told process exitCode => exact hTree.congr (sendExit_tree s process exitCode _)

/-- The steps that do not break the tree: a process that a fork is the child of is live, one that is freed has
no children left, and a thread is chosen only while the parent of its process is not dead. -/
def KeepsTree (k : Kernel) : Act → Prop
  | .schedule _ t => orphan k.toState (k.group t) = false
  | .fork t _ _ => k.Live (k.group t)
  | .advance t _ _ => ∀ z pid status, k.call t = .freeing z pid status → k.Childless z
  | .reaperKill => ∀ z ∈ k.reaper, k.Childless z
  | _ => True

theorem Tree.step {k' : Kernel} {act : Act} (hTree : Tree k.toState k.forked) (hKeeps : KeepsTree k act)
    (hStep : Acts k act k') : Tree k'.toState k'.forked := by
  cases hStep with
  | schedule c t hCpu hThread hWaits hTask => exact hTree.congr (switchTo_tree c hKeeps)
  | fork t cloneFiles m hCalls => exact hTree.fork cloneFiles m hKeeps
  | spawn parent hParent => exact hTree.spawn hParent
  | openFile t h hCalls =>
    unfold Kernel.openFile
    split <;> exact hTree.congr ⟨rfl, rfl, rfl, rfl, fun _ => rfl⟩
  | close t fd hCalls =>
    unfold Kernel.close
    split
    · exact hTree
    · split <;> exact hTree.congr ⟨rfl, rfl, rfl, rfl, fun _ => rfl⟩
  | closeExec t hCalls =>
    unfold Kernel.closeExec
    split <;> exact hTree.congr ⟨rfl, rfl, rfl, rfl, fun _ => rfl⟩
  | exit t exitCode hCalls =>
    unfold Kernel.exit
    split
    · exact hTree.congr (killThread_tree k.toState t)
    · exact hTree.congr (killProcZombie_tree k.toState (k.group t) exitCode)
  | exitGroup t exitCode hCalls => exact hTree.congr (killProcZombie_tree k.toState (k.group t) exitCode)
  | wait4 t pid nohang hCalls hPid =>
    obtain ⟨hState, hForked, -⟩ := proceed_state k t (wait4Enter k.toState (k.group t) pid nohang)
    rw [hState, hForked, wait4Enter_state]
    exact hTree
  | advance t o p hRuns hAdvance =>
    obtain ⟨hState, hForked, -⟩ := proceed_state k t p
    rw [hState, hForked]
    exact hTree.advance (advance_state hAdvance) hKeeps
  | killDeferred p exitCode listed hLive => exact hTree.killDeferred hLive exitCode listed
  | reaperFind hIdle => exact hTree
  | reaperKill target hTarget => exact hTree.killProc 0 (hKeeps target hTarget)

/-- In a run whose steps free no parent and leave no process to the kernel's group by its pointer alone, every live
process has a live parent and is among its children once. -/
theorem process_tree_never_dangles {k₀ k : Kernel} {acts : List Act} (hStart : Tree k₀.toState k₀.forked)
    (hRun : Run (processSystem.restrict KeepsTree) k₀ acts k) : NeverDangles k.toState k.forked := by
  have hStep : ∀ (k : Kernel) (act : Act) (k' : Kernel), Tree k.toState k.forked →
      (processSystem.restrict KeepsTree).step k act k' → Tree k'.toState k'.forked :=
    fun _ _ _ hTree hStep => hTree.step hStep.1 hStep.2
  exact (hRun.invariant (I := fun k => Tree k.toState k.forked) hStep hStart).toNeverDangles

theorem family_tree : Tree family.toState family.forked := by
  constructor
  · constructor
    · intro p hp hne
      have hPos : p - 1 + 1 = p := Nat.sub_add_cancel (Nat.pos_of_ne_zero hne)
      have hLt : p < 4 := hp.1
      have hBefore : p - 1 < 3 := Nat.lt_of_succ_lt_succ (hPos.symm ▸ hLt)
      refine ⟨p - 1, rfl, ⟨Nat.lt_succ_of_lt hBefore, rfl⟩, ?_, ?_⟩
      · show (if p - 1 < 3 then [p - 1 + 1] else []).count p = 1
        rw [if_pos hBefore, hPos, List.count_singleton_self]
      · intro r hr hMem
        have hIn : p ∈ if r < 3 then [r + 1] else [] := hMem
        split_ifs at hIn
        · exact hr (Nat.eq_sub_of_add_eq (List.mem_singleton.1 hIn).symm)
        · cases hIn
    · intro p q _ _ hf
      cases hf
  · exact ⟨by decide, rfl⟩
  · intro q p hp
    have hIn : p ∈ if q < 3 then [q + 1] else [] := hp
    split_ifs at hIn with hq
    · rw [List.mem_singleton] at hIn
      exact hIn ▸ Nat.succ_lt_succ hq
    · cases hIn
  · exact fun _ hp => hp
  · exact fun _ _ _ _ hEq => hEq

theorem process_tree_never_dangles_exit : NeverDangles (family.leave 2 0).toState family.forked := by
  have hRun := (Run.nil (M := processSystem.restrict KeepsTree) family).snoc (l := Act.exitGroup 2 0)
    ⟨trivial, Acts.exitGroup 2 0 ⟨⟨1, by decide, rfl⟩, by decide, rfl⟩⟩
  exact process_tree_never_dangles family_tree hRun

/-- The child is reaped while its own child lives. -/
theorem process_tree_dangles : Tree family.toState family.forked ∧
    ∃ acts k, Run processSystem family acts k ∧ ¬ NeverDangles k.toState k.forked := by
  refine ⟨family_tree, ?_⟩
  have hRuns : ∃ c, c < 2 ∧ family.currentTask c = some 1 := ⟨0, by decide, rfl⟩
  have hRun := (Run.nil (M := processSystem) family).snoc (Acts.exitGroup 2 0 ⟨⟨1, by decide, rfl⟩, by decide, rfl⟩)
  have hRun := hRun.snoc (Acts.wait4 1 (-1) false ⟨hRuns, by decide, rfl⟩ (Or.inl rfl))
  have hRun := hRun.snoc (Acts.advance (p := .next _ (.reaping 2)) 1 plenty hRuns rfl)
  have hRun := hRun.snoc (Acts.advance (p := .next _ (.discarding 2 2 0)) 1 plenty hRuns rfl)
  have hRun := hRun.snoc (Acts.advance (p := .next _ (.freeing 2 2 0)) 1 plenty hRuns rfl)
  have hRun := hRun.snoc (Acts.advance (p := .ret _ (.child 2 2 0)) 1 plenty hRuns rfl)
  refine ⟨_, _, hRun, ?_⟩
  intro h
  obtain ⟨q, hq⟩ := h.attached 3 ⟨by decide, rfl⟩ (by decide)
  have hParent : q = 2 := Option.some.inj (hq.parent.symm.trans rfl)
  have hFreed := hq.live.2
  rw [hParent] at hFreed
  revert hFreed
  decide

end OpenXJ380.Process
