import OpenXJ380.Process.Waiting

/-! # Steps with `wait4`

The invariant of exits and reaping, and the steps that free no process: threads that
go on in their calls, new processes and the scheduler.
-/

namespace OpenXJ380.Process

open Function

open Transition

structure Reaping (k : Kernel) : Prop where
  lists : Lists k.toState
  exited : Exited k.toState k.exits
  idle : ∀ t, k.call t ≠ .user → t < k.tcbs ∧ k.group t ≠ k.kernelGroup
  told : ∀ t, Told k.toState k.exits (k.call t)
  found : ∀ t z, (k.call t).child = some z → z ∈ (k.pcb (k.group t)).childPcb
  alone : ∀ t u z, (k.call t).child = some z → (k.call u).child = some z → t = u
  reaper : ∀ z ∈ k.reaper, z ∈ (k.pcb k.kernelGroup).childPcb
  returned : ∀ z, k.returned z ≤ 1
  kept : ∀ z, k.Live z ∨ k.pcbs ≤ z → k.returned z = 0
  unborn : ∀ z, k.pcbs ≤ z → k.exits z = []

structure Spares (k k' : Kernel) : Prop where
  tcbs : k.tcbs ≤ k'.tcbs
  group : ∀ t, t < k.tcbs → k'.group t = k.group t
  kernelGroup : k'.kernelGroup = k.kernelGroup
  later : Later k.toState k'.toState k.exits k'.exits
  code : ∀ t z, k.call t = .reaping z → (k'.pcb z).exitCode ∈ k'.exits z
  child : ∀ t z, (k.call t).child = some z → z ∈ (k'.pcb (k.group t)).childPcb

variable {k k' : Kernel} {t : TcbId} {s : State} {parent : PcbId} {call : Call} {o : Outcome}

theorem Reaping.of_child (h : Reaping k) {z : PcbId} (hz : (k.call t).child = some z) :
    t < k.tcbs ∧ k.group t ≠ k.kernelGroup := by
  refine h.idle t ?_
  intro hUser
  rw [hUser] at hz
  cases hz

theorem Reaping.next (h : Reaping k) (hSpares : Spares k k') (hCall : k'.call = k.call)
    (hLists : Lists k'.toState) (hExited : Exited k'.toState k'.exits)
    (hReaper : ∀ z ∈ k'.reaper, z ∈ (k'.pcb k.kernelGroup).childPcb)
    (hReturned : k'.returned = k.returned) (hFreed : ∀ z, z < k.pcbs → k.pcbFreed z ≤ k'.pcbFreed z)
    (hUnborn : ∀ z, k'.pcbs ≤ z → k'.exits z = []) : Reaping k' where
  lists := hLists
  exited := hExited
  idle t ht := by
    rw [hCall] at ht
    obtain ⟨hLt, hne⟩ := h.idle t ht
    rw [hSpares.group t hLt, hSpares.kernelGroup]
    exact ⟨hLt.trans_le hSpares.tcbs, hne⟩
  told t := by
    rw [hCall]
    exact (h.told t).later _ hSpares.later (hSpares.code t)
  found t z hz := by
    rw [hCall] at hz
    rw [hSpares.group t (h.of_child hz).1]
    exact hSpares.child t z hz
  alone t u z ht hu := by
    rw [hCall] at ht hu
    exact h.alone t u z ht hu
  reaper z hz := by
    rw [hSpares.kernelGroup]
    exact hReaper z hz
  returned z := by
    rw [hReturned]
    exact h.returned z
  kept z hz := by
    rw [hReturned]
    refine h.kept z ?_
    obtain hLt | hGe := lt_or_ge z k.pcbs
    · obtain hz | hz := hz
      · exact .inl ⟨hLt, Nat.eq_zero_of_le_zero (hz.2 ▸ hFreed z hLt)⟩
      · exact absurd (hLt.trans_le hSpares.later.pcbs) (not_lt.2 hz)
    · exact .inr hGe
  unborn := hUnborn

theorem Reaping.moves (h : Reaping k) (hSpares : ∀ u, u < k.tcbs → k'.group u = k.group u)
    (hTcbs : k.tcbs ≤ k'.tcbs) (hKernel : k'.kernelGroup = k.kernelGroup)
    (hLater : Later k.toState k'.toState k.exits k'.exits) (t : TcbId) (ht : t < k.tcbs)
    (hUser : k'.call t ≠ .user → k.group t ≠ k.kernelGroup) (hOther : ∀ u, u ≠ t → k'.call u = k.call u)
    (hTold : Told k'.toState k'.exits (k'.call t))
    (hCode : ∀ u z, u ≠ t → k.call u = .reaping z → (k'.pcb z).exitCode ∈ k'.exits z)
    (hFound : ∀ u z, (k'.call u).child = some z → z ∈ (k'.pcb (k.group u)).childPcb)
    (hAlone : ∀ u z, u ≠ t → (k'.call t).child = some z → (k.call u).child ≠ some z)
    (hLists : Lists k'.toState) (hExited : Exited k'.toState k'.exits)
    (hReaper : ∀ z ∈ k'.reaper, z ∈ (k'.pcb k.kernelGroup).childPcb) (hReturned : ∀ z, k'.returned z ≤ 1)
    (hKept : ∀ z, k'.Live z ∨ k'.pcbs ≤ z → k'.returned z = 0)
    (hUnborn : ∀ z, k'.pcbs ≤ z → k'.exits z = []) : Reaping k' := by
  have hIdle : ∀ u, k'.call u ≠ .user → u < k.tcbs ∧ k.group u ≠ k.kernelGroup := by
    intro u hu
    obtain rfl | hne := eq_or_ne u t
    · exact ⟨ht, hUser hu⟩
    · exact h.idle u (hOther u hne ▸ hu)
  constructor
  · exact hLists
  · exact hExited
  · intro u hu
    obtain ⟨hLt, hne⟩ := hIdle u hu
    rw [hSpares u hLt, hKernel]
    exact ⟨hLt.trans_le hTcbs, hne⟩
  · intro u
    obtain rfl | hne := eq_or_ne u t
    · exact hTold
    · rw [hOther u hne]
      exact (h.told u).later _ hLater (hCode u · hne)
  · intro u z hz
    have hNot : k'.call u ≠ .user := by
      intro hIs
      rw [hIs] at hz
      cases hz
    rw [hSpares u (hIdle u hNot).1]
    exact hFound u z hz
  · intro u v z hu hv
    obtain rfl | hne := eq_or_ne u t
    · obtain rfl | hne' := eq_or_ne v u
      · rfl
      · rw [hOther v hne'] at hv
        exact absurd hv (hAlone v z hne' hu)
    · obtain rfl | hne' := eq_or_ne v t
      · rw [hOther u hne] at hu
        exact absurd hu (hAlone u z hne hv)
      · rw [hOther u hne] at hu
        rw [hOther v hne'] at hv
        exact h.alone u v z hu hv
  · intro z hz
    rw [hKernel]
    exact hReaper z hz
  · exact hReturned
  · exact hKept
  · exact hUnborn

theorem Reaping.same (h : Reaping k) (hTree : SameTree k.toState k'.toState)
    (hCalm : Calm k.toState k'.toState) (hCall : k'.call = k.call) (hExits : k'.exits = k.exits)
    (hReaper : ∀ z ∈ k'.reaper, z ∈ (k.pcb k.kernelGroup).childPcb) (hReturned : k'.returned = k.returned) :
    Reaping k' := by
  have hLater : Later k.toState k'.toState k.exits k'.exits := by
    rw [hExits]
    exact hTree.steady.later k.exits
  refine h.next { hCalm with later := hLater, code := ?_, child := ?_ } hCall (h.lists.congr hTree) ?_ ?_ hReturned
    ?_ ?_
  · intro t z ht
    rw [(hCalm.pcb z id).1, hExits]
    have hTold := h.told t
    rw [ht] at hTold
    exact hTold.2
  · intro t z hz
    rw [(hTree.children _).1]
    exact h.found t z hz
  · rw [hExits]
    exact h.exited.calm hCalm (hTree.steady.later k.exits) hTree.pcbs
  · intro z hz
    rw [(hTree.children _).1]
    exact hReaper z hz
  · intro z _
    rw [hTree.freed]
  · intro z hz
    rw [hExits]
    exact h.unborn z (hTree.pcbs ▸ hz)

theorem adoptOrphan_pcb (s : State) (p r : PcbId) : ((adoptOrphan s p).pcb r).childPcb = (s.pcb r).childPcb ∧
    ((adoptOrphan s p).pcb r).pid = (s.pcb r).pid := by
  unfold adoptOrphan
  split
  · constructor
    · refine State.setPcb_pcb (f := Pcb.childPcb) ?_ r
      rfl
    · refine State.setPcb_pcb (f := Pcb.pid) ?_ r
      rfl
  · exact ⟨rfl, rfl⟩

theorem adoptOrphan_rest (s : State) (p : PcbId) : (adoptOrphan s p).pcbs = s.pcbs ∧
    (adoptOrphan s p).pcbFreed = s.pcbFreed := by
  unfold adoptOrphan
  split <;> exact ⟨rfl, rfl⟩

theorem Reaping.schedule (h : Reaping k) (c : CpuId) (ht : t < k.tcbs) :
    Reaping (k.withState (switchTo k.toState c t)) := by
  have hCalm := switchTo_calm k.toState c ht
  have hTree := switchTo_adopted k.toState c t
  obtain ⟨hPcbs, hFreed⟩ := adoptOrphan_rest k.toState (k.tcb t).parentGroup
  have hAdopted := adoptOrphan_pcb k.toState (k.tcb t).parentGroup
  have hChild : ∀ r, ((switchTo k.toState c t).pcb r).childPcb = (k.pcb r).childPcb :=
    fun r => (hTree.children r).1.trans (hAdopted r).1
  have hSteady : Steady k.toState (switchTo k.toState c t) :=
    ⟨hTree.pcbs.trans hPcbs, fun p => (hTree.children p).2.2.trans (hAdopted p).2⟩
  refine h.next { hCalm with later := hSteady.later k.exits, code := ?_, child := ?_ } rfl
    ((h.lists.adoptOrphan _).congr hTree) (h.exited.calm hCalm (hSteady.later k.exits) hSteady.pcbs) ?_ rfl ?_ ?_
  · intro u z hu
    have hTold := h.told u
    rw [hu] at hTold
    show ((switchTo k.toState c t).pcb z).exitCode ∈ k.exits z
    rw [(hCalm.pcb z id).1]
    exact hTold.2
  · intro u z hz
    exact (hChild _).symm ▸ h.found u z hz
  · intro z hz
    exact (hChild _).symm ▸ h.reaper z hz
  · intro z _
    exact (congrFun (hTree.freed.trans hFreed) z).symm.le
  · intro z hz
    exact h.unborn z (hSteady.pcbs ▸ hz)

/-- What a step leaves of the processes that there were, but for a new one. -/
structure Births (s s' : State) : Prop where
  pcbs : s'.pcbs = s.pcbs + 1
  pid : ∀ p, p < s.pcbs → (s'.pcb p).pid = (s.pcb p).pid
  child : ∀ r z, r < s.pcbs → z ∈ (s.pcb r).childPcb → z ∈ (s'.pcb r).childPcb
  freed : ∀ p, p < s.pcbs → s'.pcbFreed p = s.pcbFreed p

theorem addChild_births (s : State) (b : Pcb) (q : PcbId) : Births s (addChild (s.newPcb b) q s.pcbs) := by
  have hOld : ∀ r, r < s.pcbs → (s.newPcb b).pcb r = s.pcb r := fun r hr => newPcb_of_ne hr.ne b
  refine ⟨rfl, ?_, ?_, fun p hp => update_of_ne hp.ne ..⟩
  · intro p hp
    have h := congrArg Links.pid (addChild_links (s.newPcb b) q s.pcbs p)
    rw [hOld p hp] at h
    split_ifs at h <;> exact h
  · intro r z hr hz
    have h : ((addChild (s.newPcb b) q s.pcbs).pcb r).childPcb = _ :=
      congrArg Links.childPcb (addChild_links (s.newPcb b) q s.pcbs r)
    rw [hOld r hr] at h
    rw [h]
    split_ifs
    · exact List.mem_append_left _ hz
    · exact hz

theorem stillborn_births (s : State) (b : Pcb) : Births s ((s.newPcb b).freePcb s.pcbs) := by
  have hOld : ∀ r, r < s.pcbs → ((s.newPcb b).freePcb s.pcbs).pcb r = s.pcb r := fun r hr => newPcb_of_ne hr.ne b
  refine ⟨rfl, ?_, ?_, ?_⟩
  · intro p hp
    rw [hOld p hp]
  · intro r z hr hz
    rw [hOld r hr]
    exact hz
  · intro p hp
    have hne : p ≠ s.pcbs := hp.ne
    exact (update_of_ne hne ..).trans (update_of_ne hne ..)

theorem Births.congr {s' s'' : State} (h : Births s s') (hSame : SameTree s' s'') : Births s s'' where
  pcbs := hSame.pcbs.trans h.pcbs
  pid p hp := (hSame.children p).2.2.trans (h.pid p hp)
  child r z hr hz := (hSame.children r).1.symm ▸ h.child r z hr hz
  freed p hp := (congrFun hSame.freed p).trans (h.freed p hp)

theorem processFork_pcbs (s : State) (parent : PcbId) (cloneFiles : Bool) {m : ForkMemory} (hBlock : m.block) :
    (processFork s parent cloneFiles m).1.pcbs = s.pcbs + 1 := by
  unfold processFork
  dsimp only
  rw [if_neg (by rw [hBlock]; decide)]
  split_ifs
  · rfl
  · exact (freePartialProcess_tree _ s.pcbs false).pcbs
  · refine (freePartialProcess_tree _ s.pcbs true).pcbs.trans ?_
    rw [if_pos rfl]
    unfold removeChild
    split <;> rfl
  · rfl

theorem processFork_births (hLists : Lists s) (hParent : parent < s.pcbs)
    (cloneFiles : Bool) {m : ForkMemory} (hBlock : m.block) :
    Births s (processFork s parent cloneFiles m).1 := by
  have hne : parent ≠ s.pcbs := hParent.ne
  have hPcbs := processFork_pcbs s parent cloneFiles hBlock
  obtain ⟨-, hSame | hSame | hSame⟩ | ⟨-, hSame⟩ := processFork_tree s parent cloneFiles m hne
  · exact absurd (hSame.pcbs.symm.trans hPcbs) (lt_add_one _).ne
  · exact (stillborn_births s _).congr hSame
  · have hNot : s.pcbs ∉ ((s.newPcb (forkBlock s parent)).pcb parent).childPcb := by
      rw [newPcb_of_ne hne]
      exact hLists.new_unlisted parent
    rw [removeChild_addChild hNot] at hSame
    exact (stillborn_births s _).congr hSame
  · exact (addChild_births s _ parent).congr hSame

theorem Reaping.born (h : Reaping k) (hBirths : Births k.toState k'.toState)
    (hFresh : Fresh k.toState k'.toState k.pcbs) (hLists : Lists k'.toState) (hCall : k'.call = k.call)
    (hExits : k'.exits = k.exits) (hReaper : k'.reaper = k.reaper) (hReturned : k'.returned = k.returned) :
    Reaping k' := by
  have hLater : Later k.toState k'.toState k.exits k'.exits := by
    rw [hExits]
    exact ⟨hBirths.pcbs ▸ Nat.le_succ _, hBirths.pid, fun _ _ _ => id⟩
  refine h.next ⟨hFresh.quiet.tcbs, hFresh.quiet.group, hFresh.quiet.kernelGroup, hLater, ?_, ?_⟩ hCall hLists ?_ ?_
    hReturned ?_ ?_
  · intro t z ht
    have hTold := h.told t
    rw [ht] at hTold
    rw [(hFresh.quiet.pcb z hTold.1.ne).1, hExits]
    exact hTold.2
  · intro t z hz
    have hMem := h.found t z hz
    exact hBirths.child _ z (h.lists.owner _ z hMem) hMem
  · refine h.exited.quiet hFresh.quiet hLater ?_ ?_ ?_
    · intro p hLe hLt
      rw [hBirths.pcbs] at hLt
      exact (Nat.le_of_lt_succ hLt).antisymm hLe
    · intro t ht ht'
      rw [hFresh.quiet.thread t ht ht', hBirths.pcbs]
      exact lt_add_one _
    · rintro p rfl -
      refine ⟨(absurd · hFresh.status), ?_⟩
      rw [hFresh.queue]
      exact queueInit_truthful _ _
  · intro z hz
    rw [hReaper] at hz
    exact hBirths.child _ z h.lists.kernel (h.reaper z hz)
  · intro z hz
    rw [hBirths.freed z hz]
  · intro z hz
    rw [hBirths.pcbs] at hz
    rw [hExits]
    exact h.unborn z (Nat.le_of_succ_le hz)

theorem Reaping.fork (h : Reaping k) (ht : t < k.tcbs) (cloneFiles : Bool) (m : ForkMemory)
    (hSmall : k.nowPid < 2 ^ 31) : Reaping (k.fork t cloneFiles m) := by
  have hParent : k.group t < k.pcbs := h.exited.group t ht
  have hLists := h.lists.fork hParent cloneFiles m hSmall
  unfold Kernel.fork
  cases hBlock : m.block with
  | false =>
    have hNone : processFork k.toState (k.group t) cloneFiles m = (k.toState, none) := by
      unfold processFork
      rw [if_pos (by rw [hBlock]; rfl)]
    rw [hNone]
    exact h
  | true =>
    have hFresh := processFork_fresh k.toState (k.group t) cloneFiles hBlock
    have hBirths := processFork_births h.lists hParent cloneFiles hBlock
    rcases hFork : processFork k.toState (k.group t) cloneFiles m with ⟨s, child⟩
    rw [hFork] at hLists hFresh hBirths
    cases child with
    | none => exact h.born hBirths hFresh hLists rfl rfl rfl rfl
    | some p => exact h.born hBirths hFresh hLists rfl rfl rfl rfl

theorem Reaping.spawn (h : Reaping k) {parent : Option PcbId} (hParent : ∀ p ∈ parent, p < k.pcbs)
    (hSmall : k.nowPid < 2 ^ 31) : Reaping (k.spawn parent) := by
  have hBirths : Births k.toState (createProcessGroup k.toState parent) :=
    (addChild_births k.toState { forkBlock k.toState (parent.getD k.kernelGroup) with ppid := 0 }
      (parent.getD k.kernelGroup)).congr (((withFiles_tree _ k.pcbs _ _ _).addChild _ k.pcbs).trans (newTcb_tree _ _))
  exact h.born hBirths (createProcessGroup_fresh k.toState parent) (h.lists.spawn hParent hSmall) rfl rfl rfl rfl

theorem Reaping.proceeds (h : Reaping k) (hit : PcbId → Prop) (hTree : SameTree k.toState k'.toState)
    (hQuiet : Quiet hit k.toState k'.toState) (ht : t < k.tcbs)
    (hUser : call ≠ .user → k.group t ≠ k.kernelGroup) (hCall : k'.call = update k.call t call)
    (hLater : Later k.toState k'.toState k.exits k'.exits) (hExited : Exited k'.toState k'.exits)
    (hTold : Told k'.toState k'.exits call)
    (hHit : ∀ u z, u ≠ t → k.call u = .reaping z → hit z → (k'.pcb z).exitCode ∈ k'.exits z)
    (hChild : ∀ z, call.child = some z → z ∈ (k.pcb (k.group t)).childPcb ∧ ∀ u, u ≠ t → (k.call u).child ≠ some z)
    (hReaper : k'.reaper = k.reaper) (hReturned : k'.returned = k.returned)
    (hUnborn : ∀ z, k.pcbs ≤ z → k'.exits z = []) : Reaping k' := by
  have hSelf : k'.call t = call := by
    rw [hCall, update_self]
  have hOther : ∀ u, u ≠ t → k'.call u = k.call u := by
    intro u hu
    rw [hCall, update_of_ne hu]
  refine h.moves hQuiet.group hQuiet.tcbs hQuiet.kernelGroup hLater t ht (hSelf ▸ hUser) hOther (hSelf ▸ hTold) ?_ ?_ ?_
    (h.lists.congr hTree) hExited ?_ ?_ ?_ ?_
  · intro u z hu hReap
    obtain hIn | hOut := Classical.em (hit z)
    · exact hHit u z hu hReap hIn
    · have hWas := h.told u
      rw [hReap] at hWas
      rw [(hQuiet.pcb z hOut).1]
      exact hLater.exits z hWas.1 _ hWas.2
  · intro u z hz
    rw [(hTree.children _).1]
    obtain rfl | hne := eq_or_ne u t
    · exact (hChild z (hSelf ▸ hz)).1
    · exact h.found u z (hOther u hne ▸ hz)
  · intro u z hu hz
    exact (hChild z (hSelf ▸ hz)).2 u hu
  · intro z hz
    rw [(hTree.children _).1]
    exact h.reaper z (hReaper ▸ hz)
  · intro z
    rw [hReturned]
    exact h.returned z
  · intro z hz
    rw [hTree.live, hTree.pcbs] at hz
    rw [hReturned]
    exact h.kept z hz
  · intro z hz
    exact hUnborn z (hTree.pcbs ▸ hz)

theorem Later.refl (s : State) (exits : PcbId → List (BitVec 32)) : Later s s exits exits :=
  ⟨le_rfl, fun _ _ => rfl, fun _ _ _ => id⟩

structure Steps (s s' : State) (exits : PcbId → List (BitVec 32)) (call : Call) : Prop where
  tree : SameTree s s'
  exited : Exited s' exits
  tcbs : s'.tcbs = s.tcbs
  group : ∀ t, t < s.tcbs → (s'.tcb t).parentGroup = (s.tcb t).parentGroup
  kernelGroup : s'.kernelGroup = s.kernelGroup
  code : ∀ z, (∀ exitCode, call ≠ .marking z exitCode) → (s'.pcb z).exitCode = (s.pcb z).exitCode

theorem sendExit_some {p q : PcbId} (h : (s.pcb p).parentTask = some q) (exitCode : BitVec 32)
    (node : Bool) : sendExit s p exitCode node = s.setPcb q { s.pcb q with
      ipcQueue := Ipc.ipcSend (s.pcb q).ipcQueue (exitMessage (s.pcb p).pid exitCode) node } := by
  rw [sendExit, h]

theorem StepState.steps {s' : State} {exits : PcbId → List (BitVec 32)} (hExited : Exited s exits)
    (hTold : Told s exits call)
    (h : StepState s parent o call s') (hNot : ∀ z pid status, call ≠ .freeing z pid status) :
    Steps s s' exits call := by
  have hSame : ∀ {q : PcbId} {ipcQueue : Ipc.LockQueue}, (q < s.pcbs → Truthful s exits ipcQueue) →
      Steps s (s.setPcb q { s.pcb q with ipcQueue }) exits call := by
    intro q ipcQueue hQueue
    have hTree : SameTree s (s.setPcb q { s.pcb q with ipcQueue }) := SameTree.setPcb rfl
    have hLater := hTree.steady.later exits
    refine ⟨hTree, ?_, rfl, fun _ _ => rfl, rfl, ?_⟩
    · refine hExited.changed (setPcb_quiet s q _) hLater rfl (fun _ ht ht' => absurd ht' (not_lt.2 ht)) ?_ ?_
      · rw [State.setPcb_self]
        exact fun hz hq => hExited.zombie q hq hz
      · rw [State.setPcb_self]
        exact fun hq => (hQueue hq).later hLater
    · intro z _
      refine State.setPcb_pcb (f := Pcb.exitCode) ?_ z
      rfl
  cases h with
  | same => exact ⟨.refl s, hExited, rfl, fun _ _ => rfl, rfl, fun _ _ => rfl⟩
  | popped pid =>
    rw [wait4PopExitMessage_eq]
    exact hSame fun hLt => (popLoop_truthful pid _ o.node (hExited.truthful parent hLt)).1
  | marked child exitCode =>
    have hTree : SameTree s (s.setPcb child { s.pcb child with exitCode, status := .zombie }) := SameTree.setPcb rfl
    have hLater := hTree.steady.later exits
    refine ⟨hTree, ?_, rfl, fun _ _ => rfl, rfl, ?_⟩
    · refine hExited.changed (setPcb_quiet s child _) hLater rfl (fun _ ht ht' => absurd ht' (not_lt.2 ht)) ?_ ?_
      · rw [State.setPcb_self]
        exact fun _ _ => hTold.2
      · rw [State.setPcb_self]
        exact fun hLt => (hExited.truthful child hLt).later hLater
    · intro z hz
      have hne : z ≠ child := by
        rintro rfl
        exact hz exitCode rfl
      rw [State.setPcb_of_ne hne]
  | freed child pid status => exact absurd rfl (hNot child pid status)
  | died process exitCode =>
    have hTree := killThreads_tree s process
    have hCalm := killThreads_calm s process
    obtain ⟨tcb, hEq⟩ := killThreads_eq s process
    refine ⟨hTree, hExited.calm hCalm (hTree.steady.later exits) hTree.pcbs, ?_, hCalm.group, hCalm.kernelGroup,
      fun z _ => (hCalm.pcb z id).1⟩
    rw [hEq]
  | told process exitCode =>
    rcases hTask : (s.pcb process).parentTask with _ | q
    · have hNone : sendExit s process exitCode (o.node 0) = s := by
        rw [sendExit, hTask]
      rw [hNone]
      exact ⟨.refl s, hExited, rfl, fun _ _ => rfl, rfl, fun _ _ => rfl⟩
    · rw [sendExit_some hTask]
      refine hSame fun hLt => (hExited.truthful q hLt).enqueue (fun _ => ?_) _
      refine ⟨process, hTold.1, exitMessage_pid _ _, ?_⟩
      rw [exitCodeOf_exitMessage]
      exact hTold.2

theorem record_returned {answer : Option Answer} (h : ∀ z pid status, answer ≠ some (.child z pid status)) :
    (k.record answer).returned = k.returned := by
  unfold Kernel.record
  split
  · rename_i z pid status
    exact absurd rfl (h z pid status)
  · rfl

theorem advance_answer {p : Progress}
    (h : advance s parent o call = some p) {z : PcbId} {pid : Nat} {status : BitVec 32}
    (hAnswer : p.answer = some (.child z pid status)) : call = .freeing z pid status := by
  cases advance_cases h with
  | free =>
    cases hAnswer
    rfl
  | _ => cases hAnswer

theorem Reaping.wait4 (h : Reaping k) (ht : t < k.tcbs) (hGroup : k.group t ≠ k.kernelGroup)
    (pid : Int) (nohang : Bool) : Reaping (k.proceed t (wait4Enter k.toState (k.group t) pid nohang)) := by
  obtain ⟨hState, -, hReaper, hCall, hExits⟩ := proceed_state k t (wait4Enter k.toState (k.group t) pid nohang)
  have hEnter : (wait4Enter k.toState (k.group t) pid nohang).call.child = none ∧
      Told k.toState k.exits (wait4Enter k.toState (k.group t) pid nohang).call ∧
      ∀ z p status, (wait4Enter k.toState (k.group t) pid nohang).answer ≠ some (.child z p status) := by
    unfold wait4Enter
    split
    · exact ⟨rfl, trivial, nofun⟩
    · exact ⟨rfl, trivial, nofun⟩
  rw [wait4Enter_state] at hState
  refine h.proceeds (fun _ => False) ?_ ?_ ht (fun _ => hGroup) hCall ?_ ?_ ?_ (fun _ _ _ _ => False.elim) ?_
    hReaper (record_returned hEnter.2.2) ?_
  · rw [hState]
    exact .refl _
  · rw [hState]
    exact .refl _ _
  · rw [hState, hExits]
    exact .refl _ _
  · rw [hState, hExits]
    exact h.exited
  · rw [hState, hExits]
    exact hEnter.2.1
  · intro z hz
    rw [hEnter.1] at hz
    cases hz
  · rw [hExits]
    exact h.unborn

theorem Reaping.leave (h : Reaping k) (ht : t < k.tcbs) (hGroup : k.group t ≠ k.kernelGroup)
    (exitCode : BitVec 32) : Reaping (k.leave t exitCode) := by
  have hTree := killProcZombie_tree k.toState (k.group t) exitCode
  have hZombie := killProcZombie_zombie k.toState (k.group t) exitCode
  have hLt : k.group t < k.pcbs := h.exited.group t ht
  have hSelf : (k.leave t exitCode).exits (k.group t) = exitCode :: k.exits (k.group t) := update_self ..
  have hOther : ∀ z, z ≠ k.group t → (k.leave t exitCode).exits z = k.exits z := fun z hz => update_of_ne hz ..
  have hLater : Later k.toState (k.leave t exitCode).toState k.exits (k.leave t exitCode).exits := by
    refine ⟨hTree.pcbs.symm.le, fun p _ => hTree.steady.pid p, ?_⟩
    intro p _ code hCode
    obtain rfl | hp := eq_or_ne p (k.group t)
    · rw [hSelf]
      exact .tail _ hCode
    · rwa [hOther p hp]
  have hCodeIn : (((k.leave t exitCode)).pcb (k.group t)).exitCode ∈ (k.leave t exitCode).exits (k.group t) := by
    rw [hSelf, show ((k.leave t exitCode).pcb (k.group t)).exitCode = exitCode from hZombie.code]
    exact .head _
  refine h.proceeds (· = k.group t) hTree hZombie.quiet ht (fun _ => hGroup) rfl hLater ?_ ?_ ?_ nofun rfl rfl ?_
  · refine h.exited.changed hZombie.quiet hLater hTree.pcbs (fun _ _ _ => hTree.pcbs.symm ▸ hLt) (fun _ _ => hCodeIn) ?_
    intro hIn
    rw [show ((k.leave t exitCode).pcb (k.group t)).ipcQueue = (k.pcb (k.group t)).ipcQueue from hZombie.queue]
    exact (h.exited.truthful _ hIn).later hLater
  · refine ⟨hTree.pcbs.symm ▸ hLt, ?_⟩
    rw [hSelf]
    exact .head _
  · rintro u z - hReap rfl
    exact hCodeIn
  · intro z hz
    rw [hOther z]
    · exact h.unborn z hz
    · rintro rfl
      exact absurd hLt (not_lt.2 hz)

theorem Reaping.exit (h : Reaping k) (ht : t < k.tcbs) (hGroup : k.group t ≠ k.kernelGroup)
    (exitCode : BitVec 32) : Reaping (k.exit t exitCode) := by
  unfold Kernel.exit
  split
  · have hTree := killThread_tree k.toState t
    have hCalm := killThread_calm k.toState t
    exact h.proceeds (fun _ => False) hTree hCalm ht (fun _ => hGroup) rfl (hTree.steady.later k.exits)
      (h.exited.calm hCalm (hTree.steady.later k.exits) hTree.pcbs) trivial (fun _ _ _ _ => False.elim) nofun rfl rfl
      h.unborn
  · exact h.leave ht hGroup exitCode

def FindsAlone (k : Kernel) (t : TcbId) : Prop :=
  ∀ z, finds k.toState (k.group t) (k.call t) = some z → ∀ u, u ≠ t → (k.call u).child ≠ some z

theorem Reaping.goesOn (h : Reaping k) (ht : t < k.tcbs) (hAlone : FindsAlone k t) {p : Progress}
    (hStep : advance k.toState (k.group t) o (k.call t) = some p)
    (hNot : ∀ z pid status, k.call t ≠ .freeing z pid status) : Reaping (k.proceed t p) := by
  obtain ⟨hState, -, hReaper, hCall, hExits⟩ := proceed_state k t p
  have hUser : k.call t ≠ .user := by
    intro hIs
    rw [hIs] at hStep
    cases hStep
  have hSteps := (advance_state hStep).steps h.exited (h.told t) hNot
  have hTold := advance_told h.lists h.exited (h.exited.group t ht) (h.told t) hStep
  have hQuiet : Quiet (fun _ => True) k.toState p.state := by
    refine ⟨hSteps.kernelGroup, fun _ hIn => absurd trivial hIn, hSteps.tcbs.symm.le, hSteps.group,
      fun _ _ _ => trivial, ?_⟩
    intro c u hc hu
    exact .inr (hSteps.exited.running c u hc hu)
  refine h.proceeds (fun _ => True) ?_ ?_ ht (fun _ => (h.idle t hUser).2) hCall ?_ ?_ ?_ ?_ ?_ hReaper
    (record_returned fun z pid status hAnswer => hNot z pid status (advance_answer hStep hAnswer)) ?_
  · rw [hState]
    exact hSteps.tree
  · rw [hState]
    exact hQuiet
  · rw [hState, hExits]
    exact hSteps.tree.steady.later k.exits
  · rw [hState, hExits]
    exact hSteps.exited
  · rw [hState, hExits]
    exact hTold
  · intro u z hu hReap _
    have hWas := h.told u
    rw [hReap] at hWas
    rw [hState, hExits, hSteps.code z]
    · exact hWas.2
    · intro exitCode hMark
      refine hu (h.alone u t z ?_ ?_)
      · rw [hReap]
        rfl
      · rw [hMark]
        rfl
  · intro z hz
    obtain hHas | hFinds := advance_finds hStep hz
    · exact ⟨h.found t z hHas, fun u hu hz' => hu (h.alone u t z hz' hHas)⟩
    · exact ⟨finds_mem hFinds, hAlone z hFinds⟩
  · rw [hExits]
    exact h.unborn

end OpenXJ380.Process
