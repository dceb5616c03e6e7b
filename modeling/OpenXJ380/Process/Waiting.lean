import Mathlib.Tactic.IntervalCases
import OpenXJ380.Process.Children

/-! # What an exit tells

Who has exited, with which codes, as the control blocks and the exit messages have it.
-/

namespace OpenXJ380.Process

theorem exitMessage_pid (pid : Nat) (exitCode : BitVec 32) : (exitMessage pid exitCode).pid = asInt pid := by
  unfold exitMessage
  with_reducible rfl

theorem bytes_or (c : BitVec 32) : (c.extractLsb' 0 8).setWidth 32 ||| (c.extractLsb' 8 8).setWidth 32 <<< 8 |||
    (c.extractLsb' 16 8).setWidth 32 <<< 16 ||| (c.extractLsb' 24 8).setWidth 32 <<< 24 = c := by
  apply BitVec.eq_of_getLsbD_eq
  intro i hi
  simp only [BitVec.getLsbD_or, BitVec.getLsbD_shiftLeft, BitVec.getLsbD_setWidth, BitVec.getLsbD_extractLsb', hi,
    decide_true, Bool.true_and]
  interval_cases i <;> simp

theorem exitCodeOf_exitMessage (pid : Nat) (exitCode : BitVec 32) :
    exitCodeOf (exitMessage pid exitCode) = exitCode := by
  have hGet : ∀ i : Fin 64, i.val < 4 → (exitMessage pid exitCode).data.get i = exitCode.extractLsb' (8 * i.val) 8 := by
    intro i hi
    have hAt : (exitMessage pid exitCode).data.get i = if i.val < 4 then exitCode.extractLsb' (8 * i.val) 8 else 0 := by
      show (Vector.ofFn _)[i.val] = _
      rw [Vector.getElem_ofFn]
    rw [hAt, if_pos hi]
  have h0 := hGet 0 (by decide)
  have h1 := hGet 1 (by decide)
  have h2 := hGet 2 (by decide)
  have h3 := hGet 3 (by decide)
  rw [exitCodeOf, h0, h1, h2, h3]
  exact bytes_or exitCode

/-- Some process with the pid, as an `int`, has exited with the code. -/
def Announces (s : State) (exits : PcbId → List (BitVec 32)) (pid : Int) (exitCode : BitVec 32) : Prop :=
  ∃ p, p < s.pcbs ∧ pid = asInt (s.pcb p).pid ∧ exitCode ∈ exits p

def Truthful (s : State) (exits : PcbId → List (BitVec 32)) (q : Ipc.LockQueue) : Prop :=
  ∀ n ∈ q.nodes, n.data.type = epid → Announces s exits n.data.pid (exitCodeOf n.data)

theorem queueInit_truthful (s : State) (exits : PcbId → List (BitVec 32)) : Truthful s exits Ipc.queueInit := nofun

variable {s s' s'' : State} {exits exits' : PcbId → List (BitVec 32)} {q : Ipc.LockQueue} {hit : PcbId → Prop}
  {p z : PcbId}

theorem Truthful.enqueue (hTruthful : Truthful s exits q) {message : Ipc.IpcMessage}
    (hMessage : message.type = epid → Announces s exits message.pid (exitCodeOf message)) (node : Bool) :
    Truthful s exits (Ipc.enqueueMessage q message node) := by
  unfold Ipc.enqueueMessage
  generalize (Ipc.lockQueueEnqueue q message node).2 = index
  unfold Ipc.lockQueueEnqueue
  split_ifs
  · exact hTruthful
  · exact hTruthful
  · intro n hn
    obtain hn | hn := List.mem_append.1 hn
    · exact hTruthful n hn
    · rw [List.mem_singleton.1 hn]
      exact hMessage

theorem queueDequeue_nodes (q : Ipc.LockQueue) :
    Ipc.queueDequeue q = (q, none) ∨ ∃ n q', Ipc.queueDequeue q = (q', some n.data) ∧ q.nodes = n :: q'.nodes := by
  unfold Ipc.queueDequeue
  split
  · exact .inl rfl
  · rename_i n rest hNodes
    exact .inr ⟨n, _, rfl, hNodes⟩

theorem popLoop_truthful (pid : Int) (remaining : Nat) (node : Nat → Bool) (hTruthful : Truthful s exits q) :
    Truthful s exits (popLoop pid remaining node q).1 ∧
      ∀ m ∈ (popLoop pid remaining node q).2, Announces s exits m.pid (exitCodeOf m) := by
  induction remaining generalizing node q with
  | zero => exact ⟨hTruthful, nofun⟩
  | succ remaining ih =>
    unfold popLoop
    obtain hNone | ⟨n, q', hSome, hNodes⟩ := queueDequeue_nodes q
    · rw [hNone]
      exact ⟨hTruthful, nofun⟩
    · have hHead := hTruthful n (by rw [hNodes]; exact .head _)
      have hRest : Truthful s exits q' := by
        intro n' hn'
        exact hTruthful n' (by rw [hNodes]; exact .tail n hn')
      rw [hSome]
      dsimp only
      split_ifs with hFound
      · refine ⟨hRest, ?_⟩
        rintro m ⟨⟩
        exact hHead hFound.1
      · exact ih _ (hRest.enqueue hHead _)

theorem wait4PopExitMessage_eq (s : State) (parent : PcbId) (pid : Int) (node : Nat → Bool) :
    wait4PopExitMessage s parent pid node =
      (s.setPcb parent { s.pcb parent with
        ipcQueue := (popLoop pid (s.pcb parent).ipcQueue.size node (s.pcb parent).ipcQueue).1 },
      (popLoop pid (s.pcb parent).ipcQueue.size node (s.pcb parent).ipcQueue).2) := rfl

/-! # Who has exited

What each function leaves of the statuses, the exit codes, the queues of messages and
the threads; the processes that it does change in these are named.
-/

structure Quiet (hit : PcbId → Prop) (s s' : State) : Prop where
  kernelGroup : s'.kernelGroup = s.kernelGroup
  pcb : ∀ p, ¬hit p → (s'.pcb p).exitCode = (s.pcb p).exitCode ∧ (s'.pcb p).ipcQueue = (s.pcb p).ipcQueue ∧
    ((s'.pcb p).status = .zombie → (s.pcb p).status = .zombie)
  tcbs : s.tcbs ≤ s'.tcbs
  group : ∀ t, t < s.tcbs → (s'.tcb t).parentGroup = (s.tcb t).parentGroup
  thread : ∀ t, s.tcbs ≤ t → t < s'.tcbs → hit (s'.tcb t).parentGroup
  current : ∀ c t, c < s'.cpus → s'.currentTask c = some t → c < s.cpus ∧ s.currentTask c = some t ∨ t < s'.tcbs

def Calm (s s' : State) : Prop := Quiet (fun _ => False) s s'

theorem Quiet.refl (hit : PcbId → Prop) (s : State) : Quiet hit s s :=
  ⟨rfl, fun _ _ => ⟨rfl, rfl, id⟩, le_rfl, fun _ _ => rfl, fun _ h h' => absurd h' (not_lt.2 h),
    fun _ _ hc ht => .inl ⟨hc, ht⟩⟩

theorem Quiet.trans (h : Quiet hit s s') (h' : Quiet hit s' s'') :
    Quiet hit s s'' where
  kernelGroup := h'.kernelGroup.trans h.kernelGroup
  pcb p hp := by
    obtain ⟨hCode, hQueue, hZombie⟩ := h.pcb p hp
    obtain ⟨hCode', hQueue', hZombie'⟩ := h'.pcb p hp
    exact ⟨hCode'.trans hCode, hQueue'.trans hQueue, fun hz => hZombie (hZombie' hz)⟩
  tcbs := h.tcbs.trans h'.tcbs
  group t ht := (h'.group t (ht.trans_le h.tcbs)).trans (h.group t ht)
  thread t ht ht' := by
    obtain hLt | hGe := lt_or_ge t s'.tcbs
    · rw [h'.group t hLt]
      exact h.thread t ht hLt
    · exact h'.thread t hGe ht'
  current c t hc ht := by
    obtain ⟨hc', ht'⟩ | hLt := h'.current c t hc ht
    · exact (h.current c t hc' ht').imp_right fun hLt => hLt.trans_le h'.tcbs
    · exact .inr hLt

theorem Quiet.mono {hit' : PcbId → Prop} (h : Quiet hit s s') (hHit : ∀ p, hit p → hit' p) :
    Quiet hit' s s' :=
  { h with pcb := fun p hp => h.pcb p fun hIn => hp (hHit p hIn), thread := fun t ht ht' => hHit _ (h.thread t ht ht') }

theorem Calm.quiet (h : Calm s s') (hit : PcbId → Prop) : Quiet hit s s' := h.mono fun _ => False.elim

theorem setPcb_quiet (s : State) (p : PcbId) (b : Pcb) : Quiet (· = p) s (s.setPcb p b) := by
  refine { Quiet.refl (· = p) s with pcb := ?_ }
  intro q hq
  rw [State.setPcb_of_ne hq]
  exact ⟨rfl, rfl, id⟩

theorem setPcb_calm {b : Pcb} (hCode : b.exitCode = (s.pcb p).exitCode)
    (hQueue : b.ipcQueue = (s.pcb p).ipcQueue) (hZombie : b.status = .zombie → (s.pcb p).status = .zombie) :
    Calm s (s.setPcb p b) := by
  refine { Quiet.refl (fun _ => False) s with pcb := ?_ }
  intro q _
  exact State.setPcb_rel (R := fun b b' => b.exitCode = b'.exitCode ∧ b.ipcQueue = b'.ipcQueue ∧
    (b.status = .zombie → b'.status = .zombie)) (fun _ => ⟨rfl, rfl, id⟩) ⟨hCode, hQueue, hZombie⟩ q

theorem setThreadStatus_calm (s : State) (t : TcbId) (status : TaskStatus) : Calm s (s.setThreadStatus t status) := by
  refine { Quiet.refl (fun _ => False) s with group := ?_ }
  intro r _
  exact State.setThreadStatus_tcb (fun _ _ => rfl) s t status r

theorem foldl_calm {f : State → TcbId → State} (hf : ∀ s t, Calm s (f s t)) (threads : List TcbId) (s : State) :
    Calm s (threads.foldl f s) :=
  foldl_of (Quiet.refl _) Quiet.trans hf threads s

section

variable (s : State)

theorem killThread_calm (t : TcbId) : Calm s (killThread s t) := by
  unfold killThread
  split
  · exact .refl _ s
  · exact setThreadStatus_calm s t .death

theorem killThreads_calm (p : PcbId) : Calm s (killThreads s p) := foldl_calm killThread_calm _ s

theorem markThreads_calm (p : PcbId) : Calm s (markThreads s p) :=
  foldl_calm (fun s t => setThreadStatus_calm s t .death) _ s

theorem killThread0_calm (t : TcbId) : Calm s (killThread0 s t) := { setThreadStatus_calm s t .out with }

theorem freeThreads_calm (p : PcbId) : Calm s (freeThreads s p) :=
  (foldl_calm killThread0_calm _ s).trans (setPcb_calm rfl rfl id)

theorem withFiles_calm (p : PcbId) (files : Files) (fileOpen : Option TableId) (refs : Option CounterId) :
    Calm s (s.withFiles p files fileOpen refs) := by
  have hSet : Calm s (s.setPcb p { s.pcb p with fileOpen, fileOpenSharedRefs := refs }) := setPcb_calm rfl rfl id
  exact { hSet with }

theorem closeProcessFileTable_calm (p : PcbId) : Calm s (closeProcessFileTable s p) := by
  obtain ⟨files, fileOpen, refs, h⟩ := closeProcessFileTable_eq s p
  rw [h]
  exact withFiles_calm s p files fileOpen refs

theorem freePcb_calm (p : PcbId) : Calm s (s.freePcb p) :=
  ⟨rfl, fun _ _ => ⟨rfl, rfl, id⟩, le_rfl, fun _ _ => rfl, fun _ h h' => absurd h' (not_lt.2 h),
    fun _ _ hc ht => .inl ⟨hc, ht⟩⟩

theorem removeChild_calm (q : Option PcbId) (p : PcbId) : Calm s (removeChild s q p) := by
  unfold removeChild
  split
  · exact .refl _ s
  · exact setPcb_calm rfl rfl id

theorem addChild_calm (q p : PcbId) : Calm s (addChild s q p) := setPcb_calm rfl rfl id

theorem moveToReaper_calm (p : PcbId) : Calm s (moveToReaper s p) :=
  ((addChild_calm s s.kernelGroup p).trans (removeChild_calm _ _ p)).trans (setPcb_calm rfl rfl id)

theorem switchTo_calm (c : CpuId) {t : TcbId} (ht : t < s.tcbs) : Calm s (switchTo s c t) := by
  have hAdopt : Calm s (adoptOrphan s (s.tcb t).parentGroup) := by
    unfold adoptOrphan
    split
    · exact setPcb_calm rfl rfl id
    · exact .refl _ s
  have hSame := hAdopt.trans (startBest_stopCurrent (Quiet.refl _) Quiet.trans setThreadStatus_calm _ c t)
  refine { hSame with current := ?_ }
  intro d u hd hu
  have hTask : (switchTo s c t).currentTask d = if d = c then some t else
      (startBest (stopCurrent (adoptOrphan s (s.tcb t).parentGroup) c) t).currentTask d := Function.update_apply ..
  rw [hTask] at hu
  split_ifs at hu
  · cases hu
    exact .inr (ht.trans_le hSame.tcbs)
  · exact hSame.current d u hd hu

end

structure Buried (s s' : State) (z : PcbId) : Prop where
  quiet : Quiet (· = z) s s'
  status : (s'.pcb z).status ≠ .zombie
  queue : (s'.pcb z).ipcQueue = (s.pcb z).ipcQueue

theorem Buried.calm (h : Buried s s' z) (h' : Calm s' s'') : Buried s s'' z where
  quiet := h.quiet.trans (h'.quiet _)
  status hz := h.status ((h'.pcb z id).2.2 hz)
  queue := (h'.pcb z id).2.1.trans h.queue

theorem setStatus_buried (h : Quiet (· = z) s s')
    (hQueue : (s'.pcb z).ipcQueue = (s.pcb z).ipcQueue) : Buried s (s'.setStatus z .death) z := by
  refine ⟨h.trans (setPcb_quiet s' z _), ?_, ?_⟩
  · rw [State.setStatus, State.setPcb_self]
    rintro ⟨⟩
  · rw [State.setStatus, State.setPcb_self]
    exact hQueue

theorem killProc_buried (exitCode : BitVec 32) (hKernel : s.isKernel z = false) :
    Buried s (killProc s z exitCode) z := by
  rw [killProc, if_neg (by rw [hKernel]; decide)]
  have hCode := setPcb_quiet s z { s.pcb z with exitCode }
  have hRemove := removeChild_calm (s.setPcb z { s.pcb z with exitCode })
    ((s.setPcb z { s.pcb z with exitCode }).pcb z).parentTask z
  have hDeath := setStatus_buried (hCode.trans (hRemove.quiet _)) (by rw [(hRemove.pcb z id).2.1, State.setPcb_self])
  have hMark := hDeath.calm (markThreads_calm _ z)
  have hClose := hMark.calm (closeProcessFileTable_calm _ z)
  exact (hClose.calm (freeThreads_calm _ z)).calm (freePcb_calm _ z)

theorem killProcDeferred_buried (s : State) (z : PcbId) (exitCode : BitVec 32) (listed : Bool) :
    Calm s (killProcDeferred s z exitCode listed).1 ∨ Buried s (killProcDeferred s z exitCode listed).1 z := by
  have hEnd : ∀ s' : State, Calm s s' → Buried s (killThreads ((closeProcessFileTable
      (s'.setPcb z { s'.pcb z with exitCode }) z).setStatus z .death) z) z := by
    intro s' hCalm
    have hCode := (hCalm.quiet (· = z)).trans (setPcb_quiet s' z { s'.pcb z with exitCode })
    have hClose := closeProcessFileTable_calm (s'.setPcb z { s'.pcb z with exitCode }) z
    have hQueue := (hClose.pcb z id).2.1
    rw [State.setPcb_self] at hQueue
    exact (setStatus_buried (hCode.trans (hClose.quiet _)) (hQueue.trans (hCalm.pcb z id).2.1)).calm
      (killThreads_calm _ z)
  unfold killProcDeferred
  split
  · exact .inl (.refl _ s)
  · split
    · exact .inl (.refl _ s)
    · split
      · exact .inr (hEnd _ (moveToReaper_calm s z))
      · exact .inr (hEnd s (.refl _ s))

structure Zombie (s s' : State) (z : PcbId) (exitCode : BitVec 32) : Prop where
  quiet : Quiet (· = z) s s'
  code : (s'.pcb z).exitCode = exitCode
  queue : (s'.pcb z).ipcQueue = (s.pcb z).ipcQueue

theorem killProcZombie_zombie (s : State) (z : PcbId) (exitCode : BitVec 32) :
    Zombie s (killProcZombie s z exitCode) z exitCode := by
  have hClose := closeProcessFileTable_calm (s.setPcb z { s.pcb z with exitCode }) z
  obtain ⟨hCode, hQueue, -⟩ := hClose.pcb z id
  rw [State.setPcb_self] at hCode hQueue
  refine ⟨((setPcb_quiet s z _).trans (hClose.quiet _)).trans (setPcb_quiet _ z _), ?_, ?_⟩
  · rw [killProcZombie, State.setStatus, State.setPcb_self]
    exact hCode
  · rw [killProcZombie, State.setStatus, State.setPcb_self]
    exact hQueue

theorem newPcb_quiet (s : State) (b : Pcb) : Quiet (· = s.pcbs) s (s.newPcb b) :=
  { setPcb_quiet s s.pcbs b with }

theorem newTcb_quiet (s : State) (p : PcbId) : Quiet (· = p) s (s.newTcb p) := by
  have hTcb : ∀ t, (s.newTcb p).tcb t = if t = s.tcbs then ⟨p, .start, false, false⟩ else s.tcb t :=
    fun t => Function.update_apply ..
  refine ⟨rfl, (setPcb_quiet s p _).pcb, Nat.le_succ _, ?_, ?_, fun _ _ hc ht => .inl ⟨hc, ht⟩⟩
  · intro t ht
    rw [hTcb, if_neg ht.ne]
  · intro t ht ht'
    have hEq : t = s.tcbs := (Nat.le_of_lt_succ ht').antisymm ht
    rw [hTcb, if_pos hEq]

theorem freePartialProcess_calm (s : State) (p : PcbId) (listed : Bool) : Calm s (freePartialProcess s p listed) := by
  have hRemove : Calm s (if listed then removeChild s (s.pcb p).parentTask p else s) := by
    split
    · exact removeChild_calm s _ p
    · exact .refl _ s
  exact { hRemove.trans (freePcb_calm _ p) with }

structure Fresh (s s' : State) (p : PcbId) : Prop where
  quiet : Quiet (· = p) s s'
  status : (s'.pcb p).status ≠ .zombie
  queue : (s'.pcb p).ipcQueue = Ipc.queueInit

theorem Fresh.calm (h : Fresh s s' p) (h' : Calm s' s'') : Fresh s s'' p where
  quiet := h.quiet.trans (h'.quiet _)
  status hz := h.status ((h'.pcb p id).2.2 hz)
  queue := (h'.pcb p id).2.1.trans h.queue

theorem Fresh.newTcb (h : Fresh s s' p) : Fresh s (s'.newTcb p) p := by
  have hPcb : (s'.newTcb p).pcb p = { s'.pcb p with threadQueue := (s'.pcb p).threadQueue ++ [s'.tcbs] } :=
    Function.update_self ..
  refine ⟨h.quiet.trans (newTcb_quiet s' p), ?_, ?_⟩
  · rw [hPcb]
    exact h.status
  · rw [hPcb]
    exact h.queue

theorem newPcb_fresh {b : Pcb} (hStatus : b.status ≠ .zombie) (hQueue : b.ipcQueue = Ipc.queueInit) :
    Fresh s (s.newPcb b) s.pcbs := by
  refine ⟨newPcb_quiet s b, ?_, ?_⟩
  · rw [newPcb_self]
    exact hStatus
  · rw [newPcb_self]
    exact hQueue

theorem processFork_fresh (s : State) (parent : PcbId) (cloneFiles : Bool) {m : ForkMemory} (hBlock : m.block) :
    Fresh s (processFork s parent cloneFiles m).1 s.pcbs := by
  have hNew : Fresh s (s.newPcb (forkBlock s parent)) s.pcbs := newPcb_fresh nofun rfl
  unfold processFork
  dsimp only
  rw [if_neg (by rw [hBlock]; decide)]
  split_ifs
  · exact hNew.calm (freePcb_calm _ _)
  · exact (hNew.calm (withFiles_calm _ _ _ _ _)).calm (freePartialProcess_calm _ _ _)
  · exact ((hNew.calm (withFiles_calm _ _ _ _ _)).calm (addChild_calm _ _ _)).calm (freePartialProcess_calm _ _ _)
  · exact ((hNew.calm (withFiles_calm _ _ _ _ _)).calm (addChild_calm _ _ _)).newTcb

theorem createProcessGroup_fresh (s : State) (parent : Option PcbId) :
    Fresh s (createProcessGroup s parent) s.pcbs := by
  have hNew : Fresh s (s.newPcb { forkBlock s (parent.getD s.kernelGroup) with ppid := 0 }) s.pcbs :=
    newPcb_fresh nofun rfl
  exact ((hNew.calm (withFiles_calm _ _ _ _ _)).calm (addChild_calm _ _ _)).newTcb

structure Exited (s : State) (exits : PcbId → List (BitVec 32)) : Prop where
  zombie : ∀ p, p < s.pcbs → (s.pcb p).status = .zombie → (s.pcb p).exitCode ∈ exits p
  truthful : ∀ p, p < s.pcbs → Truthful s exits (s.pcb p).ipcQueue
  group : ∀ t, t < s.tcbs → (s.tcb t).parentGroup < s.pcbs
  running : ∀ c t, c < s.cpus → s.currentTask c = some t → t < s.tcbs

/-- The processes there were keep their pids, and have exited at least with the same codes. -/
structure Later (s s' : State) (exits exits' : PcbId → List (BitVec 32)) : Prop where
  pcbs : s.pcbs ≤ s'.pcbs
  pid : ∀ p, p < s.pcbs → (s'.pcb p).pid = (s.pcb p).pid
  exits : ∀ p, p < s.pcbs → ∀ code, code ∈ exits p → code ∈ exits' p

theorem Announces.later {pid : Int} {exitCode : BitVec 32}
    (h : Announces s exits pid exitCode) (hLater : Later s s' exits exits') : Announces s' exits' pid exitCode := by
  obtain ⟨p, hp, hPid, hCode⟩ := h
  exact ⟨p, hp.trans_le hLater.pcbs, (hLater.pid p hp).symm ▸ hPid, hLater.exits p hp _ hCode⟩

theorem Truthful.later (h : Truthful s exits q) (hLater : Later s s' exits exits') : Truthful s' exits' q :=
  fun n hn hType => (h n hn hType).later hLater

theorem Exited.quiet (h : Exited s exits) (hQuiet : Quiet hit s s') (hLater : Later s s' exits exits')
    (hNew : ∀ p, s.pcbs ≤ p → p < s'.pcbs → hit p)
    (hThread : ∀ t, s.tcbs ≤ t → t < s'.tcbs → (s'.tcb t).parentGroup < s'.pcbs)
    (hHit : ∀ p, hit p → p < s'.pcbs → ((s'.pcb p).status = .zombie → (s'.pcb p).exitCode ∈ exits' p) ∧
      Truthful s' exits' (s'.pcb p).ipcQueue) : Exited s' exits' where
  zombie p hp hz := by
    obtain hIn | hOut := Classical.em (hit p)
    · exact (hHit p hIn hp).1 hz
    · have hOld : p < s.pcbs := not_le.mp fun hLe => hOut (hNew p hLe hp)
      obtain ⟨hCode, -, hZombie⟩ := hQuiet.pcb p hOut
      rw [hCode]
      exact hLater.exits p hOld _ (h.zombie p hOld (hZombie hz))
  truthful p hp := by
    obtain hIn | hOut := Classical.em (hit p)
    · exact (hHit p hIn hp).2
    · have hOld : p < s.pcbs := not_le.mp fun hLe => hOut (hNew p hLe hp)
      rw [(hQuiet.pcb p hOut).2.1]
      exact (h.truthful p hOld).later hLater
  group t ht := by
    obtain hOld | hNewThread := lt_or_ge t s.tcbs
    · rw [hQuiet.group t hOld]
      exact (h.group t hOld).trans_le hLater.pcbs
    · exact hThread t hNewThread ht
  running c t hc ht := by
    obtain ⟨hc', ht'⟩ | hLt := hQuiet.current c t hc ht
    · exact (h.running c t hc' ht').trans_le hQuiet.tcbs
    · exact hLt

theorem Exited.calm (h : Exited s exits) (hCalm : Calm s s')
    (hLater : Later s s' exits exits) (hPcbs : s'.pcbs = s.pcbs) : Exited s' exits :=
  h.quiet hCalm hLater (fun _ hLe hLt => absurd (hPcbs ▸ hLt) (not_lt.2 hLe))
    (fun t ht ht' => (hCalm.thread t ht ht').elim) fun _ => False.elim

theorem Exited.changed (h : Exited s exits)
    (hQuiet : Quiet (· = z) s s') (hLater : Later s s' exits exits') (hPcbs : s'.pcbs = s.pcbs)
    (hThread : ∀ t, s.tcbs ≤ t → t < s'.tcbs → z < s'.pcbs)
    (hZombie : (s'.pcb z).status = .zombie → z < s.pcbs → (s'.pcb z).exitCode ∈ exits' z)
    (hQueue : z < s.pcbs → Truthful s' exits' (s'.pcb z).ipcQueue) : Exited s' exits' := by
  refine h.quiet hQuiet hLater ?_ ?_ ?_
  · exact fun p hLe hLt => absurd (hPcbs ▸ hLt) (not_lt.2 hLe)
  · intro t ht ht'
    rw [hQuiet.thread t ht ht']
    exact hThread t ht ht'
  · rintro p rfl hp
    exact ⟨fun hz => hZombie hz (hPcbs ▸ hp), hQueue (hPcbs ▸ hp)⟩

theorem Exited.buried (h : Exited s exits)
    (hBuried : Buried s s' z) (hz : z < s.pcbs) (hLater : Later s s' exits exits) (hPcbs : s'.pcbs = s.pcbs) :
    Exited s' exits := by
  refine h.changed hBuried.quiet hLater hPcbs (fun _ _ _ => hPcbs.symm ▸ hz) ?_ ?_
  · exact (absurd · hBuried.status)
  · rw [hBuried.queue]
    exact fun hLt => (h.truthful z hLt).later hLater

/-! # Calls of `wait4`

What a thread knows at each point of its call, and what a step makes of it.
-/

open Transition

def Told (s : State) (exits : PcbId → List (BitVec 32)) : Call → Prop
  | .announced _ child exitCode => Announces s exits child exitCode
  | .marking child exitCode => child < s.pcbs ∧ exitCode ∈ exits child
  | .reaping child => child < s.pcbs ∧ (s.pcb child).exitCode ∈ exits child
  | .discarding child pid status =>
    child < s.pcbs ∧ pid = (s.pcb child).pid ∧ ∃ exitCode ∈ exits child, status = waitStatus exitCode
  | .freeing child pid status =>
    child < s.pcbs ∧ pid = (s.pcb child).pid ∧ ∃ exitCode ∈ exits child, status = waitStatus exitCode
  | .dying process exitCode => process < s.pcbs ∧ exitCode ∈ exits process
  | .telling process exitCode => process < s.pcbs ∧ exitCode ∈ exits process
  | _ => True

variable {s s' : State} {exits : PcbId → List (BitVec 32)} {parent : PcbId}

theorem Told.later {exits' : PcbId → List (BitVec 32)} (call : Call) (h : Told s exits call)
    (hLater : Later s s' exits exits') (hCode : ∀ z, call = .reaping z → (s'.pcb z).exitCode ∈ exits' z) :
    Told s' exits' call := by
  have hCodes : ∀ z code, z < s.pcbs ∧ code ∈ exits z → z < s'.pcbs ∧ code ∈ exits' z :=
    fun z code hz => ⟨hz.1.trans_le hLater.pcbs, hLater.exits z hz.1 code hz.2⟩
  have hStatus : ∀ z pid status, (z < s.pcbs ∧ pid = (s.pcb z).pid ∧
      ∃ exitCode ∈ exits z, status = waitStatus exitCode) → z < s'.pcbs ∧ pid = (s'.pcb z).pid ∧
      ∃ exitCode ∈ exits' z, status = waitStatus exitCode := by
    rintro z pid status ⟨hz, hPid, code, hMem, hEq⟩
    exact ⟨hz.trans_le hLater.pcbs, hPid.trans (hLater.pid z hz).symm, code, hLater.exits z hz code hMem, hEq⟩
  cases call with
  | announced pid child exitCode => exact Announces.later h hLater
  | marking child exitCode => exact hCodes child exitCode h
  | reaping child => exact ⟨h.1.trans_le hLater.pcbs, hCode child rfl⟩
  | discarding child pid status => exact hStatus child pid status h
  | freeing child pid status => exact hStatus child pid status h
  | dying process exitCode => exact hCodes process exitCode h
  | telling process exitCode => exact hCodes process exitCode h
  | _ => trivial

theorem asInt_small {n : Nat} (h : n < 2 ^ 31) : asInt n = n := by
  unfold asInt
  rw [Int.bmod_def]
  omega

theorem Announces.child (hLists : Lists s) {pid : Int}
    {exitCode : BitVec 32} (h : Announces s exits pid exitCode) {z : PcbId}
    (hFound : wait4FindChild s parent pid = some z) : z < s.pcbs ∧ exitCode ∈ exits z := by
  obtain ⟨p, hp, hPid, hCode⟩ := h
  have hSmall := hLists.small p hp
  rw [asInt_small hSmall] at hPid
  have hLt := (hLists.known parent z (List.mem_of_find?_eq_some hFound)).1
  have hMatch := List.find?_some hFound
  unfold wait4PidMatches at hMatch
  rw [Bool.or_eq_true, decide_eq_true_eq, decide_eq_true_eq] at hMatch
  have hEq : z = p := by
    refine hLists.distinct z p hLt hp ?_
    omega
  rw [hEq]
  exact ⟨hp, hCode⟩

theorem zombie_told (hLists : Lists s) (hExited : Exited s exits) {pid : Int} {z : PcbId}
    (h : wait4FindZombieChild s parent pid = some z) :
    Told s exits (.reaping z) := by
  have hLt := (hLists.known parent z (List.mem_of_find?_eq_some h)).1
  have hFound := List.find?_some h
  rw [Bool.and_eq_true, decide_eq_true_eq] at hFound
  exact ⟨hLt, hExited.zombie z hLt hFound.1⟩

/-- What a step makes of the processes, while a child that is found is not freed. -/
structure Steady (s s' : State) : Prop where
  pcbs : s'.pcbs = s.pcbs
  pid : ∀ p, (s'.pcb p).pid = (s.pcb p).pid

theorem Steady.later (h : Steady s s') (exits : PcbId → List (BitVec 32)) : Later s s' exits exits :=
  ⟨h.pcbs.symm.le, fun p _ => h.pid p, fun _ _ _ => id⟩

theorem SameTree.steady (h : SameTree s s') : Steady s s' := ⟨h.pcbs, fun p => (h.children p).2.2⟩

theorem advance_told (hLists : Lists s) (hExited : Exited s exits) (hParent : parent < s.pcbs) {o : Outcome}
    {call : Call} {p : Progress} (hTold : Told s exits call)
    (h : advance s parent o call = some p) : Told p.state exits p.call := by
  cases advance_cases h with
  | found hFound => exact zombie_told hLists hExited hFound
  | searched hFound => exact zombie_told hLists hExited hFound
  | @announce pid message hPop =>
    obtain ⟨-, hMessage⟩ := popLoop_truthful pid (s.pcb parent).ipcQueue.size o.node (hExited.truthful parent hParent)
    have hSteady := (wait4PopExitMessage_tree s parent pid o.node).steady
    rw [wait4PopExitMessage_eq] at hPop hSteady ⊢
    exact (hMessage message hPop).later (hSteady.later exits)
  | known hFound => exact Announces.child hLists hTold hFound
  | @mark child exitCode =>
    refine ⟨hTold.1, ?_⟩
    show ((s.setPcb child _).pcb child).exitCode ∈ exits child
    rw [State.setPcb_self]
    exact hTold.2
  | @reap child => exact ⟨hTold.1, rfl, (s.pcb child).exitCode, hTold.2, rfl⟩
  | @discard child pid status =>
    have hSteady : Steady s (wait4PopExitMessage s parent (asInt pid) o.node).1 :=
      (wait4PopExitMessage_tree s parent (asInt pid) o.node).steady
    exact .later (.freeing child pid status) hTold (hSteady.later exits) nofun
  | @die process exitCode =>
    exact .later (.telling process exitCode) hTold ((killThreads_tree s process).steady.later exits) nofun
  | _ => trivial

end OpenXJ380.Process
