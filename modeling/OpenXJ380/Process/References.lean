import OpenXJ380.Process.Running
import OpenXJ380.Process.Sharing

/-! # What each function does to the tables and to who is referred to

A function keeps the account of the tables, and every process that it leaves referred
to may be referred to.
-/

namespace OpenXJ380.Process

open Function

structure Follows (s s' : State) : Prop where
  sound : ∀ p, s.Sound p → s'.Sound p
  child : ∀ q p, p ∈ (s'.pcb q).childPcb → p ∈ (s.pcb q).childPcb ∨ s'.Sound p
  tcbs : s.tcbs ≤ s'.tcbs
  thread : ∀ t, t < s'.tcbs → t < s.tcbs ∧ (s'.tcb t).parentGroup = (s.tcb t).parentGroup ∨
    s'.Sound (s'.tcb t).parentGroup
  current : ∀ c t, c < s'.cpus → s'.currentTask c = some t → c < s.cpus ∧ s.currentTask c = some t ∨ t < s'.tcbs

theorem Follows.refl (s : State) : Follows s s :=
  ⟨fun _ => id, fun _ _ => .inl, le_rfl, fun _ ht => .inl ⟨ht, rfl⟩, fun _ _ hc ht => .inl ⟨hc, ht⟩⟩

variable {s s' s'' : State} {p : PcbId}

theorem Follows.trans (h : Follows s s') (h' : Follows s' s'') : Follows s s'' where
  sound p hp := h'.sound p (h.sound p hp)
  child q p hp := by
    obtain hp | hp := h'.child q p hp
    · exact (h.child q p hp).imp_right (h'.sound p)
    · exact .inr hp
  tcbs := h.tcbs.trans h'.tcbs
  thread t ht := by
    obtain ⟨ht', hEq⟩ | hSound := h'.thread t ht
    · obtain ⟨ht'', hEq'⟩ | hSound := h.thread t ht'
      · exact .inl ⟨ht'', hEq.trans hEq'⟩
      · exact .inr (h'.sound _ (hEq.symm ▸ hSound))
    · exact .inr hSound
  current c t hc ht := by
    obtain ⟨hc', ht'⟩ | hLt := h'.current c t hc ht
    · exact (h.current c t hc' ht').imp_right fun hLt => hLt.trans_le h'.tcbs
    · exact .inr hLt

structure Accounts (s s' : State) : Prop extends Follows s s' where
  shared : Shared s → Shared s' ∧ Retains s s'

theorem Accounts.refl (s : State) : Accounts s s :=
  ⟨.refl s, fun hShared => ⟨hShared, le_rfl, fun _ _ hu => ⟨hu, fun _ => id⟩⟩⟩

theorem Accounts.trans (h : Accounts s s') (h' : Accounts s' s'') : Accounts s s'' := by
  refine ⟨h.toFollows.trans h'.toFollows, fun hShared => ?_⟩
  obtain ⟨hShared', hRetains⟩ := h.shared hShared
  exact ⟨(h'.shared hShared').1, hRetains.trans (h'.shared hShared').2⟩

structure Plain (s s' : State) : Prop where
  pcbs : s'.pcbs = s.pcbs
  pcbFreed : s'.pcbFreed = s.pcbFreed
  files : s'.files = s.files
  fileOpen : ∀ p, (s'.pcb p).fileOpen = (s.pcb p).fileOpen
  refs : ∀ p, (s'.pcb p).fileOpenSharedRefs = (s.pcb p).fileOpenSharedRefs
  child : ∀ q p, p ∈ (s'.pcb q).childPcb → p ∈ (s.pcb q).childPcb ∨ s.Sound p
  tcbs : s'.tcbs = s.tcbs
  group : ∀ t, (s'.tcb t).parentGroup = (s.tcb t).parentGroup
  current : ∀ c t, c < s'.cpus → s'.currentTask c = some t → c < s.cpus ∧ s.currentTask c = some t ∨ t < s.tcbs

theorem Plain.sound (h : Plain s s') (p : PcbId) : s'.Sound p ↔ s.Sound p := by
  rw [State.Sound, State.Sound, h.pcbs, h.pcbFreed, h.fileOpen]

theorem Plain.shares (h : Plain s s') : SameShares s s' where
  sharers t := by
    ext p
    rw [State.mem_sharers, State.mem_sharers, h.pcbs, h.pcbFreed, h.fileOpen]
  refs p _ _ := h.refs p

theorem Plain.accounts (h : Plain s s') : Accounts s s' where
  sound p := (h.sound p).2
  child q p hp := (h.child q p hp).imp_right (h.sound p).2
  tcbs := h.tcbs.symm.le
  thread t ht := .inl ⟨h.tcbs ▸ ht, h.group t⟩
  current c t hc ht := by
    rw [h.tcbs]
    exact h.current c t hc ht
  shared hShared := by
    constructor
    · refine hShared.keep h.shares ?_ ?_ ?_
      · rw [h.files]
        exact hShared.filed
      · rw [h.files]
      · intro c _
        rw [h.files]
    · refine h.shares.retains ?_ ?_
      · rw [h.files]
      · intro u _ x hx
        rwa [h.files]

theorem Plain.refl (s : State) : Plain s s :=
  ⟨rfl, rfl, rfl, fun _ => rfl, fun _ => rfl, fun _ _ => .inl, rfl, fun _ => rfl, fun _ _ hc ht => .inl ⟨hc, ht⟩⟩

theorem Plain.trans (h : Plain s s') (h' : Plain s' s'') : Plain s s'' where
  pcbs := h'.pcbs.trans h.pcbs
  pcbFreed := h'.pcbFreed.trans h.pcbFreed
  files := h'.files.trans h.files
  fileOpen p := (h'.fileOpen p).trans (h.fileOpen p)
  refs p := (h'.refs p).trans (h.refs p)
  child q p hp := by
    obtain hp | hp := h'.child q p hp
    · exact h.child q p hp
    · exact .inr ((h.sound p).1 hp)
  tcbs := h'.tcbs.trans h.tcbs
  group t := (h'.group t).trans (h.group t)
  current c t hc ht := by
    obtain ⟨hc', ht'⟩ | hLt := h'.current c t hc ht
    · exact h.current c t hc' ht'
    · exact .inr (h.tcbs ▸ hLt)

theorem Plain.setPcb {b : Pcb} (hOpen : b.fileOpen = (s.pcb p).fileOpen)
    (hRefs : b.fileOpenSharedRefs = (s.pcb p).fileOpenSharedRefs)
    (hChild : ∀ q, q ∈ b.childPcb → q ∈ (s.pcb p).childPcb ∨ s.Sound q) : Plain s (s.setPcb p b) := by
  refine ⟨rfl, rfl, rfl, ?_, ?_, ?_, rfl, fun _ => rfl, fun _ _ hc ht => .inl ⟨hc, ht⟩⟩
  · exact State.setPcb_pcb hOpen
  · exact State.setPcb_pcb hRefs
  · exact State.setPcb_rel (R := fun b b' => ∀ q, q ∈ b.childPcb → q ∈ b'.childPcb ∨ s.Sound q) (fun _ _ => .inl) hChild

theorem setThreadStatus_plain (s : State) (t : TcbId) (status : TaskStatus) : Plain s (s.setThreadStatus t status) := by
  refine { Plain.refl s with group := ?_ }
  intro r
  exact State.setThreadStatus_tcb (fun _ _ => rfl) s t status r

theorem killThread_plain (s : State) (t : TcbId) : Plain s (killThread s t) := by
  unfold killThread
  split
  · exact .refl s
  · exact setThreadStatus_plain s t .death

theorem killThread0_plain (s : State) (t : TcbId) : Plain s (killThread0 s t) :=
  { setThreadStatus_plain s t .out with }

theorem foldl_plain {f : State → TcbId → State} (hf : ∀ s t, Plain s (f s t)) (threads : List TcbId) (s : State) :
    Plain s (threads.foldl f s) :=
  foldl_of Plain.refl Plain.trans hf threads s

theorem killThreads_plain (s : State) (p : PcbId) : Plain s (killThreads s p) := foldl_plain killThread_plain _ s

theorem markThreads_plain (s : State) (p : PcbId) : Plain s (markThreads s p) :=
  foldl_plain (fun s t => setThreadStatus_plain s t .death) _ s

theorem freeThreads_plain (s : State) (p : PcbId) : Plain s (freeThreads s p) :=
  (foldl_plain killThread0_plain _ s).trans (.setPcb rfl rfl fun _ => .inl)

theorem setStatus_plain (s : State) (p : PcbId) (status : TaskStatus) : Plain s (s.setStatus p status) :=
  Plain.setPcb rfl rfl fun _ => .inl

theorem removeChild_plain (s : State) (q : Option PcbId) (p : PcbId) : Plain s (removeChild s q p) := by
  unfold removeChild
  split
  · exact .refl s
  · exact .setPcb rfl rfl fun _ h => .inl (List.mem_of_mem_erase h)

theorem addChild_plain (q : PcbId) (hp : s.Sound p) : Plain s (addChild s q p) := by
  refine .setPcb rfl rfl ?_
  intro r hr
  obtain hr | hr := List.mem_append.1 hr
  · exact .inl hr
  · exact .inr (List.mem_singleton.1 hr ▸ hp)

theorem moveToReaper_plain (hp : s.Sound p) : Plain s (moveToReaper s p) :=
  ((addChild_plain s.kernelGroup hp).trans (removeChild_plain _ _ p)).trans (.setPcb rfl rfl fun _ => .inl)

theorem sendExit_plain (s : State) (p : PcbId) (exitCode : BitVec 32) (node : Bool) :
    Plain s (sendExit s p exitCode node) := by
  unfold sendExit
  split
  · exact .refl s
  · exact .setPcb rfl rfl fun _ => .inl

theorem wait4PopExitMessage_plain (s : State) (parent : PcbId) (pid : Int) (node : Nat → Bool) :
    Plain s (wait4PopExitMessage s parent pid node).1 := Plain.setPcb rfl rfl fun _ => .inl

theorem switchTo_plain (s : State) (c : CpuId) {t : TcbId} (ht : t < s.tcbs) : Plain s (switchTo s c t) := by
  have hAdopt : Plain s (adoptOrphan s (s.tcb t).parentGroup) := by
    unfold adoptOrphan
    split
    · exact .setPcb rfl rfl fun _ => .inl
    · exact .refl s
  have hSame := hAdopt.trans (startBest_stopCurrent Plain.refl Plain.trans setThreadStatus_plain _ c t)
  refine { hSame with current := ?_ }
  intro d u hd hu
  have hTask : (switchTo s c t).currentTask d = if d = c then some t else
      (startBest (stopCurrent (adoptOrphan s (s.tcb t).parentGroup) c) t).currentTask d := update_apply ..
  rw [hTask] at hu
  split_ifs at hu
  · cases hu
    exact .inr ht
  · exact hSame.current d u hd hu

theorem withFiles_pcb (s : State) (p q : PcbId) (files : Files) (fileOpen : Option TableId)
    (refs : Option CounterId) : (s.withFiles p files fileOpen refs).pcb q =
      if q = p then { s.pcb p with fileOpen, fileOpenSharedRefs := refs } else s.pcb q :=
  update_apply ..

theorem closeProcessFileTable_open {t : TableId} (ht : (s.pcb p).fileOpen = some t) :
    closeProcessFileTable s p = s.withFiles p (giveUp s.files t (s.pcb p).fileOpenSharedRefs) none none := by
  unfold closeProcessFileTable
  rw [ht]
  rfl

theorem closeProcessFileTable_none (hNone : (s.pcb p).fileOpen = none) :
    closeProcessFileTable s p = s := by
  unfold closeProcessFileTable
  rw [hNone]

theorem closeProcessFileTable_gone (s : State) (p : PcbId) : ((closeProcessFileTable s p).pcb p).fileOpen = none := by
  rcases h : (s.pcb p).fileOpen with _ | t
  · rw [closeProcessFileTable_none h, h]
  · rw [closeProcessFileTable_open h, withFiles_pcb, if_pos rfl]

theorem closeProcessFileTable_accounts (hp : s.Sound p) :
    Accounts s (closeProcessFileTable s p) := by
  rcases h : (s.pcb p).fileOpen with _ | t
  · rw [closeProcessFileTable_none h]
    exact .refl s
  · rw [closeProcessFileTable_open h]
    have hPcb := fun q => withFiles_pcb s p q (giveUp s.files t (s.pcb p).fileOpenSharedRefs) none none
    have hGives : GivesUp s (s.withFiles p (giveUp s.files t (s.pcb p).fileOpenSharedRefs) none none) p t := by
      refine ⟨?_, ?_, rfl⟩
      · intro u
        ext q
        rw [Finset.mem_erase, State.mem_sharers, State.mem_sharers, hPcb]
        split_ifs with hq
        · exact ⟨fun hIn => absurd hIn.2.2 nofun, fun hIn => absurd hq hIn.1⟩
        · exact ⟨fun hIn => ⟨hq, hIn⟩, And.right⟩
      · intro q u hq
        rw [State.mem_sharers, hPcb] at hq
        rw [hPcb]
        split_ifs at hq ⊢ with hEq
        · cases hq.2.2
        · rfl
    refine ⟨⟨?_, ?_, le_rfl, fun _ ht => .inl ⟨ht, rfl⟩, fun _ _ hc ht => .inl ⟨hc, ht⟩⟩, ?_⟩
    · intro q hq
      refine ⟨hq.1, ?_⟩
      rw [hPcb]
      split_ifs
      · exact .inr rfl
      · exact hq.2
    · intro q r
      rw [hPcb]
      split_ifs with hq
      · rw [hq]
        exact .inl
      · exact .inl
    · exact fun hShared => ⟨hShared.givesUp (hp.sharers h) hGives, hGives.retains hShared (hp.sharers h)⟩

theorem freePcb_accounts (h : (s.pcb p).fileOpen = none) : Accounts s (s.freePcb p) := by
  have hFreed : ∀ q, (s.freePcb p).pcbFreed q = if q = p then s.pcbFreed p + 1 else s.pcbFreed q :=
    fun q => update_apply ..
  have hShares : SameShares s (s.freePcb p) := by
    refine ⟨?_, fun _ _ _ => rfl⟩
    intro t
    ext q
    rw [State.mem_sharers, State.mem_sharers, hFreed]
    split_ifs with hq
    · rw [hq, show (s.freePcb p).pcb p = s.pcb p from rfl, h]
      exact ⟨fun hIn => absurd hIn.2.2 nofun, fun hIn => absurd hIn.2.2 nofun⟩
    · rfl
  refine ⟨{ Follows.refl s with sound := ?_, child := fun _ _ => .inl, thread := fun _ ht => .inl ⟨ht, rfl⟩ }, ?_⟩
  · intro q hq
    refine ⟨hq.1, ?_⟩
    rw [hFreed]
    split_ifs with hEq
    · exact .inr (hEq.symm ▸ h)
    · exact hq.2
  · intro hShared
    exact ⟨hShared.keep hShares hShared.filed le_rfl fun _ _ => rfl, hShares.retains le_rfl fun _ _ _ => id⟩

theorem killProc0_accounts (hp : s.Sound p) : Accounts s (killProc0 s p) := by
  have hMark := markThreads_plain s p
  have hClose := closeProcessFileTable_accounts ((hMark.sound p).2 hp)
  have hFree := freeThreads_plain (closeProcessFileTable (markThreads s p) p) p
  have hGone := (hFree.fileOpen p).trans (closeProcessFileTable_gone (markThreads s p) p)
  exact ((hMark.accounts.trans hClose).trans hFree.accounts).trans (freePcb_accounts hGone)

theorem killProc_accounts (hp : s.Sound p) (exitCode : BitVec 32) :
    Accounts s (killProc s p exitCode) := by
  unfold killProc
  split
  · exact .refl s
  · have hCode : Plain s (s.setPcb p { s.pcb p with exitCode }) := Plain.setPcb rfl rfl fun _ => .inl
    have hDeath := (hCode.trans (removeChild_plain _ ((s.setPcb p { s.pcb p with exitCode }).pcb p).parentTask p)).trans
      (setStatus_plain _ p .death)
    exact hDeath.accounts.trans (killProc0_accounts ((hDeath.sound p).2 hp))

theorem killProcZombie_accounts (hp : s.Sound p) (exitCode : BitVec 32) :
    Accounts s (killProcZombie s p exitCode) := by
  have hCode : Plain s (s.setPcb p { s.pcb p with exitCode }) := Plain.setPcb rfl rfl fun _ => .inl
  have hClose := closeProcessFileTable_accounts ((hCode.sound p).2 hp)
  exact (hCode.accounts.trans hClose).trans (setStatus_plain _ p .zombie).accounts

theorem killProcDeferred_accounts (hp : s.Sound p) (exitCode : BitVec 32) (listed : Bool) :
    Accounts s (killProcDeferred s p exitCode listed).1 := by
  have hEnd : ∀ s : State, s.Sound p → Accounts s (killThreads
          ((closeProcessFileTable (s.setPcb p { s.pcb p with exitCode }) p).setStatus p .death) p) := by
    intro s hp
    have hCode : Plain s (s.setPcb p { s.pcb p with exitCode }) := Plain.setPcb rfl rfl fun _ => .inl
    have hClose := closeProcessFileTable_accounts ((hCode.sound p).2 hp)
    exact (hCode.accounts.trans hClose).trans ((setStatus_plain _ p .death).trans (killThreads_plain _ p)).accounts
  unfold killProcDeferred
  split
  · exact .refl s
  · split
    · exact .refl s
    · split
      · have hMove := moveToReaper_plain hp
        exact hMove.accounts.trans (hEnd _ ((hMove.sound p).2 hp))
      · exact hEnd s hp

theorem advance_accounts {parent : PcbId} {o : Outcome} {call : Call}
    (h : StepState s parent o call s') (hSound : ∀ z pid status, call = .freeing z pid status → s.Sound z) :
    Accounts s s' := by
  cases h with
  | same => exact .refl s
  | popped pid => exact (wait4PopExitMessage_plain s parent pid o.node).accounts
  | marked child exitCode =>
    have hPlain : Plain s (s.setPcb child { s.pcb child with exitCode, status := .zombie }) :=
      Plain.setPcb rfl rfl fun _ => .inl
    exact hPlain.accounts
  | freed child pid status => exact killProc_accounts (hSound child pid status rfl) _
  | died process exitCode => exact (killThreads_plain s process).accounts
  | told process exitCode => exact (sendExit_plain s process exitCode _).accounts

theorem newTcb_accounts (hp : s.Sound p) : Accounts s (s.newTcb p) := by
  have hPcb : ∀ q, (s.newTcb p).pcb q =
      if q = p then { s.pcb p with threadQueue := (s.pcb p).threadQueue ++ [s.tcbs] } else s.pcb q :=
    fun q => update_apply ..
  have hTcb : ∀ t, ((s.newTcb p).tcb t).parentGroup = if t = s.tcbs then p else (s.tcb t).parentGroup := by
    intro t
    have hTcb : (s.newTcb p).tcb t = if t = s.tcbs then ⟨p, .start, false, false⟩ else s.tcb t := update_apply ..
    rw [hTcb]
    split_ifs <;> rfl
  have hOpen : ∀ q, ((s.newTcb p).pcb q).fileOpen = (s.pcb q).fileOpen := by
    intro q
    rw [hPcb]
    split_ifs with hq
    · rw [hq]
    · rfl
  have hRefs : ∀ q, ((s.newTcb p).pcb q).fileOpenSharedRefs = (s.pcb q).fileOpenSharedRefs := by
    intro q
    rw [hPcb]
    split_ifs with hq
    · rw [hq]
    · rfl
  have hSound : ∀ q, s.Sound q → (s.newTcb p).Sound q := by
    intro q hq
    refine ⟨hq.1, ?_⟩
    rw [hOpen]
    exact hq.2
  have hShares : SameShares s (s.newTcb p) := by
    refine ⟨?_, fun q _ _ => hRefs q⟩
    intro t
    ext q
    rw [State.mem_sharers, State.mem_sharers, hOpen]
    rfl
  refine ⟨⟨hSound, ?_, Nat.le_succ _, ?_, fun _ _ hc ht => .inl ⟨hc, ht⟩⟩, ?_⟩
  · intro q r
    rw [hPcb]
    split_ifs with hq
    · rw [hq]
      exact .inl
    · exact .inl
  · intro t ht
    rw [hTcb]
    split_ifs with hNew
    · exact .inr (hSound p hp)
    · exact .inl ⟨lt_of_le_of_ne (Nat.le_of_lt_succ ht) hNew, rfl⟩
  · intro hShared
    exact ⟨hShared.keep hShares hShared.filed le_rfl fun _ _ => rfl, hShares.retains le_rfl fun _ _ _ => id⟩

def newborn (s : State) (b : Pcb) (files : Files) (fileOpen : Option TableId) (refs : Option CounterId) : State :=
  (s.newPcb b).withFiles s.pcbs files fileOpen refs

section newborn

variable (s : State) (b : Pcb) (files : Files) (fileOpen : Option TableId) (refs : Option CounterId)

theorem newborn_self : (newborn s b files fileOpen refs).pcb s.pcbs =
    { b with fileOpen, fileOpenSharedRefs := refs } := by
  have hSelf : (s.newPcb b).pcb s.pcbs = b := update_self ..
  rw [newborn, withFiles_pcb, if_pos rfl, hSelf]

theorem newborn_of_ne {q : PcbId} (hq : q ≠ s.pcbs) : (newborn s b files fileOpen refs).pcb q = s.pcb q := by
  rw [newborn, withFiles_pcb, if_neg hq]
  exact update_of_ne hq ..

theorem newborn_freed (q : PcbId) : (newborn s b files fileOpen refs).pcbFreed q =
    if q = s.pcbs then 0 else s.pcbFreed q :=
  update_apply ..

theorem newborn_sharers (q : PcbId) (u : TableId) : q ∈ (newborn s b files fileOpen refs).sharers u ↔
    q ∈ s.sharers u ∨ q = s.pcbs ∧ fileOpen = some u := by
  rw [State.mem_sharers, State.mem_sharers, newborn_freed,
    show (newborn s b files fileOpen refs).pcbs = s.pcbs + 1 from rfl]
  obtain rfl | hq := eq_or_ne q s.pcbs
  · rw [newborn_self, if_pos rfl]
    constructor
    · exact fun h => .inr ⟨rfl, h.2.2⟩
    · rintro (h | h)
      · exact absurd h.1 (lt_irrefl _)
      · exact ⟨Nat.lt_succ_self _, rfl, h.2⟩
  · rw [newborn_of_ne s b files fileOpen refs hq, if_neg hq]
    constructor
    · exact fun h => .inl ⟨lt_of_le_of_ne (Nat.le_of_lt_succ h.1) hq, h.2⟩
    · rintro (h | h)
      · exact ⟨Nat.lt_succ_of_lt h.1, h.2⟩
      · exact absurd h.1 hq

theorem newborn_sound : (newborn s b files fileOpen refs).Sound s.pcbs := by
  refine ⟨Nat.lt_succ_self _, .inl ?_⟩
  rw [newborn_freed, if_pos rfl]

theorem newborn_follows (hChild : b.childPcb = []) : Follows s (newborn s b files fileOpen refs) := by
  refine ⟨?_, ?_, le_rfl, fun _ ht => .inl ⟨ht, rfl⟩, fun _ _ hc ht => .inl ⟨hc, ht⟩⟩
  · intro q hq
    have hne : q ≠ s.pcbs := hq.1.ne
    refine ⟨Nat.lt_succ_of_lt hq.1, ?_⟩
    rw [newborn_of_ne s b files fileOpen refs hne, newborn_freed, if_neg hne]
    exact hq.2
  · intro q p
    obtain rfl | hq := eq_or_ne q s.pcbs
    · rw [newborn_self]
      intro hp
      rw [hChild] at hp
      cases hp
    · rw [newborn_of_ne s b files fileOpen refs hq]
      exact .inl

end newborn

theorem newborn_joins (s : State) (b : Pcb) (files : Files) (t : TableId) (c : CounterId) :
    Joins s (newborn s b files (some t) (some c)) s.pcbs t c where
  new u h := Nat.lt_irrefl _ (State.mem_sharers.1 h).1
  sharers q u := by
    rw [newborn_sharers, Option.some_inj, eq_comm (a := t)]
  refs q u h := by
    rw [newborn_of_ne s b files _ _ (State.mem_sharers.1 h).1.ne]
  self := by
    rw [newborn_self]

theorem started_accounts {b : Pcb} {files : Files} {fileOpen : Option TableId} {refs : Option CounterId}
    (hBorn : Accounts s (newborn s b files fileOpen refs)) (q : PcbId) :
    Accounts s ((addChild (newborn s b files fileOpen refs) q s.pcbs).newTcb s.pcbs) := by
  have hSound := newborn_sound s b files fileOpen refs
  have hAdd := addChild_plain q hSound
  exact (hBorn.trans hAdd.accounts).trans (newTcb_accounts ((hAdd.sound s.pcbs).2 hSound))

theorem createProcessGroup_accounts (s : State) (parent : Option PcbId) :
    Accounts s (createProcessGroup s parent) := by
  refine started_accounts (b := { forkBlock s (parent.getD s.kernelGroup) with ppid := 0 })
    ⟨newborn_follows s _ _ _ _ rfl, ?_⟩ (parent.getD s.kernelGroup)
  intro hShared
  have hNew : ¬s.Uses s.files.tables := fun h => lt_irrefl _ (hShared.filed.alive _ h).1
  have hFiled : Filed s.files.newTable.newCounter fun u => s.Uses u ∨ u = s.files.tables :=
    { hShared.filed.newTable with }
  have hJoins := newborn_joins s { forkBlock s (parent.getD s.kernelGroup) with ppid := 0 }
    s.files.newTable.newCounter s.files.tables s.files.counters
  refine ⟨hShared.owns hJoins hNew hFiled rfl rfl, hJoins.retains (absurd · (lt_irrefl _)) (Nat.le_succ _) ?_⟩
  intro u hu
  exact (held_setTable s.files s.files.tables u []).trans (if_neg hu.ne)

end OpenXJ380.Process
