import OpenXJ380.Process.ForkFiles
import OpenXJ380.Process.NeverFreed

/-! # When open files are released exactly once

A fork that runs out of memory while it copies the table loses the handles that it
has duplicated. Otherwise every handle is in one table or was closed.
-/

namespace OpenXJ380.Process

open Transition

/-- The account of the tables; and whoever is referred to may be referred to. -/
structure Accounted (k : Kernel) : Prop where
  shared : Shared k.toState
  child : ∀ q p, p ∈ (k.pcb q).childPcb → k.Sound p
  thread : ∀ t, t < k.tcbs → k.Sound (k.group t)
  running : ∀ c t, c < k.cpus → k.currentTask c = some t → t < k.tcbs
  call : ∀ t p, (k.call t).child = some p → k.Sound p
  reaper : ∀ p ∈ k.reaper, k.Sound p

/-- Counters count, every handle is open in one used table or was closed once, and no process has a destroyed table. -/
structure ReleasedOnce (s : State) : Prop where
  counter : ∀ p t, p ∈ s.sharers t → ∃ c, (s.pcb p).fileOpenSharedRefs = some c ∧
    s.files.counter c = (s.sharers t).card
  once : ∀ h, h < s.files.handles → s.files.closed h ≤ 1
  held : ∀ h, h < s.files.handles → (s.files.closed h = 0 ↔ ∃ t, s.Uses t ∧ h ∈ s.files.held t)
  destroyed : ∀ p t, p ∈ s.sharers t → s.files.destroyed t = 0

/-- A handle is closed by `sys_close`, on `exec`, or when the last process has given up its table. -/
def ClosesRightly (k : Kernel) (act : Act) (k' : Kernel) : Prop :=
  ∀ h, h < k.files.handles → k.files.closed h = 0 → k'.files.closed h ≠ 0 →
    (∃ t fd, act = .close t fd) ∨ (∃ t, act = .closeExec t) ∨
      ∃ u, h ∈ k.files.held u ∧ k.Uses u ∧ ¬k'.Uses u

variable {k k' : Kernel} {act : Act} {t : TcbId}

theorem Accounted.released (h : Accounted k) : ReleasedOnce k.toState where
  counter p t hp := by
    obtain ⟨c, hRefs, -, hCard⟩ := h.shared.refs p t hp
    exact ⟨c, hRefs, hCard⟩
  once := h.shared.filed.once
  held := h.shared.filed.held
  destroyed p t hp := (h.shared.filed.alive t ⟨p, hp⟩).2

theorem Retains.closes (h : Retains k.toState k'.toState) (hBefore : Accounted k)
    (hAfter : Accounted k') : ClosesRightly k act k' := by
  intro x hx hOpen hClosed
  obtain ⟨u, hu, hMem⟩ := (hBefore.shared.filed.held x hx).1 hOpen
  refine .inr (.inr ⟨u, hMem, hu, fun hu' => hClosed ?_⟩)
  have hMem' := (h.held u (hBefore.shared.filed.alive u hu).1 hu').2 x hMem
  exact (hAfter.shared.filed.held x (hAfter.shared.filed.known u x hu' hMem')).2 ⟨u, hu', hMem'⟩

theorem Accounted.group (h : Accounted k) (hRuns : k.Runs t) : k.Sound (k.group t) := by
  obtain ⟨c, hc, ht⟩ := hRuns
  exact h.thread t (h.running c t hc ht)

theorem Accounted.follow (h : Accounted k) (hFollows : Follows k.toState k'.toState) (hShared : Shared k'.toState)
    (hCall : ∀ t p, (k'.call t).child = some p → (k.call t).child = some p ∨ k.Sound p)
    (hReaper : ∀ p ∈ k'.reaper, p ∈ k.reaper ∨ k.Sound p) : Accounted k' where
  shared := hShared
  child q p hp := (hFollows.child q p hp).elim (fun hp => hFollows.sound p (h.child q p hp)) id
  thread t ht := by
    obtain ⟨ht', hEq⟩ | hSound := hFollows.thread t ht
    · rw [show k'.group t = k.group t from hEq]
      exact hFollows.sound _ (h.thread t ht')
    · exact hSound
  running c t hc ht := by
    obtain ⟨hc', ht'⟩ | hLt := hFollows.current c t hc ht
    · exact (h.running c t hc' ht').trans_le hFollows.tcbs
    · exact hLt
  call t p hp := hFollows.sound p ((hCall t p hp).elim (h.call t p) id)
  reaper p hp := hFollows.sound p ((hReaper p hp).elim (h.reaper p) id)

theorem Accounted.account (h : Accounted k) (hAccounts : Accounts k.toState k'.toState)
    (hCall : ∀ t p, (k'.call t).child = some p → (k.call t).child = some p ∨ k.Sound p)
    (hReaper : ∀ p ∈ k'.reaper, p ∈ k.reaper ∨ k.Sound p) : Accounted k' ∧ ClosesRightly k act k' := by
  obtain ⟨hShared, hRetains⟩ := hAccounts.shared h.shared
  have hAfter := h.follow hAccounts.toFollows hShared hCall hReaper
  exact ⟨hAfter, hRetains.closes h hAfter⟩

theorem Accounted.keep (h : Accounted k) {s : State} (hAccounts : Accounts k.toState s) :
    Accounted (k.withState s) ∧ ClosesRightly k act (k.withState s) :=
  h.account hAccounts (fun _ _ => .inl) fun _ => .inl

theorem setCall_child {s : State} (call : Call) (hCall : ∀ p, call.child = some p → k.Sound p)
    (u : TcbId) (p : PcbId) (hp : (((k.withState s).setCall t call).call u).child = some p) :
    (k.call u).child = some p ∨ k.Sound p := by
  have hUpdate : ((k.withState s).setCall t call).call u = if u = t then call else k.call u := Function.update_apply ..
  rw [hUpdate] at hp
  split_ifs at hp
  · exact .inr (hCall p hp)
  · exact .inl hp

theorem Accounted.leave (h : Accounted k) (hRuns : k.Runs t)
    (exitCode : BitVec 32) : Accounted (k.leave t exitCode) ∧ ClosesRightly k act (k.leave t exitCode) :=
  h.account (killProcZombie_accounts (h.group hRuns) exitCode)
    (setCall_child (s := killProcZombie k.toState (k.group t) exitCode)
      (.dying (k.group t) exitCode) nofun) fun _ => .inl

theorem files_follows (s : State) (files : Files) : Follows s { s with files } :=
  ⟨fun _ => id, fun _ _ => .inl, le_rfl, fun _ ht => .inl ⟨ht, rfl⟩, fun _ _ hc ht => .inl ⟨hc, ht⟩⟩

theorem Accounted.withFiles (h : Accounted k) {files : Files} (hFiled : Filed files k.Uses)
    (hCounters : files.counters = k.files.counters) (hCounter : files.counter = k.files.counter) :
    Accounted { k with files } :=
  h.follow (files_follows k.toState files)
    (h.shared.keep ⟨fun _ => rfl, fun _ _ _ => rfl⟩ hFiled hCounters.symm.le fun c _ => congrFun hCounter c)
    (fun _ _ => .inl) fun _ => .inl

theorem queueRemoveAt_rest {f f' : Files} {t : TableId} {index : Nat} {h : Option HandleId}
    (hRemove : queueRemoveAt f t index = (f', h)) : f'.counters = f.counters ∧ f'.counter = f.counter := by
  unfold queueRemoveAt at hRemove
  split at hRemove <;> cases hRemove <;> exact ⟨rfl, rfl⟩

theorem closeExecLoop_rest (t : TableId) (rounds : Nat) (f : Files) :
    (closeExecLoop t rounds f).counters = f.counters ∧ (closeExecLoop t rounds f).counter = f.counter := by
  induction rounds generalizing f with
  | zero => exact ⟨rfl, rfl⟩
  | succ rounds ih =>
    unfold closeExecLoop
    split
    · exact ⟨rfl, rfl⟩
    · split
      · rename_i f' hRemove
        obtain ⟨hCounters, hCounter⟩ := queueRemoveAt_rest hRemove
        exact ⟨(ih f').1.trans hCounters, (ih f').2.trans hCounter⟩
      · rename_i f' x hRemove
        obtain ⟨hCounters, hCounter⟩ := queueRemoveAt_rest hRemove
        exact ⟨(ih (f'.closeHandle x)).1.trans hCounters, (ih (f'.closeHandle x)).2.trans hCounter⟩

/-- A fork that copies the table has memory for all of its nodes, or for none. -/
def CopiesTables (k : Kernel) : Act → Prop
  | .fork t cloneFiles m => m.block = true → m.space = true → ForkCopies k.toState (k.group t) cloneFiles m
  | _ => True

theorem Accounted.step (h : Accounted k) (hCopies : CopiesTables k act)
    (hStep : Acts k act k') : Accounted k' ∧ ClosesRightly k act k' := by
  cases hStep with
  | schedule c t hCpu hThread hWaits hTask => exact h.keep (switchTo_plain k.toState c hThread).accounts
  | fork t cloneFiles m hCalls =>
    have hForked := processFork_accounts (h.group hCalls.1) (h.child (k.group t)) hCopies
    unfold Kernel.fork
    split
    · rename_i hFork
      rw [hFork] at hForked
      exact h.keep hForked
    · rename_i hFork
      rw [hFork] at hForked
      exact h.account hForked (fun _ _ => .inl) fun _ => .inl
  | spawn parent hParent =>
    exact h.account (createProcessGroup_accounts k.toState parent) (fun _ _ => .inl) fun _ => .inl
  | openFile t x hCalls =>
    unfold Kernel.openFile
    split
    · exact h.keep (.refl k.toState)
    · rename_i table hOpen
      have hUses : k.Uses table := ⟨_, (h.group hCalls.1).sharers hOpen⟩
      have hFiled := h.shared.filed.add hUses x
        (lowestIndex ((k.files.newHandle x).table table) (((k.files.newHandle x).table table).length + 1) 0)
      have hAfter : Accounted { k with files := queueEnqueueLowest (k.files.newHandle x) table k.files.handles } :=
        h.withFiles { hFiled with } rfl rfl
      refine ⟨hAfter, Retains.closes ⟨le_rfl, fun u _ hu => ⟨hu, fun y hy => ?_⟩⟩ h hAfter⟩
      have hHeld : (queueEnqueueLowest (k.files.newHandle x) table k.files.handles).held u =
          if u = table then k.files.held table ++ [k.files.handles] else k.files.held u := by
        refine (held_setTable (k.files.newHandle x) table u _).trans ?_
        rw [List.map_append]
        rfl
      show y ∈ (queueEnqueueLowest (k.files.newHandle x) table k.files.handles).held u
      rw [hHeld]
      split_ifs with hEq
      · exact List.mem_append_left _ (hEq ▸ hy)
      · exact hy
  | close t fd hCalls =>
    unfold Kernel.close
    split
    · exact h.keep (.refl k.toState)
    · rename_i table hOpen
      split
      · exact h.keep (.refl k.toState)
      · rename_i files x hRemove
        have hUses : k.Uses table := ⟨_, (h.group hCalls.1).sharers hOpen⟩
        obtain ⟨hCounters, hCounter⟩ := queueRemoveAt_rest hRemove
        exact ⟨h.withFiles (h.shared.filed.remove hUses hRemove) hCounters hCounter, fun _ _ _ _ => .inl ⟨t, fd, rfl⟩⟩
  | closeExec t hCalls =>
    unfold Kernel.closeExec
    split
    · exact h.keep (.refl k.toState)
    · rename_i table hOpen
      have hUses : k.Uses table := ⟨_, (h.group hCalls.1).sharers hOpen⟩
      obtain ⟨hCounters, hCounter⟩ := closeExecLoop_rest table (k.files.table table).length k.files
      exact ⟨h.withFiles (h.shared.filed.closeExec hUses _) hCounters hCounter, fun _ _ _ _ => .inr (.inl ⟨t, rfl⟩)⟩
  | exit t exitCode hCalls =>
    unfold Kernel.exit
    split
    · exact h.account (killThread_plain k.toState t).accounts
        (setCall_child (s := killThread k.toState t) .gone nofun) fun _ => .inl
    · exact h.leave hCalls.1 exitCode
  | exitGroup t exitCode hCalls => exact h.leave hCalls.1 exitCode
  | wait4 t pid nohang hCalls hPid =>
    obtain ⟨hState, -, hReaper, hCall, -⟩ := proceed_state k t (wait4Enter k.toState (k.group t) pid nohang)
    rw [wait4Enter_state] at hState
    refine h.account ?_ ?_ ?_
    · rw [hState]
      exact .refl k.toState
    · have hNone : ∀ p, (wait4Enter k.toState (k.group t) pid nohang).call.child ≠ some p := by
        intro p
        unfold wait4Enter
        split <;> exact nofun
      rw [hCall]
      exact setCall_child (s := k.toState) _ fun p hp => absurd hp (hNone p)
    · rw [hReaper]
      exact fun _ => .inl
  | advance t o p hRuns hAdvance =>
    obtain ⟨hState, -, hReaper, hCall, -⟩ := proceed_state k t p
    refine h.account ?_ ?_ ?_
    · rw [hState]
      refine advance_accounts (advance_state hAdvance) ?_
      intro z pid status hFreeing
      exact h.call t z (by rw [hFreeing]; rfl)
    · rw [hCall]
      refine setCall_child (s := k.toState) _ ?_
      intro z hz
      obtain hz | hz := advance_finds hAdvance hz
      · exact h.call t z hz
      · exact h.child _ z (finds_mem hz)
    · rw [hReaper]
      exact fun _ => .inl
  | killDeferred p exitCode listed hLive =>
    exact h.keep (killProcDeferred_accounts ⟨hLive.1, .inl hLive.2⟩ exitCode listed)
  | reaperFind hIdle =>
    refine h.account (.refl k.toState) (fun _ _ => .inl) ?_
    intro p hp
    exact .inr (h.child _ p (List.mem_of_find?_eq_some hp))
  | reaperKill target hTarget =>
    exact h.account (killProc_accounts (h.reaper target hTarget) 0) (fun _ _ => .inl) nofun

def oneNode : ForkMemory := ⟨true, true, true, fun k => k = 0, true, true, true, true⟩

def opened : Kernel :=
  ((((family.spawn (some 0)).withState (switchTo (family.spawn (some 0)).toState 0 4)).openFile 4 ⟨7, 0, 0, 0⟩).openFile
    4 ⟨8, 0, 0, 0⟩)

end OpenXJ380.Process
