import OpenXJ380.Process.System

/-! # The tree of processes

Every live process is in the queue of its parent, once, and in no other. Freeing a
process that has children, or handing a process to the kernel's group only by its
pointer, takes this away.
-/

namespace OpenXJ380.Process

open Function

open Transition

def State.Live (s : State) (p : PcbId) : Prop := p < s.pcbs ∧ s.pcbFreed p = 0

/-- A parent that is not freed, which has the process among its children once, as no other process has. -/
structure Attached (s : State) (p q : PcbId) : Prop where
  parent : (s.pcb p).parentTask = some q
  live : s.Live q
  once : (s.pcb q).childPcb.count p = 1
  only : ∀ r, r ≠ q → p ∉ (s.pcb r).childPcb

structure NeverDangles (s : State) (forked : PcbId → Bool) : Prop where
  attached : ∀ p, s.Live p → p ≠ s.kernelGroup → ∃ q, Attached s p q
  ppid : ∀ p q, s.Live p → p ≠ s.kernelGroup → forked p = true → (s.pcb p).parentTask = some q →
    (s.pcb p).ppid = (s.pcb q).pid

/-- With it, that processes have pids of their own and that only processes are in the queues. -/
structure Tree (s : State) (forked : PcbId → Bool) : Prop extends NeverDangles s forked where
  kernel : s.Live s.kernelGroup
  known : ∀ q p, p ∈ (s.pcb q).childPcb → p < s.pcbs
  pids : ∀ p, p < s.pcbs → (s.pcb p).pid < s.nowPid
  distinct : ∀ p q, p < s.pcbs → q < s.pcbs → (s.pcb p).pid = (s.pcb q).pid → p = q

structure PidsDiffer (s : State) : Prop where
  pids : ∀ p, p < s.pcbs → (s.pcb p).pid < s.nowPid
  distinct : ∀ p q, p < s.pcbs → q < s.pcbs → (s.pcb p).pid = (s.pcb q).pid → p = q

variable {s s' : State} {forked : PcbId → Bool} {p q : PcbId} {b : Pcb}

theorem Tree.pidsDiffer (hTree : Tree s forked) : PidsDiffer s :=
  { hTree with }

theorem PidsDiffer.congr (h : PidsDiffer s) (hPcbs : s'.pcbs = s.pcbs) (hNow : s'.nowPid = s.nowPid)
    (hPid : ∀ p, (s'.pcb p).pid = (s.pcb p).pid) : PidsDiffer s' where
  pids p hp := by
    rw [hPid, hNow]
    exact h.pids p (hPcbs ▸ hp)
  distinct p q hp hq hEq := by
    rw [hPid, hPid] at hEq
    exact h.distinct p q (hPcbs ▸ hp) (hPcbs ▸ hq) hEq

theorem PidsDiffer.extend (h : PidsDiffer s) (hPcbs : s'.pcbs = s.pcbs + 1)
    (hNow : s'.nowPid = s.nowPid + 1) (hNew : (s'.pcb s.pcbs).pid = s.nowPid)
    (hOld : ∀ p, p < s.pcbs → (s'.pcb p).pid = (s.pcb p).pid) : PidsDiffer s' := by
  have hCases (p : PcbId) (hp : p < s'.pcbs) : p < s.pcbs ∨ p = s.pcbs := by
    rw [hPcbs] at hp
    exact Nat.lt_or_eq_of_le (Nat.le_of_lt_succ hp)
  have hBelow (p : PcbId) (hp : p < s.pcbs) : (s'.pcb p).pid < s.nowPid := by
    rw [hOld p hp]
    exact h.pids p hp
  constructor
  · intro p hp
    rw [hNow]
    obtain hp | rfl := hCases p hp
    · exact Nat.lt_succ_of_lt (hBelow p hp)
    · rw [hNew]
      exact Nat.lt_succ_self _
  · intro p q hp hq hEq
    obtain hp | rfl := hCases p hp
    · obtain hq | rfl := hCases q hq
      · rw [hOld p hp, hOld q hq] at hEq
        exact h.distinct p q hp hq hEq
      · exact absurd (hEq.trans hNew) (hBelow p hp).ne
    · obtain hq | rfl := hCases q hq
      · exact absurd (hEq.symm.trans hNew) (hBelow q hq).ne
      · rfl

structure Links where
  pid : Nat
  ppid : Nat
  parentTask : Option PcbId
  childPcb : List PcbId

def Pcb.links (b : Pcb) : Links := ⟨b.pid, b.ppid, b.parentTask, b.childPcb⟩

structure SameTree (s s' : State) : Prop where
  kernelGroup : s'.kernelGroup = s.kernelGroup
  pcbs : s'.pcbs = s.pcbs
  freed : s'.pcbFreed = s.pcbFreed
  nowPid : s'.nowPid = s.nowPid
  links : ∀ p, (s'.pcb p).links = (s.pcb p).links

theorem SameTree.refl (s : State) : SameTree s s := ⟨rfl, rfl, rfl, rfl, fun _ => rfl⟩

theorem SameTree.trans {s'' : State} (h : SameTree s s') (h' : SameTree s' s'') : SameTree s s'' where
  kernelGroup := h'.kernelGroup.trans h.kernelGroup
  pcbs := h'.pcbs.trans h.pcbs
  freed := h'.freed.trans h.freed
  nowPid := h'.nowPid.trans h.nowPid
  links p := (h'.links p).trans (h.links p)

theorem SameTree.setPcb (h : b.links = (s.pcb p).links) :
    SameTree s (s.setPcb p b) where
  kernelGroup := rfl
  pcbs := rfl
  freed := rfl
  nowPid := rfl
  links := State.setPcb_pcb h

section

variable (s : State)

section

variable (p : PcbId)

theorem withFiles_tree (files : Files) (fileOpen : Option TableId)
    (fileOpenSharedRefs : Option CounterId) : SameTree s (s.withFiles p files fileOpen fileOpenSharedRefs) := by
  have hSame : SameTree s (s.setPcb p { s.pcb p with fileOpen, fileOpenSharedRefs }) := SameTree.setPcb rfl
  exact { hSame with }

theorem closeProcessFileTable_tree : SameTree s (closeProcessFileTable s p) := by
  obtain ⟨files, fileOpen, fileOpenSharedRefs, h⟩ := closeProcessFileTable_eq s p
  rw [h]
  exact withFiles_tree s p files fileOpen fileOpenSharedRefs

theorem killThreads_tree : SameTree s (killThreads s p) := by
  obtain ⟨tcb, h⟩ := killThreads_eq s p
  rw [h]
  exact ⟨rfl, rfl, rfl, rfl, fun _ => rfl⟩

theorem markThreads_tree : SameTree s (markThreads s p) := by
  obtain ⟨tcb, h⟩ := markThreads_eq s p
  rw [h]
  exact ⟨rfl, rfl, rfl, rfl, fun _ => rfl⟩

theorem freeThreads_tree : SameTree s (freeThreads s p) := by
  obtain ⟨tcb, stackFreed, tcbFreed, h⟩ := freeThreads_eq s p
  rw [h]
  have hSame : SameTree s (s.setPcb p { s.pcb p with threadQueue := [] }) := SameTree.setPcb rfl
  exact { hSame with }

theorem setStatus_tree (status : TaskStatus) : SameTree s (s.setStatus p status) :=
  SameTree.setPcb rfl

theorem killProcZombie_tree (exitCode : BitVec 32) : SameTree s (killProcZombie s p exitCode) := by
  have hCode : SameTree s (s.setPcb p { s.pcb p with exitCode }) := SameTree.setPcb rfl
  have hClosed := hCode.trans (closeProcessFileTable_tree _ p)
  exact hClosed.trans (setStatus_tree _ p .zombie)

theorem sendExit_tree (exitCode : BitVec 32) (node : Bool) : SameTree s (sendExit s p exitCode node) := by
  unfold sendExit
  split
  · exact .refl s
  · exact .setPcb rfl

end

theorem wait4PopExitMessage_tree (parent : PcbId) (pid : Int) (node : Nat → Bool) :
    SameTree s (wait4PopExitMessage s parent pid node).1 := SameTree.setPcb rfl

end

theorem SameTree.live (h : SameTree s s') (p : PcbId) : s'.Live p ↔ s.Live p := by
  rw [State.Live, State.Live, h.pcbs, h.freed]

theorem SameTree.freePcb (h : SameTree s s') (p : PcbId) : SameTree (s.freePcb p) (s'.freePcb p) :=
  { h with freed := by rw [State.freePcb, State.freePcb, h.freed] }

theorem killProc0_tree (s : State) (p : PcbId) : SameTree (s.freePcb p) (killProc0 s p) :=
  (((markThreads_tree s p).trans (closeProcessFileTable_tree _ p)).trans (freeThreads_tree _ p)).freePcb p

theorem Tree.congr (hTree : Tree s forked) (h : SameTree s s') :
    Tree s' forked := by
  have hPid : ∀ p, (s'.pcb p).pid = (s.pcb p).pid := fun p => congrArg Links.pid (h.links p)
  have hPpid : ∀ p, (s'.pcb p).ppid = (s.pcb p).ppid := fun p => congrArg Links.ppid (h.links p)
  have hParent : ∀ p, (s'.pcb p).parentTask = (s.pcb p).parentTask := fun p => congrArg Links.parentTask (h.links p)
  have hChild : ∀ p, (s'.pcb p).childPcb = (s.pcb p).childPcb := fun p => congrArg Links.childPcb (h.links p)
  have hPids := hTree.pidsDiffer.congr h.pcbs h.nowPid hPid
  constructor
  · constructor
    · intro p hp hne
      obtain ⟨q, hq⟩ := hTree.attached p ((h.live p).1 hp) (h.kernelGroup ▸ hne)
      refine ⟨q, (hParent p).trans hq.parent, (h.live q).2 hq.live, (hChild q) ▸ hq.once, ?_⟩
      intro r hr
      exact (hChild r) ▸ hq.only r hr
    · intro p q hp hne hf hq
      rw [hPpid, hPid]
      exact hTree.ppid p q ((h.live p).1 hp) (h.kernelGroup ▸ hne) hf ((hParent p) ▸ hq)
  · rw [h.kernelGroup]
    exact (h.live _).2 hTree.kernel
  · intro q p hp
    rw [h.pcbs]
    exact hTree.known q p ((hChild q) ▸ hp)
  · exact hPids.pids
  · exact hPids.distinct

theorem removeChild_links (s : State) (q p r : PcbId) : ((removeChild s (some q) p).pcb r).links =
    if r = q then { (s.pcb r).links with childPcb := (s.pcb r).childPcb.erase p } else (s.pcb r).links := by
  unfold removeChild
  split_ifs with h
  · rw [h, State.setPcb_self]
    rfl
  · rw [State.setPcb_of_ne h]

theorem SameTree.removeChild (h : SameTree s s') (q : Option PcbId) (p : PcbId) :
    SameTree (removeChild s q p) (removeChild s' q p) := by
  cases q with
  | none => exact h
  | some q =>
    refine { h with links := ?_ }
    intro r
    have hChild : (s'.pcb r).childPcb = (s.pcb r).childPcb := congrArg Links.childPcb (h.links r)
    rw [removeChild_links, removeChild_links, h.links, hChild]

theorem killProc_tree (s : State) (p : PcbId) (exitCode : BitVec 32) (h : s.isKernel p = false) :
    SameTree ((removeChild s (s.pcb p).parentTask p).freePcb p) (killProc s p exitCode) := by
  have hCode : SameTree s (s.setPcb p { s.pcb p with exitCode }) := SameTree.setPcb rfl
  have hParent : ((s.setPcb p { s.pcb p with exitCode }).pcb p).parentTask = (s.pcb p).parentTask := by
    rw [State.setPcb_self]
  rw [killProc, if_neg (by rw [h]; decide)]
  dsimp only
  rw [hParent]
  have hDead := (hCode.removeChild (s.pcb p).parentTask p).trans (setStatus_tree _ p .death)
  exact (hDead.freePcb p).trans (killProc0_tree _ p)

theorem killProc_kernel (s : State) (p : PcbId) (exitCode : BitVec 32) (h : s.isKernel p) :
    killProc s p exitCode = s := by
  rw [killProc, if_pos h]

theorem removeChild_children (s : State) (q : Option PcbId) (p r : PcbId) :
    ((removeChild s q p).pcb r).childPcb = (s.pcb r).childPcb ∨
      ((removeChild s q p).pcb r).childPcb = (s.pcb r).childPcb.erase p := by
  cases q with
  | none => exact .inl rfl
  | some q =>
    have hLinks := congrArg Links.childPcb (removeChild_links s q p r)
    split_ifs at hLinks with h
    · exact .inr hLinks
    · exact .inl hLinks

theorem removeChild_self (s : State) (q : Option PcbId) (p r : PcbId) :
    ((removeChild s q p).pcb r).pid = (s.pcb r).pid ∧ ((removeChild s q p).pcb r).ppid = (s.pcb r).ppid ∧
      ((removeChild s q p).pcb r).parentTask = (s.pcb r).parentTask := by
  cases q with
  | none => exact ⟨rfl, rfl, rfl⟩
  | some q =>
    have hLinks := removeChild_links s q p r
    split_ifs at hLinks with h
    · exact ⟨congrArg Links.pid hLinks, congrArg Links.ppid hLinks, congrArg Links.parentTask hLinks⟩
    · exact ⟨congrArg Links.pid hLinks, congrArg Links.ppid hLinks, congrArg Links.parentTask hLinks⟩

theorem count_removeChild {r : PcbId} (q : Option PcbId) {z : PcbId} (hne : p ≠ z) :
    ((removeChild s q z).pcb r).childPcb.count p = (s.pcb r).childPcb.count p := by
  obtain h | h := removeChild_children s q z r
  · rw [h]
  · rw [h, List.count_erase_of_ne hne]

theorem Tree.free (hTree : Tree s forked) (q : Option PcbId) {z : PcbId}
    (hne : z ≠ s.kernelGroup) (hChildless : ∀ p, s.Live p → p ≠ s.kernelGroup → (s.pcb p).parentTask ≠ some z) :
    Tree ((removeChild s q z).freePcb z) forked := by
  have hGroup : ((removeChild s q z).freePcb z).kernelGroup = s.kernelGroup := by cases q <;> rfl
  have hPcbs : ((removeChild s q z).freePcb z).pcbs = s.pcbs := by cases q <;> rfl
  have hNow : ((removeChild s q z).freePcb z).nowPid = s.nowPid := by cases q <;> rfl
  have hFreed : ((removeChild s q z).freePcb z).pcbFreed = update s.pcbFreed z (s.pcbFreed z + 1) := by
    cases q <;> rfl
  have hSelf := removeChild_self s q z
  have hLive : ∀ p, ((removeChild s q z).freePcb z).Live p ↔ s.Live p ∧ p ≠ z := by
    intro p
    rw [State.Live, State.Live, hPcbs, hFreed]
    obtain rfl | hp := eq_or_ne p z
    · rw [update_self]
      simp
    · rw [update_of_ne hp]
      simp [hp]
  have hPids := hTree.pidsDiffer.congr hPcbs hNow fun p => (hSelf p).1
  constructor
  · constructor
    · rw [hGroup]
      intro p hp hpne
      obtain ⟨hAlive, hz⟩ := (hLive p).1 hp
      obtain ⟨r, hr⟩ := hTree.attached p hAlive hpne
      have hrz : r ≠ z := by
        rintro rfl
        exact hChildless p hAlive hpne hr.parent
      refine ⟨r, (hSelf p).2.2.trans hr.parent, (hLive r).2 ⟨hr.live, hrz⟩, (count_removeChild q hz).trans hr.once, ?_⟩
      intro o ho
      have hOnly := hr.only o ho
      rw [← List.count_eq_zero] at hOnly ⊢
      exact (count_removeChild q hz).trans hOnly
    · rw [hGroup]
      intro p r hp hpne hf hr
      have hParent : (s.pcb p).parentTask = some r := (hSelf p).2.2 ▸ hr
      exact (hSelf p).2.1.trans ((hTree.ppid p r ((hLive p).1 hp).1 hpne hf hParent).trans (hSelf r).1.symm)
  · rw [hGroup]
    exact (hLive _).2 ⟨hTree.kernel, hne.symm⟩
  · intro r p hp
    rw [hPcbs]
    obtain h | h := removeChild_children s q z r
    · exact hTree.known r p (h ▸ hp)
    · exact hTree.known r p (List.mem_of_mem_erase (h ▸ hp))
  · exact hPids.pids
  · exact hPids.distinct

theorem newPcb_self (s : State) (b : Pcb) : (s.newPcb b).pcb s.pcbs = b := update_self ..

theorem newPcb_of_ne (h : p ≠ s.pcbs) (b : Pcb) : (s.newPcb b).pcb p = s.pcb p :=
  update_of_ne h ..

theorem addChild_links (s : State) (q p r : PcbId) : ((addChild s q p).pcb r).links =
    if r = q then { (s.pcb r).links with childPcb := (s.pcb r).childPcb ++ [p] } else (s.pcb r).links := by
  unfold addChild
  split_ifs with h
  · rw [h, State.setPcb_self]
    rfl
  · rw [State.setPcb_of_ne h]

theorem removeChild_addChild (h : p ∉ (s.pcb q).childPcb) :
    removeChild (addChild s q p) (some q) p = s := by
  have hErase : ((s.pcb q).childPcb ++ [p]).erase p = (s.pcb q).childPcb := by
    rw [List.erase_append_right _ h, List.erase_cons_head, List.append_nil]
  unfold removeChild addChild
  simp only [State.setPcb_self, hErase]
  unfold State.setPcb
  simp only [update_idem, update_eq_self]

theorem SameTree.addChild (h : SameTree s s') (q p : PcbId) :
    SameTree (addChild s q p) (addChild s' q p) := by
  refine { h with links := ?_ }
  intro r
  have hChild : (s'.pcb r).childPcb = (s.pcb r).childPcb := congrArg Links.childPcb (h.links r)
  rw [addChild_links, addChild_links, h.links, hChild]

theorem newPcb_live (s : State) (b : Pcb) (p : PcbId) : (s.newPcb b).Live p ↔ p = s.pcbs ∨ s.Live p := by
  rw [State.Live, State.Live]
  show p < s.pcbs + 1 ∧ update s.pcbFreed s.pcbs 0 p = 0 ↔ _
  obtain rfl | hp := eq_or_ne p s.pcbs
  · rw [update_self]
    simp
  · rw [update_of_ne hp]
    constructor
    · rintro ⟨hLt, hFreed⟩
      exact .inr ⟨lt_of_le_of_ne (Nat.le_of_lt_succ hLt) hp, hFreed⟩
    · rintro (hEq | ⟨hLt, hFreed⟩)
      · exact absurd hEq hp
      · exact ⟨Nat.lt_succ_of_lt hLt, hFreed⟩

section

variable (hTree : Tree s forked)

include hTree

theorem Tree.count_new (r : PcbId) : (s.pcb r).childPcb.count s.pcbs = 0 := by
  rw [List.count_eq_zero]
  intro hMem
  exact absurd (hTree.known r _ hMem) (lt_irrefl _)

theorem Tree.adopt {forked' : PcbId → Bool}
    (hLive : s.Live q) (hLinks : b.links = ⟨s.nowPid, b.ppid, some q, []⟩)
    (hForked : ∀ p, p ≠ s.pcbs → forked' p → forked p)
    (hPpid : forked' s.pcbs → b.ppid = (s.pcb q).pid) : Tree (addChild (s.newPcb b) q s.pcbs) forked' := by
  have hq : q ≠ s.pcbs := hLive.1.ne
  have hNew : ((addChild (s.newPcb b) q s.pcbs).pcb s.pcbs).links = ⟨s.nowPid, b.ppid, some q, []⟩ := by
    rw [addChild_links, if_neg hq.symm, newPcb_self, hLinks]
  have hOld : ∀ r, r ≠ s.pcbs → ((addChild (s.newPcb b) q s.pcbs).pcb r).links =
      if r = q then { (s.pcb r).links with childPcb := (s.pcb r).childPcb ++ [s.pcbs] } else (s.pcb r).links := by
    intro r hr
    rw [addChild_links, newPcb_of_ne hr]
  have hPid : ∀ r, r ≠ s.pcbs → ((addChild (s.newPcb b) q s.pcbs).pcb r).pid = (s.pcb r).pid := by
    intro r hr
    have h := congrArg Links.pid (hOld r hr)
    split_ifs at h <;> exact h
  have hOldPpid : ∀ r, r ≠ s.pcbs → ((addChild (s.newPcb b) q s.pcbs).pcb r).ppid = (s.pcb r).ppid := by
    intro r hr
    have h := congrArg Links.ppid (hOld r hr)
    split_ifs at h <;> exact h
  have hParent : ∀ r, r ≠ s.pcbs → ((addChild (s.newPcb b) q s.pcbs).pcb r).parentTask = (s.pcb r).parentTask := by
    intro r hr
    have h := congrArg Links.parentTask (hOld r hr)
    split_ifs at h <;> exact h
  have hNone : ((addChild (s.newPcb b) q s.pcbs).pcb s.pcbs).childPcb = [] := congrArg Links.childPcb hNew
  have hChild : ∀ r, r ≠ s.pcbs → ((addChild (s.newPcb b) q s.pcbs).pcb r).childPcb =
      (s.pcb r).childPcb ++ (if r = q then [s.pcbs] else []) := by
    intro r hr
    have h := congrArg Links.childPcb (hOld r hr)
    split_ifs at h ⊢
    · exact h
    · rw [List.append_nil]
      exact h
  have hLives : ∀ p, (addChild (s.newPcb b) q s.pcbs).Live p ↔ p = s.pcbs ∨ s.Live p := newPcb_live s b
  have hCount : ∀ p r, p ≠ s.pcbs → r ≠ s.pcbs →
      ((addChild (s.newPcb b) q s.pcbs).pcb r).childPcb.count p = (s.pcb r).childPcb.count p := by
    intro p r hp hr
    rw [hChild r hr, List.count_append]
    split_ifs
    · rw [List.count_singleton, if_neg (by simpa using hp.symm), add_zero]
    · rfl
  have hCountNew : ∀ r, r ≠ s.pcbs →
      ((addChild (s.newPcb b) q s.pcbs).pcb r).childPcb.count s.pcbs = if r = q then 1 else 0 := by
    intro r hr
    rw [hChild r hr, List.count_append, hTree.count_new r]
    split_ifs
    · simp
    · rfl
  have hPids : PidsDiffer (addChild (s.newPcb b) q s.pcbs) :=
    hTree.pidsDiffer.extend rfl rfl (congrArg Links.pid hNew) fun p hp => hPid p hp.ne
  constructor
  · constructor
    · intro p hp hne
      obtain rfl | hOldP := eq_or_ne p s.pcbs
      · refine ⟨q, congrArg Links.parentTask hNew, (hLives q).2 (.inr hLive), ?_, ?_⟩
        · rw [hCountNew q hq, if_pos rfl]
        · intro r hr
          obtain rfl | hrn := eq_or_ne r s.pcbs
          · rw [hNone]
            exact List.not_mem_nil
          · rw [← List.count_eq_zero, hCountNew r hrn, if_neg hr]
      · have hAlive : s.Live p := ((hLives p).1 hp).resolve_left hOldP
        obtain ⟨r, hr⟩ := hTree.attached p hAlive hne
        have hrn : r ≠ s.pcbs := hr.live.1.ne
        refine ⟨r, (hParent p hOldP).trans hr.parent, (hLives r).2
            (.inr hr.live), (hCount p r hOldP hrn).trans hr.once, ?_⟩
        intro o ho
        obtain rfl | hon := eq_or_ne o s.pcbs
        · rw [hNone]
          exact List.not_mem_nil
        · have hOnly := hr.only o ho
          rw [← List.count_eq_zero] at hOnly ⊢
          exact (hCount p o hOldP hon).trans hOnly
    · intro p r hp hne hf hr
      obtain rfl | hOldP := eq_or_ne p s.pcbs
      · have hpq : some q = some r := (congrArg Links.parentTask hNew).symm.trans hr
        cases hpq
        exact (congrArg Links.ppid hNew).trans ((hPpid hf).trans (hPid q hq).symm)
      · have hAlive : s.Live p := ((hLives p).1 hp).resolve_left hOldP
        have hWas : (s.pcb p).parentTask = some r := (hParent p hOldP) ▸ hr
        obtain ⟨r', hr'⟩ := hTree.attached p hAlive hne
        have hrn : r ≠ s.pcbs := by
          have hEq : r' = r := Option.some.inj (hr'.parent.symm.trans hWas)
          exact (hEq ▸ hr'.live).1.ne
        rw [hOldPpid p hOldP, hPid r hrn]
        exact hTree.ppid p r hAlive hne (hForked p hOldP hf) hWas
  · exact (hLives _).2 (.inr hTree.kernel)
  · intro r p hp
    show p < s.pcbs + 1
    obtain rfl | hrn := eq_or_ne r s.pcbs
    · rw [hNone] at hp
      cases hp
    · rw [hChild r hrn, List.mem_append] at hp
      obtain hp | hp := hp
      · exact Nat.lt_succ_of_lt (hTree.known r p hp)
      · split_ifs at hp
        · rw [List.mem_singleton] at hp
          exact hp ▸ Nat.lt_succ_self _
        · cases hp
  · exact hPids.pids
  · exact hPids.distinct

theorem Tree.unlisted (hLive : s.Live q) (hLinks : b.links = ⟨s.nowPid, (s.pcb q).pid, some q, []⟩) :
    Tree ((removeChild (addChild (s.newPcb b) q s.pcbs) (some q) s.pcbs).freePcb s.pcbs) forked := by
  have hq : q ≠ s.pcbs := hLive.1.ne
  have hPpid : b.ppid = (s.pcb q).pid := congrArg Links.ppid hLinks
  have hAdopted : Tree (addChild (s.newPcb b) q s.pcbs) forked :=
    hTree.adopt hLive (hPpid ▸ hLinks) (fun _ _ h => h) (fun _ => hPpid)
  have hGroup : s.pcbs ≠ s.kernelGroup := hTree.kernel.1.ne.symm
  have hChildless : ∀ p, (addChild (s.newPcb b) q s.pcbs).Live p → p ≠ s.kernelGroup →
      ((addChild (s.newPcb b) q s.pcbs).pcb p).parentTask ≠ some s.pcbs := by
    intro p hp hne hParent
    have hLinksAt := congrArg Links.parentTask (addChild_links (s.newPcb b) q s.pcbs p)
    have hWas : ((s.newPcb b).pcb p).parentTask = some s.pcbs := by
      split_ifs at hLinksAt <;> exact hLinksAt.symm.trans hParent
    obtain rfl | hAlive := (newPcb_live s b p).1 hp
    · rw [newPcb_self] at hWas
      have hEq : some q = some s.pcbs := (congrArg Links.parentTask hLinks).symm.trans hWas
      exact hq (Option.some.inj hEq)
    · rw [newPcb_of_ne hAlive.1.ne] at hWas
      obtain ⟨r, hr⟩ := hTree.attached p hAlive hne
      have hEq : r = s.pcbs := Option.some.inj (hr.parent.symm.trans hWas)
      exact hr.live.1.ne hEq
  exact hAdopted.free (some q) hGroup hChildless

theorem Tree.stillborn (hLive : s.Live q) (hLinks : b.links = ⟨s.nowPid, (s.pcb q).pid, some q, []⟩) :
    Tree ((s.newPcb b).freePcb s.pcbs) forked := by
  have hq : q ≠ s.pcbs := hLive.1.ne
  have hNot : s.pcbs ∉ ((s.newPcb b).pcb q).childPcb := by
    rw [newPcb_of_ne hq, ← List.count_eq_zero]
    exact hTree.count_new q
  have hFreed := hTree.unlisted hLive hLinks
  rwa [removeChild_addChild hNot] at hFreed

end

theorem forkBlock_links (s : State) (q : PcbId) : (forkBlock s q).links = ⟨s.nowPid, (s.pcb q).pid, some q, []⟩ := rfl

end OpenXJ380.Process
