import OpenXJ380.Process.ForkFiles
import OpenXJ380.Process.NeverFreed

/-! # The queues of children

A process is in one queue of children at most, and once, as long as it is not freed.
Being handed to the kernel's group by its pointer alone does no harm here.
-/

namespace OpenXJ380.Process

structure Lists (s : State) : Prop where
  known : ∀ q p, p ∈ (s.pcb q).childPcb → p < s.pcbs ∧ p ≠ s.kernelGroup ∧ s.pcbFreed p = 0 ∧
    ((s.pcb p).parentTask = some q ∨ (s.pcb p).parentTask = some s.kernelGroup)
  owner : ∀ q p, p ∈ (s.pcb q).childPcb → q < s.pcbs
  nodup : ∀ q, (s.pcb q).childPcb.Nodup
  only : ∀ q r p, p ∈ (s.pcb q).childPcb → p ∈ (s.pcb r).childPcb → q = r
  listed : ∀ p q, s.Live p → (s.pcb p).parentTask = some q → q ≠ s.kernelGroup → p ∈ (s.pcb q).childPcb
  pids : ∀ p, p < s.pcbs → (s.pcb p).pid < s.nowPid
  distinct : ∀ p q, p < s.pcbs → q < s.pcbs → (s.pcb p).pid = (s.pcb q).pid → p = q
  small : ∀ p, p < s.pcbs → (s.pcb p).pid < 2 ^ 31
  kernel : s.kernelGroup < s.pcbs
  freed : ∀ p, p < s.pcbs → s.pcbFreed p ≤ 1
  parent : ∀ p, p < s.pcbs → p ≠ s.kernelGroup → ∃ q, (s.pcb p).parentTask = some q

variable {s : State} {z q : PcbId}

theorem SameTree.children {s' : State} (h : SameTree s s') (p : PcbId) :
    (s'.pcb p).childPcb = (s.pcb p).childPcb ∧ (s'.pcb p).parentTask = (s.pcb p).parentTask ∧
      (s'.pcb p).pid = (s.pcb p).pid :=
  ⟨congrArg Links.childPcb (h.links p), congrArg Links.parentTask (h.links p), congrArg Links.pid (h.links p)⟩

variable (hLists : Lists s)

include hLists

theorem Lists.pidsDiffer : PidsDiffer s := { hLists with }

theorem Lists.congr {s' : State} (h : SameTree s s') : Lists s' where
  known q p hp := by
    rw [(h.children q).1] at hp
    rw [h.pcbs, h.kernelGroup, h.freed, (h.children p).2.1]
    exact hLists.known q p hp
  owner q p hp := by
    rw [(h.children q).1] at hp
    exact h.pcbs ▸ hLists.owner q p hp
  nodup q := by
    rw [(h.children q).1]
    exact hLists.nodup q
  only q r p hq hr := by
    rw [(h.children q).1] at hq
    rw [(h.children r).1] at hr
    exact hLists.only q r p hq hr
  listed p q hLive hParent hq := by
    rw [(h.children p).2.1] at hParent
    rw [h.kernelGroup] at hq
    rw [(h.children q).1]
    exact hLists.listed p q ((h.live p).1 hLive) hParent hq
  pids := (hLists.pidsDiffer.congr h.pcbs h.nowPid fun p => (h.children p).2.2).pids
  distinct := (hLists.pidsDiffer.congr h.pcbs h.nowPid fun p => (h.children p).2.2).distinct
  small p hp := by
    rw [(h.children p).2.2]
    exact hLists.small p (h.pcbs ▸ hp)
  kernel := by
    rw [h.kernelGroup, h.pcbs]
    exact hLists.kernel
  freed p hp := by
    rw [h.freed]
    exact hLists.freed p (h.pcbs ▸ hp)
  parent p hp hne := by
    rw [(h.children p).2.1]
    exact hLists.parent p (h.pcbs ▸ hp) (h.kernelGroup ▸ hne)

theorem Lists.isKernel (hz : z < s.pcbs) (hne : z ≠ s.kernelGroup) : s.isKernel z = false := by
  rw [State.isKernel, decide_eq_false_iff_not]
  intro hEq
  exact hne (hLists.distinct z s.kernelGroup hz hLists.kernel hEq)

theorem Lists.free (hz : z ∈ (s.pcb q).childPcb) : Lists ((removeChild s (some q) z).freePcb z) := by
  obtain ⟨hLt, hne, hAlive, -⟩ := hLists.known q z hz
  have hChild : ∀ r, (((removeChild s (some q) z).freePcb z).pcb r).childPcb =
      if r = q then (s.pcb r).childPcb.erase z else (s.pcb r).childPcb := by
    intro r
    have h := congrArg Links.childPcb (removeChild_links s q z r)
    split_ifs at h ⊢ <;> exact h
  have hSelf := removeChild_self s (some q) z
  have hFreed : ∀ p, ((removeChild s (some q) z).freePcb z).pcbFreed p =
      if p = z then s.pcbFreed z + 1 else s.pcbFreed p := fun p => Function.update_apply ..
  have hIn : ∀ r p, p ∈ (((removeChild s (some q) z).freePcb z).pcb r).childPcb → p ∈ (s.pcb r).childPcb ∧ p ≠ z := by
    intro r p hp
    rw [hChild] at hp
    split_ifs at hp with hr
    · rw [(hLists.nodup r).mem_erase_iff] at hp
      exact ⟨hp.2, hp.1⟩
    · refine ⟨hp, ?_⟩
      rintro rfl
      exact hr (hLists.only r q p hp hz)
  have hPids : PidsDiffer ((removeChild s (some q) z).freePcb z) := hLists.pidsDiffer.congr rfl rfl fun p => (hSelf p).1
  constructor
  · intro r p hp
    obtain ⟨hOld, hpz⟩ := hIn r p hp
    obtain ⟨hp, hpne, hFree, hParent⟩ := hLists.known r p hOld
    refine ⟨hp, hpne, ?_, ?_⟩
    · rw [hFreed, if_neg hpz]
      exact hFree
    · have hSame : (((removeChild s (some q) z).freePcb z).pcb p).parentTask = (s.pcb p).parentTask := (hSelf p).2.2
      rw [hSame]
      exact hParent
  · exact fun r p hp => hLists.owner r p (hIn r p hp).1
  · intro r
    rw [hChild]
    split_ifs
    · exact (hLists.nodup r).erase z
    · exact hLists.nodup r
  · intro r r' p hp hp'
    exact hLists.only r r' p (hIn r p hp).1 (hIn r' p hp').1
  · rintro p r ⟨hp, hpAlive⟩ hParent hr
    rw [hFreed] at hpAlive
    split_ifs at hpAlive with hpz
    have hOld := hLists.listed p r ⟨hp, hpAlive⟩ ((hSelf p).2.2.symm.trans hParent) hr
    rw [hChild]
    split_ifs
    · exact (List.mem_erase_of_ne hpz).2 hOld
    · exact hOld
  · exact hPids.pids
  · exact hPids.distinct
  · intro p hp
    exact (hSelf p).1 ▸ hLists.small p hp
  · exact hLists.kernel
  · intro p hp
    rw [hFreed]
    split_ifs
    · rw [hAlive]
    · exact hLists.freed p hp
  · intro p hp hpne
    obtain ⟨r, hr⟩ := hLists.parent p hp hpne
    exact ⟨r, (hSelf p).2.2.trans hr⟩

theorem Lists.killProc (hz : z ∈ (s.pcb q).childPcb)
    (hParent : (s.pcb z).parentTask = some q) (exitCode : BitVec 32) : Lists (killProc s z exitCode) := by
  obtain ⟨hLt, hne, -, -⟩ := hLists.known q z hz
  have hSame := killProc_tree s z exitCode (hLists.isKernel hLt hne)
  rw [hParent] at hSame
  exact (hLists.free hz).congr hSame

theorem Lists.adoptOrphan (z : PcbId) : Lists (adoptOrphan s z) := by
  unfold Process.adoptOrphan
  split
  · have hPcb : ∀ r, ((s.setPcb z { s.pcb z with parentTask := some s.kernelGroup }).pcb r) =
        if r = z then { s.pcb z with parentTask := some s.kernelGroup } else s.pcb r :=
      fun r => Function.update_apply ..
    have hChild : ∀ r, ((s.setPcb z { s.pcb z with parentTask := some s.kernelGroup }).pcb r).childPcb =
        (s.pcb r).childPcb := by
      intro r
      rw [hPcb]
      split_ifs with h
      · rw [h]
      · rfl
    have hPid : ∀ r, ((s.setPcb z { s.pcb z with parentTask := some s.kernelGroup }).pcb r).pid = (s.pcb r).pid := by
      intro r
      rw [hPcb]
      split_ifs with h
      · rw [h]
      · rfl
    have hPids : PidsDiffer (s.setPcb z { s.pcb z with parentTask := some s.kernelGroup }) :=
      hLists.pidsDiffer.congr rfl rfl hPid
    constructor
    · intro q p hp
      rw [hChild] at hp
      obtain ⟨hLt, hne, hFree, hParent⟩ := hLists.known q p hp
      refine ⟨hLt, hne, hFree, ?_⟩
      rw [hPcb]
      split_ifs
      · exact .inr rfl
      · exact hParent
    · intro q p hp
      rw [hChild] at hp
      exact hLists.owner q p hp
    · intro q
      rw [hChild]
      exact hLists.nodup q
    · intro q r p hq hr
      rw [hChild] at hq hr
      exact hLists.only q r p hq hr
    · intro p q hLive hParent hq
      rw [hChild]
      rw [hPcb] at hParent
      split_ifs at hParent
      · exact absurd (Option.some.inj hParent).symm hq
      · exact hLists.listed p q hLive hParent hq
    · exact hPids.pids
    · exact hPids.distinct
    · intro p hp
      rw [hPid]
      exact hLists.small p hp
    · exact hLists.kernel
    · exact hLists.freed
    · intro p hp hne
      rw [hPcb]
      split_ifs
      · exact ⟨s.kernelGroup, rfl⟩
      · exact hLists.parent p hp hne
  · exact hLists

theorem Lists.toReaper {p : PcbId} (hLive : s.Live p)
    (hParent : (s.pcb p).parentTask = some q) (hq : q ≠ s.kernelGroup) : Lists (moveToReaper s p) := by
  have hMem := hLists.listed p q hLive hParent hq
  have hne := (hLists.known q p hMem).2.1
  obtain ⟨hGroup, hPcbs, hNow, hFreed⟩ : (moveToReaper s p).kernelGroup = s.kernelGroup ∧
      (moveToReaper s p).pcbs = s.pcbs ∧ (moveToReaper s p).nowPid = s.nowPid ∧
      (moveToReaper s p).pcbFreed = s.pcbFreed := moveToReaper_rest s p
  have hChild := moveToReaper_children hParent hq
  have hPids := hLists.pidsDiffer.congr hPcbs hNow (moveToReaper_pid s p)
  have hTask : ∀ r, ((moveToReaper s p).pcb r).parentTask =
      if r = p then some s.kernelGroup else (s.pcb r).parentTask := by
    intro r
    split_ifs with hr
    · rw [hr]
      unfold moveToReaper
      rw [State.setPcb_self]
    · exact (moveToReaper_other hr).2
  have hNotKernel : p ∉ (s.pcb s.kernelGroup).childPcb := fun h => hq (hLists.only q s.kernelGroup p hMem h)
  have hIn : ∀ r z, z ∈ ((moveToReaper s p).pcb r).childPcb ↔
      z ≠ p ∧ z ∈ (s.pcb r).childPcb ∨ z = p ∧ r = s.kernelGroup := by
    intro r z
    rw [hChild]
    split_ifs with hr hrq
    · rw [hr, List.mem_append, List.mem_singleton]
      constructor
      · rintro (hz | hz)
        · refine .inl ⟨?_, hz⟩
          rintro rfl
          exact hNotKernel hz
        · exact .inr ⟨hz, rfl⟩
      · exact .imp And.right And.left
    · rw [(hLists.nodup r).mem_erase_iff]
      exact ⟨.inl, fun h => h.resolve_right fun hz => hr hz.2⟩
    · constructor
      · intro hz
        refine .inl ⟨?_, hz⟩
        rintro rfl
        exact hrq (hLists.only r q z hz hMem)
      · rintro (hz | hz)
        · exact hz.2
        · exact absurd hz.2 hr
  constructor
  · intro r z hz
    rw [hPcbs, hGroup, hFreed, hTask]
    obtain ⟨hzp, hz⟩ | ⟨rfl, rfl⟩ := (hIn r z).1 hz
    · rw [if_neg hzp]
      exact hLists.known r z hz
    · rw [if_pos rfl]
      exact ⟨hLive.1, hne, hLive.2, .inl rfl⟩
  · intro r z hz
    rw [hPcbs]
    obtain ⟨-, hz⟩ | ⟨-, rfl⟩ := (hIn r z).1 hz
    · exact hLists.owner r z hz
    · exact hLists.kernel
  · intro r
    rw [hChild]
    split_ifs with hr
    · rw [hr]
      refine .append (hLists.nodup s.kernelGroup) (List.nodup_singleton p) ?_
      rw [List.disjoint_singleton]
      exact hNotKernel
    · exact (hLists.nodup r).erase p
    · exact hLists.nodup r
  · intro r r' z hz hz'
    obtain ⟨hzp, hz⟩ | ⟨hzp, hr⟩ := (hIn r z).1 hz
    · obtain ⟨-, hz'⟩ | ⟨hzp', -⟩ := (hIn r' z).1 hz'
      · exact hLists.only r r' z hz hz'
      · exact absurd hzp' hzp
    · obtain ⟨hzp', -⟩ | ⟨-, hr'⟩ := (hIn r' z).1 hz'
      · exact absurd hzp hzp'
      · exact hr.trans hr'.symm
  · rintro z r ⟨hz, hAlive⟩ hWas hr
    rw [hPcbs] at hz
    rw [hFreed] at hAlive
    rw [hGroup] at hr
    rw [hTask] at hWas
    split_ifs at hWas with hzp
    · exact absurd (Option.some.inj hWas).symm hr
    · exact (hIn r z).2 (.inl ⟨hzp, hLists.listed z r ⟨hz, hAlive⟩ hWas hr⟩)
  · exact hPids.pids
  · exact hPids.distinct
  · intro z hz
    rw [moveToReaper_pid]
    exact hLists.small z (hPcbs ▸ hz)
  · rw [hGroup, hPcbs]
    exact hLists.kernel
  · intro z hz
    rw [hFreed]
    exact hLists.freed z (hPcbs ▸ hz)
  · intro z hz hzne
    rw [hTask]
    split_ifs
    · exact ⟨s.kernelGroup, rfl⟩
    · exact hLists.parent z (hPcbs ▸ hz) (hGroup ▸ hzne)

theorem Lists.killDeferred {p : PcbId} (hLive : s.Live p) (exitCode : BitVec 32)
    (listed : Bool) : Lists (killProcDeferred s p exitCode listed).1 := by
  obtain hSame | ⟨hKernel, hne, hSame⟩ := killProcDeferred_tree s p exitCode listed
  · exact hLists.congr hSame
  · have hNotKernel : p ≠ s.kernelGroup := by
      rintro rfl
      rw [isKernel_self] at hKernel
      cases hKernel
    obtain ⟨q, hq⟩ := hLists.parent p hLive.1 hNotKernel
    refine (hLists.toReaper hLive hq ?_).congr hSame
    rintro rfl
    exact hne hq

theorem Lists.new_unlisted (r : PcbId) : s.pcbs ∉ (s.pcb r).childPcb := by
  intro h
  exact lt_irrefl _ (hLists.known r s.pcbs h).1

theorem Lists.adopt {b : Pcb} (hq : q < s.pcbs)
    (hLinks : b.links = ⟨s.nowPid, b.ppid, some q, []⟩) (hSmall : s.nowPid < 2 ^ 31) :
    Lists (addChild (s.newPcb b) q s.pcbs) := by
  have hPid : b.pid = s.nowPid := congrArg Links.pid hLinks
  have hTask : b.parentTask = some q := congrArg Links.parentTask hLinks
  have hAt : ∀ r, ((addChild (s.newPcb b) q s.pcbs).pcb r).links = if r = q then
      { ((s.newPcb b).pcb r).links with childPcb := ((s.newPcb b).pcb r).childPcb ++ [s.pcbs] }
      else ((s.newPcb b).pcb r).links := addChild_links (s.newPcb b) q s.pcbs
  have hNewPid : ∀ r, ((addChild (s.newPcb b) q s.pcbs).pcb r).pid = ((s.newPcb b).pcb r).pid := by
    intro r
    have h := congrArg Links.pid (hAt r)
    split_ifs at h <;> exact h
  have hNewTask : ∀ r, ((addChild (s.newPcb b) q s.pcbs).pcb r).parentTask = ((s.newPcb b).pcb r).parentTask := by
    intro r
    have h := congrArg Links.parentTask (hAt r)
    split_ifs at h <;> exact h
  have hNewChild : ∀ r, ((addChild (s.newPcb b) q s.pcbs).pcb r).childPcb =
      if r = q then (s.pcb r).childPcb ++ [s.pcbs] else if r = s.pcbs then [] else (s.pcb r).childPcb := by
    intro r
    have h := congrArg Links.childPcb (hAt r)
    split_ifs at h ⊢ with hr hNew
    · rw [newPcb_of_ne (hr ▸ hq.ne)] at h
      exact h
    · rw [hNew, newPcb_self] at h
      rw [hNew]
      exact h.trans (congrArg Links.childPcb hLinks)
    · rw [newPcb_of_ne hNew] at h
      exact h
  have hFreed : ∀ p, (addChild (s.newPcb b) q s.pcbs).pcbFreed p = if p = s.pcbs then 0 else s.pcbFreed p :=
    fun p => Function.update_apply ..
  have hIn : ∀ r p, p ∈ ((addChild (s.newPcb b) q s.pcbs).pcb r).childPcb →
      p ∈ (s.pcb r).childPcb ∨ p = s.pcbs ∧ r = q := by
    intro r p hp
    rw [hNewChild] at hp
    split_ifs at hp with hr
    · obtain hp | hp := List.mem_append.1 hp
      · exact .inl hp
      · exact .inr ⟨List.mem_singleton.1 hp, hr⟩
    · cases hp
    · exact .inl hp
  have hOld : ∀ p, p < s.pcbs → (s.newPcb b).pcb p = s.pcb p := fun p hp => newPcb_of_ne hp.ne b
  have hPids : PidsDiffer (addChild (s.newPcb b) q s.pcbs) :=
    hLists.pidsDiffer.extend rfl rfl (by rw [hNewPid, newPcb_self, hPid]) fun p hp => by rw [hNewPid, hOld p hp]
  constructor
  · intro r p hp
    rw [hFreed, hNewTask]
    obtain hOldIn | ⟨rfl, rfl⟩ := hIn r p hp
    · obtain ⟨hLt, hne, hFree, hParent⟩ := hLists.known r p hOldIn
      rw [hOld p hLt, if_neg hLt.ne]
      exact ⟨Nat.lt_succ_of_lt hLt, hne, hFree, hParent⟩
    · rw [newPcb_self, if_pos rfl]
      exact ⟨Nat.lt_succ_self _, hLists.kernel.ne.symm, rfl, .inl hTask⟩
  · intro r p hp
    obtain hOldIn | ⟨-, rfl⟩ := hIn r p hp
    · exact Nat.lt_succ_of_lt (hLists.owner r p hOldIn)
    · exact Nat.lt_succ_of_lt hq
  · intro r
    rw [hNewChild]
    split_ifs
    · refine .append (hLists.nodup r) (List.nodup_singleton _) ?_
      rw [List.disjoint_singleton]
      exact hLists.new_unlisted r
    · exact List.nodup_nil
    · exact hLists.nodup r
  · intro r r' p hp hp'
    obtain hOldIn | ⟨rfl, rfl⟩ := hIn r p hp
    · obtain hOldIn' | ⟨rfl, -⟩ := hIn r' p hp'
      · exact hLists.only r r' p hOldIn hOldIn'
      · exact absurd hOldIn (hLists.new_unlisted r)
    · obtain hOldIn' | ⟨-, rfl⟩ := hIn r' _ hp'
      · exact absurd hOldIn' (hLists.new_unlisted r')
      · rfl
  · rintro p r ⟨hp, hAlive⟩ hParent hr
    rw [hNewTask] at hParent
    rw [hNewChild]
    obtain hp | rfl := Nat.lt_or_eq_of_le (Nat.le_of_lt_succ hp)
    · rw [hOld p hp] at hParent
      rw [hFreed, if_neg hp.ne] at hAlive
      have hMem := hLists.listed p r ⟨hp, hAlive⟩ hParent hr
      have hne : r ≠ s.pcbs := (hLists.owner r p hMem).ne
      split_ifs
      · exact List.mem_append_left _ hMem
      · exact hMem
    · rw [newPcb_self, hTask] at hParent
      rw [if_pos (Option.some.inj hParent).symm]
      exact List.mem_append_right _ (List.mem_singleton_self _)
  · exact hPids.pids
  · exact hPids.distinct
  · refine Nat.forall_lt_succ_right.mpr ⟨fun p hp => ?_, ?_⟩
    · rw [hNewPid, hOld p hp]
      exact hLists.small p hp
    · rw [hNewPid, newPcb_self, hPid]
      exact hSmall
  · exact Nat.lt_succ_of_lt hLists.kernel
  · intro p hp
    rw [hFreed]
    split_ifs with hNew
    · exact Nat.zero_le 1
    · exact hLists.freed p (lt_of_le_of_ne (Nat.le_of_lt_succ hp) hNew)
  · intro p hp hne
    rw [hNewTask]
    obtain hp | rfl := Nat.lt_or_eq_of_le (Nat.le_of_lt_succ hp)
    · rw [hOld p hp]
      exact hLists.parent p hp hne
    · exact ⟨q, by rw [newPcb_self, hTask]⟩

theorem Lists.stillborn {b : Pcb} (hq : q < s.pcbs)
    (hLinks : b.links = ⟨s.nowPid, b.ppid, some q, []⟩) (hSmall : s.nowPid < 2 ^ 31) :
    Lists ((s.newPcb b).freePcb s.pcbs) := by
  have hNot : s.pcbs ∉ ((s.newPcb b).pcb q).childPcb := by
    rw [newPcb_of_ne hq.ne]
    exact hLists.new_unlisted q
  have hMem : s.pcbs ∈ ((addChild (s.newPcb b) q s.pcbs).pcb q).childPcb := by
    rw [addChild, State.setPcb_self]
    exact List.mem_append_right _ (List.mem_singleton_self _)
  have hFreed := (hLists.adopt hq hLinks hSmall).free hMem
  rwa [removeChild_addChild hNot] at hFreed

theorem Lists.fork {parent : PcbId} (hParent : parent < s.pcbs) (cloneFiles : Bool)
    (m : ForkMemory) (hSmall : s.nowPid < 2 ^ 31) : Lists (processFork s parent cloneFiles m).1 := by
  have hne : parent ≠ s.pcbs := hParent.ne
  have hLinks := forkBlock_links s parent
  obtain ⟨-, hSame | hSame | hSame⟩ | ⟨-, hSame⟩ := processFork_tree s parent cloneFiles m hne
  · exact hLists.congr hSame
  · exact (hLists.stillborn hParent hLinks hSmall).congr hSame
  · have hNot : s.pcbs ∉ ((s.newPcb (forkBlock s parent)).pcb parent).childPcb := by
      rw [newPcb_of_ne hne]
      exact hLists.new_unlisted parent
    rw [removeChild_addChild hNot] at hSame
    exact (hLists.stillborn hParent hLinks hSmall).congr hSame
  · exact (hLists.adopt hParent hLinks hSmall).congr hSame

theorem Lists.spawn {parent : Option PcbId} (hParent : ∀ p ∈ parent, p < s.pcbs)
    (hSmall : s.nowPid < 2 ^ 31) : Lists (createProcessGroup s parent) := by
  have hLt : parent.getD s.kernelGroup < s.pcbs := by
    cases parent with
    | none => exact hLists.kernel
    | some p => exact hParent p rfl
  exact (hLists.adopt (b := { forkBlock s (parent.getD s.kernelGroup) with ppid := 0 }) hLt rfl hSmall).congr
    (((withFiles_tree _ s.pcbs _ _ _).addChild _ s.pcbs).trans (newTcb_tree _ _))

end OpenXJ380.Process
