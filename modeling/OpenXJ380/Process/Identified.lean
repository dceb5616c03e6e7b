import OpenXJ380.Process.Numbers
import OpenXJ380.Process.Waiting

/-! # Pids and tids identify

Only creating gives a number, and only `sys_setpgid` takes one away.
-/

namespace OpenXJ380.Process

open Function
open BitVec (ofNat toNat_ofNat)

open Transition

/-- The pids are those that were given and `int`s, and neither they nor the tids are used twice. -/
structure Counted (s : State) (tid : TcbId → BitVec 64) (issued : PcbId → Nat) : Prop where
  kept : ∀ p, s.Live p → (s.pcb p).pid = issued p
  below : ∀ p, s.Live p → (s.pcb p).pid < s.nowPid
  small : ∀ p, s.Live p → (s.pcb p).pid < 2 ^ 31
  pids : ∀ p q, s.Live p → s.Live q → (s.pcb p).pid = (s.pcb q).pid → p = q
  tids : ∀ t u, s.LiveThread t → s.LiveThread u → tid t = tid u → t = u

structure AddsThread (s s' : State) : Prop where
  pcbs : s'.pcbs = s.pcbs
  nowPid : s'.nowPid = s.nowPid
  pid : ∀ p, (s'.pcb p).pid = (s.pcb p).pid
  freed : s'.pcbFreed = s.pcbFreed
  tcbs : s'.tcbs = s.tcbs + 1
  threads : ∀ t, t ≠ s.tcbs → s'.tcbFreed t = s.tcbFreed t

section

variable {s s' : State} {tid : TcbId → BitVec 64} {issued : PcbId → Nat} {p : PcbId} {t : TcbId}

theorem Counted.ages (hCounted : Counted s tid issued) (h : Ages s s') : Counted s' tid issued where
  kept p hp := (h.pid p hp).trans (hCounted.kept p (h.live hp))
  below p hp := by
    rw [h.pid p hp, h.nowPid]
    exact hCounted.below p (h.live hp)
  small p hp := h.pid p hp ▸ hCounted.small p (h.live hp)
  pids p q hp hq hEq := by
    rw [h.pid p hp, h.pid q hq] at hEq
    exact hCounted.pids p q (h.live hp) (h.live hq) hEq
  tids t u ht hu hEq := hCounted.tids t u (h.liveThread ht) (h.liveThread hu) hEq

theorem Counted.skips (hCounted : Counted s tid issued) : Counted { s with nowPid := s.nowPid + 1 } tid issued :=
  { hCounted with below := fun p hp => Nat.lt_succ_of_lt (hCounted.below p hp) }

theorem Counted.newPcb (hCounted : Counted s tid issued) {b : Pcb} (hPid : b.pid = s.nowPid)
    (hSmall : s.nowPid < 2 ^ 31) : Counted (s.newPcb b) tid (update issued s.pcbs s.nowPid) := by
  have hNew : ((s.newPcb b).pcb s.pcbs).pid = s.nowPid := by rw [newPcb_self, hPid]
  have hOld : ∀ q, s.Live q → q ≠ s.pcbs ∧ ((s.newPcb b).pcb q).pid = (s.pcb q).pid := by
    intro q hq
    have hne : q ≠ s.pcbs := hq.1.ne
    exact ⟨hne, by rw [newPcb_of_ne hne]⟩
  constructor
  · intro q hq
    obtain rfl | hq := (newPcb_live s b q).mp hq
    · rw [hNew, update_self]
    · rw [(hOld q hq).2, update_of_ne (hOld q hq).1, hCounted.kept q hq]
  · intro q hq
    obtain rfl | hq := (newPcb_live s b q).mp hq
    · exact hNew ▸ lt_add_one s.nowPid
    · exact (hOld q hq).2 ▸ Nat.lt_succ_of_lt (hCounted.below q hq)
  · intro q hq
    obtain rfl | hq := (newPcb_live s b q).mp hq
    · exact hNew ▸ hSmall
    · exact (hOld q hq).2 ▸ hCounted.small q hq
  · intro q r hq hr hEq
    obtain rfl | hq := (newPcb_live s b q).mp hq
    · obtain rfl | hr := (newPcb_live s b r).mp hr
      · rfl
      · rw [hNew, (hOld r hr).2] at hEq
        exact absurd hEq.symm (hCounted.below r hr).ne
    · obtain rfl | hr := (newPcb_live s b r).mp hr
      · rw [hNew, (hOld q hq).2] at hEq
        exact absurd hEq (hCounted.below q hq).ne
      · rw [(hOld q hq).2, (hOld r hr).2] at hEq
        exact hCounted.pids q r hq hr hEq
  · exact hCounted.tids

theorem stillborn_ages (s : State) (b : Pcb) :
    ∀ q, ((s.newPcb b).freePcb s.pcbs).Live q → s.Live q ∧ ((s.newPcb b).pcb q).pid = (s.pcb q).pid := by
  intro q hLive
  have hFreed : ((s.newPcb b).freePcb s.pcbs).pcbFreed q =
      if q = s.pcbs then (s.newPcb b).pcbFreed s.pcbs + 1 else (s.newPcb b).pcbFreed q := update_apply ..
  have hne : q ≠ s.pcbs := by
    rintro rfl
    have hGone := hLive.2
    rw [hFreed, if_pos rfl] at hGone
    exact absurd hGone (Nat.succ_ne_zero _)
  have hNew : (s.newPcb b).Live q := (freePcb_ages (s.newPcb b) s.pcbs).live hLive
  exact ⟨((newPcb_live s b q).mp hNew).resolve_left hne, by rw [newPcb_of_ne hne]⟩

theorem Counted.stillborn (hCounted : Counted s tid issued) (b : Pcb) :
    Counted ((s.newPcb b).freePcb s.pcbs) tid issued := by
  have hOld := stillborn_ages s b
  constructor
  · exact fun q hq => (hOld q hq).2.trans (hCounted.kept q (hOld q hq).1)
  · intro q hq
    change ((s.newPcb b).pcb q).pid < s.nowPid + 1
    rw [(hOld q hq).2]
    exact Nat.lt_succ_of_lt (hCounted.below q (hOld q hq).1)
  · intro q hq
    change ((s.newPcb b).pcb q).pid < _
    rw [(hOld q hq).2]
    exact hCounted.small q (hOld q hq).1
  · intro q r hq hr hEq
    change ((s.newPcb b).pcb q).pid = ((s.newPcb b).pcb r).pid at hEq
    rw [(hOld q hq).2, (hOld r hr).2] at hEq
    exact hCounted.pids q r (hOld q hq).1 (hOld r hr).1 hEq
  · exact hCounted.tids

theorem newTcb_addsThread (s : State) (p : PcbId) : AddsThread s (s.newTcb p) := by
  refine ⟨rfl, rfl, ?_, rfl, rfl, fun t ht => update_of_ne ht ..⟩
  exact fun q => congrArg Links.pid ((newTcb_tree s p).links q)

theorem newIdle_addsThread (s : State) (c : CpuId) : AddsThread s (s.newIdle c) :=
  ⟨rfl, rfl, fun _ => rfl, rfl, rfl, fun _ ht => update_of_ne ht ..⟩

theorem Counted.addsThread (hCounted : Counted s tid issued) (h : AddsThread s s') {x : BitVec 64}
    (hUnused : ∀ t, s.LiveThread t → tid t ≠ x) : Counted s' (update tid s.tcbs x) issued := by
  have hLive : ∀ q, s'.Live q ↔ s.Live q := fun q => by rw [State.Live, State.Live, h.pcbs, h.freed]
  have hThread : ∀ t, s'.LiveThread t → t = s.tcbs ∨ (t ≠ s.tcbs ∧ s.LiveThread t ∧ update tid s.tcbs x t = tid t) := by
    intro t ht
    obtain rfl | hne := eq_or_ne t s.tcbs
    · exact .inl rfl
    · have hLt := ht.1
      rw [h.tcbs] at hLt
      refine .inr ⟨hne, ⟨?_, (h.threads t hne).symm.trans ht.2⟩, update_of_ne hne ..⟩
      exact lt_of_le_of_ne (Nat.le_of_lt_succ hLt) hne
  constructor
  · exact fun q hq => (h.pid q).trans (hCounted.kept q ((hLive q).mp hq))
  · intro q hq
    rw [h.pid q, h.nowPid]
    exact hCounted.below q ((hLive q).mp hq)
  · exact fun q hq => h.pid q ▸ hCounted.small q ((hLive q).mp hq)
  · intro q r hq hr hEq
    rw [h.pid q, h.pid r] at hEq
    exact hCounted.pids q r ((hLive q).mp hq) ((hLive r).mp hr) hEq
  · intro t u ht hu hEq
    obtain rfl | ⟨htNe, ht, htTid⟩ := hThread t ht
    · obtain rfl | ⟨huNe, hu, huTid⟩ := hThread u hu
      · rfl
      · rw [update_self, huTid] at hEq
        exact absurd hEq.symm (hUnused u hu)
    · obtain rfl | ⟨huNe, hu, huTid⟩ := hThread u hu
      · rw [update_self, htTid] at hEq
        exact absurd hEq (hUnused t ht)
      · rw [htTid, huTid] at hEq
        exact hCounted.tids t u ht hu hEq

theorem Ages.freePcb (h : Ages s s') (p : PcbId) : Ages (s.freePcb p) (s'.freePcb p) := by
  have hAfter := freePcb_ages s' p
  refine { h with pid := fun q hq => h.pid q (hAfter.live hq), freed := ?_ }
  intro q
  have hAt : ∀ r : State, (r.freePcb p).pcbFreed q = if q = p then r.pcbFreed p + 1 else r.pcbFreed q :=
    fun r => update_apply ..
  rw [hAt s, hAt s']
  split
  · exact Nat.succ_le_succ (h.freed p)
  · exact h.freed q

theorem freePartialProcess_ages (s : State) (p : PcbId) (listed : Bool) :
    Ages (s.freePcb p) (freePartialProcess s p listed) := by
  have hRemoved : Ages s (if listed then removeChild s (s.pcb p).parentTask p else s) := by
    split
    · exact removeChild_ages s _ p
    · exact .refl s
  have hFreed := hRemoved.freePcb p
  exact { hFreed with }

theorem processFork_ages (s : State) (parent : PcbId) (cloneFiles : Bool) (m : ForkMemory) :
    ((processFork s parent cloneFiles m).2 = none ∧ (Ages s (processFork s parent cloneFiles m).1 ∨
      Ages ((s.newPcb (forkBlock s parent)).freePcb s.pcbs) (processFork s parent cloneFiles m).1)) ∨
    ((processFork s parent cloneFiles m).2 = some s.pcbs ∧ ∃ mid, Ages (s.newPcb (forkBlock s parent)) mid ∧
      (processFork s parent cloneFiles m).1 = mid.newTcb s.pcbs) := by
  unfold processFork
  dsimp only
  generalize forkFiles s parent cloneFiles m = f
  have hFiles := withFiles_ages (s.newPcb (forkBlock s parent)) s.pcbs f.1 f.2.1 f.2.2
  have hListed := hFiles.trans (addChild_ages _ parent s.pcbs)
  split_ifs with hBlock hSpace hNull hThread
  · exact .inl ⟨rfl, .inl (.refl s)⟩
  · exact .inl ⟨rfl, .inr (.refl _)⟩
  · exact .inl ⟨rfl, .inr ((hFiles.freePcb s.pcbs).trans (freePartialProcess_ages _ s.pcbs false))⟩
  · exact .inl ⟨rfl, .inr ((hListed.freePcb s.pcbs).trans (freePartialProcess_ages _ s.pcbs true))⟩
  · exact .inr ⟨rfl, _, hListed, rfl⟩

theorem fork_state (k : Kernel) (t : TcbId) (cloneFiles : Bool) (m : ForkMemory) :
    (k.fork t cloneFiles m).toState = (processFork k.toState (k.group t) cloneFiles m).1 := by
  unfold Kernel.fork
  obtain ⟨s', child⟩ := processFork k.toState (k.group t) cloneFiles m
  cases child <;> rfl

theorem createGroup_ages (s : State) (parent : Option PcbId) :
    Ages (s.newPcb { forkBlock s (parent.getD s.kernelGroup) with ppid := 0 }) (createGroup s parent) :=
  (withFiles_ages _ s.pcbs _ _ _).trans (addChild_ages _ _ s.pcbs)

end

def Numbered.Counts (n : Numbered) : Prop := Counted n.toState n.tid n.issued

section

variable {n n' : Numbered}

theorem Numbered.Counts.fork (h : n.Counts) (t : TcbId) (cloneFiles : Bool) (m : ForkMemory) (reserved : Bool)
    (hUnused : (processFork n.toState (n.group t) cloneFiles m).2 ≠ none →
      n.nowPid < 2 ^ 31 ∧ n.Unused (ofNat 64 n.nowPid)) : (n.fork t cloneFiles m reserved).Counts := by
  have hState := fork_state n.toKernel t cloneFiles m
  obtain ⟨hNone, hAges⟩ | ⟨hSome, mid, hMid, hNew⟩ := processFork_ages n.toState (n.group t) cloneFiles m
  · have hCounted : Counted (n.toKernel.fork t cloneFiles m).toState n.tid n.issued := by
      rw [hState]
      obtain hAges | hAges := hAges
      · exact .ages h hAges
      · exact (Counted.stillborn h _).ages hAges
    unfold Numbered.fork
    simp only [hNone]
    split
    · exact hCounted
    · exact hCounted
  · obtain ⟨hSmall, hTid⟩ := hUnused (hSome ▸ Option.some_ne_none _)
    have hMidCounted := (Counted.newPcb h (b := forkBlock n.toState (n.group t)) rfl hSmall).ages hMid
    have hFree : ∀ u, mid.LiveThread u → n.tid u ≠ ofNat 64 n.nowPid := fun u hu => hTid u (hMid.liveThread hu)
    have hCounted := hMidCounted.addsThread (newTcb_addsThread mid n.pcbs) hFree
    have hTcbs : mid.tcbs = n.tcbs := hMid.tcbs
    rw [hTcbs, ← hNew, ← hState] at hCounted
    unfold Numbered.fork
    simp only [hSome]
    exact hCounted

theorem Numbered.Counts.spawn (h : n.Counts) (parent : Option PcbId) (thread : Bool) (hSmall : n.nowPid < 2 ^ 31)
    (hUnused : thread → n.Unused n.nowTid) : (n.spawn parent thread).Counts := by
  have hAges := createGroup_ages n.toState parent
  have hGroup := (Counted.newPcb h (b := { forkBlock n.toState (parent.getD n.kernelGroup) with ppid := 0 }) rfl
    hSmall).ages hAges
  cases thread with
  | false => exact hGroup
  | true =>
    have hFree : ∀ u, (createGroup n.toState parent).LiveThread u → n.tid u ≠ n.nowTid :=
      fun u hu => hUnused rfl u (hAges.liveThread hu)
    exact hGroup.addsThread (newTcb_addsThread (createGroup n.toState parent) n.pcbs) hFree

theorem Numbered.Counts.createThread (h : n.Counts) (p : PcbId) (status : TaskStatus) (hUnused : n.Unused n.nowTid) :
    (n.createThread p status).Counts :=
  (Counted.addsThread h (newTcb_addsThread n.toState p) hUnused).ages (Ages.setTcb (n.newTcb p) n.tcbs _)

theorem signExtend_small {x : Nat} (h : x < 2 ^ 31) : (ofNat 32 x).signExtend 64 = ofNat 64 x := by
  apply BitVec.eq_of_toInt_eq
  rw [BitVec.toInt_signExtend_of_le (by decide)]
  simp only [BitVec.toInt_ofNat', Int.bmod_def]
  omega

theorem sysSetpgid_ages (h : n.Counts) (caller : PcbId) (pid pgid : BitVec 32)
    (hOwn : ∀ process, setpgidTarget n.toState caller pid = some process → n.Live process →
      (n.pcb process).status ≠ .death → pgid = 0 ∨ (pgid.signExtend 64).toNat = (n.pcb process).pid) :
    Ages n.toState (sysSetpgid n.toState caller pid pgid).1 := by
  unfold sysSetpgid
  cases hTarget : setpgidTarget n.toState caller pid with
  | none => exact .refl n.toState
  | some process =>
    dsimp only
    split
    · exact .refl n.toState
    · next hAlive =>
      refine ⟨rfl, rfl, rfl, ?_, fun _ => le_rfl, fun _ => le_rfl⟩
      intro q hq
      have hLive : n.Live q := hq
      obtain rfl | hne := eq_or_ne q process
      · have hSmall := h.small q hLive
        have hBack : ((ofNat 32 (n.pcb q).pid).signExtend 64).toNat = (n.pcb q).pid := by
          rw [signExtend_small hSmall, toNat_ofNat]
          omega
        rw [State.setPcb_self]
        dsimp only
        split
        · exact hBack
        · next hSome => exact (hOwn q hTarget hLive hAlive).resolve_left hSome
      · rw [State.setPcb_of_ne hne]

theorem Numbered.Counts.step {act : NumberedAct} (h : n.Counts) (hUnused : TakesUnused n act)
    (hStep : NumberedActs n act n') :
    n'.Counts := by
  cases hStep with
  | kernel hOther hActs => exact .ages h (hActs.ages hOther)
  | fork t cloneFiles m reserved hCalls hReserved => exact h.fork t cloneFiles m reserved hUnused
  | spawn parent thread hParent => exact h.spawn parent thread hUnused.1 hUnused.2
  | spawnFails => exact .skips h
  | createKernelThread pcb memory hPcb =>
    cases memory with
    | false => exact h
    | true => exact h.createThread _ _ (hUnused rfl)
  | createUserThread pcb memory hPcb =>
    cases memory with
    | false => exact h
    | true => exact h.createThread _ _ (hUnused rfl)
  | threadClone t memory finished hCalls =>
    cases memory with
    | false => exact h
    | true =>
      cases finished with
      | false => exact h
      | true => exact h.createThread _ _ (hUnused rfl rfl)
  | apuIdle c hCpu hNone => exact .addsThread h (newIdle_addsThread n.toState c) hUnused
  | setpgid t pid pgid hCalls => exact .ages h (sysSetpgid_ages h (n.group t) pid pgid hUnused)

end

/-- The first program, on the processor `c`. -/
def Numbered.runs (n : Numbered) (c : CpuId) (t : TcbId) : Numbered :=
  { n with toKernel := n.withState (switchTo n.toState c t) }

def single : Numbered := ((boot 1).spawn none true).runs 0 1

end OpenXJ380.Process
