import OpenXJ380.Process.References
import OpenXJ380.Process.Tree

/-! # The files of a fork

A fork shares the table of its parent or copies it; when it fails, what it took is
given back, but for the handles of a copy that was not finished.
-/

namespace OpenXJ380.Process

open Function

theorem copyNodes_rest (node : Nat → Bool) (t : TableId) (queue : List Descriptor) (k : Nat) (f : Files) :
    (copyNodes node t queue k f).1.counter = f.counter ∧ (copyNodes node t queue k f).1.counters = f.counters ∧
      (copyNodes node t queue k f).1.tables = f.tables ∧
      ∀ u, u ≠ t → (copyNodes node t queue k f).1.held u = f.held u := by
  induction queue generalizing k f with
  | nil => exact ⟨rfl, rfl, rfl, fun _ _ => rfl⟩
  | cons d rest ih =>
    unfold copyNodes
    split
    · obtain ⟨hCounter, hCounters, hTables, hHeld⟩ := ih (k + 1) ((fdDup f d.data).enqueue t ⟨d.index, f.handles⟩)
      refine ⟨hCounter, hCounters, hTables, fun u hu => (hHeld u hu).trans ?_⟩
      exact (held_setTable (fdDup f d.data) t u _).trans (if_neg hu)
    · exact ⟨rfl, rfl, rfl, fun _ _ => rfl⟩

variable {f files : Files} {s : State} {parent : PcbId} {m : ForkMemory} {fileOpen : Option TableId}
  {cloneFiles : Bool} {c : CounterId}

theorem queueCopy_rest {f' : Files} {src : TableId} {queue : Bool} {node : Nat → Bool} {copy : Option TableId}
    (hCopy : queueCopy f src queue node = (f', copy)) : f'.counter = f.counter ∧ f'.counters = f.counters ∧
      f.tables ≤ f'.tables ∧ ∀ u, u < f.tables → f'.held u = f.held u := by
  have hNew : ∀ u, u < f.tables → f.newTable.held u = f.held u := by
    intro u hu
    exact (held_setTable f f.tables u []).trans (if_neg hu.ne)
  obtain ⟨hCounter, hCounters, hTables, hHeld⟩ := copyNodes_rest node f.tables (f.table src) 0 f.newTable
  unfold Process.queueCopy at hCopy
  split at hCopy
  · cases hCopy
    exact ⟨rfl, rfl, le_rfl, fun _ _ => rfl⟩
  · split at hCopy
    · rename_i hNodes
      rw [hNodes] at hCounter hCounters hTables hHeld
      cases hCopy
      exact ⟨hCounter, hCounters, hTables.symm ▸ Nat.le_succ _, fun u hu => (hHeld u hu.ne).trans (hNew u hu)⟩
    · rename_i hNodes
      rw [hNodes] at hCounter hCounters hTables hHeld
      cases hCopy
      refine ⟨hCounter, hCounters, hTables.symm ▸ Nat.le_succ _, fun u hu => ?_⟩
      rw [← hNew u hu, ← hHeld u hu.ne]
      exact (held_setTable _ f.tables u []).trans (if_neg hu.ne)

def ForkCopies (s : State) (parent : PcbId) (cloneFiles : Bool) (m : ForkMemory) : Prop :=
  cloneFiles = false → m.queue = true → ∀ t ∈ (s.pcb parent).fileOpen, CopiesAll m.node (s.files.table t)

structure Copied (s : State) (files : Files) (fileOpen : Option TableId) : Prop where
  failed : fileOpen = none → Filed files s.Uses
  made : ∀ t ∈ fileOpen, t = s.files.tables ∧ Filed files fun u => s.Uses u ∨ u = t
  counter : files.counter = s.files.counter
  counters : files.counters = s.files.counters
  tables : s.files.tables ≤ files.tables
  held : ∀ u, u < s.files.tables → files.held u = s.files.held u

theorem forkFiles_copied (hShared : Shared s) (hCopies : ForkCopies s parent false m) {refs : Option CounterId}
    (h : forkFiles s parent false m = (files, fileOpen, refs)) :
    ∃ files', Copied s files' fileOpen ∧ (m.counter ∧ files = files'.newCounter ∧ refs = some s.files.counters ∨
      m.counter = false ∧ files = files' ∧ refs = none) := by
  have hEnd : ∀ files' copy, Copied s files' copy →
      (if m.counter then (files'.newCounter, copy, some files'.counters) else (files', copy, none)) =
        (files, fileOpen, refs) →
      ∃ files', Copied s files' fileOpen ∧ (m.counter ∧ files = files'.newCounter ∧
        refs = some s.files.counters ∨ m.counter = false ∧ files = files' ∧ refs = none) := by
    intro files' copy hCopied hEq
    split_ifs at hEq with hCounter
    · cases hEq
      exact ⟨_, hCopied, .inl ⟨hCounter, rfl, congrArg some hCopied.counters⟩⟩
    · cases hEq
      exact ⟨_, hCopied, .inr ⟨Bool.not_eq_true _ ▸ hCounter, rfl, rfl⟩⟩
  unfold forkFiles at h
  rw [if_neg Bool.false_ne_true] at h
  rcases hOpen : (s.pcb parent).fileOpen with _ | t
  · rw [hOpen] at h
    exact hEnd s.files none ⟨fun _ => hShared.filed, nofun, rfl, rfl, le_rfl, fun _ _ => rfl⟩ h
  · rcases hQueue : queueCopy s.files t m.queue m.node with ⟨files', copy⟩
    rw [hOpen] at h
    simp only [hQueue] at h
    obtain ⟨hFailed, hMade⟩ := hShared.filed.queueCopy (fun hq => hCopies rfl hq t hOpen) hQueue
    obtain ⟨hCounter, hCounters, hTables, hHeld⟩ := queueCopy_rest hQueue
    exact hEnd files' copy ⟨hFailed, hMade, hCounter, hCounters, hTables, hHeld⟩ h

theorem forkFiles_accounts (hParent : s.Sound parent) (hCopies : ForkCopies s parent cloneFiles m) {t : TableId}
    (h : forkFiles s parent cloneFiles m = (files, some t, some c)) :
    Accounts s (newborn s (forkBlock s parent) files (some t) (some c)) := by
  have hJoins := newborn_joins s (forkBlock s parent) files t c
  refine ⟨newborn_follows s _ files _ _ rfl, fun hShared => ?_⟩
  cases cloneFiles with
  | true =>
    simp only [forkFiles, if_true, Prod.mk.injEq] at h
    obtain ⟨hFiles, hOpen, hRefs⟩ := h
    have hMem := hParent.sharers hOpen
    rw [hRefs] at hFiles
    subst hFiles
    exact ⟨hShared.joins hMem hRefs hJoins rfl, hJoins.retains (fun _ => ⟨parent, hMem⟩) le_rfl fun _ _ => rfl⟩
  | false =>
    obtain ⟨files', hCopied, ⟨-, rfl, hRefs⟩ | ⟨-, -, hRefs⟩⟩ := forkFiles_copied hShared hCopies h
    · cases hRefs
      obtain ⟨rfl, hFiled⟩ := hCopied.made t rfl
      have hNew : ¬s.Uses s.files.tables := fun hUses => lt_irrefl _ (hShared.filed.alive _ hUses).1
      have hFiled' : Filed files'.newCounter fun u => s.Uses u ∨ u = s.files.tables := { hFiled with }
      refine ⟨hShared.owns hJoins hNew hFiled' ?_ ?_, hJoins.retains (absurd · (lt_irrefl _))
        hCopied.tables hCopied.held⟩
      · exact congrArg Nat.succ hCopied.counters
      · show update files'.counter files'.counters 1 = _
        rw [hCopied.counter, hCopied.counters]
    · cases hRefs

def freeOpen (f : Files) : Option TableId → Files
  | none => f
  | some t => freeFdHandleQueue f t

/-- What `free_partial_process` makes of the files. -/
def partialFiles (f : Files) (fileOpen : Option TableId) (refs : Option CounterId) : Files :=
  if (fdTableUnref f refs).2 then freeOpen (fdTableUnref f refs).1 fileOpen else (fdTableUnref f refs).1

theorem partialFiles_kept (h : ¬f.counter c ≤ 1) (fileOpen : Option TableId) :
    partialFiles f fileOpen (some c) = { f with counter := update f.counter c (f.counter c - 1) } := by
  rw [partialFiles, fdTableUnref_kept h]
  rfl

theorem partialFiles_last (h : f.counter c ≤ 1) (fileOpen : Option TableId) :
    partialFiles f fileOpen (some c) = freeOpen { f with
      counter := update f.counter c (f.counter c - 1)
      dropped := update f.dropped c (f.dropped c + 1) } fileOpen := by
  rw [partialFiles, fdTableUnref_last h]
  rfl

structure Restored (s : State) (files : Files) : Prop where
  filed : Filed files s.Uses
  counters : s.files.counters ≤ files.counters
  counter : ∀ c, c < s.files.counters → files.counter c = s.files.counter c
  tables : s.files.tables ≤ files.tables
  held : ∀ u, u < s.files.tables → files.held u = s.files.held u

theorem Copied.restored (hShared : Shared s) {files' : Files}
    (hCopied : Copied s files fileOpen) (hSame : ∀ used, Filed files used → Filed files' used)
    (hCounters : s.files.counters ≤ files'.counters)
    (hCounter : ∀ c, c < s.files.counters → files'.counter c = s.files.counter c)
    (hTables : files'.tables = files.tables) (hHeld : ∀ u, files'.held u = files.held u) :
    Restored s (freeOpen files' fileOpen) := by
  cases fileOpen with
  | none =>
    exact ⟨hSame _ (hCopied.failed rfl), hCounters, hCounter, hTables.symm ▸ hCopied.tables,
      fun u hu => (hHeld u).trans (hCopied.held u hu)⟩
  | some t =>
    obtain ⟨rfl, hFiled⟩ := hCopied.made t rfl
    have hNew : ¬s.Uses s.files.tables := fun hUses => lt_irrefl _ (hShared.filed.alive _ hUses).1
    obtain ⟨hCounter', hCounters'⟩ := freeFdHandleQueue_counters files' s.files.tables
    refine ⟨?_, hCounters'.symm ▸ hCounters, fun c hc => (congrFun hCounter' c).trans (hCounter c hc), ?_, ?_⟩
    · refine ((hSame _ hFiled).free (.inr rfl)).congr fun u => ?_
      constructor
      · exact fun hu => hu.1.resolve_right hu.2
      · rintro hu
        refine ⟨.inl hu, ?_⟩
        rintro rfl
        exact hNew hu
    · rw [freeOpen, (freeFdHandleQueue_rest files' (Nat.succ_ne_self s.files.tables)).2, hTables]
      exact hCopied.tables
    · intro u hu
      rw [freeOpen, (freeFdHandleQueue_rest files' hu.ne).1, hHeld, hCopied.held u hu]

theorem forkFiles_restored (hShared : Shared s) (hParent : s.Sound parent)
    (hCopies : ForkCopies s parent cloneFiles m) {refs : Option CounterId}
    (h : forkFiles s parent cloneFiles m = (files, fileOpen, refs)) :
    Restored s (partialFiles files fileOpen refs) := by
  cases cloneFiles with
  | true =>
    simp only [forkFiles, if_true, Prod.mk.injEq] at h
    obtain ⟨rfl, rfl, rfl⟩ := h
    have hCount : ∀ t, (s.pcb parent).fileOpen = some t → ∃ c, (s.pcb parent).fileOpenSharedRefs = some c ∧
        0 < s.files.counter c := by
      intro t ht
      have hMem := hParent.sharers ht
      obtain ⟨c, hc, -, hCard⟩ := hShared.refs parent t hMem
      exact ⟨c, hc, hCard ▸ Finset.card_pos.2 ⟨parent, hMem⟩⟩
    have hSame : Restored s s.files := ⟨hShared.filed, le_rfl, fun _ _ => rfl, le_rfl, fun _ _ => rfl⟩
    rcases hRefs : (s.pcb parent).fileOpenSharedRefs with _ | c
    · rcases hOpen : (s.pcb parent).fileOpen with _ | t
      · exact hSame
      · obtain ⟨c, hc, -⟩ := hCount t hOpen
        rw [hRefs] at hc
        cases hc
    · -- the counter goes up and down again
      have hCounter : ∀ d, update (update s.files.counter c (s.files.counter c + 1)) c
          (s.files.counter c + 1 - 1) d = s.files.counter d := by
        intro d
        rw [update_idem, Nat.add_sub_cancel, update_eq_self]
      have hUp : (fdTableRef s.files (some c)).counter c = s.files.counter c + 1 := update_self ..
      obtain hZero | hPos := Nat.eq_zero_or_pos (s.files.counter c)
      · have hOpen : (s.pcb parent).fileOpen = none := by
          rcases hOpen : (s.pcb parent).fileOpen with _ | t
          · rfl
          · obtain ⟨d, hd, hPos⟩ := hCount t hOpen
            rw [hRefs] at hd
            cases hd
            omega
        rw [hOpen, partialFiles_last (by rw [hUp, hZero]), hUp]
        exact ⟨{ hShared.filed with }, le_rfl, fun d _ => hCounter d, le_rfl, fun _ _ => rfl⟩
      · have hKept : ¬(fdTableRef s.files (some c)).counter c ≤ 1 := by
          rw [hUp]
          exact not_le.2 (Nat.succ_lt_succ hPos)
        rw [partialFiles_kept hKept, hUp]
        exact ⟨{ hShared.filed with }, le_rfl, fun d _ => hCounter d, le_rfl, fun _ _ => rfl⟩
  | false =>
    obtain ⟨files', hCopied, ⟨-, rfl, rfl⟩ | ⟨-, rfl, rfl⟩⟩ := forkFiles_copied hShared hCopies h
    · have hOne : files'.newCounter.counter s.files.counters = 1 := by
        rw [← hCopied.counters]
        exact update_self ..
      rw [partialFiles_last hOne.le]
      refine hCopied.restored hShared (fun used hFiled => { hFiled with }) ?_ ?_ rfl fun _ => rfl
      · show s.files.counters ≤ files'.counters + 1
        rw [hCopied.counters]
        exact Nat.le_succ _
      · intro c hc
        have hne : c ≠ s.files.counters := hc.ne
        show update (update files'.counter files'.counters 1) s.files.counters _ c = _
        rw [update_of_ne hne, hCopied.counters, update_of_ne hne, hCopied.counter]
    · exact hCopied.restored hShared (fun _ => id) hCopied.counters.symm.le
        (fun c _ => congrFun hCopied.counter c) rfl fun _ => rfl

structure Stillborn (s s' : State) : Prop where
  pcbs : s'.pcbs = s.pcbs + 1
  freed : s'.pcbFreed s.pcbs ≠ 0
  old : ∀ q, q ≠ s.pcbs → s'.pcbFreed q = s.pcbFreed q ∧ (s'.pcb q).fileOpen = (s.pcb q).fileOpen ∧
    (s'.pcb q).fileOpenSharedRefs = (s.pcb q).fileOpenSharedRefs
  child : ∀ q p, p ∈ (s'.pcb q).childPcb → p ∈ (s.pcb q).childPcb
  tcbs : s'.tcbs = s.tcbs
  tcb : s'.tcb = s.tcb
  cpus : s'.cpus = s.cpus
  currentTask : s'.currentTask = s.currentTask

theorem Stillborn.accounts {s' : State} (h : Stillborn s s') (hFiles : Shared s → Restored s s'.files) :
    Accounts s s' := by
  have hShares : SameShares s s' := by
    constructor
    · intro t
      ext q
      rw [State.mem_sharers, State.mem_sharers, h.pcbs]
      obtain rfl | hq := eq_or_ne q s.pcbs
      · constructor
        · exact fun hIn => absurd hIn.2.1 h.freed
        · exact fun hIn => absurd hIn.1 (lt_irrefl _)
      · obtain ⟨hFreed, hOpen, -⟩ := h.old q hq
        rw [hFreed, hOpen]
        exact ⟨fun hIn => ⟨lt_of_le_of_ne (Nat.le_of_lt_succ hIn.1) hq, hIn.2⟩,
          fun hIn => ⟨Nat.lt_succ_of_lt hIn.1, hIn.2⟩⟩
    · intro q t hq
      exact (h.old q (State.mem_sharers.1 hq).1.ne).2.2
  refine ⟨⟨?_, fun q p hp => .inl (h.child q p hp), h.tcbs.symm.le, ?_, ?_⟩, ?_⟩
  · intro q hq
    obtain ⟨hFreed, hOpen, -⟩ := h.old q hq.1.ne
    rw [State.Sound, h.pcbs, hFreed, hOpen]
    exact ⟨Nat.lt_succ_of_lt hq.1, hq.2⟩
  · intro t ht
    exact .inl ⟨h.tcbs ▸ ht, congrArg Tcb.parentGroup (congrFun h.tcb t)⟩
  · intro c t hc ht
    exact .inl ⟨h.cpus ▸ hc, h.currentTask ▸ ht⟩
  · intro hShared
    have hRestored := hFiles hShared
    exact ⟨hShared.keep hShares hRestored.filed hRestored.counters hRestored.counter,
      hShares.retains hRestored.tables fun u hu x hx => (hRestored.held u hu).symm ▸ hx⟩

theorem newborn_stillborn (s : State) (parent : PcbId) (files files' : Files) (fileOpen : Option TableId)
    (refs : Option CounterId) :
    Stillborn s { (newborn s (forkBlock s parent) files fileOpen refs).freePcb s.pcbs with files := files' } := by
  have hFreed : ∀ q, ((newborn s (forkBlock s parent) files fileOpen refs).freePcb s.pcbs).pcbFreed q =
      if q = s.pcbs then (newborn s (forkBlock s parent) files fileOpen refs).pcbFreed s.pcbs + 1
      else (newborn s (forkBlock s parent) files fileOpen refs).pcbFreed q := fun q => update_apply ..
  refine ⟨rfl, ?_, ?_, ?_, rfl, rfl, rfl, rfl⟩
  · show ((newborn s (forkBlock s parent) files fileOpen refs).freePcb s.pcbs).pcbFreed s.pcbs ≠ 0
    rw [hFreed, if_pos rfl]
    exact Nat.succ_ne_zero _
  · intro q hq
    have hPcb := newborn_of_ne s (forkBlock s parent) files fileOpen refs hq
    refine ⟨?_, congrArg Pcb.fileOpen hPcb, congrArg Pcb.fileOpenSharedRefs hPcb⟩
    show ((newborn s (forkBlock s parent) files fileOpen refs).freePcb s.pcbs).pcbFreed q = _
    rw [hFreed, if_neg hq, newborn_freed, if_neg hq]
  · intro q p hp
    have hp : p ∈ ((newborn s (forkBlock s parent) files fileOpen refs).pcb q).childPcb := hp
    obtain rfl | hq := eq_or_ne q s.pcbs
    · rw [newborn_self] at hp
      cases hp
    · rwa [newborn_of_ne _ _ _ _ _ hq] at hp

theorem freePartialProcess_eq (s : State) (p : PcbId) : freePartialProcess s p false =
    { s.freePcb p with
      files := partialFiles s.files (s.pcb p).fileOpen (s.pcb p).fileOpenSharedRefs } := by
  unfold freePartialProcess partialFiles freeOpen
  rfl

theorem newborn_none (s : State) (parent : PcbId) :
    newborn s (forkBlock s parent) s.files none none = s.newPcb (forkBlock s parent) := by
  have hSelf := newPcb_self s (forkBlock s parent)
  unfold newborn State.withFiles
  rw [hSelf]
  show (s.newPcb (forkBlock s parent)).setPcb s.pcbs (forkBlock s parent) = _
  have hTwice : update (s.newPcb (forkBlock s parent)).pcb s.pcbs (forkBlock s parent) =
      (s.newPcb (forkBlock s parent)).pcb := update_idem ..
  rw [State.setPcb, hTwice]

theorem processFork_accounts (hParent : s.Sound parent) (hChild : ∀ p, p ∈ (s.pcb parent).childPcb → s.Sound p)
    (hCopies : m.block → m.space → ForkCopies s parent cloneFiles m) :
    Accounts s (processFork s parent cloneFiles m).1 := by
  have hne : parent ≠ s.pcbs := hParent.1.ne
  unfold processFork
  split
  · exact .refl s
  · rename_i hBlock
    split
    · have hFreed := newborn_stillborn s parent s.files s.files none none
      rw [newborn_none] at hFreed
      exact hFreed.accounts fun hShared =>
        ⟨hShared.filed, le_rfl, fun _ _ => rfl, le_rfl, fun _ _ => rfl⟩
    · rename_i hSpace
      have hCopies := hCopies (by simpa using hBlock) (by simpa using hSpace)
      rcases hFiles : forkFiles s parent cloneFiles m with ⟨files, fileOpen, refs⟩
      have hFreed : Accounts s
          (freePartialProcess (newborn s (forkBlock s parent) files fileOpen refs) s.pcbs false) := by
        rw [freePartialProcess_eq, newborn_self]
        exact (newborn_stillborn s parent files _ fileOpen refs).accounts fun hShared =>
          forkFiles_restored hShared hParent hCopies hFiles
      dsimp only
      split
      · exact hFreed
      · rename_i hTaken
        rw [not_or, not_or] at hTaken
        obtain ⟨t, rfl⟩ := Option.ne_none_iff_exists'.1 hTaken.1
        obtain ⟨c, rfl⟩ := Option.ne_none_iff_exists'.1 hTaken.2.1
        split
        · have hNot : s.pcbs ∉ ((newborn s (forkBlock s parent) files (some t) (some c)).pcb parent).childPcb := by
            rw [newborn_of_ne _ _ _ _ _ hne]
            intro hp
            exact lt_irrefl _ (hChild _ hp).1
          have hTask : ((addChild (newborn s (forkBlock s parent) files (some t) (some c)) parent s.pcbs).pcb
              s.pcbs).parentTask = some parent := by
            rw [addChild, State.setPcb_of_ne hne.symm, newborn_self]
            rfl
          have hEq : freePartialProcess
              (addChild (newborn s (forkBlock s parent) files (some t) (some c)) parent s.pcbs)
              s.pcbs true = freePartialProcess
                  (newborn s (forkBlock s parent) files (some t) (some c)) s.pcbs false := by
            unfold freePartialProcess
            rw [if_pos rfl, if_neg Bool.false_ne_true, hTask, removeChild_addChild hNot]
          show Accounts s (freePartialProcess (addChild (newborn s (forkBlock s parent) files (some t) (some c)) parent
            s.pcbs) s.pcbs true)
          rw [hEq]
          exact hFreed
        · exact started_accounts (forkFiles_accounts hParent hCopies hFiles) parent

end OpenXJ380.Process
