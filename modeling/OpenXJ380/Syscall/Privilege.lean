import OpenXJ380.Syscall.Model

/-! # What a return from a signal may raise

All registers come from the memory of the user. `SYSRET` clears one of the privileged
flags and lets the others through.
-/

namespace OpenXJ380.Syscall

open Signal WordMemory

def privilegedFlags : Word := IOPL ||| NT ||| VM ||| IF

def userAddress (a : Word) : Prop := a.toNat < 2 ^ 47

structure Unprivileged (gdt : List Word) (u : User) : Prop where
  rip : userAddress u.rip
  flags : u.rflags &&& privilegedFlags = IF
  ds : loads gdt 3 u.ds = true
  es : loads gdt 3 u.es = true

def ReturnsUnprivileged (gdt : List Word) (e : Entry) : Prop :=
  ∀ m delivered, cSyscallHandler e = some (m, delivered) → m.task.blocked &&& unblockable = 0 ∧
    ∃ u, retFromSyscall gdt m.regs e.user.rsp = some u ∧ Unprivileged gdt u

/-- The frame has flags and selectors of user mode, and an address of the lower half is next. -/
structure KeepsPrivilege (gdt : List Word) (e : Entry) : Prop where
  flags : (savedRegs e.memory e.user.rsp).rflags &&& (IOPL ||| NT ||| IF) = IF
  ds : loads gdt 3 ((savedRegs e.memory e.user.rsp).ds.setWidth 16) = true
  es : loads gdt 3 ((savedRegs e.memory e.user.rsp).es.setWidth 16) = true
  handler : Delivers e.pagesAfter e.performed → userAddress (nextAction e.performed).saHandler
  rip : ¬ Delivers e.pagesAfter e.performed → userAddress (savedRegs e.memory e.user.rsp).rip

section

variable {e : Entry} {gdt : List Word} {m : Machine} {delivered : Bool} {u : User} {regs : X64Regs} {userRsp : Word}

theorem sysretFlags_privileged (x : Word) : sysretFlags x &&& privilegedFlags = x &&& (IOPL ||| NT ||| IF) := by
  have hPassed : (0x3c7fd7 : Word) &&& privilegedFlags = IOPL ||| NT ||| IF := by decide
  have hOne : (2 : Word) &&& privilegedFlags = 0#64 := by decide
  rw [sysretFlags, BitVec.and_or_distrib_right, BitVec.and_assoc, hPassed, hOne, BitVec.or_zero]

theorem loads_kernel {sel : Selector} (h : loads gdt 3 sel) : loads gdt 0 sel := by
  unfold loads at h ⊢
  split at h
  · next hNull => rw [if_pos hNull]
  next hNull =>
  rw [if_neg hNull]
  split at h
  · cases h
  next hTable =>
  rw [if_neg hTable]
  cases hEntry : gdt[(sel >>> 3).toNat]? with
  | none =>
    rw [hEntry] at h
    cases h
  | some entry =>
    rw [hEntry] at h
    simp only [Bool.and_eq_true, Bool.or_eq_true, decide_eq_true_eq] at h ⊢
    obtain ⟨hKind, hConforms | ⟨hRpl, -⟩⟩ := h
    · exact ⟨hKind, .inl hConforms⟩
    · exact ⟨hKind, .inr ⟨hRpl, Nat.zero_le _⟩⟩

theorem userAddress_canonical {a : Word} (h : userAddress a) : canonical a := by
  rw [canonical, Bool.or_eq_true, decide_eq_true_eq]
  exact .inl h

structure Resumed (regs : X64Regs) (userRsp : Word) (u : User) : Prop where
  rip : u.rip = regs.rip
  rflags : u.rflags = sysretFlags regs.rflags
  ds : u.ds = regs.ds.setWidth 16
  es : u.es = regs.es.setWidth 16

theorem retFromSyscall_resumed (h : retFromSyscall gdt regs userRsp = some u) : Resumed regs userRsp u := by
  unfold retFromSyscall at h
  dsimp only at h
  split at h
  · cases h
    exact ⟨rfl, rfl, rfl, rfl⟩
  · cases h

theorem retFromSyscall_unprivileged (userRsp : Word) :
    (∃ u, retFromSyscall gdt regs userRsp = some u ∧ Unprivileged gdt u) ↔
    userAddress regs.rip ∧ regs.rflags &&& (IOPL ||| NT ||| IF) = IF ∧ loads gdt 3 (regs.ds.setWidth 16) ∧
      loads gdt 3 (regs.es.setWidth 16) := by
  constructor
  · rintro ⟨u, hResumes, h⟩
    have hResumed := retFromSyscall_resumed hResumes
    refine ⟨hResumed.rip ▸ h.rip, ?_, hResumed.ds ▸ h.ds, hResumed.es ▸ h.es⟩
    rw [← sysretFlags_privileged, ← hResumed.rflags]
    exact h.flags
  · rintro ⟨hRip, hFlags, hDs, hEs⟩
    have hAll : (loads gdt 0 (regs.ds.setWidth 16) && loads gdt 0 (regs.es.setWidth 16) && canonical regs.rip) := by
      rw [loads_kernel hDs, loads_kernel hEs, userAddress_canonical hRip]
      rfl
    obtain ⟨u, hResumes⟩ : ∃ u, retFromSyscall gdt regs userRsp = some u := by
      unfold retFromSyscall
      exact ⟨_, if_pos hAll⟩
    have hResumed := retFromSyscall_resumed hResumes
    refine ⟨u, hResumes, ?_⟩
    constructor
    · rw [hResumed.rip]
      exact hRip
    · rw [hResumed.rflags, sysretFlags_privileged]
      exact hFlags
    · rw [hResumed.ds]
      exact hDs
    · rw [hResumed.es]
      exact hEs

theorem performed_task (h : e.Restores) :
    e.performed.task.signal = e.task.signal ∧ e.performed.task.blocked &&& unblockable = 0 := by
  rw [performed_frame h]
  exact ⟨rfl, clear_bits _ _⟩

theorem returnsUnprivileged_iff (h : e.Restores) :
    ReturnsUnprivileged gdt e ↔ Kills e.performed ∨ KeepsPrivilege gdt e := by
  have hRegs := performed_restores h
  obtain ⟨hKills, hNone⟩ | ⟨hLives, m, delivered, hSome, hDelivery⟩ :=
    signalDeliverPending_delivery e.pagesAfter e.performed
  · refine iff_of_true ?_ (.inl hKills)
    intro m delivered hHandled
    cases hNone.symm.trans hHandled
  have hOnly : ReturnsUnprivileged gdt e ↔ userAddress m.regs.rip ∧ m.regs.rflags &&& (IOPL ||| NT ||| IF) = IF ∧
      loads gdt 3 (m.regs.ds.setWidth 16) ∧ loads gdt 3 (m.regs.es.setWidth 16) := by
    rw [← retFromSyscall_unprivileged e.user.rsp]
    constructor
    · exact fun hReturns => (hReturns m delivered hSome).2
    · intro hResumes m' delivered' hHandled
      cases hSome.symm.trans hHandled
      exact ⟨hDelivery.blocked (performed_task h).2, hResumes⟩
  rw [hOnly]
  cases delivered with
  | true =>
    have hEntered : Delivers e.pagesAfter e.performed := hDelivery.entered.mp rfl
    rw [hDelivery.enters rfl, handlerRegs, hRegs]
    constructor
    · rintro ⟨hRip, hFlags, hDs, hEs⟩
      exact .inr ⟨hFlags, hDs, hEs, fun _ => hRip, fun hNot => absurd hEntered hNot⟩
    · rintro (hKills | hKeeps)
      · exact absurd hKills hLives
      · exact ⟨hKeeps.handler hEntered, hKeeps.flags, hKeeps.ds, hKeeps.es⟩
  | false =>
    have hNot : ¬ Delivers e.pagesAfter e.performed := fun hEntered =>
      Bool.false_ne_true (hDelivery.entered.mpr hEntered)
    rw [hDelivery.stays rfl, hRegs]
    constructor
    · rintro ⟨hRip, hFlags, hDs, hEs⟩
      exact .inr ⟨hFlags, hDs, hEs, (absurd · hNot), fun _ => hRip⟩
    · rintro (hKills | hKeeps)
      · exact absurd hKills hLives
      · exact ⟨hKeeps.rip hNot, hKeeps.flags, hKeeps.ds, hKeeps.es⟩

end

/-- A return from a signal raises nothing if and only if the frame does not; then the privileged flags are the same
whatever the frame. -/
theorem signal_return_unprivileged {gdt : List Word} {e : Entry} (hRestores : e.Restores) :
    (ReturnsUnprivileged gdt e ↔ Kills e.performed ∨ KeepsPrivilege gdt e) ∧
      ∀ e' m delivered u m' delivered' u', e'.Restores → KeepsPrivilege gdt e → KeepsPrivilege gdt e' →
        cSyscallHandler e = some (m, delivered) → retFromSyscall gdt m.regs e.user.rsp = some u →
        cSyscallHandler e' = some (m', delivered') → retFromSyscall gdt m'.regs e'.user.rsp = some u' →
        u.rflags &&& privilegedFlags = u'.rflags &&& privilegedFlags := by
  refine ⟨returnsUnprivileged_iff hRestores, ?_⟩
  rintro e' m delivered u m' delivered' u' hRestores' hKeeps hKeeps' hHandled hResumes hHandled' hResumes'
  obtain ⟨v, hResumesV, hV⟩ := ((returnsUnprivileged_iff hRestores).mpr (.inr hKeeps) m delivered hHandled).2
  obtain ⟨v', hResumesV', hV'⟩ := ((returnsUnprivileged_iff hRestores').mpr (.inr hKeeps') m' delivered' hHandled').2
  cases hResumes.symm.trans hResumesV
  cases hResumes'.symm.trans hResumesV'
  exact hV.flags.trans hV'.flags.symm

/-- Words of a frame with these flags, where the words of the registers begin at the third. -/
def frameMemory (rflags : Word) : Memory :=
  storeWords (fun _ => 0) 0x10000 (frameWords 10 0 { zeroRegs with rip := 0x400010, rflags := rflags })

def sigreturn (rflags : Word) : Entry where
  user := plainUser
  below := zeroRegs
  task := handlingTask 0
  memory := frameMemory rflags
  call := .rtSigreturn
  pages := allPages
  pagesAfter := allPages

theorem sigreturn_saved (rflags : Word) : (sigreturn rflags).Restores ∧
    savedRegs (sigreturn rflags).memory (sigreturn rflags).user.rsp =
      { zeroRegs with rip := 0x400010, rflags := rflags } := by
  have hHolds := holds_frame (fun _ => 0) ⟨0x10000, { zeroRegs with rip := 0x400010, rflags := rflags }, 0, 0, false⟩ 10
  exact ⟨⟨rfl, rfl, hHolds.1⟩, hHolds.2.2⟩

theorem findDeliverableSignal_none {task : Tcb} (h : task.signal = 0) : findDeliverableSignal task = 0 := by
  have hNone : ∀ sig, decide ((task.signal &&& ~~~task.blocked) &&& sigmask sig ≠ 0) = false := by
    intro sig
    rw [h]
    simp
  rw [findDeliverableSignal, List.find?_eq_none.mpr fun sig _ => (hNone sig).symm ▸ nofun]
  rfl

theorem sigreturn_quiet (rflags : Word) : findDeliverableSignal (sigreturn rflags).performed.task = 0 :=
  findDeliverableSignal_none (performed_task (sigreturn_saved rflags).1).1

theorem signal_return_unprivileged_plain : ReturnsUnprivileged (gdtEntries 0) (sigreturn 0x202) := by
  obtain ⟨hRestores, hSaved⟩ := sigreturn_saved 0x202
  refine (signal_return_unprivileged hRestores).1.mpr (.inr ?_)
  constructor
  · rw [hSaved]
    decide
  · rw [hSaved]
    decide
  · rw [hSaved]
    decide
  · exact fun hDelivers => absurd (sigreturn_quiet 0x202) hDelivers.1.2.1
  · intro _
    rw [hSaved, userAddress]
    decide

/-- A frame with all of `IOPL` gives user mode the ports. -/
theorem signal_return_privileged : (sigreturn 0x3202).Restores ∧
    ∃ m u, cSyscallHandler (sigreturn 0x3202) = some (m, false) ∧
      retFromSyscall (gdtEntries 0) m.regs (sigreturn 0x3202).user.rsp = some u ∧ u.rflags &&& IOPL = IOPL ∧
      ¬ ReturnsUnprivileged (gdtEntries 0) (sigreturn 0x3202) := by
  obtain ⟨hRestores, hSaved⟩ := sigreturn_saved 0x3202
  have hQuiet := sigreturn_quiet 0x3202
  obtain ⟨hKills, _⟩ | ⟨_, m, delivered, hSome, hDelivery⟩ :=
    signalDeliverPending_delivery (sigreturn 0x3202).pagesAfter (sigreturn 0x3202).performed
  · exact absurd hQuiet hKills.2.1
  cases delivered with
  | true => exact absurd hQuiet (hDelivery.entered.mp rfl).1.2.1
  | false =>
    have hRegs : m.regs = { zeroRegs with rip := 0x400010, rflags := 0x3202 } :=
      (hDelivery.stays rfl).trans ((performed_restores hRestores).trans hSaved)
    obtain ⟨u, hResumes⟩ : ∃ u, retFromSyscall (gdtEntries 0) m.regs (sigreturn 0x3202).user.rsp = some u := by
      rw [hRegs]
      exact ⟨_, rfl⟩
    have hFlags : u.rflags = 0x3202 := by
      rw [(retFromSyscall_resumed hResumes).rflags, hRegs]
      decide
    refine ⟨hRestores, m, u, hSome, hResumes, by rw [hFlags]; decide, fun hReturns => ?_⟩
    obtain ⟨v, hResumesV, hV⟩ := (hReturns m false hSome).2
    cases hResumes.symm.trans hResumesV
    have hPlain := hV.flags
    rw [hFlags] at hPlain
    exact absurd hPlain (by decide)

end OpenXJ380.Syscall
