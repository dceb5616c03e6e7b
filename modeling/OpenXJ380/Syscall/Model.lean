import OpenXJ380.Signal.Nesting

/-! # The way into the kernel and out of it (`kernel/intr/handler.S`, `kernel/syscall/syscall.cpp`)

`SYSCALL` leads to `syscall_handler`, which puts the registers into a frame for
`c_syscall_handler`; `ret_from_syscall` takes them from there and ends with `SYSRET`.
-/

namespace OpenXJ380.Syscall

open Signal WordMemory

abbrev Selector := BitVec 16

def selectorUserCs : Selector := 0x23
def selectorUserDs : Selector := 0x1b

/-- The descriptors of `init_gdt`, and of `tss_setup` for a task state segment at `tss`. -/
def gdtEntries (tss : Word) : List Word :=
  [0, 0x00a09a0000000000, 0x00c0920000000000, 0x00c0f20000000000, 0x00a0fa0000000000,
    (tss &&& 0xffffff) <<< 16 ||| (tss >>> 24 &&& 0xff) <<< 56 ||| 103 ||| 0x89#64 <<< 40, tss >>> 32]

/-- Whether `DS` or `ES` can be loaded with a selector at a privilege level. -/
def loads (gdt : List Word) (cpl : Nat) (sel : Selector) : Bool :=
  if sel &&& 0xfffc = 0 then true
  else if sel &&& 4 ≠ 0 then false
  else
    match gdt[(sel >>> 3).toNat]? with
    | none => false
    | some entry =>
      let code := entry.getLsbD 43
      let dpl := (entry.extractLsb' 45 2).toNat
      -- It is present, no system descriptor, and not code that cannot be read.
      entry.getLsbD 47 && entry.getLsbD 44 && (!code || entry.getLsbD 41) &&
        (code && entry.getLsbD 42 || (sel &&& 3).toNat ≤ dpl && cpl ≤ dpl)

def canonical (a : Word) : Bool := a.toNat < 2 ^ 47 || 2 ^ 64 - 2 ^ 47 ≤ a.toNat

def IF : Word := 0x200
def IOPL : Word := 0x3000
def NT : Word := 0x4000
def VM : Word := 0x20000

/-- What `SYSRET` makes of the flags. -/
def sysretFlags (r11 : Word) : Word := (r11 &&& 0x3c7fd7) ||| 2

theorem sysretFlags_idem (x : Word) : sysretFlags (sysretFlags x) = sysretFlags x := by
  ext i hi
  simp only [sysretFlags, BitVec.getElem_or, BitVec.getElem_and]
  cases x[i] <;> cases (0x3c7fd7 : Word)[i] <;> cases (2 : Word)[i] <;> rfl

/-- The registers in user mode, with flags that the processor can have there. `SYSCALL` has put `rip` and `rflags` into
`rcx` and `r11`. -/
structure User where
  r15 : Word
  r14 : Word
  r13 : Word
  r12 : Word
  r10 : Word
  r9 : Word
  r8 : Word
  rbx : Word
  rdx : Word
  rsi : Word
  rdi : Word
  rbp : Word
  rax : Word
  rip : Word
  rflags : Word
  rsp : Word
  ds : Selector
  es : Selector
  plain : sysretFlags rflags = rflags

/-- `syscall_handler`; what is below the frame is what was there before. -/
def syscallHandler (u : User) (below : X64Regs) : X64Regs where
  r15 := u.r15
  r14 := u.r14
  r13 := u.r13
  r12 := u.r12
  r11 := u.rflags
  r10 := u.r10
  r9 := u.r9
  r8 := u.r8
  rbx := u.rbx
  rcx := u.rip
  rdx := u.rdx
  rsi := u.rsi
  rdi := u.rdi
  rbp := u.rbp
  ds := u.ds.setWidth 64
  es := u.es.setWidth 64
  rax := u.rax
  func := below.func
  errcode := below.errcode
  rip := below.rip
  cs := below.cs
  rflags := below.rflags
  rsp := below.rsp
  ss := below.ss

/-- What a system call does to its task and to the memory of the user, and what it returns. -/
structure Effect where
  task : Tcb
  memory : Memory
  rax : Word

inductive Call where
  | rtSigreturn
  | other (e : Effect)

/-- The first lines of `c_syscall_handler`. -/
def setFrame (regs : X64Regs) (userRsp : Word) : X64Regs :=
  { regs with
    rip := regs.rcx
    cs := selectorUserCs.setWidth 64
    rflags := regs.r11
    rsp := userRsp
    ss := selectorUserDs.setWidth 64 }

/-- The switch of `c_syscall_handler`. -/
def perform (pages : Nat → Nat → Bool) (m : Machine) : Call → Machine
  | .rtSigreturn => sysSigret pages m
  | .other e => { task := e.task, regs := { m.regs with rax := e.rax }, memory := e.memory }

/-- A thread that makes a system call. `pages` and `pagesAfter` say which pages can be had in the call, and when
signals are delivered. -/
structure Entry where
  user : User
  below : X64Regs
  task : Tcb
  memory : Memory
  call : Call
  pages : Nat → Nat → Bool
  pagesAfter : Nat → Nat → Bool

def Entry.machine (e : Entry) : Machine where
  task := e.task
  regs := setFrame (syscallHandler e.user e.below) e.user.rsp
  memory := e.memory

def Entry.performed (e : Entry) : Machine := perform e.pages e.machine e.call

def cSyscallHandler (e : Entry) : Option (Machine × Bool) := signalDeliverPending e.pagesAfter e.performed

/-- `ret_from_syscall`, where `userRsp` is the `syscall_user_rsp` of the thread; nothing resumes when an instruction of
it is refused. -/
def retFromSyscall (gdt : List Word) (regs : X64Regs) (userRsp : Word) : Option User :=
  let ds := regs.ds.setWidth 16
  let es := regs.es.setWidth 16
  if loads gdt 0 ds && loads gdt 0 es && canonical regs.rip then
    some
      { r15 := regs.r15
        r14 := regs.r14
        r13 := regs.r13
        r12 := regs.r12
        r10 := regs.r10
        r9 := regs.r9
        r8 := regs.r8
        rbx := regs.rbx
        rdx := regs.rdx
        rsi := regs.rsi
        rdi := regs.rdi
        rbp := regs.rbp
        rax := regs.rax
        rip := regs.rip
        rflags := sysretFlags regs.rflags
        rsp := userRsp
        ds := ds
        es := es
        plain := sysretFlags_idem _ }
  else none

def Kills (m : Machine) : Prop :=
  m.regs.cs &&& 3 = 3 ∧ findDeliverableSignal m.task ≠ 0 ∧ (nextAction m).saHandler = SIG_DFL ∧
    (signalInternalDecisions (findDeliverableSignal m.task) = .core ∨
      signalInternalDecisions (findDeliverableSignal m.task) = .term)

def handlerRsp (m : Machine) : Word := retAddr (stackTop m (nextAction m))

def Delivers (pages : Nat → Nat → Bool) (m : Machine) : Prop :=
  Catches m ∧ userRangeMapped pages (frameAddr (stackTop m (nextAction m))) frameSize = true ∧
    userRangeMapped pages (handlerRsp m) 8 = true

/-- The registers that `signal_return` finds where `rsp` points. -/
def savedRegs (memory : Memory) (rsp : Word) : X64Regs :=
  X64Regs.ofWords fun i => loadWord memory (rsp.toNat + 8 * (3 + i))

/-- `signal_return` takes a frame. -/
def Entry.Restores (e : Entry) : Prop :=
  e.call = .rtSigreturn ∧ userRangeMapped e.pages e.user.rsp frameSize = true ∧
    loadWord e.memory e.user.rsp.toNat = signalFrameMagic

/-! # What the way out of the kernel does

A delivery either leaves the registers of the frame as they are or points them at a
handler.
-/

section

open Signal WordMemory

variable {m m' : Machine} {pages : Nat → Nat → Bool} {delivered : Bool}

def handlerRegs (m : Machine) : X64Regs :=
  { m.regs with
    rip := (nextAction m).saHandler
    rsp := handlerRsp m
    rdi := BitVec.ofNat 64 (findDeliverableSignal m.task)
    rsi := 0
    rdx := 0 }

/-- What `signal_deliver_pending` does to a task that it does not kill. -/
structure Delivery (pages : Nat → Nat → Bool) (m m' : Machine) (delivered : Bool) : Prop where
  entered : delivered = true ↔ Delivers pages m
  stays : delivered = false → m'.regs = m.regs
  enters : delivered = true → m'.regs = handlerRegs m
  restorer : delivered = true → loadWord m'.memory (handlerRsp m).toNat = (nextAction m).saRestorer
  blocked : m.task.blocked &&& unblockable = 0 → m'.task.blocked &&& unblockable = 0

theorem delivery_none (hNot : ¬ Delivers pages m) (hRegs : m'.regs = m.regs)
    (hBlocked : m'.task.blocked = m.task.blocked) : Delivery pages m m' false where
  entered := iff_of_false Bool.false_ne_true hNot
  stays _ := hRegs
  enters := nofun
  restorer := nofun
  blocked hZero := hBlocked ▸ hZero

theorem loadWord_stored (memory : Memory) (a : Nat) (w : Word) : loadWord (storeWords memory a [w]) a = w := by
  have hIndex : 0 < [w].length := Nat.zero_lt_one
  have h := loadWord_storeWords memory a hIndex
  simpa using h

theorem deliverFrame_delivery (hCatches : Catches m) (task : Tcb) (hStack : task.sasSsSp = m.task.sasSsSp ∧
    task.sasSsSize = m.task.sasSsSize ∧ task.sasSsFlags = m.task.sasSsFlags) (hMask : task.blocked = m.task.blocked) :
    Delivery pages m
      (deliverFrame pages (findDeliverableSignal m.task) (nextAction m) { m with task := task }).1
      (deliverFrame pages (findDeliverableSignal m.task) (nextAction m) { m with task := task }).2 := by
  have hTop : stackTop { m with task := task } (nextAction m) = stackTop m (nextAction m) := by
    rw [stackTop, stackTop, useAltstack, useAltstack, hStack.1, hStack.2.1, hStack.2.2]
  have hKept : (if useAltstack task (nextAction m) then { task with sasSsFlags := task.sasSsFlags ||| SS_ONSTACK }
      else task).blocked = m.task.blocked := by
    split <;> exact hMask
  rw [deliverFrame, hTop]
  dsimp only
  generalize (if useAltstack task (nextAction m) then { task with sasSsFlags := task.sasSsFlags ||| SS_ONSTACK }
    else task) = task' at *
  split
  · next hFrame =>
    split
    · next hRet =>
      refine ⟨iff_of_true rfl ⟨hCatches, hFrame, hRet⟩, by rintro ⟨⟩, fun _ => rfl, ?_, fun _ => clear_bits _ _⟩
      exact fun _ => loadWord_stored _ _ _
    · next hRet => exact delivery_none (fun h => hRet h.2.2) rfl hKept
  · next hFrame => exact delivery_none (fun h => hFrame h.2.1) rfl hKept

theorem signalDeliverPending_delivery (pages : Nat → Nat → Bool) (m : Machine) :
    (Kills m ∧ signalDeliverPending pages m = none) ∨
      (¬ Kills m ∧ ∃ m' delivered, signalDeliverPending pages m = some (m', delivered) ∧
        Delivery pages m m' delivered) := by
  unfold signalDeliverPending
  split
  · next hKernel =>
    refine .inr ⟨fun h => hKernel h.1, m, false, rfl, delivery_none (fun h => hKernel h.1.1) rfl rfl⟩
  next hUser =>
  have hUser : m.regs.cs &&& 3 = 3 := not_not.mp hUser
  dsimp only
  split
  · next hNone =>
    exact .inr ⟨fun h => h.2.1 hNone, m, false, rfl, delivery_none (fun h => h.1.2.1 hNone) rfl rfl⟩
  next hSome =>
  split
  · next hIgn =>
    refine .inr ⟨fun h => ?_, _, false, rfl, delivery_none (fun h => h.1.2.2.1 hIgn) rfl rfl⟩
    exact absurd (hIgn.symm.trans h.2.2.1) (by decide)
  next hIgn =>
  split
  · next hDfl =>
    have hNot : ¬ Delivers pages m := fun h => h.1.2.2.2.1 hDfl
    cases hDecision : signalInternalDecisions (findDeliverableSignal m.task) with
    | core => exact .inl ⟨⟨hUser, hSome, hDfl, .inl hDecision⟩, rfl⟩
    | term => exact .inl ⟨⟨hUser, hSome, hDfl, .inr hDecision⟩, rfl⟩
    | ign =>
      refine .inr ⟨fun h => ?_, _, false, rfl, delivery_none hNot rfl rfl⟩
      obtain h | h := h.2.2.2 <;> cases hDecision.symm.trans h
    | stop =>
      refine .inr ⟨fun h => ?_, _, false, rfl, delivery_none hNot rfl rfl⟩
      obtain h | h := h.2.2.2 <;> cases hDecision.symm.trans h
    | cont =>
      refine .inr ⟨fun h => ?_, _, false, rfl, delivery_none hNot rfl rfl⟩
      obtain h | h := h.2.2.2 <;> cases hDecision.symm.trans h
  next hDfl =>
  have hLives : ¬ Kills m := fun h => hDfl h.2.2.1
  split
  · next hRestorer =>
    exact .inr ⟨hLives, _, false, rfl, delivery_none (fun h => h.1.2.2.2.2 hRestorer) rfl rfl⟩
  next hRestorer =>
  refine .inr ⟨hLives, _, _, rfl, ?_⟩
  exact deliverFrame_delivery ⟨hUser, hSome, hIgn, hDfl, hRestorer⟩ _ ⟨rfl, rfl, rfl⟩ rfl

end

/-! # The registers that user mode resumes with

The stack pointer of the user is in the frame and in the thread, and what resumes has that
of the thread.
-/

open Signal WordMemory

structure Matches (u : User) (regs : X64Regs) : Prop where
  general : [u.r15, u.r14, u.r13, u.r12, u.r10, u.r9, u.r8, u.rbx, u.rdx, u.rsi, u.rdi, u.rbp, u.rax] =
    [regs.r15, regs.r14, regs.r13, regs.r12, regs.r10, regs.r9, regs.r8, regs.rbx, regs.rdx, regs.rsi, regs.rdi,
      regs.rbp, regs.rax]
  rip : u.rip = regs.rip
  rsp : u.rsp = regs.rsp
  rflags : u.rflags = regs.rflags

/-- What is wanted of a call that `c_syscall_handler` leaves at `m`, and that user mode resumes from with `u`. -/
structure ResumesAsLeft (e : Entry) (m : Machine) (delivered : Bool) (u : User) : Prop where
  registers : Matches u m.regs
  handler : delivered = true → u.rsp = handlerRsp e.performed ∧
    loadWord m.memory u.rsp.toNat = (nextAction e.performed).saRestorer
  interrupted : e.Restores → delivered = false → u.rsp = (savedRegs e.memory e.user.rsp).rsp

/-- The stack pointer that is wanted is that of the call, and a frame that is taken has flags of user mode. -/
structure KeepsRsp (e : Entry) : Prop where
  handler : Delivers e.pagesAfter e.performed → handlerRsp e.performed = e.user.rsp
  interrupted : e.Restores → ¬ Delivers e.pagesAfter e.performed → (savedRegs e.memory e.user.rsp).rsp = e.user.rsp
  flags : e.Restores → sysretFlags (savedRegs e.memory e.user.rsp).rflags = (savedRegs e.memory e.user.rsp).rflags

section

variable {e : Entry} {gdt : List Word} {m : Machine} {delivered : Bool} {u : User} {regs : X64Regs} {userRsp : Word}

theorem performed_frame (h : e.Restores) : e.performed =
    { task :=
        { e.task with
          blocked := loadWord e.memory (e.user.rsp.toNat + 8 * 2) &&& ~~~unblockable
          sasSsFlags := e.task.sasSsFlags &&& ~~~SS_ONSTACK }
      regs := savedRegs e.memory e.user.rsp
      memory := e.memory } := by
  obtain ⟨hCall, hMapped, hMagic⟩ := h
  have hMapped' : ¬ userRangeMapped e.pages e.machine.regs.rsp frameSize = false :=
    fun hNot => Bool.false_ne_true (hNot.symm.trans hMapped)
  have hMagic' : ¬ loadWord e.machine.memory (e.machine.regs.rsp.toNat + 8 * 0) ≠ signalFrameMagic := not_not.mpr hMagic
  rw [Entry.performed, hCall]
  simp only [perform, sysSigret, signalReturn, if_neg hMapped', if_neg hMagic']
  rfl

theorem performed_restores (h : e.Restores) : e.performed.regs = savedRegs e.memory e.user.rsp :=
  congrArg Machine.regs (performed_frame h)

theorem performed_keeps (h : ¬ e.Restores) :
    e.performed.regs.rsp = e.user.rsp ∧ e.performed.regs.rflags = e.user.rflags := by
  unfold Entry.performed perform
  cases hCall : e.call with
  | other effect => exact ⟨rfl, rfl⟩
  | rtSigreturn =>
    simp only [sysSigret, signalReturn]
    split
    · exact ⟨rfl, rfl⟩
    · next hMapped =>
      split
      · exact ⟨rfl, rfl⟩
      · next hMagic =>
        refine absurd ⟨hCall, ?_, not_not.mp hMagic⟩ h
        exact eq_true_of_ne_false hMapped

theorem retFromSyscall_matches (h : retFromSyscall gdt regs userRsp = some u) :
    Matches u regs ↔ userRsp = regs.rsp ∧ sysretFlags regs.rflags = regs.rflags := by
  unfold retFromSyscall at h
  dsimp only at h
  split at h
  · cases h
    constructor
    · exact fun hMatches => ⟨hMatches.rsp, hMatches.rflags⟩
    · exact fun hBoth => ⟨rfl, rfl, hBoth.1, hBoth.2⟩
  · cases h

theorem retFromSyscall_rsp (h : retFromSyscall gdt regs userRsp = some u) : u.rsp = userRsp := by
  unfold retFromSyscall at h
  dsimp only at h
  split at h
  · cases h
    rfl
  · cases h

theorem cSyscallHandler_delivery (h : cSyscallHandler e = some (m, delivered)) :
    Delivery e.pagesAfter e.performed m delivered := by
  obtain ⟨_, hNone⟩ | ⟨_, m', delivered', hSome, hDelivery⟩ := signalDeliverPending_delivery e.pagesAfter e.performed
  · cases hNone.symm.trans h
  · cases hSome.symm.trans h
    exact hDelivery

theorem KeepsRsp.rflags (h : KeepsRsp e) : sysretFlags e.performed.regs.rflags = e.performed.regs.rflags := by
  obtain hRestores | hNot := Classical.em e.Restores
  · rw [performed_restores hRestores]
    exact h.flags hRestores
  · rw [(performed_keeps hNot).2]
    exact e.user.plain

end

/-- User mode resumes with the frame that was left if and only if the stack pointer of the frame is that of the call. -/
theorem user_resumes_as_left {e : Entry} {gdt : List Word} {m : Machine} {delivered : Bool} {u : User}
    (hHandled : cSyscallHandler e = some (m, delivered)) (hResumes : retFromSyscall gdt m.regs e.user.rsp = some u) :
    ResumesAsLeft e m delivered u ↔ KeepsRsp e := by
  have hDelivery := cSyscallHandler_delivery hHandled
  have hMatches := retFromSyscall_matches hResumes
  have hRsp := retFromSyscall_rsp hResumes
  cases delivered with
  | true =>
    have hEntered : Delivers e.pagesAfter e.performed := hDelivery.entered.mp rfl
    have hRegs := hDelivery.enters rfl
    rw [hRegs] at hMatches
    constructor
    · intro h
      obtain ⟨hSame, hFlags⟩ := hMatches.mp (hRegs ▸ h.registers)
      refine ⟨fun _ => hSame.symm, fun _ hNot => absurd hEntered hNot, fun hRestores => ?_⟩
      rw [← performed_restores hRestores]
      exact hFlags
    · intro h
      have hSame := h.handler hEntered
      refine ⟨?_, fun _ => ⟨hRsp.trans hSame.symm, ?_⟩, nofun⟩
      · rw [hRegs]
        exact hMatches.mpr ⟨hSame.symm, h.rflags⟩
      · rw [hRsp, ← hSame]
        exact hDelivery.restorer rfl
  | false =>
    have hNot : ¬ Delivers e.pagesAfter e.performed := fun h => Bool.false_ne_true (hDelivery.entered.mpr h)
    have hRegs := hDelivery.stays rfl
    rw [hRegs] at hMatches
    constructor
    · intro h
      obtain ⟨hSame, hFlags⟩ := hMatches.mp (hRegs ▸ h.registers)
      refine ⟨fun hEntered => absurd hEntered hNot, fun hRestores _ => ?_, fun hRestores => ?_⟩
      · exact (h.interrupted hRestores rfl).symm.trans hRsp
      · rw [← performed_restores hRestores]
        exact hFlags
    · intro h
      refine ⟨?_, nofun, fun hRestores _ => hRsp.trans (h.interrupted hRestores hNot).symm⟩
      rw [hRegs]
      refine hMatches.mpr ⟨?_, h.rflags⟩
      rcases Classical.em e.Restores with hRestores | hKept
      · rw [performed_restores hRestores]
        exact (h.interrupted hRestores hNot).symm
      · exact (performed_keeps hKept).1.symm

def plainUser : User where
  r15 := 0
  r14 := 0
  r13 := 0
  r12 := 0
  r10 := 0
  r9 := 0
  r8 := 0
  rbx := 0
  rdx := 0
  rsi := 0
  rdi := 0
  rbp := 0
  rax := 39
  rip := 0x400010
  rflags := 0x202
  rsp := 0x10000
  ds := selectorUserDs
  es := selectorUserDs
  plain := by decide

def handlingTask (signal : Word) : Tcb where
  signal := signal
  blocked := 0
  actions _ := { saHandler := 0x401000, saFlags := 0, saRestorer := 0x402000, saMask := 0 }
  sasSsSp := 0
  sasSsSize := 0
  sasSsFlags := SS_DISABLE
  stopped := false

/-- `sys_getpid` with these signals pending when it returns. -/
def getpid (signal : Word) : Entry where
  user := plainUser
  below := zeroRegs
  task := handlingTask 0
  memory _ := 0
  call := .other { task := handlingTask signal, memory := fun _ => 0, rax := 1 }
  pages := allPages
  pagesAfter := allPages

theorem user_resumes_as_left_getpid : ∃ m u, cSyscallHandler (getpid 0) = some (m, false) ∧
    retFromSyscall (gdtEntries 0) m.regs plainUser.rsp = some u ∧ ResumesAsLeft (getpid 0) m false u := by
  obtain ⟨m, hHandled⟩ : ∃ m, cSyscallHandler (getpid 0) = some (m, false) := ⟨_, rfl⟩
  obtain ⟨u, hResumes⟩ : ∃ u, retFromSyscall (gdtEntries 0) m.regs plainUser.rsp = some u := by
    cases hHandled
    exact ⟨_, rfl⟩
  refine ⟨m, u, hHandled, hResumes, (user_resumes_as_left hHandled hResumes).mpr ?_⟩
  refine ⟨fun h => ?_, fun h => ?_, fun h => ?_⟩
  · exact absurd rfl h.1.2.1
  · cases h.1
  · cases h.1

/-- A handler is entered with the stack pointer of the call. -/
theorem handler_without_its_stack : ∃ m u, cSyscallHandler (getpid (sigmask 10)) = some (m, true) ∧
    retFromSyscall (gdtEntries 0) m.regs plainUser.rsp = some u ∧ m.regs.rsp = 0xff18 ∧ u.rsp = 0x10000 ∧
    ¬ ResumesAsLeft (getpid (sigmask 10)) m true u := by
  obtain ⟨m, hHandled⟩ : ∃ m, cSyscallHandler (getpid (sigmask 10)) = some (m, true) := ⟨_, rfl⟩
  have hRegs := (cSyscallHandler_delivery hHandled).enters rfl
  have hFrame : m.regs.rsp = 0xff18 := by
    rw [hRegs]
    decide
  obtain ⟨u, hResumes⟩ : ∃ u, retFromSyscall (gdtEntries 0) m.regs plainUser.rsp = some u := by
    rw [hRegs]
    exact ⟨_, rfl⟩
  have hRsp := retFromSyscall_rsp hResumes
  refine ⟨m, u, hHandled, hResumes, hFrame, hRsp, fun h => ?_⟩
  have hSame := h.registers.rsp
  rw [hRsp, hFrame] at hSame
  exact absurd hSame (by decide)

end OpenXJ380.Syscall
