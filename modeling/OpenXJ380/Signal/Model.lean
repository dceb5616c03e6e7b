import OpenXJ380.Lib.Transition
import OpenXJ380.Lib.WordMemory

/-! # Signals (`kernel/syscall/signal.cpp`)

A delivery puts the registers and the mask of the task into a frame on its stack, and
the return takes them from there.
-/

namespace OpenXJ380.Signal

open Transition WordMemory

abbrev Word := BitVec 64

def signalFrameMagic : Word := 0x583338305349474e

def SIGKILL : Nat := 9
def SIGSTOP : Nat := 19
def MINSIG : Nat := 1
def MAXSIG : Nat := 32

def SIG_ONESHOT : Word := 0x80000000
def SA_ONSTACK : Word := 0x08000000
def SIG_DFL : Word := 0
def SIG_IGN : Word := 1

def SS_ONSTACK : BitVec 32 := 1
def SS_DISABLE : BitVec 32 := 2
def MINSIGSTKSZ : Word := 2048

def KERNEL_AREA_MEM : Nat := 0xf000000000000000

def sigmask (sig : Nat) : Word := 1#64 <<< sig

def unblockable : Word := sigmask SIGKILL ||| sigmask SIGSTOP

structure X64Regs where
  r15 : Word
  r14 : Word
  r13 : Word
  r12 : Word
  r11 : Word
  r10 : Word
  r9 : Word
  r8 : Word
  rbx : Word
  rcx : Word
  rdx : Word
  rsi : Word
  rdi : Word
  rbp : Word
  ds : Word
  es : Word
  rax : Word
  func : Word
  errcode : Word
  rip : Word
  cs : Word
  rflags : Word
  rsp : Word
  ss : Word

def X64Regs.words (r : X64Regs) : List Word :=
  [r.r15, r.r14, r.r13, r.r12, r.r11, r.r10, r.r9, r.r8, r.rbx, r.rcx, r.rdx, r.rsi, r.rdi, r.rbp, r.ds, r.es, r.rax,
    r.func, r.errcode, r.rip, r.cs, r.rflags, r.rsp, r.ss]

def X64Regs.ofWords (w : Nat → Word) : X64Regs :=
  ⟨w 0, w 1, w 2, w 3, w 4, w 5, w 6, w 7, w 8, w 9, w 10, w 11, w 12, w 13, w 14, w 15, w 16, w 17, w 18, w 19, w 20,
    w 21, w 22, w 23⟩

structure SigAction where
  saHandler : Word
  saFlags : Word
  saRestorer : Word
  saMask : Word

inductive SignalInternal where
  | core
  | term
  | ign
  | stop
  | cont

/-- `signal_internal_decisions`, as `signal_init` leaves it. -/
def signalInternalDecisions (sig : Nat) : SignalInternal :=
  if sig ∈ [17, 23, 28] then .ign
  else if sig = 18 then .cont
  else if sig ∈ [19, 20, 21, 22] then .stop
  else if sig ∈ [1, 2, 9, 10, 12, 13, 14, 15, 16, 26, 27, 29, 30] then .term
  else .core

structure Tcb where
  signal : Word
  blocked : Word
  actions : Nat → SigAction
  sasSsSp : Word
  sasSsSize : Word
  sasSsFlags : BitVec 32
  stopped : Bool

structure Machine where
  task : Tcb
  regs : X64Regs
  memory : Memory

/-- `user_range_mapped`; `pages` says whether the pages of a range can be had. -/
def userRangeMapped (pages : Nat → Nat → Bool) (start : Word) (size : Nat) : Bool :=
  start ≠ 0 && start.toNat < KERNEL_AREA_MEM && size ≤ KERNEL_AREA_MEM - start.toNat && pages start.toNat size

/-- The size of a `user_signal_frame`. -/
def frameSize : Nat := 216

def frameWords (sig : Nat) (oldmask : Word) (regs : X64Regs) : List Word :=
  [signalFrameMagic, BitVec.ofNat 64 sig, oldmask] ++ regs.words

def findDeliverableSignal (task : Tcb) : Nat :=
  ((List.range' MINSIG MAXSIG).find? fun sig => (task.signal &&& ~~~task.blocked) &&& sigmask sig ≠ 0).getD 0

def useAltstack (task : Tcb) (action : SigAction) : Bool :=
  action.saFlags &&& SA_ONSTACK ≠ 0 && task.sasSsFlags &&& SS_DISABLE = 0 && task.sasSsFlags &&& SS_ONSTACK = 0

def stackTop (m : Machine) (action : SigAction) : Word :=
  if useAltstack m.task action then m.task.sasSsSp + m.task.sasSsSize else m.regs.rsp

def frameAddr (sp : Word) : Word := (sp - 216) &&& ~~~0xF

def retAddr (sp : Word) : Word := frameAddr sp - 8

def Tcb.pend (task : Tcb) (sig : Nat) : Tcb := { task with signal := task.signal ||| sigmask sig }

def Tcb.enter (task : Tcb) (sig : Nat) (action : SigAction) : Tcb :=
  { task with
    blocked := (task.blocked ||| (action.saMask ||| sigmask sig)) &&& ~~~unblockable
    actions :=
      if action.saFlags &&& SIG_ONESHOT ≠ 0 then Function.update task.actions sig { action with saHandler := SIG_DFL }
      else task.actions }

def deliverFrame (pages : Nat → Nat → Bool) (sig : Nat) (action : SigAction) (m : Machine) : Machine × Bool :=
  let sp := stackTop m action
  let task :=
    if useAltstack m.task action then { m.task with sasSsFlags := m.task.sasSsFlags ||| SS_ONSTACK } else m.task
  if userRangeMapped pages (frameAddr sp) frameSize then
    let memory := storeWords m.memory (frameAddr sp).toNat (frameWords sig m.task.blocked m.regs)
    if userRangeMapped pages (retAddr sp) 8 then
      ({ task := task.enter sig action
         regs :=
          { m.regs with rip := action.saHandler, rsp := retAddr sp, rdi := BitVec.ofNat 64 sig, rsi := 0, rdx := 0 }
         memory := storeWords memory (retAddr sp).toNat [action.saRestorer] }, true)
    else ({ m with task := task.pend sig, memory := memory }, false)
  else ({ m with task := task.pend sig }, false)

def signalDeliverPending (pages : Nat → Nat → Bool) (m : Machine) : Option (Machine × Bool) :=
  if m.regs.cs &&& 3 ≠ 3 then some (m, false)
  else
    let sig := findDeliverableSignal m.task
    if sig = 0 then some (m, false)
    else
      let action := m.task.actions sig
      let task := { m.task with signal := m.task.signal &&& ~~~sigmask sig }
      if action.saHandler = SIG_IGN then some ({ m with task := task }, false)
      else if action.saHandler = SIG_DFL then
        match signalInternalDecisions sig with
        | .ign | .cont => some ({ m with task := task }, false)
        | .stop => some ({ m with task := { task with stopped := true } }, false)
        | .core | .term => none
      else if action.saRestorer = 0 then some ({ m with task := task.pend sig }, false)
      else some (deliverFrame pages sig action { m with task := task })

def minusEfault : Word := -14#64

def minusEinval : Word := -22#64

/-- `signal_return`, and what it returns. -/
def signalReturn (pages : Nat → Nat → Bool) (m : Machine) : Machine × Word :=
  if userRangeMapped pages m.regs.rsp frameSize = false then (m, minusEfault)
  else
    let word := fun i => loadWord m.memory (m.regs.rsp.toNat + 8 * i)
    if word 0 ≠ signalFrameMagic then (m, minusEinval)
    else
      let regs := X64Regs.ofWords fun i => word (3 + i)
      ({ m with
          task :=
            { m.task with
              blocked := word 2 &&& ~~~unblockable
              sasSsFlags := m.task.sasSsFlags &&& ~~~SS_ONSTACK }
          regs := regs }, regs.rax)

def sysSigret (pages : Nat → Nat → Bool) (m : Machine) : Machine :=
  let r := signalReturn pages m
  { r.1 with regs := { r.1.regs with rax := r.2 } }

/-- What `syscall_sigaltstack` sets. -/
def syscallSigaltstack (task : Tcb) (ssSp : Word) (ssFlags : BitVec 32) (ssSize : Word) : Tcb :=
  if ssFlags &&& ~~~SS_DISABLE ≠ 0 then task
  else if ssFlags &&& SS_DISABLE ≠ 0 then { task with sasSsSp := 0, sasSsSize := 0, sasSsFlags := SS_DISABLE }
  else if ssSize < MINSIGSTKSZ then task
  else { task with sasSsSp := ssSp, sasSsSize := ssSize, sasSsFlags := 0 }

/-- A handler that has not returned: its frame, what held when it was entered, and whether it runs on the alternate
stack. -/
structure Active where
  frame : Nat
  regs : X64Regs
  blocked : Word
  flags : BitVec 32
  alt : Bool

/-- The task, the handlers from the innermost on, and what each handler that has returned left behind. -/
structure World where
  machine : Machine
  active : List Active
  returned : List (Active × Machine)
  killed : Bool

def World.put (w : World) (m : Machine) : World := { w with machine := m }

def onAlt (active : List Active) : Bool := (active.head?.map Active.alt).getD false

def nextAction (m : Machine) : SigAction := m.task.actions (findDeliverableSignal m.task)

def World.entered (w : World) (m : Machine) : World :=
  { w with
    machine := m
    active :=
      { frame := (frameAddr (stackTop w.machine (nextAction w.machine))).toNat
        regs := w.machine.regs
        blocked := w.machine.task.blocked
        flags := w.machine.task.sasSsFlags
        alt := useAltstack w.machine.task (nextAction w.machine) || onAlt w.active } :: w.active }

def World.left (w : World) (top : Active) (rest : List Active) (m : Machine) : World :=
  { w with machine := m, active := rest, returned := w.returned ++ [(top, m)] }

inductive Act where
  | deliver (pages : Nat → Nat → Bool)
  | sigret (pages : Nat → Nat → Bool)
  | user
  | sigaltstack (ssSp : Word) (ssFlags : BitVec 32) (ssSize : Word)

/-- User code does as it likes, except with the frames of handlers that have not returned. -/
inductive Acts : World → Act → World → Prop
  | killed {w : World} {pages : Nat → Nat → Bool} (hKilled : signalDeliverPending pages w.machine = none) :
      Acts w (.deliver pages) { w with killed := true }
  | nothing {w : World} {pages : Nat → Nat → Bool} {m : Machine}
      (hNothing : signalDeliverPending pages w.machine = some (m, false)) : Acts w (.deliver pages) (w.put m)
  | entered {w : World} {pages : Nat → Nat → Bool} {m : Machine}
      (hEntered : signalDeliverPending pages w.machine = some (m, true)) : Acts w (.deliver pages) (w.entered m)
  | sigret {w : World} {pages : Nat → Nat → Bool} {top : Active} {rest : List Active} (hActive : w.active = top :: rest)
      (hFrame : w.machine.regs.rsp.toNat = top.frame)
      (hMapped : userRangeMapped pages w.machine.regs.rsp frameSize = true) :
      Acts w (.sigret pages) (w.left top rest (sysSigret pages w.machine))
  | user {w : World} {m : Machine}
      (hFrames : ∀ a ∈ w.active, Agree w.machine.memory m.memory a.frame (a.frame + frameSize))
      (hBlocked : m.task.blocked &&& unblockable = 0)
      (hStack : m.task.sasSsSp = w.machine.task.sasSsSp ∧ m.task.sasSsSize = w.machine.task.sasSsSize ∧
        m.task.sasSsFlags = w.machine.task.sasSsFlags) : Acts w .user (w.put m)
  | sigaltstack {w : World} {ssSp ssSize : Word} {ssFlags : BitVec 32} (hNone : w.active = []) :
      Acts w (.sigaltstack ssSp ssFlags ssSize)
        (w.put { w.machine with task := syscallSigaltstack w.machine.task ssSp ssFlags ssSize })

def signalSystem : System World Act := ⟨fun w a w' => w.killed = false ∧ Acts w a w'⟩

def World.init (m : Machine) : World := { machine := m, active := [], returned := [], killed := false }

def altTop (task : Tcb) : Nat := (task.sasSsSp + task.sasSsSize).toNat

def Outside (task : Tcb) (a : Active) : Prop := a.frame + frameSize ≤ task.sasSsSp.toNat ∨ altTop task ≤ a.frame

def Catches (m : Machine) : Prop :=
  m.regs.cs &&& 3 = 3 ∧ findDeliverableSignal m.task ≠ 0 ∧ (nextAction m).saHandler ≠ SIG_IGN ∧
    (nextAction m).saHandler ≠ SIG_DFL ∧ (nextAction m).saRestorer ≠ 0

/-- A handler returns only if it was entered off the alternate stack. The alternate stack is apart from the frames on
the other one, what goes onto it fits, and a handler keeps its stack pointer below its frame. -/
def Meets (w : World) : Act → Prop
  | .deliver _ =>
    let sp := stackTop w.machine (nextAction w.machine)
    Catches w.machine →
    if useAltstack w.machine.task (nextAction w.machine) then
      w.machine.task.sasSsSp.toNat ≤ (retAddr sp).toNat ∧ ∀ a ∈ w.active, a.alt = false → Outside w.machine.task a
    else
      ∀ top ∈ w.active.head?, w.machine.regs.rsp.toNat ≤ top.frame ∧
        (top.alt = true → w.machine.task.sasSsSp.toNat ≤ (retAddr sp).toNat)
  | .sigret _ => ∀ top ∈ w.active.head?, top.flags &&& SS_ONSTACK = 0
  | _ => True

structure Inverse (w : World) : Prop where
  restored : ∀ a m, (a, m) ∈ w.returned → m.regs = a.regs ∧ m.task.blocked = a.blocked ∧ m.task.sasSsFlags = a.flags
  apart : w.active.Pairwise fun a b => a.frame + frameSize ≤ b.frame ∨ b.frame + frameSize ≤ a.frame

end OpenXJ380.Signal
