import OpenXJ380.Pipe.Model
import OpenXJ380.Sched.Entity

/-! # Waiting for a pipe, step by step

Taking the lock, testing, registering, the change to `WAIT`, the unlock, the wait
loop, and every node of `pipe_wake_waiters` are steps of their own. The scheduler
and those who kill come between them.
-/

namespace OpenXJ380.Pipe.Waiting

open Function

open Sched Transition

/-- One call of `pipefs_read` or `pipe_write_inner`. -/
inductive Transfer where
  | read (size : Nat)
  | write (bytes : List Byte)

def Transfer.waitsOn : Transfer → End
  | .read _ => .read
  | .write _ => .write

def Transfer.Ready (pipe : PipeInfo) : Transfer → Prop
  | .read _ => pipe.ptr ≠ 0 ∨ pipe.writeFds = 0
  | .write bytes => pipe.readFds = 0 ∨ room pipe ≥ bytes.length

def Transfer.perform (pipe : PipeInfo) : Transfer → PipeInfo × Option End
  | .read size => if pipe.ptr ≠ 0 then ((takeBytes pipe size).2, some .write) else (pipe, none)
  | .write bytes => if pipe.readFds = 0 then (pipe, none) else (appendBytes pipe bytes, some .read)

inductive Request where
  | transfer (x : Transfer)
  | close (e : End)
  | dup (e : End)

/-- Where a task is; `closing` is the end that `pipefs_close` closes, where that is what it does. -/
inductive Place where
  | outside
  | locking (r : Request)
  | testing (r : Request)
  | emptying (e : End) (closing : Option End)
  | waking (e : End) (todo : List TcbT) (closing : Option End)
  | starting (e : End) (task : TcbT) (todo : List TcbT) (closing : Option End)
  | unlocking (free : Bool)
  | freeing
  | registering (x : Transfer)
  | marking (x : Transfer)
  | parting (x : Transfer)
  | asleep (x : Transfer)
  | awake (x : Transfer)
  | yielding (x : Transfer)
  | giving (x : Transfer)
  | dozing (x : Transfer)
  | sleeping (x : Transfer)

/-- One pipe and the tasks; `waits` remembers who has registered and has not been woken by the pipe since. -/
structure State where
  pipe : PipeInfo
  lock : Option TcbT
  gone : Bool
  place : TcbT → Place
  status : TcbT → TaskStatus
  wakeupTime : TcbT → Nat
  freed : TcbT → Bool
  waits : TcbT → Bool

def State.go (s : State) (t : TcbT) (p : Place) : State := { s with place := update s.place t p }

def State.setStatus (s : State) (t : TcbT) (status : TaskStatus) : State :=
  { s with status := update s.status t status }

def State.setWakeup (s : State) (t : TcbT) (time : Nat) : State :=
  { s with wakeupTime := update s.wakeupTime t time }

def State.setWaits (s : State) (t : TcbT) (waits : Bool) : State := { s with waits := update s.waits t waits }

inductive Label where
  | task (t : TcbT)
  | scheduler (t : TcbT)
  | other (t : TcbT)
  | kill (t : TcbT)
  | free (t : TcbT)

inductive TaskStep (t : TcbT) : State → State → Prop
  | call {s : State} (r : Request) (hPlace : s.place t = .outside) (hRuns : s.status t ≠ .wait) :
      TaskStep t s (s.go t (.locking r))
  | acquire {s : State} {r : Request} (hPlace : s.place t = .locking r) (hFree : s.lock = none) (hHere : s.gone = false) :
      TaskStep t s ({ s with lock := some t }.go t (.testing r))
  | perform {s : State} {x : Transfer} {pipe : PipeInfo} {e : End} (hPlace : s.place t = .testing (.transfer x))
      (hReady : x.Ready s.pipe) (hPerform : x.perform s.pipe = (pipe, some e)) :
      TaskStep t s ({ s with pipe := pipe }.go t (.emptying e none))
  | finish {s : State} {x : Transfer} {pipe : PipeInfo} (hPlace : s.place t = .testing (.transfer x))
      (hReady : x.Ready s.pipe) (hPerform : x.perform s.pipe = (pipe, none)) :
      TaskStep t s (s.go t (.unlocking false))
  | idle {s : State} {x : Transfer} (hPlace : s.place t = .testing (.transfer x)) (hNot : ¬ x.Ready s.pipe) :
      TaskStep t s (s.go t (.yielding x))
  | enter {s : State} {x : Transfer} (hPlace : s.place t = .testing (.transfer x)) (hNot : ¬ x.Ready s.pipe) :
      TaskStep t s (s.go t (.registering x))
  | dropLast {s : State} {e : End} (hPlace : s.place t = .testing (.close e)) (hLast : (dropFd s.pipe e).fds e = 0) :
      TaskStep t s ({ s with pipe := dropFd s.pipe e }.go t (.emptying e.other (some e)))
  | drop {s : State} {e : End} (hPlace : s.place t = .testing (.close e)) (hMore : (dropFd s.pipe e).fds e ≠ 0) :
      TaskStep t s ({ s with pipe := dropFd s.pipe e }.go t (.unlocking false))
  | dup {s : State} {e : End} (hPlace : s.place t = .testing (.dup e)) :
      TaskStep t s ({ s with pipe := dupSection s.pipe e }.go t (.unlocking false))
  | empty {s : State} {e : End} {closing : Option End} (hPlace : s.place t = .emptying e closing) :
      TaskStep t s ({ s with pipe := s.pipe.setBlocking e [] }.go t (.waking e (s.pipe.blocking e) closing))
  | skip {s : State} {e : End} {u : TcbT} {todo : List TcbT} {closing : Option End}
      (hPlace : s.place t = .waking e (u :: todo) closing) (hStatus : s.status u ≠ .wait) :
      TaskStep t s ((s.setWaits u false).go t (.waking e todo closing))
  | wake {s : State} {e : End} {u : TcbT} {todo : List TcbT} {closing : Option End}
      (hPlace : s.place t = .waking e (u :: todo) closing) (hStatus : s.status u = .wait) :
      TaskStep t s (s.go t (.starting e u todo closing))
  | start {s : State} {e : End} {u : TcbT} {todo : List TcbT} {closing : Option End}
      (hPlace : s.place t = .starting e u todo closing) :
      TaskStep t s ((((s.setWakeup u 0).setStatus u .start).setWaits u false).go t (.waking e todo closing))
  | woken {s : State} {e : End} (hPlace : s.place t = .waking e [] none) : TaskStep t s (s.go t (.unlocking false))
  | closed {s : State} {e e' : End} (hPlace : s.place t = .waking e [] (some e')) :
      TaskStep t s ({ s with pipe := clearSpec s.pipe e' }.go t (.unlocking (s.pipe.fds e'.other = 0)))
  | unlock {s : State} {free : Bool} (hPlace : s.place t = .unlocking free) :
      TaskStep t s ({ s with lock := none }.go t (if free then .freeing else .outside))
  | release {s : State} (hPlace : s.place t = .freeing) : TaskStep t s ({ s with gone := true }.go t .outside)
  | add {s : State} {x : Transfer} {node : Bool} {waiters : List TcbT} (hPlace : s.place t = .registering x)
      (hAdd : pipeAddWaiter (s.pipe.blocking x.waitsOn) t node = some waiters) :
      TaskStep t s (({ s with pipe := s.pipe.setBlocking x.waitsOn waiters }.setWaits t true).go t (.marking x))
  | addFails {s : State} {x : Transfer} {node : Bool} (hPlace : s.place t = .registering x)
      (hAdd : pipeAddWaiter (s.pipe.blocking x.waitsOn) t node = none) : TaskStep t s (s.go t (.giving x))
  | mark {s : State} {x : Transfer} (hPlace : s.place t = .marking x) :
      TaskStep t s (((s.setWakeup t 0).setStatus t .wait).go t (.parting x))
  | part {s : State} {x : Transfer} (hPlace : s.place t = .parting x) :
      TaskStep t s ({ s with lock := none }.go t (.asleep x))
  | rouse {s : State} {x : Transfer} (hPlace : s.place t = .asleep x ∨ s.place t = .sleeping x)
      (hStatus : s.status t ≠ .wait) : TaskStep t s (s.go t (.awake x))
  | again {s : State} {x : Transfer} (hPlace : s.place t = .awake x) :
      TaskStep t s
        ((s.setStatus t (if s.status t = .start then .running else s.status t)).go t (.locking (.transfer x)))
  | yield {s : State} {x : Transfer} (hPlace : s.place t = .yielding x) :
      TaskStep t s ({ s with lock := none }.go t (.locking (.transfer x)))
  | give {s : State} {x : Transfer} (hPlace : s.place t = .giving x) :
      TaskStep t s ({ s with lock := none }.go t (.dozing x))
  | doze {s : State} {x : Transfer} (time : Nat) (hPlace : s.place t = .dozing x) (hTime : time ≠ 0) :
      TaskStep t s (((s.setWakeup t time).setStatus t .wait).go t (.sleeping x))
  | dozeYields {s : State} {x : Transfer} (hPlace : s.place t = .dozing x) :
      TaskStep t s (s.go t (.locking (.transfer x)))

inductive SchedStep (t : TcbT) : State → State → Prop
  | preempt {s : State} (hStatus : s.status t = .running) : SchedStep t s (s.setStatus t .start)
  | dispatch {s : State} (hStatus : s.status t = .start ∨ s.status t = .create) : SchedStep t s (s.setStatus t .running)
  | timer {s : State} (hStatus : s.status t = .wait) (hTime : s.wakeupTime t ≠ 0) :
      SchedStep t s ((s.setWakeup t 0).setStatus t .start)
  | resume {s : State} : SchedStep t s (s.setStatus t .running)

/-- The other code a task runs may do anything to its status; a task that has been freed runs no code. -/
inductive Step : State → Label → State → Prop
  | task {s s' : State} {t : TcbT} (hAlive : s.freed t = false) (hStep : TaskStep t s s') : Step s (.task t) s'
  | scheduler {s s' : State} {t : TcbT} (hStep : SchedStep t s s') : Step s (.scheduler t) s'
  | other {s : State} {t : TcbT} (status : TaskStatus) (time : Nat) (hPlace : s.place t = .outside) :
      Step s (.other t) ((s.setWakeup t time).setStatus t status)
  | kill {s : State} {t : TcbT} : Step s (.kill t) (s.setStatus t .death)
  | free {s : State} {t : TcbT} :
      Step s (.free t) ({ s with freed := update s.freed t true }.setStatus t .out)

def waitSystem : System State Label where
  step := Step

def opened : State where
  pipe := newPipe
  lock := none
  gone := false
  place := fun _ => .outside
  status := fun _ => .running
  wakeupTime := fun _ => 0
  freed := fun _ => false
  waits := fun _ => false

def Place.Holds : Place → Prop
  | .testing _ | .emptying _ _ | .waking _ _ _ | .starting _ _ _ _ | .unlocking _ | .registering _ | .marking _ | .parting _
  | .yielding _ | .giving _ => True
  | _ => False

def Place.transfer : Place → Option Transfer
  | .locking (.transfer x) | .testing (.transfer x) => some x
  | .registering x | .marking x | .parting x | .asleep x | .awake x | .yielding x | .giving x | .dozing x | .sleeping x =>
    some x
  | _ => none

/-- The nodes that `pipe_wake_waiters` has still before it. -/
def Place.todo : Place → Option (End × List TcbT)
  | .waking e todo _ => some (e, todo)
  | .starting e task todo _ => some (e, task :: todo)
  | _ => none

/-- In `pipe_wait_on`. -/
def Place.InWait (x : Transfer) (p : Place) : Prop :=
  p = .marking x ∨ p = .parting x ∨ p = .asleep x ∨ p = .yielding x ∨ p = .giving x ∨ p = .dozing x ∨ p = .sleeping x

/-- A node for the task is on a list, or taken from it and not yet dealt with. -/
def State.Listed (s : State) (e : End) (t : TcbT) : Prop :=
  t ∈ s.pipe.blocking e ∨ ∃ u todo, (s.place u).todo = some (e, todo) ∧ t ∈ todo

end OpenXJ380.Pipe.Waiting

/-! # What one section does to the bytes

A pipe holds a queue of at most `PIPE_BUFF` bytes. Reading takes from its front,
writing puts all or nothing behind it, and the rest leaves it alone.
-/

namespace OpenXJ380.Pipe

open LinearBuffer

def PipeInfo.bytes (pipe : PipeInfo) : List Byte := contents pipe.buf pipe.ptr

structure SameBytes (pipe pipe' : PipeInfo) : Prop where
  ptr : pipe'.ptr = pipe.ptr
  buf : pipe'.buf = pipe.buf

section

variable {pipe pipe' : PipeInfo} {e : End} {current : Option TcbT} {node : Bool} {size wrote : Nat} {bytes : List Byte}

theorem SameBytes.bytes_eq (h : SameBytes pipe pipe') : pipe'.bytes = pipe.bytes := by
  rw [PipeInfo.bytes, PipeInfo.bytes, h.ptr, h.buf]

theorem SameBytes.trans {pipe'' : PipeInfo} (h : SameBytes pipe pipe') (h' : SameBytes pipe' pipe'') :
    SameBytes pipe pipe'' :=
  ⟨h'.ptr.trans h.ptr, h'.buf.trans h.buf⟩

section

variable (pipe : PipeInfo)

theorem setBlocking_same (e : End) (waiters : List TcbT) : SameBytes pipe (pipe.setBlocking e waiters) := by
  cases e <;> exact ⟨rfl, rfl⟩

theorem pipeWaitOn_same (e : End) (current : Option TcbT) (node : Bool) :
    SameBytes pipe (pipeWaitOn pipe e current node) := by
  cases current with
  | none => exact ⟨rfl, rfl⟩
  | some task =>
    rw [pipeWaitOn]
    cases pipeAddWaiter (pipe.blocking e) task node with
    | none => exact ⟨rfl, rfl⟩
    | some waiters => exact setBlocking_same pipe e waiters

theorem dropFd_same (e : End) : SameBytes pipe (dropFd pipe e) := by
  cases e <;> exact ⟨rfl, rfl⟩

theorem clearSpec_same (e : End) : SameBytes pipe (clearSpec pipe e) := by
  cases e <;> exact ⟨rfl, rfl⟩

theorem closeSection_same (e : End) : SameBytes pipe (closeSection pipe e).1 := by
  simp only [closeSection]
  split
  · exact ((dropFd_same pipe e).trans (setBlocking_same _ e.other [])).trans (clearSpec_same _ e)
  · exact dropFd_same pipe e

theorem dupSection_same (e : End) : SameBytes pipe (dupSection pipe e) := by
  cases e <;> exact ⟨rfl, rfl⟩

theorem takeBytes_spec (size : Nat) :
    (takeBytes pipe size).1 ++ (takeBytes pipe size).2.bytes = pipe.bytes ∧ (takeBytes pipe size).2.ptr ≤ pipe.ptr ∧
      (takeBytes pipe size).1.length = min size pipe.ptr := by
  have hLe : min size pipe.ptr ≤ pipe.ptr := min_le_right _ _
  refine ⟨?_, Nat.sub_le _ _, length_contents⟩
  simp only [takeBytes, PipeInfo.bytes]
  generalize min size pipe.ptr = toRead at hLe
  split
  · rw [contents_move, ← contents_take hLe, List.take_append_drop]
  · have hAll : toRead = pipe.ptr := by omega
    rw [hAll, Nat.sub_self]
    exact List.append_nil _

end

theorem readSection_returned (h : readSection pipe size current node = (pipe', some bytes)) :
    pipe.bytes = bytes ++ pipe'.bytes ∧ pipe'.ptr ≤ pipe.ptr := by
  rw [readSection] at h
  split at h
  · obtain ⟨hQueue, hLe, -⟩ := takeBytes_spec pipe size
    simp only at h
    generalize takeBytes pipe size = taken at h hQueue hLe
    obtain ⟨rfl, hBytes⟩ := Prod.mk.inj h
    cases hBytes
    have hSame := setBlocking_same taken.2 .write []
    constructor
    · rw [pipeWakeWaiters, hSame.bytes_eq, hQueue]
    · rw [pipeWakeWaiters, hSame.ptr]
      exact hLe
  · split at h
    · obtain ⟨rfl, hBytes⟩ := Prod.mk.inj h
      cases hBytes
      exact ⟨rfl, le_rfl⟩
    · cases (Prod.mk.inj h).2

theorem readSection_waits (h : readSection pipe size current node = (pipe', none)) : SameBytes pipe pipe' := by
  rw [readSection] at h
  split at h
  · cases (Prod.mk.inj h).2
  · split at h
    · cases (Prod.mk.inj h).2
    · obtain ⟨rfl, -⟩ := Prod.mk.inj h
      exact pipeWaitOn_same pipe .read current node

theorem room_eq (hPtr : pipe.ptr ≤ pipeBuff) : room pipe = pipeBuff - pipe.ptr := by
  rw [room, pipeBuff] at *
  omega

theorem appendBytes_spec (hPtr : pipe.ptr ≤ pipeBuff) (hRoom : bytes.length ≤ room pipe) :
    (appendBytes pipe bytes).bytes = pipe.bytes ++ bytes ∧ (appendBytes pipe bytes).ptr ≤ pipeBuff := by
  rw [room_eq hPtr] at hRoom
  have hMod : (pipe.ptr + bytes.length) % 2 ^ 32 = pipe.ptr + bytes.length := by
    rw [pipeBuff] at *
    omega
  simp only [appendBytes, PipeInfo.bytes, hMod]
  exact ⟨contents_put, by omega⟩

theorem writeSection_returned (hPtr : pipe.ptr ≤ pipeBuff)
    (h : writeSection pipe bytes current node = (pipe', some wrote)) : (wrote = minusEpipe ∧ pipe' = pipe) ∨
      (wrote = bytes.length ∧ wrote ≠ minusEpipe ∧ pipe'.bytes = pipe.bytes ++ bytes ∧ pipe'.ptr ≤ pipeBuff) := by
  rw [writeSection] at h
  split at h
  · obtain ⟨rfl, hWrote⟩ := Prod.mk.inj h
    exact .inl ⟨(Option.some.inj hWrote).symm, rfl⟩
  · split at h
    · next hRoom =>
      obtain ⟨rfl, hWrote⟩ := Prod.mk.inj h
      obtain ⟨hQueue, hBound⟩ := appendBytes_spec hPtr hRoom
      have hSame := setBlocking_same (appendBytes pipe bytes) .read []
      have hSmall : bytes.length ≤ pipeBuff := by
        rw [room_eq hPtr] at hRoom
        omega
      refine .inr ⟨(Option.some.inj hWrote).symm, ?_, ?_, ?_⟩
      · rw [← Option.some.inj hWrote]
        intro hEq
        rw [hEq] at hSmall
        exact absurd hSmall (by decide)
      · rw [pipeWakeWaiters, hSame.bytes_eq, hQueue]
      · rw [pipeWakeWaiters, hSame.ptr]
        exact hBound
    · cases (Prod.mk.inj h).2

theorem writeSection_waits (h : writeSection pipe bytes current node = (pipe', none)) : SameBytes pipe pipe' := by
  rw [writeSection] at h
  split at h
  · cases (Prod.mk.inj h).2
  · split at h
    · cases (Prod.mk.inj h).2
    · obtain ⟨rfl, -⟩ := Prod.mk.inj h
      exact pipeWaitOn_same pipe .write current node

end

variable {w : WriteFrame} {bytes : List Byte}

theorem WriteFrame.request_spec (hCycle : w.cycle = 0) (h : w.request = some bytes) :
    bytes = (w.data.drop (w.i * pipeBuff)).take w.target ∧ bytes.length = w.target ∧
      w.i * pipeBuff + w.target = min ((w.i + 1) * pipeBuff) w.data.length := by
  rw [request] at h
  split at h
  · next hMore =>
    cases h
    have hTarget : w.i * pipeBuff + w.target = min ((w.i + 1) * pipeBuff) w.data.length := by
      rw [target]
      split
      · next hLess =>
        simp only [chunks, pipeBuff] at hLess ⊢
        omega
      · next hLast =>
        simp only [chunks, remainder, pipeBuff] at hLast hMore ⊢
        omega
    have hRest : w.target ≤ w.data.length - w.i * pipeBuff := by omega
    rw [hCycle, add_zero, Nat.sub_zero]
    refine ⟨rfl, ?_, hTarget⟩
    rw [List.length_take, List.length_drop, min_eq_left hRest]
  · cases h

theorem WriteFrame.advance_eq (hCycle : w.cycle = 0) (hLength : bytes.length = w.target) :
    w.advance bytes.length = { w with i := w.i + 1, cycle := 0, ret := w.ret + bytes.length } := by
  rw [advance, hCycle, zero_add, if_pos hLength]

theorem WriteFrame.request_whole (hCycle : w.cycle = 0) (h : w.request = some bytes)
    (hShort : w.data.length ≤ pipeBuff) : w.i = 0 ∧ bytes = w.data := by
  obtain ⟨hBytes, -, hTarget⟩ := request_spec hCycle h
  rw [request] at h
  split at h
  · next hMore =>
    have hFirst : w.i = 0 := by
      simp only [chunks, remainder, pipeBuff] at hMore hShort
      omega
    rw [hFirst] at hTarget hBytes
    refine ⟨hFirst, ?_⟩
    rw [hBytes, Nat.zero_mul, List.drop_zero]
    apply List.take_of_length_le
    omega
  · cases h

end OpenXJ380.Pipe
