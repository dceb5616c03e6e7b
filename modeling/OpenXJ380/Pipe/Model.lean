import Mathlib.Algebra.Group.Int.Defs
import Mathlib.Algebra.Group.Nat.Defs
import OpenXJ380.Errno
import OpenXJ380.Lib.LinearBuffer
import OpenXJ380.Lib.Transition

/-! # Pipes (`driver/fs/vfs/pipefs.cpp`, `driver/fs/vfs/vfs.cpp`)

What is done under the lock of a pipe, and the loops of `pipefs_write` around it.
A list of waiters holds the newest first. The counters of descriptors are signed
and never negative.
-/

namespace OpenXJ380.Pipe

section

open LinearBuffer

abbrev TcbT := Nat

abbrev Byte := BitVec 8

def pipeBuff : Nat := 8192

/-- A signed number as a `size_t`. -/
def sizeT (n : Int) : Nat := (n % 2 ^ 64).toNat

def minusEpipe : Nat := sizeT (-Errno.EPIPE)

/-- The `write` flag of a `pipe_specific`. -/
inductive End where
  | read
  | write
deriving DecidableEq

structure PipeInfo where
  ptr : Nat
  buf : Nat → Byte
  writeFds : Nat
  readFds : Nat
  blockingRead : List TcbT
  blockingWrite : List TcbT
  readSpec : Bool
  writeSpec : Bool

/-- `pipe2`. -/
def newPipe : PipeInfo :=
  { ptr := 0, buf := fun _ => 0, writeFds := 1, readFds := 1, blockingRead := [], blockingWrite := [], readSpec := true,
    writeSpec := true }

def PipeInfo.blocking (pipe : PipeInfo) : End → List TcbT
  | .read => pipe.blockingRead
  | .write => pipe.blockingWrite

def PipeInfo.setBlocking (pipe : PipeInfo) (e : End) (waiters : List TcbT) : PipeInfo :=
  match e with
  | .read => { pipe with blockingRead := waiters }
  | .write => { pipe with blockingWrite := waiters }

def pipeWaiterContains (waiters : List TcbT) (task : TcbT) : Bool := waiters.contains task

/-- `node` says whether `malloc` has memory for a node. -/
def pipeAddWaiter (waiters : List TcbT) (task : TcbT) (node : Bool) : Option (List TcbT) :=
  if pipeWaiterContains waiters task then some waiters else if node then some (task :: waiters) else none

/-- What the list is in `pipe_wait_on`; the idle task and a CPU without a task do not register. -/
def pipeWaitOn (pipe : PipeInfo) (e : End) (current : Option TcbT) (node : Bool) : PipeInfo :=
  match current with
  | none => pipe
  | some task =>
    match pipeAddWaiter (pipe.blocking e) task node with
    | none => pipe
    | some waiters => pipe.setBlocking e waiters

/-- The list after `pipe_wake_waiters`. -/
def pipeWakeWaiters (pipe : PipeInfo) (e : End) : PipeInfo := pipe.setBlocking e []

def takeBytes (pipe : PipeInfo) (size : Nat) : List Byte × PipeInfo :=
  let toRead := min size pipe.ptr
  let buf := if pipe.ptr > toRead then move pipe.buf 0 toRead (pipe.ptr - toRead) else pipe.buf
  (contents pipe.buf toRead, { pipe with buf := buf, ptr := pipe.ptr - toRead })

/-- One round of `pipefs_read`: the bytes it returns, or nothing where it waits. -/
def readSection (pipe : PipeInfo) (size : Nat) (current : Option TcbT) (node : Bool) : PipeInfo × Option (List Byte) :=
  if pipe.ptr ≠ 0 then
    let taken := takeBytes pipe size
    (pipeWakeWaiters taken.2 .write, some taken.1)
  else if pipe.writeFds = 0 then (pipe, some [])
  else (pipeWaitOn pipe .read current node, none)

/-- `PIPE_BUFF - pipe->ptr`, without a sign. -/
def room (pipe : PipeInfo) : Nat := (pipeBuff + 2 ^ 32 - pipe.ptr) % 2 ^ 32

def appendBytes (pipe : PipeInfo) (bytes : List Byte) : PipeInfo :=
  { pipe with buf := put pipe.buf pipe.ptr bytes, ptr := (pipe.ptr + bytes.length) % 2 ^ 32 }

/-- One round of `pipe_write_inner`: what it returns, or nothing where it waits. -/
def writeSection (pipe : PipeInfo) (bytes : List Byte) (current : Option TcbT) (node : Bool) : PipeInfo × Option Nat :=
  if pipe.readFds = 0 then (pipe, some minusEpipe)
  else if room pipe ≥ bytes.length then (pipeWakeWaiters (appendBytes pipe bytes) .read, some bytes.length)
  else (pipeWaitOn pipe .write current node, none)

/-- The variables of `pipefs_write`; `i` is the number of chunks there are when it comes to the remainder. -/
structure WriteFrame where
  data : List Byte
  i : Nat
  cycle : Nat
  ret : Nat

def WriteFrame.chunks (w : WriteFrame) : Nat := w.data.length / pipeBuff

def WriteFrame.remainder (w : WriteFrame) : Nat := w.data.length % pipeBuff

/-- How far `cycle` is to go. -/
def WriteFrame.target (w : WriteFrame) : Nat := if w.i < w.chunks then pipeBuff else w.remainder

/-- The bytes for the next `pipe_write_inner`, if there is one. -/
def WriteFrame.request (w : WriteFrame) : Option (List Byte) :=
  if w.i < w.chunks ∨ w.i = w.chunks ∧ w.remainder ≠ 0 then
    some ((w.data.drop (w.i * pipeBuff + w.cycle)).take (w.target - w.cycle))
  else none

/-- After `pipe_write_inner` has written `wrote` bytes. -/
def WriteFrame.advance (w : WriteFrame) (wrote : Nat) : WriteFrame :=
  if w.cycle + wrote = w.target then { w with i := w.i + 1, cycle := 0, ret := w.ret + (w.cycle + wrote) }
  else { w with cycle := w.cycle + wrote }

/-- What `pipefs_write` returns when there is no reader. -/
def WriteFrame.broken (w : WriteFrame) : Nat := if w.ret ≠ 0 then w.ret else minusEpipe

def End.other : End → End
  | .read => .write
  | .write => .read

def PipeInfo.fds (pipe : PipeInfo) : End → Nat
  | .read => pipe.readFds
  | .write => pipe.writeFds

def PipeInfo.spec (pipe : PipeInfo) : End → Bool
  | .read => pipe.readSpec
  | .write => pipe.writeSpec

def dropFd (pipe : PipeInfo) : End → PipeInfo
  | .read => { pipe with readFds := if pipe.readFds > 0 then pipe.readFds - 1 else pipe.readFds }
  | .write => { pipe with writeFds := if pipe.writeFds > 0 then pipe.writeFds - 1 else pipe.writeFds }

def clearSpec (pipe : PipeInfo) : End → PipeInfo
  | .read => { pipe with readSpec := false }
  | .write => { pipe with writeSpec := false }

structure Closed where
  freeSpec : Bool
  freePipe : Bool
  otherSpec : Bool

def closeSection (pipe : PipeInfo) (e : End) : PipeInfo × Closed :=
  let pipe := dropFd pipe e
  if pipe.fds e = 0 then
    let pipe := clearSpec (pipeWakeWaiters pipe e.other) e
    (pipe, ⟨true, pipe.fds e.other = 0, pipe.spec e.other⟩)
  else (pipe, ⟨false, false, false⟩)

/-- `fd_dup`. -/
def dupSection (pipe : PipeInfo) : End → PipeInfo
  | .read => { pipe with readFds := pipe.readFds + 1 }
  | .write => { pipe with writeFds := pipe.writeFds + 1 }

end

/-! # Readers and writers of one pipe

What runs between the lock and the unlock is one step. A task that waits may try
again at any time. Each `pipefs_write` has a number, so that its bytes can be told
from those of the others.
-/

open LinearBuffer Transition

inductive Pc where
  | idle
  | reading (size : Nat)
  | writing (call : Nat) (frame : WriteFrame)
  | returning (call result : Nat)
  | closing (e : End) (closed : Closed)

/-- The pipe until it is freed, and which of its two ends have a `pipe_specific`. -/
structure PipeState where
  pipe : Option PipeInfo
  spec : End → Bool
  tasks : TcbT → Pc
  calls : Nat

inductive Label where
  | callRead (t : TcbT) (size : Nat)
  | read (t : TcbT) (size : Nat) (bytes : List Byte)
  | readWaits (t : TcbT)
  | callWrite (t : TcbT) (call : Nat) (data : List Byte)
  | append (call : Nat) (bytes : List Byte)
  | refused (call : Nat)
  | writeWaits (t : TcbT)
  | write (call result : Nat)
  | close (t : TcbT) (e : End)
  | closed (t : TcbT)
  | dup (e : End)

def PipeState.enter (s : PipeState) (t : TcbT) (pc : Pc) : PipeState :=
  { s with tasks := Function.update s.tasks t pc }

@[simp] theorem PipeState.enter_self (s : PipeState) (t : TcbT) (pc : Pc) : (s.enter t pc).tasks t = pc := by
  simp [PipeState.enter]

@[simp] theorem PipeState.enter_ne (s : PipeState) {t u : TcbT} (pc : Pc) (hNe : u ≠ t) :
    (s.enter t pc).tasks u = s.tasks u := by
  simp [PipeState.enter, hNe]

def PipeState.onPipe (s : PipeState) (pipe : PipeInfo) : PipeState := { s with pipe := some pipe }

/-- What `pipefs_close` frees after the lock is released. -/
def PipeState.release (s : PipeState) (e : End) (closed : Closed) : PipeState :=
  { s with
    pipe := if closed.freePipe then none else s.pipe
    spec := fun e' =>
      s.spec e' && !(e' = e && closed.freeSpec) && !(e' ≠ e && closed.freePipe && closed.otherSpec) }

inductive Step : PipeState → Label → PipeState → Prop
  | callRead {s : PipeState} {t : TcbT} {e : End} (size : Nat) (hIdle : s.tasks t = .idle) (hSpec : s.spec e = true) :
      Step s (.callRead t size) (s.enter t (.reading (if size > pipeBuff then pipeBuff else size)))
  | read {s : PipeState} {t : TcbT} {size : Nat} {pipe pipe' : PipeInfo} {bytes : List Byte} (current : Option TcbT)
      (node : Bool) (hReading : s.tasks t = .reading size) (hPipe : s.pipe = some pipe)
      (hSection : readSection pipe size current node = (pipe', some bytes)) :
      Step s (.read t size bytes) ((s.onPipe pipe').enter t .idle)
  | readWaits {s : PipeState} {t : TcbT} {size : Nat} {pipe pipe' : PipeInfo} (current : Option TcbT) (node : Bool)
      (hReading : s.tasks t = .reading size) (hPipe : s.pipe = some pipe)
      (hSection : readSection pipe size current node = (pipe', none)) : Step s (.readWaits t) (s.onPipe pipe')
  | callWrite {s : PipeState} {t : TcbT} {e : End} (data : List Byte) (hIdle : s.tasks t = .idle)
      (hSpec : s.spec e = true) :
      Step s (.callWrite t s.calls data)
        { s.enter t (.writing s.calls { data := data, i := 0, cycle := 0, ret := 0 }) with calls := s.calls + 1 }
  | append {s : PipeState} {t : TcbT} {call wrote : Nat} {w : WriteFrame} {bytes : List Byte} {pipe pipe' : PipeInfo}
      (current : Option TcbT) (node : Bool) (hWriting : s.tasks t = .writing call w) (hRequest : w.request = some bytes)
      (hPipe : s.pipe = some pipe) (hSection : writeSection pipe bytes current node = (pipe', some wrote))
      (hWrote : wrote ≠ minusEpipe) :
      Step s (.append call bytes) ((s.onPipe pipe').enter t (.writing call (w.advance wrote)))
  | refused {s : PipeState} {t : TcbT} {call : Nat} {w : WriteFrame} {bytes : List Byte} {pipe pipe' : PipeInfo}
      (current : Option TcbT) (node : Bool) (hWriting : s.tasks t = .writing call w) (hRequest : w.request = some bytes)
      (hPipe : s.pipe = some pipe) (hSection : writeSection pipe bytes current node = (pipe', some minusEpipe)) :
      Step s (.refused call) ((s.onPipe pipe').enter t (.returning call w.broken))
  | writeWaits {s : PipeState} {t : TcbT} {call : Nat} {w : WriteFrame} {bytes : List Byte} {pipe pipe' : PipeInfo}
      (current : Option TcbT) (node : Bool) (hWriting : s.tasks t = .writing call w) (hRequest : w.request = some bytes)
      (hPipe : s.pipe = some pipe) (hSection : writeSection pipe bytes current node = (pipe', none)) :
      Step s (.writeWaits t) (s.onPipe pipe')
  | write {s : PipeState} {t : TcbT} {call : Nat} {w : WriteFrame} (hWriting : s.tasks t = .writing call w)
      (hRequest : w.request = none) : Step s (.write call w.ret) (s.enter t .idle)
  | writeBroken {s : PipeState} {t : TcbT} {call result : Nat} (hReturning : s.tasks t = .returning call result) :
      Step s (.write call result) (s.enter t .idle)
  | close {s : PipeState} {t : TcbT} {e : End} {pipe : PipeInfo} (hIdle : s.tasks t = .idle) (hSpec : s.spec e = true)
      (hPipe : s.pipe = some pipe) :
      Step s (.close t e) ((s.onPipe (closeSection pipe e).1).enter t (.closing e (closeSection pipe e).2))
  | closed {s : PipeState} {t : TcbT} {e : End} {closed : Closed} (hClosing : s.tasks t = .closing e closed) :
      Step s (.closed t) ((s.release e closed).enter t .idle)
  | dup {s : PipeState} {e : End} {pipe : PipeInfo} (hSpec : s.spec e = true) (hPipe : s.pipe = some pipe) :
      Step s (.dup e) (s.onPipe (dupSection pipe e))

def opened : PipeState := { pipe := some newPipe, spec := fun _ => true, tasks := fun _ => .idle, calls := 0 }

def Label.appended : Label → List Byte
  | .append _ bytes => bytes
  | _ => []

def Label.returned : Label → List Byte
  | .read _ _ bytes => bytes
  | _ => []

def appendedBytes (labels : List Label) : List Byte := labels.flatMap Label.appended

def returnedBytes (labels : List Label) : List Byte := labels.flatMap Label.returned

/-- The `pipefs_write` that a step belongs to. -/
def Label.call : Label → Option Nat
  | .callWrite _ call _ => some call
  | .append call _ => some call
  | .refused call => some call
  | .write call _ => some call
  | _ => none

/-- The steps of one `pipefs_write`. -/
def ofCall (call : Nat) (labels : List Label) : List Label := labels.filter fun l => l.call = some call

def Label.chunk : Label → List (List Byte)
  | .append _ bytes => [bytes]
  | _ => []

/-- What one `pipefs_write` has appended, chunk by chunk. -/
def chunksOf (call : Nat) (labels : List Label) : List (List Byte) := (ofCall call labels).flatMap Label.chunk

end OpenXJ380.Pipe
