import Mathlib.Data.List.Nodup
import OpenXJ380.Errno
import OpenXJ380.Lib.Transition

/-! # Watched descriptors (`kernel/syscall/sys.cpp`)

An epoll instance remembers descriptors by their numbers, and looks the numbers up whenever it is waited for.
-/

namespace OpenXJ380.Epoll

open Function

open Errno Transition

abbrev Fd := Nat
abbrev NodeId := Nat

/-- An open file. Handles that are copied from one another belong to the same one. -/
abbrev FileId := Nat

abbrev Events := BitVec 32

def EPOLLIN : Events := 0x001
def EPOLLOUT : Events := 0x004
def EPOLLERR : Events := 0x008
def EPOLLHUP : Events := 0x010
def EPOLLRDNORM : Events := 0x040
def EPOLLWRNORM : Events := 0x100
def EPOLLRDHUP : Events := 0x2000

def EPOLL_CTL_ADD : Int := 1
def EPOLL_CTL_DEL : Int := 2
def EPOLL_CTL_MOD : Int := 3

def EPOLL_CLOEXEC : BitVec 32 := 0x80000

def EMFILE : Int := 24

structure EpollEvent where
  events : Events
  data : BitVec 64
deriving DecidableEq

/-- `file` is the open file that stood under the number when the watch was added. -/
structure Watch where
  fd : Fd
  event : EpollEvent
  file : FileId
deriving DecidableEq

/-- `fd_file_handle`. -/
structure Handle where
  node : NodeId
  file : FileId
deriving DecidableEq

/-- A process with its open files. `watches` are those of a node that is an epoll instance. -/
structure Process where
  fileOpen : List (Fd × Handle)
  refcount : NodeId → Nat
  watches : NodeId → Option (List Watch)
  nextNode : NodeId
  nextFile : FileId

/-- What a step finds: whether there is memory for what it allocates, and for the node of a queue. -/
structure Room where
  malloc : Bool
  node : Bool

def queueGet (fileOpen : List (Fd × Handle)) (fd : Int) : Option Handle :=
  (fileOpen.find? fun entry => (entry.1 : Int) = fd).map Prod.snd

def queueRemoveAt (fileOpen : List (Fd × Handle)) (fd : Int) : List (Fd × Handle) :=
  fileOpen.eraseP fun entry => (entry.1 : Int) = fd

/-- The loop of `queue_enqueue_lowest`, which ends with an entry more at the latest. -/
def lowestUnused (used : List Fd) : Nat → Fd → Fd
  | 0, id => id
  | rounds + 1, id => if id ∈ used then lowestUnused used rounds (id + 1) else id

def Process.install (p : Process) (h : Handle) : Process × Fd :=
  let fd := lowestUnused (p.fileOpen.map Prod.fst) (p.fileOpen.length + 1) 0
  ({ p with fileOpen := p.fileOpen ++ [(fd, h)] }, fd)

def Process.retain (p : Process) (node : NodeId) : Process :=
  { p with refcount := update p.refcount node (p.refcount node + 1) }

/-- `vfs_close`, which frees the watches of an epoll instance with its last reference. -/
def vfsClose (p : Process) (node : NodeId) : Process :=
  let p := { p with refcount := update p.refcount node (p.refcount node - 1) }
  if p.refcount node = 0 then { p with watches := update p.watches node none } else p

def sysClose (p : Process) (fd : Int) : Process × Int :=
  if fd < 0 then (p, -EINVAL)
  else
    match queueGet p.fileOpen fd with
    | none => (p, -EBADF)
    | some handle => (vfsClose { p with fileOpen := queueRemoveAt p.fileOpen fd } handle.node, 0)

/-- The end of `openPathkernel_path`, from the node that has been opened. -/
def openNode (room : Room) (p : Process) (node : NodeId) : Process × Int :=
  let p := p.retain node
  if room.node = false then (vfsClose p node, -ENOENT)
  else
    let r := { p with nextFile := p.nextFile + 1 }.install ⟨node, p.nextFile⟩
    (r.1, r.2)

/-- `fd_dup` and `queue_enqueue_id`. -/
def sysDup2 (room : Room) (p : Process) (fd newfd : Int) : Process × Int :=
  if fd < 0 ∨ newfd < 0 then (p, -EBADF)
  else if fd = newfd then (p, newfd)
  else
    match queueGet p.fileOpen fd with
    | none => (p, -EBADF)
    | some handle =>
      let p :=
        match queueGet p.fileOpen newfd with
        | none => p
        | some old => vfsClose { p with fileOpen := queueRemoveAt p.fileOpen newfd } old.node
      let p := p.retain handle.node
      if room.node = false then (vfsClose p handle.node, -EBADF)
      else ({ p with fileOpen := p.fileOpen ++ [(newfd.toNat, handle)] }, newfd)

def epollCreateCommon (room : Room) (p : Process) (flags : BitVec 32) : Process × Int :=
  if flags &&& ~~~EPOLL_CLOEXEC ≠ 0 then (p, -EINVAL)
  else if room.malloc = false then (p, -ENOMEM)
  else if room.node = false then (p, -EMFILE)
  else
    let node := p.nextNode
    let p :=
      { p with
        nextNode := node + 1
        nextFile := p.nextFile + 1
        refcount := update p.refcount node 1
        watches := update p.watches node (some []) }
    let r := p.install ⟨node, p.nextFile - 1⟩
    (r.1, r.2)

def epollFromFd (p : Process) (epfd : Int) : Option (NodeId × List Watch) :=
  if epfd < 0 then none
  else
    match queueGet p.fileOpen epfd with
    | none => none
    | some handle => (p.watches handle.node).map fun watches => (handle.node, watches)

def epollFindWatch (watches : List Watch) (fd : Int) : Option Watch := watches.find? fun watch => (watch.fd : Int) = fd

def sysEpollCtl (room : Room) (p : Process) (epfd op fd : Int) (event : Option EpollEvent) : Process × Int :=
  match epollFromFd p epfd with
  | none => (p, -EBADF)
  | some (ep, watches) =>
    if fd < 0 ∨ fd = epfd then (p, -EINVAL)
    else
      match queueGet p.fileOpen fd with
      | none => (p, -EBADF)
      | some target =>
        match if op = EPOLL_CTL_DEL then some ⟨0, 0⟩ else event with
        | none => (p, -EFAULT)
        | some kev =>
          let put (watches : List Watch) : Process := { p with watches := update p.watches ep (some watches) }
          if op = EPOLL_CTL_ADD then
            match epollFindWatch watches fd with
            | some _ => (p, -EEXIST)
            | none =>
              if room.malloc = false ∨ room.node = false then (p, -ENOMEM)
              else (put (watches ++ [⟨fd.toNat, kev, target.file⟩]), 0)
          else if op = EPOLL_CTL_MOD then
            match epollFindWatch watches fd with
            | none => (p, -ENOENT)
            | some watch => (put (watches.map fun w => if w = watch then { w with event := kev } else w), 0)
          else if op = EPOLL_CTL_DEL then
            match epollFindWatch watches fd with
            | none => (p, -ENOENT)
            | some _ => (put (watches.eraseP fun watch => (watch.fd : Int) = fd), 0)
          else (p, -EINVAL)

abbrev Poll := NodeId → Option (Events → Events)

def epollPollNode (poll : Poll) (node : NodeId) (events : Events) : Events :=
  match poll node with
  | none =>
    (if events &&& (EPOLLIN ||| EPOLLRDNORM) ≠ 0 then EPOLLIN else 0) |||
      (if events &&& (EPOLLOUT ||| EPOLLWRNORM) ≠ 0 then EPOLLOUT else 0)
  | some ready =>
    ready (events ||| (if events &&& EPOLLRDNORM ≠ 0 then EPOLLIN else 0) |||
      (if events &&& EPOLLWRNORM ≠ 0 then EPOLLOUT else 0))

/-- `epoll_poll_fd`; nothing is returned for an error. -/
def epollPollFd (poll : Poll) (p : Process) (fd : Fd) (events : Events) : Option Events :=
  (queueGet p.fileOpen fd).map fun handle => epollPollNode poll handle.node events

def reportMask (events : Events) : Events := events ||| EPOLLERR ||| EPOLLHUP ||| EPOLLRDHUP

def revents (poll : Poll) (p : Process) (watch : Watch) : Events :=
  (epollPollFd poll p watch.fd watch.event.events).getD EPOLLERR &&& reportMask watch.event.events

/-- One round over the watches; `copy` says which entries of the user's array can be written. -/
def waitRound (poll : Poll) (copy : Nat → Bool) (p : Process) (maxevents : Nat) :
    List Watch → List (Watch × Events) → Except Int (List (Watch × Events))
  | [], reported => .ok reported
  | watch :: rest, reported =>
    if maxevents ≤ reported.length then .ok reported
    else if revents poll p watch = 0 then waitRound poll copy p maxevents rest reported
    else if copy reported.length = false then .error (-EFAULT)
    else waitRound poll copy p maxevents rest (reported ++ [(watch, revents poll p watch)])

/-- The rounds that the timeout leaves time for, each with what is ready then; the last one with something to report. -/
def waitLoop (copy : Nat → Bool) (p : Process) (maxevents : Nat) (watches : List Watch) :
    List Poll → Except Int (List (Watch × Events))
  | [] => .ok []
  | poll :: rest =>
    match waitRound poll copy p maxevents watches [] with
    | .error code => .error code
    | .ok [] => waitLoop copy p maxevents watches rest
    | .ok reported => .ok reported

def sysEpollWait (copy : Nat → Bool) (p : Process) (epfd maxevents : Int) (polls : List Poll) :
    Except Int (List (Watch × Events)) :=
  match epollFromFd p epfd with
  | none => .error (-EBADF)
  | some (_, watches) => if maxevents ≤ 0 then .error (-EINVAL) else waitLoop copy p maxevents.toNat watches polls

inductive Act where
  | create (room : Room) (flags : BitVec 32)
  | ctl (room : Room) (epfd op fd : Int) (event : Option EpollEvent)
  | wait (copy : Nat → Bool) (epfd maxevents : Int) (polls : List Poll)
  | openPath (room : Room) (node : NodeId)
  | close (fd : Int)
  | dup2 (room : Room) (fd newfd : Int)

def Process.step (p : Process) : Act → Option Process
  | .create room flags => some (epollCreateCommon room p flags).1
  | .ctl room epfd op fd event => some (sysEpollCtl room p epfd op fd event).1
  | .wait _ _ _ _ => some p
  | .openPath room node => if (p.watches node).isSome ∨ p.nextNode ≤ node then none else some (openNode room p node).1
  | .close fd => some (sysClose p fd).1
  | .dup2 room fd newfd => some (sysDup2 room p fd newfd).1

def epollSystem : System Process Act := stepping Process.step

/-- Nodes below `nodes` can be opened. -/
def Process.init (nodes : NodeId) : Process where
  fileOpen := []
  refcount := fun _ => 0
  watches := fun _ => none
  nextNode := nodes
  nextFile := 0

def ReadyWith (p : Process) (poll : Poll) (watch : Watch) (events : Events) : Prop :=
  ∃ handle, queueGet p.fileOpen watch.fd = some handle ∧ handle.file = watch.file ∧ events ≠ 0 ∧
    events = epollPollNode poll handle.node watch.event.events &&& reportMask watch.event.events

structure WatchesBound (p : Process) : Prop where
  unique : ∀ ep watches, p.watches ep = some watches → (watches.map Watch.fd).Nodup
  reports : ∀ copy epfd maxevents polls reported, sysEpollWait copy p epfd maxevents polls = .ok reported →
    ∀ r ∈ reported, ∃ poll ∈ polls, ReadyWith p poll r.1 r.2

def Watched (p : Process) (fd : Int) : Prop :=
  ∃ ep watches, p.watches ep = some watches ∧ ∃ watch ∈ watches, (watch.fd : Int) = fd

def Unwatched (p : Process) : Act → Prop
  | .close fd => ¬Watched p fd
  | .dup2 room fd newfd =>
    Watched p newfd → fd < 0 ∨ fd = newfd ∨ queueGet p.fileOpen fd = none ∨
      room.node = true ∧ (queueGet p.fileOpen fd).map Handle.file = (queueGet p.fileOpen newfd).map Handle.file
  | _ => True

end OpenXJ380.Epoll
