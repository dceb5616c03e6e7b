import OpenXJ380.Errno
import Mathlib.Data.List.Nodup

/-! # Unix sockets (`driver/fs/vfs/unixsock.cpp`)

A socket is the number of its allocation; there is memory for every allocation. The
calls are put together from what they do under their locks.
-/

namespace OpenXJ380.Unix

open Function

open Errno

inductive SockType where
  | stream
  | dgram
deriving DecidableEq

inductive SockState where
  | free
  | bound
  | listening
  | connecting
  | connected
deriving DecidableEq

/-- `state >= UNIX_BOUND`. -/
def SockState.named (s : SockState) : Bool := s ≠ .free

abbrev SockId := Nat

abbrev Path := List UInt8

def AF_UNIX : Nat := 1

def UNIX_PATH_MAX : Nat := 108

/-- An address as the kernel reads it: the path goes on to a NUL, even past the array. -/
structure SockaddrUn where
  sunFamily : Nat
  sunPath : Path

/-- `struct unix_sock` without its buffers; `peerAddr` says that something is in `peer_addr`, and `released` counts how
often the memory has been freed. -/
structure Sock where
  state : SockState
  type : SockType
  sunPath : Path
  peerAddr : Bool
  peer : Option SockId
  connQueue : Option (List SockId)
  refcount : Nat
  closed : Bool
  released : Nat
deriving DecidableEq

/-- `unix_sock_init`. -/
def unixSockInit (type : SockType) : Sock where
  state := .free
  type := type
  sunPath := []
  peerAddr := false
  peer := none
  connQueue := none
  refcount := 1
  closed := false
  released := 0

/-- `local_addr.sun_path` as `strcmp` reads it: behind a full array comes `peer_addr`, which begins with `AF_UNIX`. -/
def Sock.localPath (sk : Sock) : Path :=
  if sk.sunPath.length = UNIX_PATH_MAX ∧ sk.peerAddr = true then sk.sunPath ++ [1] else sk.sunPath

structure State where
  socks : SockId → Sock
  next : SockId
  ns : List SockId

def State.set (s : State) (i : SockId) (f : Sock → Sock) : State :=
  { s with socks := update s.socks i (f (s.socks i)) }

/-- `malloc` and `unix_sock_init`, with what is set afterwards. -/
def State.alloc (s : State) (sk : Sock) : State :=
  { s with socks := update s.socks s.next sk, next := s.next + 1 }

section

variable (s : State) (i j : SockId) (f : Sock → Sock) (sk : Sock)

theorem State.set_socks : (s.set i f).socks j = if j = i then f (s.socks i) else s.socks j :=
  update_apply _ _ _ _

theorem State.set_set (g : Sock → Sock) : (s.set i f).set i g = s.set i fun k => g (f k) := by
  rw [State.set, State.set, State.set]
  simp only [update_self, update_idem]

@[simp] theorem State.set_next : (s.set i f).next = s.next := rfl

@[simp] theorem State.set_ns : (s.set i f).ns = s.ns := rfl

theorem State.alloc_socks : (s.alloc sk).socks j = if j = s.next then sk else s.socks j :=
  update_apply _ _ _ _

@[simp] theorem State.alloc_next : (s.alloc sk).next = s.next + 1 := rfl

@[simp] theorem State.alloc_ns : (s.alloc sk).ns = s.ns := rfl

end

theorem nodup_snoc {q : List SockId} {a : SockId} (hq : q.Nodup) (ha : a ∉ q) : (q ++ [a]).Nodup := by
  rw [List.nodup_append]
  refine ⟨hq, List.nodup_singleton a, ?_⟩
  rintro b hb c hc rfl
  exact ha (List.mem_singleton.mp hc ▸ hb)

def nsRegister (sk : SockId) (s : State) : State :=
  if (s.socks sk).sunPath = [] then s else { s with ns := s.ns ++ [sk] }

def nsUnregister (sk : SockId) (s : State) : State := { s with ns := s.ns.erase sk }

/-- The socket that `unix_ns_lookup` returns. -/
def nsFind (s : State) (path : Path) : Option SockId :=
  s.ns.find? fun i => (s.socks i).state.named && (s.socks i).sunPath ≠ [] && (s.socks i).localPath = path

theorem nsFind_mem {s : State} {path : Path} {i : SockId} (hFind : nsFind s path = some i) : i ∈ s.ns :=
  List.mem_of_find?_eq_some hFind

def retain (sk : SockId) (s : State) : State := s.set sk fun k => { k with refcount := k.refcount + 1 }

def release (sk : SockId) (s : State) : State := s.set sk fun k => { k with refcount := k.refcount - 1 }

theorem release_retain (s : State) (sk : SockId) : release sk (retain sk s) = s := by
  rw [release, retain, State.set, State.set]
  simp only [update_self, update_idem, Nat.add_sub_cancel, update_eq_self]

def maxPath (addrlen : Nat) : Nat := if addrlen > 2 then min (addrlen - 2) UNIX_PATH_MAX else 0

/-- `max_path > 0 && sunaddr->sun_path[0] != '\0'`. -/
def hasPath (addr : SockaddrUn) (addrlen : Nat) : Bool := maxPath addrlen > 0 && addr.sunPath ≠ []

/-- `local_addr` has been zero up to here. -/
def assign (sk : SockId) (addr : SockaddrUn) (addrlen : Nat) (s : State) : State :=
  s.set sk fun k => { k with sunPath := addr.sunPath.take (maxPath addrlen), state := .bound }

def bindLookup (addr : SockaddrUn) (addrlen : Nat) (s : State) : Option SockId :=
  if hasPath addr addrlen then nsFind s addr.sunPath else none

def bindRegister (sk : SockId) (addr : SockaddrUn) (addrlen : Nat) (s : State) : State :=
  if hasPath addr addrlen then nsRegister sk s else s

def unixBind (sk : SockId) (addr : SockaddrUn) (addrlen : Nat) (s : State) : State × Int :=
  if addrlen < 2 then (s, -EINVAL)
  else if addr.sunFamily ≠ AF_UNIX then (s, -EAFNOSUPPORT)
  else if (s.socks sk).state ≠ .free then (s, -EINVAL)
  else
    match bindLookup addr addrlen s with
    | some existing => (release existing (retain existing s), -EADDRINUSE)
    | none => (bindRegister sk addr addrlen (assign sk addr addrlen s), 0)

def unixListen (sk : SockId) (s : State) : State × Int :=
  if (s.socks sk).type ≠ .stream then (s, -EOPNOTSUPP)
  else if (s.socks sk).state ≠ .bound then (s, -EINVAL)
  else (s.set sk fun k => { k with state := .listening, connQueue := some (k.connQueue.getD []) }, 0)

def connectLookup (addr : SockaddrUn) (s : State) : Option SockId :=
  if addr.sunPath ≠ [] then nsFind s addr.sunPath else none

def connectTo (sk listener : SockId) (s : State) : State :=
  (((s.alloc { unixSockInit .stream with
        state := .connected, sunPath := (s.socks listener).sunPath, peerAddr := true, peer := some sk }).set sk
      fun k => { k with state := .connected, peer := some s.next }).set listener
    fun k => { k with connQueue := k.connQueue.map (· ++ [s.next]) })

def unixConnect (sk : SockId) (addr : SockaddrUn) (addrlen : Nat) (s : State) : Option (State × Int) :=
  if addr.sunFamily ≠ AF_UNIX then some (s, -EAFNOSUPPORT)
  else if (s.socks sk).state ≠ .free ∧ (s.socks sk).state ≠ .bound then some (s, -EINVAL)
  else
    let s := s.set sk fun k => { k with peerAddr := k.peerAddr || addrlen > 0 }
    if (s.socks sk).type = .dgram then some (s.set sk fun k => { k with state := .connected }, 0)
    else
      match connectLookup addr s with
      | none => some (s, -ECONNREFUSED)
      | some listener =>
        if listener = sk then none
        else if (s.socks listener).state ≠ .listening ∨ (s.socks listener).connQueue = none then
          some (release listener (retain listener s), -ECONNREFUSED)
        else some (release listener (connectTo sk listener (retain listener s)), 0)

/-- What is accepted; nothing is returned where the call waits for a connection. -/
def unixAccept (sk : SockId) (s : State) : Option (State × Int × Option SockId) :=
  if (s.socks sk).state ≠ .listening then some (s, -EINVAL, none)
  else
    match (s.socks sk).connQueue with
    | none => some (s, -EINVAL, none)
    | some [] => none
    | some (newSk :: rest) => some (s.set sk fun k => { k with connQueue := some rest }, 0, some newSk)

def disconnect (sk : SockId) (s : State) : State :=
  match (s.socks sk).peer with
  | none => s
  | some p =>
    (s.set p fun k => { k with closed := true, peer := none }).set sk fun k => { k with peer := none }

def popHead (sk : SockId) (s : State) : State :=
  s.set sk fun k => { k with connQueue := k.connQueue.map List.tail }

/-- `while (sk->conn_queue->head)`, over as many sockets as are queued. -/
def freeQueued (sockFree : SockId → State → State) (sk : SockId) : Nat → State → State
  | 0, s => s
  | more + 1, s =>
    match (s.socks sk).connQueue with
    | some (cs :: _) =>
      freeQueued sockFree sk more
        (popHead sk (sockFree cs ((disconnect cs s).set cs fun k => { k with peer := none, state := .free })))
    | _ => s

/-- `unix_sock_free`, to a depth. -/
def unixSockFree : Nat → SockId → State → State
  | 0, _, s => s
  | depth + 1, sk, s =>
    (freeQueued (unixSockFree depth) sk ((s.socks sk).connQueue.elim 0 List.length) s).set sk
      fun k => { k with released := k.released + 1 }

def unixClose (sk : SockId) (s : State) : State :=
  let s := s.set sk fun k => { k with closed := true }
  let s := disconnect sk s
  let s := if (s.socks sk).state.named then nsUnregister sk s else s
  let s := release sk s
  if (s.socks sk).refcount = 0 then unixSockFree (s.next + 1) sk s else s

def unixCreate (type : SockType) (s : State) : State × SockId := (s.alloc (unixSockInit type), s.next)

def unixSocketpair (type : SockType) (s : State) : State × SockId × SockId :=
  let (s, sk1) := unixCreate type s
  let (s, sk2) := unixCreate type s
  let s := s.set sk1 fun k => { k with state := .connected, peer := some sk2 }
  let s := s.set sk2 fun k => { k with state := .connected, peer := some sk1 }
  (retain sk1 (retain sk2 s), sk1, sk2)

end OpenXJ380.Unix
