import OpenXJ380.Unix.Model

/-! # Addresses of sockets (`driver/fs/vfs/unixsock.cpp`)

Here a socket has its addresses as they are stored, and its datagrams. What a
pointer to an address leads to is a list of bytes that goes on behind the address.
-/

namespace OpenXJ380.Unix.Addressed

open Function

open Errno

abbrev Byte := BitVec 8

def addrSize : Nat := 110

abbrev Addr := List Byte

def Addr.zero : Addr := List.replicate addrSize 0

/-- `sun_family`, with the low byte first. -/
def sunFamily (a : List Byte) : BitVec 16 := a.getD 1 0 ++ a.getD 0 0

def AF_UNIX : BitVec 16 := 1

def cString (bytes : List Byte) : List Byte := bytes.takeWhile (· ≠ 0)

/-- `sun_path` as `strcmp` reads it. -/
def sunPath (a : List Byte) : List Byte := cString (a.drop 2)

def setFamily (a : Addr) : Addr := 1 :: 0 :: a.drop 2

/-- `memcpy` of the first bytes. -/
def overwrite (a : Addr) (bytes : List Byte) : Addr := bytes ++ a.drop bytes.length

def given (addr : List Byte) (addrlen : Nat) : List Byte := addr.takeD (min addrlen addrSize) 0

structure Dgram where
  addr : Addr
  data : List Byte
deriving DecidableEq

/-- `struct unix_sock` without its ring; `behind` is what follows `peer_addr` in memory. -/
structure Sock where
  state : SockState
  type : SockType
  localAddr : Addr
  peerAddr : Addr
  behind : List Byte
  peer : Option SockId
  connQueue : Option (List SockId)
  dgQueue : List Dgram
  refcount : Nat
  closed : Bool
deriving DecidableEq

def unixSockInit (type : SockType) (behind : List Byte) : Sock where
  state := .free
  type := type
  localAddr := Addr.zero
  peerAddr := Addr.zero
  behind := behind
  peer := none
  connQueue := none
  dgQueue := []
  refcount := 1
  closed := false

def Sock.localPath (sk : Sock) : List Byte := sunPath (sk.localAddr ++ sk.peerAddr ++ sk.behind)

def Sock.peerPath (sk : Sock) : List Byte := sunPath (sk.peerAddr ++ sk.behind)

/-- `sent` and `received` are what has been put into queues and taken from them. -/
structure State where
  socks : SockId → Sock
  next : SockId
  ns : List SockId
  sent : List (SockId × Dgram)
  received : List (SockId × Dgram)

def State.set (s : State) (i : SockId) (f : Sock → Sock) : State :=
  { s with socks := update s.socks i (f (s.socks i)) }

def State.alloc (s : State) (sk : Sock) : State :=
  { s with socks := update s.socks s.next sk, next := s.next + 1 }

def retain (sk : SockId) (s : State) : State := s.set sk fun k => { k with refcount := k.refcount + 1 }

def release (sk : SockId) (s : State) : State := s.set sk fun k => { k with refcount := k.refcount - 1 }

section

variable (s : State) (i j : SockId) (f : Sock → Sock)

theorem State.set_socks : (s.set i f).socks j = if j = i then f (s.socks i) else s.socks j :=
  update_apply _ _ _ _

theorem State.set_set (g : Sock → Sock) : (s.set i f).set i g = s.set i fun k => g (f k) := by
  rw [State.set, State.set, State.set]
  simp only [update_self, update_idem]

theorem State.set_self (hSame : f (s.socks i) = s.socks i) : s.set i f = s := by
  rw [State.set, hSame, update_eq_self]

theorem release_retain : release i (retain i s) = s := by
  rw [release, retain, State.set_set]
  exact State.set_self s i _ rfl

end

/-- The socket that `unix_ns_lookup` returns. -/
def nsLookup (path : List Byte) (s : State) : Option SockId :=
  s.ns.find? fun i =>
    (s.socks i).state.named && (s.socks i).localAddr.getD 2 0 ≠ 0 && (s.socks i).localPath = path

def nsRegister (sk : SockId) (s : State) : State :=
  if (s.socks sk).localAddr.getD 2 0 = 0 then s else { s with ns := s.ns ++ [sk] }

def unixBind (sk : SockId) (addr : List Byte) (addrlen : Nat) (s : State) : State × Int :=
  if addrlen < 2 then (s, -EINVAL)
  else if sunFamily addr ≠ AF_UNIX then (s, -EAFNOSUPPORT)
  else if (s.socks sk).state ≠ .free then (s, -EINVAL)
  else
    let hasPath : Bool := maxPath addrlen > 0 && addr.getD 2 0 ≠ 0
    match if hasPath then nsLookup (sunPath addr) s else none with
    | some existing => (release existing (retain existing s), -EADDRINUSE)
    | none =>
      let s := s.set sk fun k =>
        { k with localAddr := overwrite k.localAddr (given addr addrlen), state := .bound }
      (if hasPath then nsRegister sk s else s, 0)

def unixGetpeername (sk : SockId) (s : State) : Except Int Addr :=
  if sunFamily (s.socks sk).peerAddr ≠ AF_UNIX then .error (-ENOTCONN) else .ok (s.socks sk).peerAddr

/-- The addresses are written before it is known whether there is anybody to connect to. -/
def writeAddresses (sk : SockId) (addr : List Byte) (addrlen : Nat) (s : State) : State :=
  let s := s.set sk fun k =>
    { k with localAddr := if sunFamily k.localAddr ≠ AF_UNIX then setFamily k.localAddr else k.localAddr }
  s.set sk fun k => { k with peerAddr := overwrite k.peerAddr (given addr addrlen) }

def connectTo (behind : List Byte) (sk listener : SockId) (s : State) : State :=
  let server := s.next
  let s := s.alloc
    { unixSockInit .stream behind with
      state := .connected
      localAddr := (s.socks listener).localAddr
      peerAddr := (s.socks sk).localAddr
      peer := some sk }
  let s := s.set sk fun k => { k with state := .connected, peer := some server }
  s.set listener fun k => { k with connQueue := k.connQueue.map (· ++ [server]) }

/-- What the call finds for the socket of the server's side: whether there is memory, and what is in it. -/
structure Allocation where
  available : Bool
  behind : List Byte

def unixConnect (m : Allocation) (sk : SockId) (addr : List Byte) (addrlen : Nat) (s : State) : Option (State × Int) :=
  if sunFamily addr ≠ AF_UNIX then some (s, -EAFNOSUPPORT)
  else if (s.socks sk).state ≠ .free ∧ (s.socks sk).state ≠ .bound then some (s, -EINVAL)
  else
    let s := writeAddresses sk addr addrlen s
    if (s.socks sk).type = .dgram then some (s.set sk fun k => { k with state := .connected }, 0)
    else
      match if addr.getD 2 0 ≠ 0 then nsLookup (sunPath addr) s else none with
      | none => some (s, -ECONNREFUSED)
      | some listener =>
        let s := retain listener s
        if listener = sk then none
        else if (s.socks listener).state ≠ .listening ∨ (s.socks listener).connQueue = none then
          some (release listener s, -ECONNREFUSED)
        else if m.available = false then some (release listener s, -ENOMEM)
        else some (release listener (connectTo m.behind sk listener s), 0)

/-! # Connects that fail

The addresses of the socket are written before anybody is looked for, and no exit behind that takes them back.
-/

variable {m : Allocation} {sk : SockId} {addr : List Byte} {addrlen : Nat} {s s' : State} {ret : Int}

/-- The socket and the queues are as they were, and every call on the socket does what it would have done. -/
structure NoTrace (sk : SockId) (s s' : State) : Prop where
  sock : s'.socks sk = s.socks sk
  queues : ∀ l, (s'.socks l).connQueue = (s.socks l).connQueue
  getpeername : unixGetpeername sk s' = unixGetpeername sk s
  bind : ∀ addr addrlen, unixBind sk addr addrlen s' = unixBind sk addr addrlen s
  connect : ∀ m addr addrlen, unixConnect m sk addr addrlen s' = unixConnect m sk addr addrlen s

/-- The call gets past its checks of the address and of the state of the socket. -/
def Tried (sk : SockId) (addr : List Byte) (s : State) : Prop :=
  sunFamily addr = AF_UNIX ∧ ((s.socks sk).state = .free ∨ (s.socks sk).state = .bound)

def peerOf (sk : SockId) (addr : List Byte) (addrlen : Nat) (s : State) : Option SockId :=
  if addr.getD 2 0 ≠ 0 then nsLookup (sunPath addr) (writeAddresses sk addr addrlen s) else none

/-- A socket for datagrams needs nobody; otherwise there is one that listens, and memory for the other side of the
connection. A socket that finds itself waits for its own lock. -/
def Served (m : Allocation) (sk : SockId) (addr : List Byte) (addrlen : Nat) (s : State) : Prop :=
  (s.socks sk).type = .dgram ∨
    ∃ l, peerOf sk addr addrlen s = some l ∧
      (l = sk ∨ (s.socks l).state = .listening ∧ (s.socks l).connQueue ≠ none ∧ m.available = true)

/-- The socket has the family, and the bytes of the address are what its peer's address begins with. -/
def Written (sk : SockId) (addr : List Byte) (addrlen : Nat) (s : State) : Prop :=
  sunFamily (s.socks sk).localAddr = AF_UNIX ∧ given addr addrlen <+: (s.socks sk).peerAddr

@[simp] theorem sunFamily_setFamily (a : Addr) : sunFamily (setFamily a) = AF_UNIX := by
  change (0#8 ++ 1#8 : BitVec 16) = 1#16
  decide

theorem overwrite_eq_self {a : Addr} {bytes : List Byte} : overwrite a bytes = a ↔ bytes <+: a := by
  constructor
  · intro hSame
    rw [← hSame]
    exact List.prefix_append _ _
  · rintro ⟨rest, rfl⟩
    rw [overwrite, List.drop_left]

theorem writeAddresses_socks (j : SockId) :
    (writeAddresses sk addr addrlen s).socks j =
      if j = sk then
        { s.socks sk with
          localAddr :=
            if sunFamily (s.socks sk).localAddr ≠ AF_UNIX then setFamily (s.socks sk).localAddr
            else (s.socks sk).localAddr
          peerAddr := overwrite (s.socks sk).peerAddr (given addr addrlen) }
      else s.socks j := by
  rw [writeAddresses, State.set_set, State.set_socks]

theorem writeAddresses_other {l : SockId} (hNe : l ≠ sk) : (writeAddresses sk addr addrlen s).socks l = s.socks l := by
  rw [writeAddresses_socks, if_neg hNe]

theorem writeAddresses_iff : (writeAddresses sk addr addrlen s).socks sk = s.socks sk ↔ Written sk addr addrlen s := by
  rw [writeAddresses_socks, if_pos rfl]
  constructor
  · intro hSame
    have hLocal := congrArg Sock.localAddr hSame
    have hPeer := congrArg Sock.peerAddr hSame
    refine ⟨?_, overwrite_eq_self.mp hPeer⟩
    by_contra hFamily
    simp only [ne_eq, hFamily, not_false_eq_true, if_true] at hLocal
    apply hFamily
    rw [← hLocal, sunFamily_setFamily]
  · rintro ⟨hFamily, hPrefix⟩
    rw [overwrite_eq_self.mpr hPrefix, if_neg (not_not.mpr hFamily)]

theorem writeAddresses_of_written (h : Written sk addr addrlen s) : writeAddresses sk addr addrlen s = s := by
  have hSocks : (writeAddresses sk addr addrlen s).socks = s.socks := by
    funext j
    by_cases hSelf : j = sk
    · rw [hSelf]
      exact writeAddresses_iff.mpr h
    · exact writeAddresses_other hSelf
  exact congrArg (fun socks => { s with socks := socks }) hSocks

/-- The call returns before anything is written, or it fails with the addresses written, or it does not fail. -/
inductive Exits (m : Allocation) (sk : SockId) (addr : List Byte) (addrlen : Nat) (s : State) :
    Option (State × Int) → Prop
  | early {ret : Int} (hUntried : ¬ Tried sk addr s) : Exits m sk addr addrlen s (some (s, ret))
  | late {ret : Int} (hTried : Tried sk addr s) (hUnserved : ¬ Served m sk addr addrlen s) (hFails : ret < 0) :
      Exits m sk addr addrlen s (some (writeAddresses sk addr addrlen s, ret))
  | connected {s' : State} (hTried : Tried sk addr s) (hServed : Served m sk addr addrlen s) :
      Exits m sk addr addrlen s (some (s', 0))
  | waits (hTried : Tried sk addr s) (hServed : Served m sk addr addrlen s) : Exits m sk addr addrlen s none

theorem unixConnect_exits (m : Allocation) (sk : SockId) (addr : List Byte) (addrlen : Nat) (s : State) :
    Exits m sk addr addrlen s (unixConnect m sk addr addrlen s) := by
  rw [unixConnect]
  split
  next hFamily => exact .early fun h => hFamily h.1
  next hFamily =>
  split
  next hState => exact .early fun h => h.2.elim hState.1 hState.2
  next hState =>
  have hTried : Tried sk addr s := ⟨not_not.mp hFamily, by tauto⟩
  have hType : ((writeAddresses sk addr addrlen s).socks sk).type = (s.socks sk).type := by
    rw [writeAddresses_socks, if_pos rfl]
  simp only [hType]
  split
  next hDgram => exact .connected hTried (.inl hDgram)
  next hStream =>
  cases hPeer : peerOf sk addr addrlen s with
  | none =>
    rw [peerOf] at hPeer
    rw [hPeer]
    refine .late hTried ?_ (by decide)
    rintro (hDgram | ⟨l, hl, -⟩)
    · exact hStream hDgram
    · rw [peerOf, hPeer] at hl
      exact nomatch hl
  | some listener =>
    have hOnly : ∀ l, peerOf sk addr addrlen s = some l → l = listener := fun l hl => by
      rw [hPeer] at hl
      exact (Option.some.inj hl).symm
    have hLookup := hPeer
    rw [peerOf] at hLookup
    rw [hLookup]
    simp only
    split
    next hSelf => exact .waits hTried (.inr ⟨listener, hPeer, .inl hSelf⟩)
    next hSelf =>
    have hSock : ((retain listener (writeAddresses sk addr addrlen s)).socks listener).state =
        (s.socks listener).state ∧
        ((retain listener (writeAddresses sk addr addrlen s)).socks listener).connQueue =
          (s.socks listener).connQueue := by
      rw [retain, State.set_socks, if_pos rfl, writeAddresses_other hSelf]
      exact ⟨rfl, rfl⟩
    rw [hSock.1, hSock.2, release_retain]
    split
    next hDeaf =>
      refine .late hTried ?_ (by decide)
      rintro (hDgram | ⟨l, hl, hl'⟩)
      · exact hStream hDgram
      · rw [hOnly l hl] at hl'
        tauto
    next hListens =>
    split
    next hFull =>
      refine .late hTried ?_ (by decide)
      rintro (hDgram | ⟨l, hl, hl'⟩)
      · exact hStream hDgram
      · rw [hOnly l hl, hFull] at hl'
        tauto
    next hRoom =>
      refine .connected hTried (.inr ⟨listener, hPeer, .inr ?_⟩)
      simp only [Bool.not_eq_false] at hRoom
      tauto

theorem NoTrace.refl (sk : SockId) (s : State) : NoTrace sk s s where
  sock := rfl
  queues := fun _ => rfl
  getpeername := rfl
  bind := fun _ _ => rfl
  connect := fun _ _ _ => rfl

/-- A connect that fails leaves no trace unless it is one that has got as far as the addresses. -/
theorem failed_connect_leaves_no_trace_iff (m : Allocation) (sk : SockId) (addr : List Byte) (addrlen : Nat)
    (s : State) :
    (∀ s' ret, unixConnect m sk addr addrlen s = some (s', ret) → ret < 0 → NoTrace sk s s') ↔
      ¬ Tried sk addr s ∨ Served m sk addr addrlen s ∨ Written sk addr addrlen s := by
  have hExits := unixConnect_exits m sk addr addrlen s
  generalize unixConnect m sk addr addrlen s = r at hExits
  cases hExits with
  | early hUntried =>
    refine ⟨fun _ => .inl hUntried, ?_⟩
    rintro - s' ret hReturns -
    cases hReturns
    exact .refl sk s
  | @late ret hTried hUnserved hFails =>
    constructor
    · intro hNoTrace
      exact .inr (.inr (writeAddresses_iff.mp (hNoTrace _ ret rfl hFails).sock))
    · rintro hWhen s' ret hReturns -
      have hWritten : Written sk addr addrlen s := by tauto
      cases hReturns
      rw [writeAddresses_of_written hWritten]
      exact .refl sk s
  | connected hTried hServed =>
    refine ⟨fun _ => .inr (.inl hServed), ?_⟩
    rintro - s' ret hReturns hFails
    cases hReturns
    exact absurd hFails (by decide)
  | waits hTried hServed =>
    refine ⟨fun _ => .inr (.inl hServed), ?_⟩
    rintro - s' ret hReturns
    exact nomatch hReturns

def oneSocket : State where
  socks := fun _ => unixSockInit .stream []
  next := 1
  ns := []
  sent := []
  received := []

def nobody : List Byte := [1, 0, 97, 0]

theorem failed_connect_leaves_trace :
    unixConnect ⟨true, []⟩ 0 nobody 4 oneSocket = some (writeAddresses 0 nobody 4 oneSocket, -ECONNREFUSED) ∧
      unixGetpeername 0 oneSocket = .error (-ENOTCONN) ∧
      unixGetpeername 0 (writeAddresses 0 nobody 4 oneSocket) = .ok (overwrite Addr.zero nobody) ∧
      ¬ ∀ m sk addr addrlen s s' ret, unixConnect m sk addr addrlen s = some (s', ret) → ret < 0 → NoTrace sk s s' := by
  have hReturns : unixConnect ⟨true, []⟩ 0 nobody 4 oneSocket =
      some (writeAddresses 0 nobody 4 oneSocket, -ECONNREFUSED) := rfl
  have hBefore : unixGetpeername 0 oneSocket = .error (-ENOTCONN) := rfl
  have hAfter : unixGetpeername 0 (writeAddresses 0 nobody 4 oneSocket) = .ok (overwrite Addr.zero nobody) := rfl
  refine ⟨hReturns, hBefore, hAfter, ?_⟩
  intro hClaim
  have hSame := (hClaim _ _ _ _ _ _ _ hReturns (by decide)).getpeername
  rw [hBefore, hAfter] at hSame
  exact nomatch hSame

end OpenXJ380.Unix.Addressed
