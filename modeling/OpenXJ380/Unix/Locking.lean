import OpenXJ380.Lib.Transition
import OpenXJ380.Unix.Model

/-! # Locks of sockets

A step is one `spin_lock` or one `spin_unlock`, with what the thread does from there up to its next one.
-/

namespace OpenXJ380.Unix

open Function
open List (mem_pair mem_singleton)

section

open Transition

abbrev ThreadId := Nat

inductive Lock where
  | sock (i : SockId)
  | ns
deriving DecidableEq

/-- The calls; `dispose` is the part of `unix_sock_free` that works on a queued socket, for the listeners that are being
freed. -/
inductive Op where
  | bind (addr : SockaddrUn) (addrlen : Nat)
  | listen
  | connect (addr : SockaddrUn) (addrlen : Nat)
  | accept
  | poll
  | close
  | dispose (owners : List SockId)

/-- Where a thread is: in front of its own lock, of the namespace's, or of a second socket's, or behind one of them. -/
inductive Pc where
  | idle
  | own (op : Op) (sk : SockId)
  | name (op : Op) (sk : SockId)
  | named (op : Op) (sk : SockId) (found : Option SockId)
  | second (op : Op) (sk other : SockId)
  | both (op : Op) (sk other : SockId)
  | refused (op : Op) (sk listener : SockId)
  | enter (op : Op) (sk : SockId)
  | entered (op : Op) (sk : SockId)
  | again (sk : SockId)
  | last (op : Op) (sk : SockId)

/-- The lock that a `spin_lock` is for. -/
def Pc.waits : Pc → Option Lock
  | .own _ sk => some (.sock sk)
  | .name _ _ => some .ns
  | .second _ _ other => some (.sock other)
  | .enter _ _ => some .ns
  | _ => none

/-- The lock that a `spin_unlock` is for. -/
def Pc.gives : Pc → Option Lock
  | .named _ _ _ => some .ns
  | .both _ _ other => some (.sock other)
  | .refused _ _ listener => some (.sock listener)
  | .entered _ _ => some .ns
  | .again sk => some (.sock sk)
  | .last _ sk => some (.sock sk)
  | _ => none

def Pc.holds : Pc → List Lock
  | .idle => []
  | .own _ _ => []
  | .name _ sk => [.sock sk]
  | .named _ sk _ => [.sock sk, .ns]
  | .second _ sk _ => [.sock sk]
  | .both _ sk other => [.sock sk, .sock other]
  | .refused _ sk listener => [.sock sk, .sock listener]
  | .enter _ sk => [.sock sk]
  | .entered _ sk => [.sock sk, .ns]
  | .again sk => [.sock sk]
  | .last _ sk => [.sock sk]

/-- The end of `unix_close`; the namespace is made with the first name. -/
def leave (nsMade : Bool) (sk : SockId) (s : State) : State × Pc :=
  if (s.socks sk).state.named && nsMade then (s, .enter .close sk) else (s, .last .close sk)

/-- `cs->peer = NULL; cs->state = UNIX_FREE`. -/
def forget (sk : SockId) (s : State) : State := s.set sk fun k => { k with peer := none, state := .free }

def ownSection (nsMade : Bool) (op : Op) (sk : SockId) (s : State) : State × Pc :=
  match op with
  | .bind addr addrlen =>
    if (s.socks sk).state ≠ .free then (s, .last op sk)
    else if hasPath addr addrlen then
      if nsMade then (s, .name op sk) else (assign sk addr addrlen s, .enter op sk)
    else (assign sk addr addrlen s, .last op sk)
  | .listen => ((unixListen sk s).1, .last op sk)
  | .connect addr addrlen =>
    if (s.socks sk).state ≠ .free ∧ (s.socks sk).state ≠ .bound then (s, .last op sk)
    else
      let s := s.set sk fun k => { k with peerAddr := k.peerAddr || addrlen > 0 }
      if (s.socks sk).type = .dgram then (s.set sk fun k => { k with state := .connected }, .last op sk)
      else if addr.sunPath ≠ [] ∧ nsMade = true then (s, .name op sk)
      else (s, .last op sk)
  | .accept =>
    match unixAccept sk s with
    | none => (s, .again sk)
    | some (s, _) => (s, .last op sk)
  | .poll =>
    match (s.socks sk).peer with
    | some p => (s, .second op sk p)
    | none => (s, .last op sk)
  | .close =>
    let s := s.set sk fun k => { k with closed := true }
    match (s.socks sk).peer with
    | some p => (s, .second op sk p)
    | none => leave nsMade sk s
  | .dispose _ =>
    match (s.socks sk).peer with
    | some p => (s, .second op sk p)
    | none => (forget sk s, .last op sk)

def Op.path : Op → Path
  | .bind addr _ => addr.sunPath
  | .connect addr _ => addr.sunPath
  | _ => []

/-- `unix_ns_lookup`. -/
def nameSection (op : Op) (sk : SockId) (s : State) : State × Pc :=
  match nsFind s op.path with
  | some found => (retain found s, .named op sk (some found))
  | none => (s, .named op sk none)

def namedSection (op : Op) (sk : SockId) (found : Option SockId) (s : State) : State × Pc :=
  match op, found with
  | .bind _ _, some existing => (release existing s, .last op sk)
  | .bind addr addrlen, none => (assign sk addr addrlen s, .enter op sk)
  | .connect _ _, some listener => (s, .second op sk listener)
  | _, _ => (s, .last op sk)

def secondSection (op : Op) (sk other : SockId) (s : State) : State × Pc :=
  match op with
  | .connect _ _ =>
    if (s.socks other).state ≠ .listening ∨ (s.socks other).connQueue = none then (s, .refused op sk other)
    else (release other (connectTo sk other s), .both op sk other)
  | .poll => (s, .both op sk other)
  | _ => (s.set other fun k => { k with closed := true, peer := none }, .both op sk other)

def bothSection (nsMade : Bool) (op : Op) (sk : SockId) (s : State) : State × Pc :=
  match op with
  | .close => leave nsMade sk (s.set sk fun k => { k with peer := none })
  | .dispose _ => (forget sk s, .last op sk)
  | _ => (s, .last op sk)

def enterSection (op : Op) (sk : SockId) (s : State) : State × Pc :=
  match op with
  | .bind _ _ => (nsRegister sk s, .entered op sk)
  | _ => (nsUnregister sk s, .entered op sk)

/-- `unix_sock_free` up to the first queued socket, or to the end of those it is called for. -/
def unwind : SockId → List SockId → State → State × Pc
  | sk, owners, s =>
    match (s.socks sk).connQueue with
    | some (cs :: _) => (s, .own (.dispose (sk :: owners)) cs)
    | _ =>
      let s := s.set sk fun k => { k with released := k.released + 1 }
      match owners with
      | [] => (s, .idle)
      | owner :: rest => unwind owner rest (popHead owner s)
termination_by structural _ owners => owners

def lastSection (op : Op) (sk : SockId) (s : State) : State × Pc :=
  match op with
  | .close =>
    let s := release sk s
    if (s.socks sk).refcount = 0 then unwind sk [] s else (s, .idle)
  | .dispose owners => unwind sk owners s
  | _ => (s, .idle)

def advance (nsMade : Bool) : Pc → State → State × Pc
  | .idle, s => (s, .idle)
  | .own op sk, s => ownSection nsMade op sk s
  | .name op sk, s => nameSection op sk s
  | .named op sk found, s => namedSection op sk found s
  | .second op sk other, s => secondSection op sk other s
  | .both op sk _, s => bothSection nsMade op sk s
  | .refused op sk listener, s => (release listener s, .last op sk)
  | .enter op sk, s => enterSection op sk s
  | .entered op sk, s => (s, .last op sk)
  | .again sk, s => (s, .own .accept sk)
  | .last op sk, s => lastSection op sk s

structure Locked extends State where
  owner : Lock → Option ThreadId
  nsMade : Bool
  pc : ThreadId → Pc

def Locked.init : Locked where
  socks := fun _ => unixSockInit .stream
  next := 0
  ns := []
  owner := fun _ => none
  nsMade := false
  pc := fun _ => .idle

def Pc.makes : Pc → Bool
  | .enter (.bind _ _) _ => true
  | _ => false

/-- The thread takes the lock it waits for, or gives the lock it is to give. -/
def Locked.pass (w : Locked) (t : ThreadId) (l : Lock) (o : Option ThreadId) : Locked where
  toState := (advance w.nsMade (w.pc t) w.toState).1
  owner := update w.owner l o
  nsMade := w.nsMade || (w.pc t).makes
  pc := update w.pc t (advance w.nsMade (w.pc t) w.toState).2

/-- What comes before the first lock: addresses are checked, and `unix_sock_free` is not called from outside. -/
def Op.enters : Op → Bool
  | .bind addr addrlen => 2 ≤ addrlen && addr.sunFamily = AF_UNIX
  | .connect addr _ => addr.sunFamily = AF_UNIX
  | .dispose _ => false
  | _ => true

inductive Act where
  | create (type : SockType)
  | socketpair (type : SockType)
  | call (t : ThreadId) (op : Op) (sk : SockId)
  | go (t : ThreadId)

inductive Acts : Locked → Act → Locked → Prop
  | create {w : Locked} (type : SockType) :
      Acts w (.create type) { w with toState := (unixCreate type w.toState).1 }
  | socketpair {w : Locked} (type : SockType) :
      Acts w (.socketpair type) { w with toState := (unixSocketpair type w.toState).1 }
  | call {w : Locked} {t : ThreadId} {op : Op} {sk : SockId} (hIdle : w.pc t = .idle) (hEnters : op.enters = true)
      (hKnown : sk < w.next) : Acts w (.call t op sk) { w with pc := update w.pc t (.own op sk) }
  | lock {w : Locked} {t : ThreadId} {l : Lock} (hWaits : (w.pc t).waits = some l) (hFree : w.owner l = none) :
      Acts w (.go t) (w.pass t l (some t))
  | unlock {w : Locked} {t : ThreadId} {l : Lock} (hGives : (w.pc t).gives = some l) :
      Acts w (.go t) (w.pass t l none)

def lockSystem : System Locked Act := ⟨Acts⟩

structure NoDeadlock (w : Locked) : Prop where
  own : ∀ t l, (w.pc t).waits = some l → l ∉ (w.pc t).holds
  crossed : ∀ t t' x y, .sock x ∈ (w.pc t).holds → (w.pc t).waits = some (.sock y) →
    .sock y ∈ (w.pc t').holds → (w.pc t').waits ≠ some (.sock x)

def Op.toPeer : Op → Bool
  | .poll => true
  | .close => true
  | .dispose _ => true
  | _ => false

def Op.connects : Op → Bool
  | .connect _ _ => true
  | _ => false

/-- A connect of `x` that has found `y`. -/
def Pc.Seeks : Pc → SockId → SockId → Prop
  | .named op sk found, x, y => op.connects = true ∧ sk = x ∧ found = some y
  | .second op sk other, x, y => op.connects = true ∧ sk = x ∧ other = y
  | _, _, _ => False

/-- It has `x` and wants its peer `y`. -/
def Pc.Reaches : Pc → SockId → SockId → Prop
  | .second op sk other, x, y => op.toPeer = true ∧ sk = x ∧ other = y
  | _, _, _ => False

/-- No call goes from a socket to its peer while another is on its way from the peer to it, and a connect finds neither
its own socket nor one whose connect has found it. -/
def Unhindered (w : Locked) : Act → Prop
  | .go t =>
    match w.pc t with
    | .own op sk =>
      op.toPeer = true → ∀ p, (w.socks sk).peer = some p → ∀ t', ¬ (w.pc t').Reaches p sk
    | .name op sk =>
      op.connects = true → ∀ l, nsFind w.toState op.path = some l → l ≠ sk ∧ ∀ t', ¬ (w.pc t').Seeks l sk
    | _ => True
  | _ => True

end

/-! # The order in which sockets are locked -/

open Transition

theorem leave_holds (nsMade : Bool) (sk : SockId) (s : State) : (leave nsMade sk s).2.holds = [.sock sk] := by
  rw [leave]
  split <;> rfl

theorem ownSection_holds (nsMade : Bool) (op : Op) (sk : SockId) (s : State) :
    (ownSection nsMade op sk s).2.holds = [.sock sk] := by
  cases op <;> simp only [ownSection]
  case bind => split_ifs <;> rfl
  case listen => rfl
  case connect => split_ifs <;> rfl
  case accept => split <;> rfl
  case poll => split <;> rfl
  case close =>
    split
    · rfl
    · exact leave_holds _ _ _
  case dispose => split <;> rfl

theorem unwind_holds (sk : SockId) (owners : List SockId) (s : State) : (unwind sk owners s).2.holds = [] := by
  induction owners generalizing sk s with
  | nil =>
    rw [unwind]
    split <;> rfl
  | cons owner rest ih =>
    rw [unwind]
    split
    · rfl
    · exact ih _ _

theorem advance_holds_of_waits {nsMade : Bool} {c : Pc} {s : State} {l : Lock} (hWaits : c.waits = some l) (m : Lock) :
    m ∈ (advance nsMade c s).2.holds ↔ m ∈ c.holds ∨ m = l := by
  cases c <;> cases hWaits
  case own op sk =>
    rw [advance, ownSection_holds, Pc.holds, mem_singleton]
    exact (or_iff_right List.not_mem_nil).symm
  case name op sk =>
    have hHolds : (nameSection op sk s).2.holds = [.sock sk, .ns] := by
      rw [nameSection]
      split <;> rfl
    rw [advance, hHolds, mem_pair, Pc.holds, mem_singleton]
  case second op sk other =>
    have hHolds : (secondSection op sk other s).2.holds = [.sock sk, .sock other] := by
      cases op <;> simp only [secondSection]
      case connect => split_ifs <;> rfl
      all_goals rfl
    rw [advance, hHolds, mem_pair, Pc.holds, mem_singleton]
  case enter op sk =>
    have hHolds : (enterSection op sk s).2.holds = [.sock sk, .ns] := by
      cases op <;> rfl
    rw [advance, hHolds, mem_pair, Pc.holds, mem_singleton]

theorem advance_holds_of_gives {nsMade : Bool} {c : Pc} {s : State} {l : Lock} (hGives : c.gives = some l)
    (hDistinct : ∀ x y, c.holds = [.sock x, .sock y] → x ≠ y) (m : Lock) :
    m ∈ (advance nsMade c s).2.holds ↔ m ∈ c.holds ∧ m ≠ l := by
  have hAlone : ∀ {sk : SockId} {b : Lock}, Lock.sock sk ≠ b → (m ∈ [Lock.sock sk] ↔ m ∈ [.sock sk, b] ∧ m ≠ b) := by
    intro sk b hNe
    rw [mem_singleton, mem_pair]
    grind
  have hNone : ∀ {b : Lock}, (m ∈ ([] : List Lock) ↔ m ∈ [b] ∧ m ≠ b) := by
    grind
  cases c <;> cases hGives
  case named op sk found =>
    have hHolds : (namedSection op sk found s).2.holds = [.sock sk] := by
      cases op <;> cases found <;> rfl
    rw [advance, hHolds]
    exact hAlone nofun
  case both op sk other =>
    have hHolds : (bothSection nsMade op sk s).2.holds = [.sock sk] := by
      cases op <;> simp only [bothSection, leave_holds] <;> rfl
    rw [advance, hHolds]
    exact hAlone fun hSame => hDistinct sk other rfl (Lock.sock.inj hSame)
  case refused op sk listener =>
    exact hAlone fun hSame => hDistinct sk listener rfl (Lock.sock.inj hSame)
  case entered op sk => exact hAlone nofun
  case again sk => exact hNone
  case last op sk =>
    have hHolds : (lastSection op sk s).2.holds = [] := by
      cases op <;> simp only [lastSection]
      case close =>
        split_ifs
        · exact unwind_holds _ _ _
        · rfl
      case dispose owners => exact unwind_holds _ _ _
      all_goals rfl
    rw [advance, hHolds]
    exact hNone

def Op.clears : Op → Bool
  | .close => true
  | .dispose _ => true
  | _ => false

/-- It has cleared the peer of `y`, and that of `x` is next. -/
def Pc.Clears : Pc → SockId → SockId → Prop
  | .both op sk other, x, y => op.clears = true ∧ sk = x ∧ other = y
  | _, _, _ => False

/-- A bind or a connect that has seen `x` without a connection. -/
def Pc.Connecting : Pc → SockId → Prop
  | .name _ sk, x => sk = x
  | .named _ sk _, x => sk = x
  | .second op sk _, x => op.connects = true ∧ sk = x
  | _, _ => False

/-- Peers are mutual, but for what is being cleared, and only connected sockets have them. -/
structure Sound (s : State) (pc : ThreadId → Pc) : Prop where
  fresh : ∀ i, s.next ≤ i → (s.socks i).peer = none ∧ ∀ j, (s.socks j).peer ≠ some i
  names : ∀ i ∈ s.ns, i < s.next
  queues : ∀ l q c, (s.socks l).connQueue = some q → c ∈ q → c < s.next
  peers : ∀ i p, (s.socks i).peer = some p → p ≠ i ∧ ((s.socks p).peer = some i ∨ ∃ t, (pc t).Clears i p)
  apart : ∀ i, (s.socks i).state ≠ .connected → (s.socks i).peer = none ∧ ∀ j, (s.socks j).peer ≠ some i

structure Pc.Fits (c : Pc) (s : State) : Prop where
  wanted : ∀ x, c.waits = some (.sock x) → x < s.next
  found : ∀ x y, c.Seeks x y → y < s.next
  connecting : ∀ x, c.Connecting x → (s.socks x).state ≠ .connected
  reaching : ∀ x y, c.Reaches x y → (s.socks x).peer = some y
  clearing : ∀ x y, c.Clears x y → (s.socks x).peer = some y ∧ (s.socks y).peer = none
  distinct : ∀ x y, c.holds = [.sock x, .sock y] → x ≠ y
  kind : ∀ op x y, c = .second op x y → op.toPeer = true ∨ op.connects = true

structure Ordered (w : Locked) : Prop where
  sound : Sound w.toState w.pc
  fits : ∀ t, (w.pc t).Fits w.toState
  mutex : ∀ t x, .sock x ∈ (w.pc t).holds ↔ w.owner (.sock x) = some t
  bounded : ∀ x, w.next ≤ x → w.owner (.sock x) = none
  uncrossed : ∀ t t' x y, (w.pc t).Reaches x y → ¬ (w.pc t').Reaches y x
  met : ∀ t t' x y, (w.pc t).Seeks x y → ¬ (w.pc t').Seeks y x

variable {w w' : Locked} {t : ThreadId} {c : Pc} {s : State}

variable {x y : SockId} {l : Lock}

theorem Pc.Connecting.holds (h : c.Connecting x) : .sock x ∈ c.holds := by
  cases c with
  | name op sk =>
    obtain rfl : sk = x := h
    exact .head _
  | named op sk found =>
    obtain rfl : sk = x := h
    exact .head _
  | second op sk other => exact h.2 ▸ (.head _)
  | _ => cases h

theorem Pc.Reaches.holds (h : c.Reaches x y) : .sock x ∈ c.holds := by
  cases c with
  | second op sk other => exact h.2.1 ▸ (.head _)
  | _ => cases h

theorem Pc.Clears.holds (h : c.Clears x y) : c.holds = [.sock x, .sock y] := by
  cases c with
  | both op sk other => rw [Pc.holds, h.2.1, h.2.2]
  | _ => cases h

theorem Pc.Reaches.unique (h : c.Reaches x y) (h' : c.Reaches y x) : x = y := by
  cases c with
  | second op sk other => exact h.2.1.symm.trans h'.2.1
  | _ => cases h

theorem Pc.Seeks.unique (h : c.Seeks x y) (h' : c.Seeks y x) : x = y := by
  cases c with
  | named op sk found => exact h.2.1.symm.trans h'.2.1
  | second op sk other => exact h.2.1.symm.trans h'.2.1
  | _ => cases h

theorem Pc.Fits.frame (h : c.Fits s) {s' : State} (hNext : s.next ≤ s'.next)
    (hFrame : ∀ i, .sock i ∈ c.holds →
      ((s'.socks i).state = .connected → (s.socks i).state = .connected) ∧ (s'.socks i).peer = (s.socks i).peer) :
    c.Fits s' where
  wanted x hx := (h.wanted x hx).trans_le hNext
  found x y hx := (h.found x y hx).trans_le hNext
  connecting x hx hState := h.connecting x hx ((hFrame x hx.holds).1 hState)
  reaching x y hx := (hFrame x hx.holds).2.trans (h.reaching x y hx)
  clearing x y hx := by
    have hx' : .sock x ∈ c.holds := hx.holds ▸ (.head _)
    have hy' : .sock y ∈ c.holds := hx.holds ▸ .tail _ (.head _)
    rw [(hFrame x hx').2, (hFrame y hy').2]
    exact h.clearing x y hx
  __ := h

/-- What the code between two lock operations must keep to: it changes what it has locked only. -/
structure Moves (w : Locked) (t : ThreadId) (s : State) (c : Pc) : Prop where
  next : w.next ≤ s.next
  frame : ∀ i j, j ≠ t → w.owner (.sock i) = some j →
    ((s.socks i).state = .connected → (w.socks i).state = .connected) ∧ (s.socks i).peer = (w.socks i).peer
  sound : Sound s (update w.pc t c)
  fits : c.Fits s
  uncrossed : ∀ x y, c.Reaches x y → x ≠ y ∧ ∀ j, j ≠ t → ¬ (w.pc j).Reaches y x
  met : ∀ x y, c.Seeks x y → x ≠ y ∧ ∀ j, j ≠ t → ¬ (w.pc j).Seeks y x

theorem Ordered.less (h : Ordered w) (hx : .sock x ∈ (w.pc t).holds) : x < w.next := by
  refine not_le.mp fun hLe => ?_
  rw [h.mutex, h.bounded x hLe] at hx
  cases hx

theorem Ordered.moves (h : Ordered w) (hPc : ∀ j, w'.pc j = if j = t then c else w.pc j) (m : Moves w t w'.toState c)
    (hOwner : ∀ x j, w'.owner (.sock x) = some j ↔ if j = t then .sock x ∈ c.holds else w.owner (.sock x) = some j)
    (hBounded : ∀ x, .sock x ∈ c.holds → x < w.next) : Ordered w' where
  sound := by
    have hSame : w'.pc = update w.pc t c := funext fun j => (hPc j).trans (update_apply _ _ _ _).symm
    exact hSame ▸ m.sound
  fits j := by
    rw [hPc]
    split
    · exact m.fits
    · next hj => exact (h.fits j).frame m.next fun i hi => m.frame i j hj ((h.mutex j i).mp hi)
  mutex j x := by
    rw [hPc, hOwner]
    split
    · rfl
    · exact h.mutex j x
  bounded x hx := by
    refine Option.eq_none_iff_forall_ne_some.mpr fun j hj => ?_
    rw [hOwner] at hj
    split at hj
    · exact absurd ((hBounded x hj).trans_le m.next) (not_lt.mpr hx)
    · exact nomatch (h.bounded x (m.next.trans hx)).symm.trans hj
  uncrossed j j' x y hx hy := by
    rw [hPc] at hx hy
    split at hx <;> split at hy
    · exact (m.uncrossed x y hx).1 (hx.unique hy)
    · next hj => exact (m.uncrossed x y hx).2 j' hj hy
    · next hj _ => exact (m.uncrossed y x hy).2 j hj hx
    · exact h.uncrossed j j' x y hx hy
  met j j' x y hx hy := by
    rw [hPc] at hx hy
    split at hx <;> split at hy
    · exact (m.met x y hx).1 (hx.unique hy)
    · next hj => exact (m.met x y hx).2 j' hj hy
    · next hj _ => exact (m.met y x hy).2 j hj hx
    · exact h.met j j' x y hx hy

theorem Pc.mem_of_gives (hGives : c.gives = some l) : l ∈ c.holds := by
  cases c <;> cases hGives
  case both => exact .tail _ (.head _)
  case refused => exact .tail _ (.head _)
  case named => exact .tail _ (.head _)
  case entered => exact .tail _ (.head _)
  all_goals exact .head _

theorem Ordered.lock (h : Ordered w) (hWaits : (w.pc t).waits = some l) (hFree : w.owner l = none)
    (m : Moves w t (Unix.advance w.nsMade (w.pc t) w.toState).1 (Unix.advance w.nsMade (w.pc t) w.toState).2) :
    Ordered (w.pass t l (some t)) := by
  have hHolds := fun x => @advance_holds_of_waits w.nsMade (w.pc t) w.toState l hWaits (.sock x)
  refine h.moves (fun _ => update_apply _ _ _ _) m ?_ ?_
  · intro x j
    rw [hHolds]
    change update w.owner l (some t) (.sock x) = some j ↔ _
    rw [update_apply, h.mutex]
    grind
  · intro x hx
    obtain hOld | hNew := (hHolds x).mp hx
    · exact h.less hOld
    · exact (h.fits t).wanted x (hNew ▸ hWaits)

theorem Ordered.unlock (h : Ordered w) (hGives : (w.pc t).gives = some l)
    (m : Moves w t (Unix.advance w.nsMade (w.pc t) w.toState).1 (Unix.advance w.nsMade (w.pc t) w.toState).2) :
    Ordered (w.pass t l none) := by
  have hHolds := fun x => @advance_holds_of_gives w.nsMade (w.pc t) w.toState l hGives (h.fits t).distinct (.sock x)
  have hMem := Pc.mem_of_gives hGives
  refine h.moves (fun _ => update_apply _ _ _ _) m ?_ ?_
  · intro x j
    rw [hHolds]
    change update w.owner l none (.sock x) = some j ↔ _
    rw [update_apply, h.mutex]
    have hMine := h.mutex t x
    grind
  · exact fun x hx => h.less ((hHolds x).mp hx).1

end OpenXJ380.Unix
