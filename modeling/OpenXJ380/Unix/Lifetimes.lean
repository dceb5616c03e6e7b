import OpenXJ380.Lib.Transition
import OpenXJ380.Unix.Model

/-! # Peers and lifetimes of sockets

Calls one after the other, on sockets that a descriptor refers to.
-/

namespace OpenXJ380.Unix

open Transition

inductive Call where
  | create (type : SockType)
  | bind (sk : SockId) (addr : SockaddrUn) (addrlen : Nat)
  | listen (sk : SockId)
  | connect (sk : SockId) (addr : SockaddrUn) (addrlen : Nat)
  | accept (sk : SockId)
  | socketpair (type : SockType)
  | lookup (path : Path)
  | close (sk : SockId)

/-- The sockets, which of them a descriptor refers to, and which were made as a pair. -/
structure World extends State where
  opened : SockId → Bool
  paired : SockId → Bool

def World.init : World where
  socks := fun _ => unixSockInit .stream
  next := 0
  ns := []
  opened := fun _ => false
  paired := fun _ => false

def World.setOpened (w : World) (sk : SockId) (b : Bool) : World := { w with opened := Function.update w.opened sk b }

def World.setPaired (w : World) (sk : SockId) : World := { w with paired := Function.update w.paired sk true }

def World.put (w : World) (s : State) : World := { w with toState := s }

def lookupName (path : Path) (s : State) : State :=
  match nsFind s path with
  | none => s
  | some sk => release sk (retain sk s)

inductive Calls : World → Call → World → Prop
  | create {w : World} (type : SockType) :
      Calls w (.create type) ((w.put (unixCreate type w.toState).1).setOpened w.next true)
  | bind {w : World} {sk : SockId} (addr : SockaddrUn) (addrlen : Nat) (hOpen : w.opened sk = true) :
      Calls w (.bind sk addr addrlen) (w.put (unixBind sk addr addrlen w.toState).1)
  | listen {w : World} {sk : SockId} (hOpen : w.opened sk = true) :
      Calls w (.listen sk) (w.put (unixListen sk w.toState).1)
  | connect {w : World} {sk : SockId} {addr : SockaddrUn} {addrlen : Nat} {s : State} {ret : Int}
      (hOpen : w.opened sk = true) (hReturns : unixConnect sk addr addrlen w.toState = some (s, ret)) :
      Calls w (.connect sk addr addrlen) (w.put s)
  | acceptFails {w : World} {sk : SockId} {s : State} {ret : Int} (hOpen : w.opened sk = true)
      (hReturns : unixAccept sk w.toState = some (s, ret, none)) : Calls w (.accept sk) (w.put s)
  | accept {w : World} {sk newSk : SockId} {s : State} {ret : Int} (hOpen : w.opened sk = true)
      (hReturns : unixAccept sk w.toState = some (s, ret, some newSk)) :
      Calls w (.accept sk) ((w.put s).setOpened newSk true)
  | socketpair {w : World} (type : SockType) :
      Calls w (.socketpair type)
        (((((w.put (unixSocketpair type w.toState).1).setOpened w.next true).setOpened (w.next + 1) true).setPaired
          w.next).setPaired (w.next + 1))
  | lookup {w : World} (path : Path) : Calls w (.lookup path) (w.put (lookupName path w.toState))
  | close {w : World} {sk : SockId} (hOpen : w.opened sk = true) :
      Calls w (.close sk) ((w.put (unixClose sk w.toState)).setOpened sk false)

def callSystem : System World Call := ⟨Calls⟩

def State.Live (s : State) (i : SockId) : Prop := i < s.next ∧ (s.socks i).released = 0

def State.Queued (s : State) (i : SockId) : Prop :=
  ∃ l q, s.Live l ∧ (s.socks l).connQueue = some q ∧ i ∈ q

structure Linked (s : State) : Prop where
  peers : ∀ i p, s.Live i → (s.socks i).peer = some p → s.Live p ∧ (s.socks p).peer = some i
  queues : ∀ i, s.Queued i → s.Live i
  names : ∀ i ∈ s.ns, s.Live i

/-- Every socket whose descriptors have been closed, and that is not queued, has been released once. -/
def Released (w : World) : Prop :=
  ∀ i < w.next, w.opened i = false → ¬ w.Queued i → (w.socks i).released = 1

structure Orderly (w : World) : Prop where
  fresh : ∀ i, w.next ≤ i → w.opened i = false ∧ w.paired i = false
  linked : ∀ i p, w.Live i → (w.socks i).peer = some p → w.Live p ∧ (w.socks p).peer = some i
  idle : ∀ i, w.Live i → (w.socks i).state ≠ .connected → (w.socks i).peer = none
  queued : ∀ l q c, w.Live l → (w.socks l).connQueue = some q → c ∈ q →
    w.Live c ∧ w.opened c = false ∧ w.paired c = false ∧ (w.socks c).connQueue = none ∧ (w.socks c).refcount = 1
  once : ∀ l q, w.Live l → (w.socks l).connQueue = some q → q.Nodup
  apart : ∀ l l' q q' c, w.Live l → w.Live l' → (w.socks l).connQueue = some q → (w.socks l').connQueue = some q' →
    c ∈ q → c ∈ q' → l = l'
  owner : ∀ l, w.Live l → (w.socks l).connQueue ≠ none → w.opened l = true ∧ w.paired l = false
  names : ∀ i ∈ w.ns, w.opened i = true ∧ (w.socks i).state ≠ .free
  nodup : w.ns.Nodup
  opened : ∀ i, w.opened i = true → w.Live i ∧ (w.socks i).refcount = if w.paired i then 2 else 1
  pairs : ∀ i, w.paired i = true → (w.socks i).state = .connected ∧ (w.socks i).released = 0
  closed : ∀ i, i < w.next → w.opened i = false → w.paired i = false → w.Queued i ∨ (w.socks i).released = 1

variable {w w' : World} {s : State} {sk : SockId}

theorem live_congr (hNext : w'.next = w.next) (hReleased : ∀ j, (w'.socks j).released = (w.socks j).released)
    (i : SockId) : w'.Live i ↔ w.Live i := by
  rw [State.Live, State.Live, hNext, hReleased]

theorem queued_congr (hNext : w'.next = w.next) (hReleased : ∀ j, (w'.socks j).released = (w.socks j).released)
    (hQueue : ∀ j, (w'.socks j).connQueue = (w.socks j).connQueue) (i : SockId) : w'.Queued i ↔ w.Queued i := by
  simp only [State.Queued, live_congr hNext hReleased, hQueue]

/-- What a call may change without a thought: states go on, and peers are given up on both sides. -/
structure Frame (w : World) (s : State) : Prop where
  next : s.next = w.next
  ns : s.ns = w.ns
  connected : ∀ j, (w.socks j).state = .connected → (s.socks j).state = .connected
  named : ∀ j, (w.socks j).state ≠ .free → (s.socks j).state ≠ .free
  queue : ∀ j, (s.socks j).connQueue = (w.socks j).connQueue
  refcount : ∀ j, (s.socks j).refcount = (w.socks j).refcount
  released : ∀ j, (s.socks j).released = (w.socks j).released
  peers : ∀ i p, (s.socks i).peer = some p →
    (w.socks i).peer = some p ∧ (w.Live i → (w.socks p).peer = some i → (s.socks p).peer = some i)

theorem Frame.live (f : Frame w s) (i : SockId) : (w.put s).Live i ↔ w.Live i :=
  @live_congr w (w.put s) f.next f.released i

theorem Frame.isQueued (f : Frame w s) (i : SockId) : (w.put s).Queued i ↔ w.Queued i :=
  @queued_congr w (w.put s) f.next f.released f.queue i

theorem Orderly.frame (h : Orderly w) (f : Frame w s) : Orderly (w.put s) where
  fresh i hi := h.fresh i (f.next ▸ hi)
  linked i p hLive hPeer := by
    have hLive' := (f.live i).mp hLive
    obtain ⟨hOld, hKept⟩ := f.peers i p hPeer
    obtain ⟨hp, hBack⟩ := h.linked i p hLive' hOld
    exact ⟨(f.live p).mpr hp, hKept hLive' hBack⟩
  idle i hLive hState := by
    have hOld := h.idle i ((f.live i).mp hLive) fun hc => hState (f.connected i hc)
    cases hPeer : (s.socks i).peer with
    | none => exact hPeer
    | some p =>
      rw [(f.peers i p hPeer).1] at hOld
      cases hOld
  queued l q c hLive hQueue hMem := by
    rw [f.live] at hLive ⊢
    change (s.socks l).connQueue = some q at hQueue
    rw [f.queue] at hQueue
    change _ ∧ _ ∧ _ ∧ (s.socks c).connQueue = none ∧ (s.socks c).refcount = 1
    rw [f.queue, f.refcount]
    exact h.queued l q c hLive hQueue hMem
  once l q hLive hQueue := h.once l q ((f.live l).mp hLive) (f.queue l ▸ hQueue)
  apart l l' q q' c hl hl' hq hq' := h.apart l l' q q' c ((f.live l).mp hl) ((f.live l').mp hl')
    (f.queue l ▸ hq) (f.queue l' ▸ hq')
  owner l hLive hQueue := h.owner l ((f.live l).mp hLive) fun hNone => hQueue ((f.queue l).trans hNone)
  names i hMem := by
    obtain ⟨hOpen, hNamed⟩ := h.names i (f.ns ▸ hMem)
    exact ⟨hOpen, f.named i hNamed⟩
  nodup := f.ns.symm ▸ h.nodup
  opened i hOpen := by
    obtain ⟨hLive, hCount⟩ := h.opened i hOpen
    exact ⟨(f.live i).mpr hLive, (f.refcount i).trans hCount⟩
  pairs i hPaired := by
    obtain ⟨hState, hReleased⟩ := h.pairs i hPaired
    exact ⟨f.connected i hState, (f.released i).trans hReleased⟩
  closed i hi hClosed hPaired := by
    have hOld := h.closed i (f.next ▸ hi) hClosed hPaired
    rw [f.isQueued]
    exact hOld.imp_right (f.released i).trans

theorem Frame.set {f : Sock → Sock}
    (hConnected : (w.socks sk).state = .connected → (f (w.socks sk)).state = .connected)
    (hNamed : (w.socks sk).state ≠ .free → (f (w.socks sk)).state ≠ .free)
    (hQueue : (f (w.socks sk)).connQueue = (w.socks sk).connQueue)
    (hRefcount : (f (w.socks sk)).refcount = (w.socks sk).refcount)
    (hReleased : (f (w.socks sk)).released = (w.socks sk).released)
    (hPeer : (f (w.socks sk)).peer = (w.socks sk).peer) : Frame w (w.set sk f) := by
  have hSame : ∀ j, ((w.set sk f).socks j).peer = (w.socks j).peer := by
    intro j
    rw [State.set_socks]
    split
    · next hj => rw [hj, hPeer]
    · rfl
  refine ⟨rfl, rfl, ?_, ?_, ?_, ?_, ?_, ?_⟩
  case refine_6 => exact fun i p hi => ⟨hSame i ▸ hi, fun _ hp => (hSame p).trans hp⟩
  all_goals
    intro j
    rw [State.set_socks]
    split
  case refine_1.isTrue hj => exact hj ▸ hConnected
  case refine_2.isTrue hj => exact hj ▸ hNamed
  case refine_3.isTrue hj => exact hj ▸ hQueue
  case refine_4.isTrue hj => exact hj ▸ hRefcount
  case refine_5.isTrue hj => exact hj ▸ hReleased
  case refine_1.isFalse => exact id
  case refine_2.isFalse => exact id
  all_goals rfl

theorem Frame.disconnect (h : Orderly w) (hLive : w.Live sk) : Frame w (Unix.disconnect sk w.toState) := by
  rw [Unix.disconnect]
  cases hPeer : (w.socks sk).peer with
  | none =>
    exact ⟨rfl, rfl, fun _ => id, fun _ => id, fun _ => rfl, fun _ => rfl, fun _ => rfl,
      fun _ _ hi => ⟨hi, fun _ => id⟩⟩
  | some p =>
    obtain ⟨-, hBack⟩ := h.linked sk p hLive hPeer
    refine ⟨rfl, rfl, ?_, ?_, ?_, ?_, ?_, ?_⟩ <;> simp only [State.set_socks] <;> grind

theorem Orderly.register (h : Orderly w) (hOpen : w.opened sk) (hNamed : (w.socks sk).state ≠ .free)
    (hNew : sk ∉ w.ns) : Orderly (w.put (nsRegister sk w.toState)) := by
  rw [nsRegister]
  split
  · exact h
  · refine { h with names := ?_, nodup := ?_ }
    · intro i hMem
      obtain hOld | hSelf := List.mem_append.mp hMem
      · exact h.names i hOld
      · rw [List.mem_singleton.mp hSelf]
        exact ⟨hOpen, hNamed⟩
    · exact nodup_snoc h.nodup hNew

theorem Orderly.bind (h : Orderly w) (hOpen : w.opened sk) (addr : SockaddrUn) (addrlen : Nat) :
    Orderly (w.put (unixBind sk addr addrlen w.toState).1) := by
  rw [unixBind]
  split
  · exact h
  split
  · exact h
  split
  · exact h
  next hFree =>
  cases bindLookup addr addrlen w.toState with
  | some existing =>
    simp only [release_retain]
    exact h
  | none =>
    have hNew : sk ∉ w.ns := fun hMem => (h.names sk hMem).2 (not_not.mp hFree)
    have hAssign : Orderly (w.put (assign sk addr addrlen w.toState)) := by
      refine h.frame (.set ?_ ?_ rfl rfl rfl rfl)
      · rw [not_not.mp hFree]
        exact nofun
      · exact fun _ => nofun
    change Orderly (w.put (bindRegister sk addr addrlen (assign sk addr addrlen w.toState)))
    rw [bindRegister]
    split
    · refine hAssign.register hOpen ?_ hNew
      change ((assign sk addr addrlen w.toState).socks sk).state ≠ .free
      rw [assign, State.set_socks, if_pos rfl]
      exact nofun
    · exact hAssign

theorem Orderly.makeQueue (h : Orderly w) (hNext : w'.next = w.next) (hNs : w'.ns = w.ns)
    (hOpened : ∀ j, w'.opened j = w.opened j) (hPaired : ∀ j, w'.paired j = w.paired j)
    (hSocks : ∀ j, w'.socks j = if j = sk then { w.socks sk with connQueue := some [] } else w.socks j)
    (hOpen : w.opened sk) (hSingle : w.paired sk = false) (hNone : (w.socks sk).connQueue = none) :
    Orderly w' := by
  have hLive := live_congr hNext fun j => show (w'.socks j).released = _ by grind
  have hQueued : ∀ i, w.Queued i → w'.Queued i := by
    rintro i ⟨l, q, hl, hq, hMem⟩
    exact ⟨l, q, (hLive l).mpr hl, by grind, hMem⟩
  constructor
  case fresh => grind [h.fresh]
  case linked => grind [h.linked]
  case idle => grind [h.idle]
  case queued => grind [h.queued]
  case once => grind [h.once]
  case apart => grind [h.apart]
  case owner => grind [h.owner]
  case names => grind [h.names]
  case nodup => grind [h.nodup]
  case opened => grind [h.opened]
  case pairs => grind [h.pairs]
  case closed => grind [h.closed]

theorem Orderly.listen (h : Orderly w) (hOpen : w.opened sk) :
    Orderly (w.put (unixListen sk w.toState).1) := by
  rw [unixListen]
  split
  · exact h
  split
  · exact h
  next hBound =>
  have hSingle : w.paired sk = false := by
    cases hPaired : w.paired sk with
    | false => rfl
    | true =>
      rw [(h.pairs sk hPaired).1] at hBound
      exact absurd nofun hBound
  have hState : Orderly (w.put (w.set sk fun k => { k with state := .listening })) := by
    refine h.frame (.set ?_ ?_ rfl rfl rfl rfl)
    · rw [not_not.mp hBound]
      exact nofun
    · exact fun _ => nofun
  cases hQueue : (w.socks sk).connQueue with
  | none =>
    refine hState.makeQueue rfl rfl (fun _ => rfl) (fun _ => rfl) ?_ hOpen hSingle ?_
    · intro j
      simp only [World.put, State.set_socks, hQueue, Option.getD_none, if_true]
      grind
    · simp only [World.put, State.set_socks, hQueue, if_true]
  | some q =>
    have hFrame : Frame w
        (w.set sk fun k => { k with state := .listening, connQueue := some (k.connQueue.getD []) }) := by
      refine .set ?_ ?_ ?_ rfl rfl rfl
      · rw [not_not.mp hBound]
        exact nofun
      · exact fun _ => nofun
      · rw [hQueue, Option.getD_some]
    exact h.frame hFrame

theorem connectTo_socks {l : SockId} {q : List SockId} (hNe : l ≠ sk) (hL : l ≠ s.next) (hSk : sk ≠ s.next)
    (hQueue : (s.socks l).connQueue = some q) (j : SockId) :
    (release l (connectTo sk l (retain l s))).socks j =
      if j = l then { s.socks l with connQueue := some (q ++ [s.next]) }
      else if j = sk then { s.socks sk with state := .connected, peer := some s.next }
      else if j = s.next then { unixSockInit .stream with
        state := .connected, sunPath := (s.socks l).sunPath, peerAddr := true, peer := some sk }
      else s.socks j := by
  simp only [release, connectTo, retain, State.set_socks, State.alloc_socks, State.set_next]
  grind

theorem Orderly.connectTo (h : Orderly w) {l : SockId} {q : List SockId} {server client listener : Sock}
    (hNext : w'.next = w.next + 1) (hNs : w'.ns = w.ns) (hOpened : ∀ j, w'.opened j = w.opened j)
    (hPaired : ∀ j, w'.paired j = w.paired j)
    (hSocks : ∀ j, w'.socks j =
      if j = l then listener else if j = sk then client else if j = w.next then server else w.socks j)
    (hServer : server.state = .connected ∧ server.peer = some sk ∧ server.connQueue = none ∧ server.refcount = 1 ∧
      server.released = 0)
    (hClient : client.state = .connected ∧ client.peer = some w.next ∧ client.connQueue = (w.socks sk).connQueue ∧
      client.refcount = (w.socks sk).refcount ∧ client.released = (w.socks sk).released)
    (hListener : listener = { w.socks l with connQueue := some (q ++ [w.next]) })
    (hNe : l ≠ sk) (hOpen : w.opened sk) (hL : w.Live l) (hQueue : (w.socks l).connQueue = some q)
    (hAlone : (w.socks sk).peer = none) : Orderly w' := by
  obtain ⟨hSk, -⟩ := h.opened sk hOpen
  have hLive : ∀ i, w'.Live i ↔ w.Live i ∨ i = w.next := by
    intro i
    simp only [State.Live, hNext, hSocks] at hSk hL ⊢
    grind
  have hNew : ¬ w.Live w.next := fun hi => absurd hi.1 (lt_irrefl _)
  have hOld : ∀ j p, w'.Live j → (w'.socks j).connQueue = some p →
      w.Live j ∧ (j = l ∧ p = q ++ [w.next] ∨ (w.socks j).connQueue = some p) := by
    intro j p hj hp
    grind
  have hQueued : ∀ i, w.Queued i → w'.Queued i := by
    rintro i ⟨l', q', hl', hq', hMem⟩
    cases eq_or_ne l' l with
    | inl hSame => exact ⟨l', q' ++ [w.next], (hLive l').mpr (.inl hl'), by grind, List.mem_append_left _ hMem⟩
    | inr hOther => exact ⟨l', q', (hLive l').mpr (.inl hl'), by grind, hMem⟩
  have hServerQueued : w'.Queued w.next :=
    ⟨l, q ++ [w.next], (hLive l).mpr (.inl hL), by grind, List.mem_append_right _ (List.mem_singleton_self _)⟩
  -- The new socket is in one queue, once.
  have hFresh : ∀ l' q', w.Live l' → (w.socks l').connQueue = some q' → w.next ∉ q' :=
    fun l' q' hl' hq' hMem => hNew (h.queued l' q' _ hl' hq' hMem).1
  constructor
  case fresh => grind [h.fresh]
  case linked => grind [h.linked]
  case idle => grind [h.idle]
  case queued =>
    intro j p c hj hp hMem
    obtain ⟨hj, ⟨rfl, rfl⟩ | hp⟩ := hOld j p hj hp
    · obtain hMem | hMem := List.mem_append.mp hMem
      · grind [h.queued j q c hj hQueue hMem]
      · rw [List.mem_singleton.mp hMem]
        grind [h.fresh]
    · grind [h.queued j p c hj hp hMem]
  case once =>
    intro j p hj hp
    obtain ⟨hj, ⟨rfl, rfl⟩ | hp⟩ := hOld j p hj hp
    · exact nodup_snoc (h.once j q hj hQueue) (hFresh j q hj hQueue)
    · exact h.once j p hj hp
  case apart =>
    intro j j' p p' c hj hj' hp hp' hc hc'
    obtain ⟨hj, hp⟩ := hOld j p hj hp
    obtain ⟨hj', hp'⟩ := hOld j' p' hj' hp'
    obtain ⟨rfl, rfl⟩ | hp := hp
    · obtain ⟨rfl, rfl⟩ | hp' := hp'
      · rfl
      obtain hc | hc := List.mem_append.mp hc
      · exact h.apart j j' q p' c hj hj' hQueue hp' hc hc'
      · exact absurd (List.mem_singleton.mp hc ▸ hc') (hFresh j' p' hj' hp')
    · obtain ⟨rfl, rfl⟩ | hp' := hp'
      · obtain hc' | hc' := List.mem_append.mp hc'
        · exact h.apart j j' p q c hj hj' hp hQueue hc hc'
        · exact absurd (List.mem_singleton.mp hc' ▸ hc) (hFresh j p hj hp)
      · exact h.apart j j' p p' c hj hj' hp hp' hc hc'
  case owner => grind [h.owner]
  case names => grind [h.names, h.opened]
  case nodup => grind [h.nodup]
  case opened => grind [h.opened]
  case pairs =>
    intro i hi
    have hPair := h.pairs i (hPaired i ▸ hi)
    grind
  case closed => grind [h.closed]

theorem Orderly.connect (h : Orderly w) (hOpen : w.opened sk) {addr : SockaddrUn} {addrlen : Nat} {ret : Int}
    (hReturns : unixConnect sk addr addrlen w.toState = some (s, ret)) : Orderly (w.put s) := by
  rw [unixConnect] at hReturns
  split at hReturns
  · cases hReturns
    exact h
  split at hReturns
  · cases hReturns
    exact h
  next hState =>
  have hAddr : Orderly (w.put (w.set sk fun k => { k with peerAddr := k.peerAddr || addrlen > 0 })) :=
    h.frame (.set id id rfl rfl rfl rfl)
  obtain ⟨hLive, -⟩ := hAddr.opened sk hOpen
  have hAlone : ((w.set sk fun k => { k with peerAddr := k.peerAddr || addrlen > 0 }).socks sk).peer = none := by
    apply hAddr.idle sk hLive
    simp only [World.put, State.set_socks, if_true]
    grind
  revert hReturns hAddr hAlone
  generalize (w.set sk fun k => { k with peerAddr := k.peerAddr || addrlen > 0 }) = s₁
  intro hReturns hAddr hAlone
  dsimp only at hReturns
  split at hReturns
  · cases hReturns
    exact hAddr.frame (.set (fun _ => rfl) (fun _ => nofun) rfl rfl rfl rfl)
  split at hReturns
  · cases hReturns
    exact hAddr
  next l hLookup =>
  split at hReturns
  · cases hReturns
  next hNe =>
  split at hReturns
  · cases hReturns
    rw [release_retain]
    exact hAddr
  next hListening =>
  cases hReturns
  have hMem : l ∈ s₁.ns := by
    rw [connectLookup] at hLookup
    split at hLookup
    · exact nsFind_mem hLookup
    · cases hLookup
  obtain ⟨hLl, -⟩ := hAddr.opened l (hAddr.names l hMem).1
  cases hQueue : (s₁.socks l).connQueue with
  | none => exact absurd (.inr hQueue) hListening
  | some q =>
    obtain ⟨hLive, -⟩ := hAddr.opened sk hOpen
    exact hAddr.connectTo rfl rfl (fun _ => rfl) (fun _ => rfl)
      (connectTo_socks hNe hLl.1.ne hLive.1.ne hQueue) ⟨rfl, rfl, rfl, rfl, rfl⟩
      ⟨rfl, rfl, rfl, rfl, rfl⟩ rfl hNe hOpen hLl hQueue hAlone

theorem Orderly.takeHead (h : Orderly w) {c : SockId} {rest : List SockId} {k : Sock} (hNext : w'.next = w.next)
    (hNs : w'.ns = w.ns) (hPaired : ∀ j, w'.paired j = w.paired j)
    (hSocks : ∀ j, w'.socks j =
      if j = sk then { w.socks sk with connQueue := some rest } else if j = c then k else w.socks j)
    (hL : w.Live sk) (hQueue : (w.socks sk).connQueue = some (c :: rest)) (hSame : k.connQueue = none ∧ k.refcount = 1)
    (hLeaves : k = w.socks c ∧ (∀ j, w'.opened j = if j = c then true else w.opened j) ∨
      k.released = 1 ∧ (w.socks c).peer = none ∧ ∀ j, w'.opened j = w.opened j) : Orderly w' := by
  have hHead := h.queued sk _ c hL hQueue (.head _)
  obtain ⟨hNotRest, hNodup⟩ := List.nodup_cons.mp (h.once sk _ hL hQueue)
  have hOwner := h.owner sk hL (by rw [hQueue]; exact nofun)
  have hNe : c ≠ sk := by
    rintro rfl
    rw [hHead.2.1] at hOwner
    cases hOwner.1
  have hOldLive : ∀ i, w'.Live i → w.Live i := by
    intro i
    have hLiveC := hHead.1
    simp only [State.Live, hNext, hSocks] at hL hLiveC ⊢
    grind
  have hLive : ∀ i, w.Live i → i ≠ c → w'.Live i := by
    intro i
    simp only [State.Live, hNext, hSocks]
    grind
  have hOld : ∀ j p, w'.Live j → (w'.socks j).connQueue = some p →
      w.Live j ∧ (j = sk ∧ p = rest ∨ j ≠ sk ∧ (w.socks j).connQueue = some p) ∧ c ∉ p := by
    intro j p hj hp
    have := h.apart sk j (c :: rest) p c hL
    grind
  have hQueued : ∀ i, w.Queued i → i ≠ c → w'.Queued i := by
    rintro i ⟨l, q, hl, hq, hMem⟩ hi
    cases eq_or_ne l sk with
    | inl hSame =>
      subst hSame
      rw [hQueue] at hq
      cases hq
      obtain rfl | hMem := List.mem_cons.mp hMem
      · exact absurd rfl hi
      · exact ⟨l, rest, hLive l hl (.symm hNe), by grind, hMem⟩
    | inr hOther => exact ⟨l, q, hLive l hl (by grind), by grind, hMem⟩
  have hLess := hHead.1.1
  constructor
  case fresh =>
    intro i hi
    have hOldFresh := h.fresh i (hNext ▸ hi)
    have hNot : i ≠ c := fun hc => absurd (hc ▸ hLess) (not_lt.mpr (hNext ▸ hi))
    grind
  case linked =>
    intro i p hi hPeer
    have hOldLink := h.linked i p (hOldLive i hi)
    have hBack := h.linked c i hHead.1
    simp only [State.Live, hNext, hSocks] at hi hPeer hOldLink hBack hL ⊢
    grind
  case idle =>
    intro i hi
    have hOldIdle := h.idle i (hOldLive i hi)
    simp only [State.Live, hNext, hSocks] at hi ⊢
    grind
  case queued =>
    intro j p d hj hp hMem
    obtain ⟨hj, hp, hNot⟩ := hOld j p hj hp
    have hd : d ≠ c := fun hd => hNot (hd ▸ hMem)
    have hOldQueued : w.Live d ∧ w.opened d = false ∧ w.paired d = false ∧ (w.socks d).connQueue = none ∧
        (w.socks d).refcount = 1 := by
      obtain ⟨rfl, rfl⟩ | ⟨-, hp⟩ := hp
      · exact h.queued j _ d hj hQueue (.tail _ hMem)
      · exact h.queued j p d hj hp hMem
    have hSelf : d ≠ sk := by
      rintro rfl
      rw [hOwner.1] at hOldQueued
      cases hOldQueued.2.1
    exact ⟨hLive d hOldQueued.1 hd, by grind, by grind, by grind, by grind⟩
  case once =>
    intro j p hj hp
    obtain ⟨hj, ⟨rfl, rfl⟩ | ⟨-, hp⟩, -⟩ := hOld j p hj hp
    · exact hNodup
    · exact h.once j p hj hp
  case apart =>
    intro j j' p p' d hj hj' hp hp' hd hd'
    obtain ⟨hj, hp, -⟩ := hOld j p hj hp
    obtain ⟨hj', hp', -⟩ := hOld j' p' hj' hp'
    obtain ⟨rfl, rfl⟩ | ⟨-, hp⟩ := hp
    · obtain ⟨rfl, rfl⟩ | ⟨-, hp'⟩ := hp'
      · rfl
      · exact h.apart j j' _ p' d hj hj' hQueue hp' (.tail _ hd) hd'
    · obtain ⟨rfl, rfl⟩ | ⟨-, hp'⟩ := hp'
      · exact h.apart j j' p _ d hj hj' hp hQueue hd (.tail _ hd')
      · exact h.apart j j' p p' d hj hj' hp hp' hd hd'
  case owner =>
    intro l hl hq
    have hOldOwner := h.owner l (hOldLive l hl)
    grind
  case names =>
    intro i hi
    have hOldNames := h.names i (hNs ▸ hi)
    grind
  case nodup => grind [h.nodup]
  case opened =>
    intro i hi
    have hOldOpened := h.opened i
    have hLiveC := hHead.1
    simp only [State.Live, hNext, hSocks] at hOldOpened hLiveC ⊢
    grind
  case pairs =>
    intro i hi
    have hOldPairs := h.pairs i (hPaired i ▸ hi)
    grind
  case closed =>
    intro i hi hClosed hSolo
    have hOldClosed := h.closed i (hNext ▸ hi)
    cases eq_or_ne i c with
    | inl hSame => grind
    | inr hOther => grind

end OpenXJ380.Unix
