import OpenXJ380.Lib.Transition
import OpenXJ380.Unix.Model

/-! # Names of sockets

`unix_bind` looks a path up under the namespace lock, lets the lock go, and registers the socket under it again. A
socket's own lock is held throughout, so that one call at a time works on a socket.
-/

namespace OpenXJ380.Unix

open Function

open Errno Transition

inductive Binding where
  | refused (existing : SockId)
  | placing (addr : SockaddrUn) (addrlen : Nat)

/-- Up to the end of `unix_ns_lookup`. -/
def bindStart (sk : SockId) (addr : SockaddrUn) (addrlen : Nat) (s : State) : Except Int (State × Binding) :=
  if addrlen < 2 then .error (-EINVAL)
  else if addr.sunFamily ≠ AF_UNIX then .error (-EAFNOSUPPORT)
  else if (s.socks sk).state ≠ .free then .error (-EINVAL)
  else
    match bindLookup addr addrlen s with
    | some existing => .ok (retain existing s, .refused existing)
    | none => .ok (s, .placing addr addrlen)

/-- What is left. Until it is registered, nobody else sees what is assigned. -/
def bindFinish (sk : SockId) : Binding → State → State × Int
  | .refused existing, s => (release existing s, -EADDRINUSE)
  | .placing addr addrlen, s => (bindRegister sk addr addrlen (assign sk addr addrlen s), 0)

theorem unixBind_eq (sk : SockId) (addr : SockaddrUn) (addrlen : Nat) (s : State) :
    unixBind sk addr addrlen s =
      match bindStart sk addr addrlen s with
      | .error ret => (s, ret)
      | .ok (s', b) => bindFinish sk b s' := by
  rw [unixBind, bindStart]
  split
  · rfl
  split
  · rfl
  split
  · rfl
  cases bindLookup addr addrlen s <;> rfl

structure Naming extends State where
  opened : SockId → Bool
  binding : SockId → Option Binding

def Naming.init : Naming where
  socks := fun _ => unixSockInit .stream
  next := 0
  ns := []
  opened := fun _ => false
  binding := fun _ => none

def Naming.put (w : Naming) (s : State) : Naming := { w with toState := s }

def Naming.setOpened (w : Naming) (sk : SockId) (b : Bool) : Naming :=
  { w with opened := update w.opened sk b }

def Naming.setBinding (w : Naming) (sk : SockId) (b : Option Binding) : Naming :=
  { w with binding := update w.binding sk b }

inductive Event where
  | create (type : SockType)
  | start (sk : SockId) (addr : SockaddrUn) (addrlen : Nat)
  | finish (sk : SockId) (ret : Int)
  | close (sk : SockId)

inductive Events : Naming → Event → Naming → Prop
  | create {w : Naming} (type : SockType) :
      Events w (.create type) ((w.put (unixCreate type w.toState).1).setOpened w.next true)
  | fail {w : Naming} {sk : SockId} {addr : SockaddrUn} {addrlen : Nat} {ret : Int} (hOpen : w.opened sk = true)
      (hIdle : w.binding sk = none) (hFails : bindStart sk addr addrlen w.toState = .error ret) :
      Events w (.start sk addr addrlen) w
  | start {w : Naming} {sk : SockId} {addr : SockaddrUn} {addrlen : Nat} {s : State} {b : Binding}
      (hOpen : w.opened sk = true) (hIdle : w.binding sk = none)
      (hStarts : bindStart sk addr addrlen w.toState = .ok (s, b)) :
      Events w (.start sk addr addrlen) ((w.put s).setBinding sk (some b))
  | finish {w : Naming} {sk : SockId} {b : Binding} (hBinding : w.binding sk = some b) :
      Events w (.finish sk (bindFinish sk b w.toState).2) ((w.put (bindFinish sk b w.toState).1).setBinding sk none)
  | close {w : Naming} {sk : SockId} (hOpen : w.opened sk = true) (hIdle : w.binding sk = none) :
      Events w (.close sk) ((w.put (unixClose sk w.toState)).setOpened sk false)

def bindSystem : System Naming Event := ⟨Events⟩

/-- The path up to the end that `addrlen` sets. -/
def limitedPath (addr : SockaddrUn) (addrlen : Nat) : Path := addr.sunPath.take (maxPath addrlen)

def Registered (s : State) (path : Path) : Prop := ∃ i ∈ s.ns, (s.socks i).localPath = path

/-- No other bind of the same path has looked it up and not registered it, and a path that is cut is not cut to one that
is registered. It does not matter for a path that is found. -/
def Timely (w : Naming) : Event → Prop
  | .start _ addr addrlen =>
    hasPath addr addrlen = true → ¬ Registered w.toState addr.sunPath →
      (addr.sunPath.length ≤ maxPath addrlen ∨ ¬ Registered w.toState (limitedPath addr addrlen)) ∧
      ∀ other a n, w.binding other = some (.placing a n) → hasPath a n = true →
        limitedPath a n ≠ limitedPath addr addrlen
  | _ => True

structure NamesUnique (w : Naming) : Prop where
  unique : ∀ i ∈ w.ns, ∀ j ∈ w.ns, (w.socks i).localPath = (w.socks j).localPath → i = j
  live : ∀ i ∈ w.ns, w.opened i = true ∧ (w.socks i).released = 0
  lookup : ∀ path i, nsFind w.toState path = some i ↔ i ∈ w.ns ∧ (w.socks i).localPath = path
  inUse : ∀ sk addr addrlen, w.opened sk = true → (w.socks sk).state = .free → addr.sunFamily = AF_UNIX →
    hasPath addr addrlen = true → Registered w.toState (limitedPath addr addrlen) → Timely w (.start sk addr addrlen) →
      unixBind sk addr addrlen w.toState = (w.toState, -EADDRINUSE) ∧
      ∃ existing, bindStart sk addr addrlen w.toState = .ok (retain existing w.toState, .refused existing)
  refused : ∀ sk ret w' existing, Events w (.finish sk ret) w' → w.binding sk = some (.refused existing) →
    ret = -EADDRINUSE ∧ w'.toState = release existing w.toState

structure Distinct (w : Naming) : Prop where
  fresh : ∀ i, w.next ≤ i → w.opened i = false
  quiet : ∀ i, (w.socks i).peer = none ∧ (w.socks i).connQueue = none ∧ (w.socks i).peerAddr = false
  live : ∀ i, w.opened i = true → (w.socks i).released = 0
  names : ∀ i ∈ w.ns, w.opened i = true ∧ (w.socks i).state ≠ .free ∧ (w.socks i).sunPath ≠ []
  busy : ∀ i b, w.binding i = some b → w.opened i = true ∧ (w.socks i).state = .free
  nodup : w.ns.Nodup
  unique : ∀ i ∈ w.ns, ∀ j ∈ w.ns, (w.socks i).sunPath = (w.socks j).sunPath → i = j
  pending : ∀ sk addr addrlen, w.binding sk = some (.placing addr addrlen) → hasPath addr addrlen = true →
    ∀ i ∈ w.ns, (w.socks i).sunPath ≠ limitedPath addr addrlen
  alone : ∀ sk sk' a a' n n', w.binding sk = some (.placing a n) → w.binding sk' = some (.placing a' n') →
    hasPath a n = true → hasPath a' n' = true → limitedPath a n = limitedPath a' n' → sk = sk'

section

variable {w w' : Naming} {s : State} {sk : SockId} {path : Path} {addr : SockaddrUn} {addrlen : Nat}

theorem Distinct.localPath (h : Distinct w) (i : SockId) : (w.socks i).localPath = (w.socks i).sunPath := by
  rw [Sock.localPath, if_neg]
  rintro ⟨-, hAddr⟩
  exact nomatch hAddr.symm.trans (h.quiet i).2.2

theorem Distinct.nsFind_iff (h : Distinct w) (path : Path) (i : SockId) :
    nsFind w.toState path = some i ↔ i ∈ w.ns ∧ (w.socks i).localPath = path := by
  constructor
  · intro hFind
    have hTest := List.find?_some hFind
    simp only [Bool.and_eq_true, decide_eq_true_eq] at hTest
    exact ⟨nsFind_mem hFind, hTest.2⟩
  · rintro ⟨hMem, rfl⟩
    obtain ⟨-, hNamed, hPath⟩ := h.names i hMem
    cases hFind : nsFind w.toState (w.socks i).localPath with
    | none =>
      have hNot := List.find?_eq_none.mp hFind i hMem
      simp only [SockState.named] at hNot
      grind
    | some j =>
      have hTest := List.find?_some hFind
      simp only [Bool.and_eq_true, decide_eq_true_eq] at hTest
      rw [h.localPath, h.localPath] at hTest
      rw [h.unique j (nsFind_mem hFind) i hMem hTest.2]

theorem Distinct.nsFind_none (h : Distinct w) : nsFind w.toState path = none ↔ ¬ Registered w.toState path := by
  rw [Registered, Option.eq_none_iff_forall_ne_some]
  constructor
  · rintro hNone ⟨i, hi⟩
    exact hNone i ((h.nsFind_iff path i).mpr hi)
  · intro hNone i hi
    exact hNone ⟨i, (h.nsFind_iff path i).mp hi⟩

theorem limitedPath_ne (hPath : hasPath addr addrlen) : limitedPath addr addrlen ≠ [] := by
  simp only [hasPath, Bool.and_eq_true, decide_eq_true_eq] at hPath
  rw [limitedPath, Ne, List.take_eq_nil_iff]
  rintro (hZero | hNil)
  · exact absurd hZero hPath.1.ne'
  · exact hPath.2 hNil

theorem Distinct.count (h : Distinct w) {count : SockId → Nat} (hNext : w'.next = w.next) (hNs : w'.ns = w.ns)
    (hOpened : ∀ j, w'.opened j = w.opened j) (hBinding : ∀ j b, w'.binding j = some b →
      w.binding j = some b ∨ (∃ e, b = .refused e) ∧ w.opened j ∧ (w.socks j).state = .free)
    (hSocks : ∀ j, w'.socks j = { w.socks j with refcount := count j }) : Distinct w' := by
  constructor
  case fresh => grind [h.fresh]
  case quiet => grind [h.quiet]
  case live => grind [h.live]
  case names => grind [h.names]
  case busy => grind [h.busy]
  case nodup => grind [h.nodup]
  case unique => grind [h.unique]
  case pending => grind [h.pending]
  case alone => grind [h.alone]

theorem Distinct.create (h : Distinct w) (type : SockType) :
    Distinct ((w.put (unixCreate type w.toState).1).setOpened w.next true) := by
  have hFresh := h.fresh w.next le_rfl
  have hOpened : ∀ j, ((w.put (unixCreate type w.toState).1).setOpened w.next true).opened j =
      if j = w.next then true else w.opened j := fun j => update_apply _ _ _ _
  have hSocks : ∀ j, ((w.put (unixCreate type w.toState).1).setOpened w.next true).socks j =
      if j = w.next then unixSockInit type else w.socks j := fun j => w.toState.alloc_socks j _
  have hNext : ((w.put (unixCreate type w.toState).1).setOpened w.next true).next = w.next + 1 := rfl
  have hNs : ((w.put (unixCreate type w.toState).1).setOpened w.next true).ns = w.ns := rfl
  have hBinding : ∀ j, ((w.put (unixCreate type w.toState).1).setOpened w.next true).binding j = w.binding j :=
    fun _ => rfl
  revert hOpened hSocks hNext hNs hBinding
  generalize (w.put (unixCreate type w.toState).1).setOpened w.next true = w'
  intro hOpened hSocks hNext hNs hBinding
  have hInit : (unixSockInit type).peer = none ∧ (unixSockInit type).connQueue = none ∧
    (unixSockInit type).peerAddr = false ∧ (unixSockInit type).released = 0 := ⟨rfl, rfl, rfl, rfl⟩
  constructor
  case fresh => grind [h.fresh]
  case quiet => grind [h.quiet]
  case live => grind [h.live]
  case names => grind [h.names]
  case busy => grind [h.busy]
  case nodup => grind [h.nodup]
  case unique => grind [h.unique, h.names]
  case pending => grind [h.pending, h.names]
  case alone => grind [h.alone]

theorem Distinct.start (h : Distinct w) (hTimely : Timely w (.start sk addr addrlen)) (hOpen : w.opened sk)
    (hFree : (w.socks sk).state = .free) (hLookup : bindLookup addr addrlen w.toState = none) :
    Distinct (w.setBinding sk (some (.placing addr addrlen))) := by
  have hBinding : ∀ j, (w.setBinding sk (some (.placing addr addrlen))).binding j =
      if j = sk then some (.placing addr addrlen) else w.binding j := fun j => update_apply _ _ _ _
  have hTimely : hasPath addr addrlen → ¬ Registered w.toState (limitedPath addr addrlen) ∧
      ∀ other a n, w.binding other = some (.placing a n) → hasPath a n →
        limitedPath a n ≠ limitedPath addr addrlen := by
    intro hPath
    rw [bindLookup, if_pos hPath, h.nsFind_none] at hLookup
    obtain ⟨hCut, hAlone⟩ := hTimely hPath hLookup
    refine ⟨?_, hAlone⟩
    obtain hWhole | hCut := hCut
    · rwa [limitedPath, List.take_of_length_le hWhole]
    · exact hCut
  refine { h with busy := ?_, pending := ?_, alone := ?_ }
  · intro i b hb
    rw [hBinding] at hb
    change w.opened i ∧ (w.socks i).state = .free
    grind [h.busy]
  · intro sk' a n ha hPath i hi hEq
    rw [hBinding] at ha
    split at ha
    · cases ha
      exact (hTimely hPath).1 ⟨i, hi, (h.localPath i).trans hEq⟩
    · exact h.pending sk' a n ha hPath i hi hEq
  · grind [h.alone]

theorem set_refcount (s : State) (e : SockId) (f : Nat → Nat) (j : SockId) :
    (s.set e fun k => { k with refcount := f k.refcount }).socks j =
      { s.socks j with refcount := if j = e then f (s.socks j).refcount else (s.socks j).refcount } := by
  rw [State.set_socks]
  split
  · next hj => rw [hj]
  · rfl

theorem Distinct.refuse (h : Distinct w) (hOpen : w.opened sk) (hFree : (w.socks sk).state = .free)
    {existing : SockId} :
    Distinct ((w.put (retain existing w.toState)).setBinding sk (some (.refused existing))) := by
  refine h.count rfl rfl (fun _ => rfl) ?_ (set_refcount w.toState existing (· + 1))
  intro j b hb
  change update w.binding sk (some (.refused existing)) j = some b at hb
  rw [update_apply] at hb
  split at hb
  · next hj =>
    cases hb
    exact .inr ⟨⟨existing, rfl⟩, hj ▸ hOpen, hj ▸ hFree⟩
  · exact .inl hb

theorem Distinct.giveBack (h : Distinct w) (sk existing : SockId) :
    Distinct ((w.put (release existing w.toState)).setBinding sk none) := by
  refine h.count rfl rfl (fun _ => rfl) ?_ (set_refcount w.toState existing (· - 1))
  intro j b hb
  change update w.binding sk none j = some b at hb
  rw [update_apply] at hb
  split at hb
  · cases hb
  · exact .inl hb

theorem Distinct.place (h : Distinct w) (hBinding : w.binding sk = some (.placing addr addrlen)) :
    Distinct ((w.put (bindRegister sk addr addrlen (assign sk addr addrlen w.toState))).setBinding sk none) := by
  obtain ⟨hOpen, hFree⟩ := h.busy sk _ hBinding
  have hNew : sk ∉ w.ns := fun hMem => (h.names sk hMem).2.1 hFree
  have hSocks : ∀ j, (bindRegister sk addr addrlen (assign sk addr addrlen w.toState)).socks j =
      if j = sk then { w.socks sk with sunPath := limitedPath addr addrlen, state := .bound } else w.socks j := by
    intro j
    rw [← State.set_socks w.toState sk j fun k => { k with sunPath := limitedPath addr addrlen, state := .bound }]
    rw [bindRegister, nsRegister]
    split_ifs <;> rfl
  have hNs : (bindRegister sk addr addrlen (assign sk addr addrlen w.toState)).ns =
      if hasPath addr addrlen = true then w.ns ++ [sk] else w.ns := by
    rw [bindRegister]
    split
    · next hPath =>
      rw [nsRegister, if_neg]
      · rfl
      · rw [assign, State.set_socks, if_pos rfl]
        exact limitedPath_ne hPath
    · rfl
  have hFresh := h.fresh
  have hNext : (bindRegister sk addr addrlen (assign sk addr addrlen w.toState)).next = w.next := by
    rw [bindRegister, nsRegister]
    split_ifs <;> rfl
  have hBinding' : ∀ j, ((w.put (bindRegister sk addr addrlen (assign sk addr addrlen w.toState))).setBinding sk
      none).binding j = if j = sk then none else w.binding j := fun j => update_apply _ _ _ _
  revert hSocks hNs hNext hBinding'
  generalize bindRegister sk addr addrlen (assign sk addr addrlen w.toState) = s'
  intro hSocks hNs hNext hBinding'
  have hMem : ∀ i ∈ s'.ns, i = sk ∧ hasPath addr addrlen ∨ i ∈ w.ns := by grind
  have hPath : hasPath addr addrlen → limitedPath addr addrlen ≠ [] := limitedPath_ne
  refine ⟨fun i hi => hFresh i (hNext ▸ hi), ?_, ?_, ?_, ?_, ?_, ?_, ?_, ?_⟩
  all_goals simp only [Naming.setBinding, Naming.put] at hBinding' ⊢
  · grind [h.quiet]
  · grind [h.live]
  · grind [h.names]
  · grind [h.busy]
  · rw [hNs]
    split
    · exact nodup_snoc h.nodup hNew
    · exact h.nodup
  · grind [h.unique, h.pending]
  · grind [h.pending, h.alone]
  · grind [h.alone]

theorem unixClose_quiet (hPeer : (s.socks sk).peer = none) (hQueue : (s.socks sk).connQueue = none) :
    ∃ count released, (unixClose sk s).next = s.next ∧
      (unixClose sk s).ns = (if (s.socks sk).state.named then s.ns.erase sk else s.ns) ∧
      ∀ j, (unixClose sk s).socks j =
        if j = sk then { s.socks sk with closed := true, refcount := count, released := released } else s.socks j := by
  have hAlone : disconnect sk (s.set sk fun k => { k with closed := true }) =
      s.set sk fun k => { k with closed := true } := by
    rw [disconnect, State.set_socks, if_pos rfl, hPeer]
  have hState : ((s.set sk fun k => { k with closed := true }).socks sk).state = (s.socks sk).state := by
    rw [State.set_socks, if_pos rfl]
  have hFree : ∀ t : State, (t.socks sk).connQueue = none →
      unixSockFree (t.next + 1) sk t = t.set sk fun k => { k with released := k.released + 1 } := by
    intro t hNone
    rw [unixSockFree, hNone]
    rfl
  rw [unixClose]
  dsimp only
  rw [hAlone, hState]
  obtain ⟨t, ht⟩ : ∃ t, t = if (s.socks sk).state.named = true then
    nsUnregister sk (s.set sk fun k => { k with closed := true }) else s.set sk fun k => { k with closed := true } :=
    ⟨_, rfl⟩
  have hSocks : ∀ j, t.socks j = if j = sk then { s.socks sk with closed := true } else s.socks j := by
    intro j
    rw [← s.set_socks sk j fun k => { k with closed := true }, ht]
    split <;> rfl
  have hNs : t.ns = if (s.socks sk).state.named = true then s.ns.erase sk else s.ns := by
    rw [ht]
    split <;> rfl
  have hNext : t.next = s.next := by
    rw [ht]
    split <;> rfl
  rw [← ht, ← hNs, ← hNext]
  split
  · refine ⟨(s.socks sk).refcount - 1, (s.socks sk).released + 1, ?_⟩
    rw [hFree]
    · refine ⟨rfl, rfl, fun j => ?_⟩
      simp only [release, State.set_socks, hSocks]
      grind
    · simp only [release, State.set_socks, hSocks, if_true]
      exact hQueue
  · refine ⟨(s.socks sk).refcount - 1, (s.socks sk).released, rfl, rfl, fun j => ?_⟩
    simp only [release, State.set_socks, hSocks]
    grind

theorem Distinct.close (h : Distinct w) (hIdle : w.binding sk = none) :
    Distinct ((w.put (unixClose sk w.toState)).setOpened sk false) := by
  obtain ⟨count, released, hNext, hNs, hSocks⟩ := unixClose_quiet (h.quiet sk).1 (h.quiet sk).2.1
  have hOpened : ∀ j, ((w.put (unixClose sk w.toState)).setOpened sk false).opened j =
      if j = sk then false else w.opened j := fun j => update_apply _ _ _ _
  have hFresh := h.fresh
  have hGone : sk ∉ (unixClose sk w.toState).ns := by
    rw [hNs]
    split
    · exact fun hMem => (h.nodup.mem_erase_iff.mp hMem).1 rfl
    · next hNamed =>
      exact fun hMem => hNamed (decide_eq_true (h.names sk hMem).2.1)
  have hMem : ∀ i ∈ (unixClose sk w.toState).ns, i ∈ w.ns ∧ i ≠ sk := by
    intro i hi
    refine ⟨?_, fun hSame => hGone (hSame ▸ hi)⟩
    rw [hNs] at hi
    split at hi
    · exact List.mem_of_mem_erase hi
    · exact hi
  have hNodup : (unixClose sk w.toState).ns.Nodup := by
    rw [hNs]
    split
    · exact h.nodup.erase sk
    · exact h.nodup
  revert hSocks hNext hOpened hMem hNodup
  generalize unixClose sk w.toState = s'
  intro hSocks hNext hOpened hMem hNodup
  refine ⟨?_, ?_, ?_, ?_, ?_, hNodup, ?_, ?_, h.alone⟩
  all_goals simp only [Naming.setOpened, Naming.put] at hOpened ⊢
  · grind
  · grind [h.quiet]
  · grind [h.live]
  · grind [h.names]
  · grind [h.busy]
  · grind [h.unique]
  · grind [h.pending]

theorem Distinct.step {e : Event} (hStep : Events w e w') (hTimely : Timely w e) (h : Distinct w) : Distinct w' := by
  cases hStep with
  | create type => exact h.create type
  | fail hOpen hIdle hFails => exact h
  | @start sk addr addrlen s b hOpen hIdle hStarts =>
    rw [bindStart] at hStarts
    split at hStarts
    · cases hStarts
    split at hStarts
    · cases hStarts
    split at hStarts
    · cases hStarts
    next hFree =>
    split at hStarts
    · cases hStarts
      exact h.refuse hOpen (not_not.mp hFree)
    · next hLookup =>
      cases hStarts
      exact h.start hTimely hOpen (not_not.mp hFree) hLookup
  | @finish sk b hBinding =>
    cases b with
    | refused existing => exact h.giveBack sk existing
    | placing addr addrlen => exact h.place hBinding
  | close hOpen hIdle => exact h.close hIdle

theorem Distinct.init : Distinct Naming.init where
  fresh _ _ := rfl
  quiet _ := ⟨rfl, rfl, rfl⟩
  live _ _ := rfl
  names _ hMem := nomatch hMem
  busy _ _ hBinding := nomatch hBinding
  nodup := List.nodup_nil
  unique _ hMem := nomatch hMem
  pending _ _ _ hBinding := nomatch hBinding
  alone _ _ _ _ _ _ hBinding := nomatch hBinding

theorem Distinct.of_run {events : List Event} (hRun : Run (bindSystem.restrict Timely) Naming.init events w) :
    Distinct w :=
  hRun.invariant (fun _ _ _ hDistinct hStep => hDistinct.step hStep.2 hStep.1) Distinct.init

theorem Distinct.inUse (h : Distinct w) (hFree : (w.socks sk).state = .free) (hFamily : addr.sunFamily = AF_UNIX)
    (hPath : hasPath addr addrlen) (hTaken : Registered w.toState (limitedPath addr addrlen))
    (hTimely : Timely w (.start sk addr addrlen)) :
    ∃ existing, bindStart sk addr addrlen w.toState = .ok (retain existing w.toState, .refused existing) := by
  have hLong : ¬ addrlen < 2 := by
    simp only [hasPath, maxPath, Bool.and_eq_true, decide_eq_true_eq] at hPath
    grind
  have hFound : Registered w.toState addr.sunPath := by
    refine of_not_not fun hNot => ?_
    obtain hWhole | hCut := (hTimely hPath hNot).1
    · rw [limitedPath, List.take_of_length_le hWhole] at hTaken
      exact hNot hTaken
    · exact hCut hTaken
  obtain ⟨existing, hExisting⟩ := hFound
  refine ⟨existing, ?_⟩
  rw [bindStart, if_neg hLong, if_neg (not_not.mpr hFamily), if_neg (not_not.mpr hFree), bindLookup, if_pos hPath,
    (h.nsFind_iff _ existing).mpr hExisting]

end

theorem names_unique {events : List Event} {w : Naming} (hRun : Run (bindSystem.restrict Timely) Naming.init events w) :
    NamesUnique w := by
  have h := Distinct.of_run hRun
  constructor
  · intro i hi j hj hSame
    rw [h.localPath, h.localPath] at hSame
    exact h.unique i hi j hj hSame
  · exact fun i hi => ⟨(h.names i hi).1, h.live i (h.names i hi).1⟩
  · exact h.nsFind_iff
  · intro sk addr addrlen _ hFree hFamily hPath hTaken hTimely
    obtain ⟨existing, hStart⟩ := h.inUse hFree hFamily hPath hTaken hTimely
    refine ⟨?_, existing, hStart⟩
    rw [unixBind_eq, hStart]
    exact congrArg (·, -EADDRINUSE) (release_retain w.toState existing)
  · intro sk ret w' existing hStep hRefused
    generalize hEvent : Event.finish sk ret = e at hStep
    cases hStep <;> cases hEvent
    next b hBinding =>
    cases hBinding.symm.trans hRefused
    exact ⟨rfl, rfl⟩

def Naming.create (w : Naming) : Naming := (w.put (unixCreate .stream w.toState).1).setOpened w.next true

def Naming.start (w : Naming) (sk : SockId) (addr : SockaddrUn) (addrlen : Nat) : Naming :=
  w.setBinding sk (some (.placing addr addrlen))

def Naming.finish (w : Naming) (sk : SockId) (addr : SockaddrUn) (addrlen : Nat) : Naming :=
  (w.put (bindFinish sk (.placing addr addrlen) w.toState).1).setBinding sk none

section

variable (w : Naming) {sk : SockId} {addr : SockaddrUn} {addrlen : Nat}

theorem Naming.step_create : bindSystem.step w (.create .stream) w.create := Events.create .stream

variable {w}

theorem Naming.step_start (hOpen : w.opened sk) (hIdle : w.binding sk = none)
    (hStarts : bindStart sk addr addrlen w.toState = .ok (w.toState, .placing addr addrlen)) :
    bindSystem.step w (.start sk addr addrlen) (w.start sk addr addrlen) := Events.start hOpen hIdle hStarts

theorem Naming.step_finish (hBinding : w.binding sk = some (.placing addr addrlen)) :
    bindSystem.step w (.finish sk 0) (w.finish sk addr addrlen) := Events.finish hBinding

end

def pathA : SockaddrUn := ⟨AF_UNIX, [97]⟩

def pathAB : SockaddrUn := ⟨AF_UNIX, [97, 98]⟩

/-- Bound once, the path is in use. -/
theorem names_unique_bound :
    NamesUnique ((Naming.init.create.start 0 pathA 4).finish 0 pathA 4) := by
  have hTimely : Timely Naming.init.create (.start 0 pathA 4) :=
    fun _ _ => ⟨.inl (by decide), fun _ _ _ hBinding => nomatch hBinding⟩
  have hCreate : (bindSystem.restrict Timely).step Naming.init (.create .stream) Naming.init.create :=
    ⟨trivial, Naming.init.step_create⟩
  have hFinish : (bindSystem.restrict Timely).step (Naming.init.create.start 0 pathA 4) (.finish 0 0)
      ((Naming.init.create.start 0 pathA 4).finish 0 pathA 4) := ⟨trivial, Naming.step_finish rfl⟩
  exact names_unique ((((Run.nil (M := bindSystem.restrict Timely) Naming.init).snoc hCreate).snoc
    ⟨hTimely, Naming.step_start rfl rfl rfl⟩).snoc hFinish)

def cutTwice : Naming :=
  ((((Naming.init.create.start 0 pathAB 3).finish 0 pathAB 3).create.start 1 pathAB 3).finish 1 pathAB 3)

def boundAtOnce : Naming :=
  (((Naming.init.create.create.start 0 pathA 4).start 1 pathA 4).finish 0 pathA 4).finish 1 pathA 4

/-- Two sockets under one path, by cutting it one after the other and by looking it up at once. -/
theorem names_not_unique :
    (Run bindSystem Naming.init
      [.create .stream, .start 0 pathAB 3, .finish 0 0, .create .stream, .start 1 pathAB 3, .finish 1 0] cutTwice ∧
      ¬ NamesUnique cutTwice) ∧
    Run bindSystem Naming.init
      [.create .stream, .create .stream, .start 0 pathA 4, .start 1 pathA 4, .finish 0 0, .finish 1 0] boundAtOnce ∧
      ¬ NamesUnique boundAtOnce := by
  refine ⟨⟨?_, ?_⟩, ?_, ?_⟩
  · exact ((((((Run.nil (M := bindSystem) Naming.init).snoc (Naming.step_create _)).snoc
      (Naming.step_start rfl rfl rfl)).snoc (Naming.step_finish rfl)).snoc (Naming.step_create _)).snoc
      (Naming.step_start rfl rfl rfl)).snoc (Naming.step_finish rfl)
  · exact fun h => absurd (h.unique 0 (by decide) 1 (by decide) (by decide)) (by decide)
  · exact ((((((Run.nil (M := bindSystem) Naming.init).snoc (Naming.step_create _)).snoc (Naming.step_create _)).snoc
      (Naming.step_start rfl rfl rfl)).snoc (Naming.step_start rfl rfl rfl)).snoc (Naming.step_finish rfl)).snoc
      (Naming.step_finish rfl)
  · exact fun h => absurd (h.unique 0 (by decide) 1 (by decide) (by decide)) (by decide)

end OpenXJ380.Unix
