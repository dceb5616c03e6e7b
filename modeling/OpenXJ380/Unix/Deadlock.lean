import OpenXJ380.Unix.LockSteps

/-! # Threads that wait for each other's sockets -/

namespace OpenXJ380.Unix

open Transition

section

variable {w w' : Locked} {t : ThreadId} {s : State}

theorem Ordered.allocate (h : Ordered w) (hSound : Sound s w.pc) (hNext : w.next ≤ s.next)
    (hFrame : ∀ i < w.next, s.socks i = w.socks i) : Ordered { w with toState := s } where
  sound := hSound
  fits t := by
    refine (h.fits t).frame hNext fun i hi => ?_
    rw [hFrame i (h.less hi)]
    exact ⟨id, rfl⟩
  __ := h
  bounded x hx := h.bounded x (hNext.trans hx)

theorem Sound.create {pc : ThreadId → Pc} (h : Sound s pc) (type : SockType) : Sound (unixCreate type s).1 pc := by
  have hSocks : ∀ j, (unixCreate type s).1.socks j = if j = s.next then unixSockInit type else s.socks j :=
    fun j => s.alloc_socks j _
  have hNext : (unixCreate type s).1.next = s.next + 1 := rfl
  have hNs : (unixCreate type s).1.ns = s.ns := rfl
  revert hSocks hNext hNs
  generalize (unixCreate type s).1 = s'
  intro hSocks hNext hNs
  have hInit : (unixSockInit type).peer = none ∧ (unixSockInit type).connQueue = none := ⟨rfl, rfl⟩
  have hFresh := h.fresh s.next le_rfl
  refine ⟨?_, ?_, ?_, ?_, ?_⟩
  · intro i hi
    have hNot : s.next + 1 ≤ i := hNext ▸ hi
    have hOld := h.fresh i (Nat.le_of_succ_le hNot)
    grind
  · exact fun i hi => hNext ▸ Nat.lt_succ_of_lt (h.names i (hNs ▸ hi))
  · intro l q c hq hc
    have hOld := h.queues l q c
    rw [hNext]
    grind
  · intro i p hp
    have hOld := h.peers i p
    grind
  · intro i hi
    have hOld := h.apart i
    grind

theorem unixSocketpair_socks (s : State) (type : SockType) (j : SockId) :
    ((unixSocketpair type s).1).socks j =
      if j = s.next then { unixSockInit type with state := .connected, peer := some (s.next + 1), refcount := 2 }
      else if j = s.next + 1 then { unixSockInit type with state := .connected, peer := some s.next, refcount := 2 }
      else s.socks j := by
  change (retain s.next (retain (s.next + 1) (((((s.alloc (unixSockInit type)).alloc (unixSockInit type))).set s.next
    fun k => { k with state := .connected, peer := some (s.next + 1) }).set (s.next + 1) fun k =>
    { k with state := .connected, peer := some s.next }))).socks j = _
  simp only [retain, State.set_socks, State.alloc_socks, State.alloc_next]
  grind [unixSockInit]

theorem Sound.socketpair {pc : ThreadId → Pc} (h : Sound s pc) (type : SockType) :
    Sound (unixSocketpair type s).1 pc := by
  have hPair := unixSocketpair_socks s type
  have hNext : (unixSocketpair type s).1.next = s.next + 1 + 1 := rfl
  have hNs : (unixSocketpair type s).1.ns = s.ns := rfl
  revert hPair hNext hNs
  generalize (unixSocketpair type s).1 = s'
  intro hPair hNext hNs
  have hInit : (unixSockInit type).connQueue = none := rfl
  have hFresh := h.fresh s.next le_rfl
  have hFresh' := h.fresh (s.next + 1) (Nat.le_succ _)
  refine ⟨?_, ?_, ?_, ?_, ?_⟩
  · intro i hi
    have hNot : s.next + 1 + 1 ≤ i := hNext ▸ hi
    have hOld := h.fresh i (Nat.le_of_succ_le (Nat.le_of_succ_le hNot))
    grind
  · exact fun i hi => hNext ▸ Nat.lt_succ_of_lt (Nat.lt_succ_of_lt (h.names i (hNs ▸ hi)))
  · intro l q c hq hc
    have hOld := h.queues l q c
    rw [hNext]
    grind
  · intro i p hp
    have hOld := h.peers i p
    grind
  · intro i hi
    have hOld := h.apart i
    grind

theorem Ordered.call (h : Ordered w) {op : Op} {sk : SockId} (hIdle : w.pc t = .idle) (hKnown : sk < w.next) :
    Ordered { w with pc := Function.update w.pc t (.own op sk) } := by
  have hMoves : Moves w t w.toState (.own op sk) := by
    refine .plain h (.refl h.sound) ?_ trivial ?_ nofun
    · rw [hIdle]
      exact fun _ _ => id
    · rintro x hx
      cases hx
      exact hKnown
  refine h.moves (fun _ => Function.update_apply _ _ _ _) hMoves ?_ nofun
  intro x j
  split
  · next hj =>
    subst hj
    change w.owner (.sock x) = some j ↔ _
    rw [← h.mutex, hIdle]
    rfl
  · rfl

theorem Ordered.step {a : Act} (hStep : Acts w a w') (hUnhindered : Unhindered w a) (h : Ordered w) : Ordered w' := by
  cases hStep with
  | create type =>
    refine h.allocate (h.sound.create type) (Nat.le_succ _) fun i hi => ?_
    exact (w.alloc_socks i _).trans (if_neg hi.ne)
  | socketpair type =>
    refine h.allocate (h.sound.socketpair type) (Nat.le_succ_of_le (Nat.le_succ _)) fun i hi => ?_
    rw [unixSocketpair_socks, if_neg hi.ne, if_neg (Nat.lt_succ_of_lt hi).ne]
  | call hIdle hEnters hKnown => exact h.call hIdle hKnown
  | @lock t l hWaits hFree =>
    refine h.lock hWaits hFree ?_
    cases hPc : w.pc t with
    | own op sk =>
      rw [hPc] at hWaits
      cases hWaits
      simp only [Unhindered, hPc] at hUnhindered
      exact .own h hPc hFree hUnhindered
    | name op sk =>
      simp only [Unhindered, hPc] at hUnhindered
      exact .name h hPc hUnhindered
    | second op sk other =>
      rw [hPc] at hWaits
      cases hWaits
      exact .second h hPc hFree
    | enter op sk => exact .enter h hPc
    | _ =>
      rw [hPc] at hWaits
      cases hWaits
  | @unlock t l hGives =>
    refine h.unlock hGives ?_
    cases hPc : w.pc t with
    | named op sk found => exact .named h hPc
    | both op sk other => exact .both h hPc
    | refused op sk listener =>
      refine .still h (.release h.sound listener) ?_ trivial
      rw [hPc]
      exact fun _ _ => id
    | entered op sk =>
      refine .still h (.refl h.sound) ?_ trivial
      rw [hPc]
      exact fun _ _ => id
    | again sk =>
      refine .plain h (.refl h.sound) ?_ trivial ?_ nofun
      · rw [hPc]
        exact fun _ _ => id
      · intro x hx
        cases hx
        refine Ordered.less (t := t) h ?_
        rw [hPc]
        exact List.mem_cons_self
    | last op sk => exact .last h hPc
    | _ =>
      rw [hPc] at hGives
      cases hGives

theorem Ordered.init : Ordered Locked.init where
  sound := ⟨fun _ _ => ⟨rfl, fun _ => nofun⟩, nofun, nofun, nofun, fun _ _ => ⟨rfl, fun _ => nofun⟩⟩
  fits _ := Pc.Still.fits trivial
  mutex _ _ := ⟨nofun, nofun⟩
  bounded _ _ := rfl
  uncrossed _ _ _ _ hReaches := hReaches.elim
  met _ _ _ _ hSeeks := hSeeks.elim

theorem Ordered.of_run {acts : List Act} (hRun : Run (lockSystem.restrict Unhindered) Locked.init acts w) : Ordered w :=
  hRun.invariant (fun _ _ _ hOrdered hStep => hOrdered.step hStep.2 hStep.1) Ordered.init

theorem Pc.second_of_waits {c : Pc} {x y : SockId} (hHolds : .sock x ∈ c.holds) (hWaits : c.waits = some (.sock y)) :
    ∃ op, c = .second op x y := by
  cases c <;> cases hWaits
  case own => cases hHolds
  case second op sk =>
    cases List.mem_singleton.mp hHolds
    exact ⟨op, rfl⟩

theorem Ordered.apart (h : Ordered w) {t' : ThreadId} {op op' : Op} {x y : SockId} (hPc : w.pc t = .second op x y)
    (hPc' : w.pc t' = .second op' y x) : False := by
  have hFits := h.fits t
  have hFits' := h.fits t'
  rw [hPc] at hFits
  rw [hPc'] at hFits'
  have hReaches : op.toPeer → (w.pc t).Reaches x y := fun hOp => hPc ▸ ⟨hOp, rfl, rfl⟩
  have hReaches' : op'.toPeer → (w.pc t').Reaches y x := fun hOp => hPc' ▸ ⟨hOp, rfl, rfl⟩
  have hSeeks : op.connects → (w.pc t).Seeks x y := fun hOp => hPc ▸ ⟨hOp, rfl, rfl⟩
  have hSeeks' : op'.connects → (w.pc t').Seeks y x := fun hOp => hPc' ▸ ⟨hOp, rfl, rfl⟩
  obtain hOp | hOp := hFits.kind op x y rfl <;> obtain hOp' | hOp' := hFits'.kind op' y x rfl
  · exact h.uncrossed t t' x y (hReaches hOp) (hReaches' hOp')
  -- What is on its way from a socket to its peer does not meet a connect, for which that peer is not connected.
  · exact (h.sound.apart y (hFits'.connecting y ⟨hOp', rfl⟩)).2 x (hFits.reaching x y ⟨hOp, rfl, rfl⟩)
  · exact (h.sound.apart x (hFits.connecting x ⟨hOp, rfl⟩)).2 y (hFits'.reaching y x ⟨hOp', rfl, rfl⟩)
  · exact h.met t t' x y (hSeeks hOp) (hSeeks' hOp')

theorem Ordered.noDeadlock (h : Ordered w) : NoDeadlock w where
  own t l hWaits hMem := by
    cases hPc : w.pc t with
    | second op sk other =>
      rw [hPc] at hWaits hMem
      cases hWaits
      cases List.mem_singleton.mp hMem
      exact h.apart hPc hPc
    | own op sk =>
      rw [hPc] at hMem
      cases hMem
    | name op sk =>
      rw [hPc] at hWaits hMem
      cases hWaits
      cases List.mem_singleton.mp hMem
    | enter op sk =>
      rw [hPc] at hWaits hMem
      cases hWaits
      cases List.mem_singleton.mp hMem
    | _ =>
      rw [hPc] at hWaits
      cases hWaits
  crossed t t' x y hHolds hWaits hHolds' hWaits' := by
    obtain ⟨op, hPc⟩ := Pc.second_of_waits hHolds hWaits
    obtain ⟨op', hPc'⟩ := Pc.second_of_waits hHolds' hWaits'
    exact h.apart hPc hPc'

end

theorem locks_never_deadlock {acts : List Act} {w : Locked}
    (hRun : Run (lockSystem.restrict Unhindered) Locked.init acts w) : NoDeadlock w :=
  (Ordered.of_run hRun).noDeadlock

def ownPath : SockaddrUn := ⟨AF_UNIX, [97]⟩

def Locked.call (w : Locked) (t : ThreadId) (op : Op) (sk : SockId) : Locked :=
  { w with pc := Function.update w.pc t (.own op sk) }

theorem Locked.step_call {w : Locked} (t : ThreadId) (op : Op) (sk : SockId) (hIdle : w.pc t = .idle)
    (hEnters : op.enters) (hKnown : sk < w.next) : lockSystem.step w (.call t op sk) (w.call t op sk) :=
  Acts.call hIdle hEnters hKnown

/-- A bind takes its own lock, and then that of the namespace. -/
theorem locks_never_deadlock_bind :
    ∃ w, Run (lockSystem.restrict Unhindered) Locked.init
      [.create .stream, .call 0 (.bind ownPath 4) 0, .go 0, .go 0] w ∧ NoDeadlock w := by
  have hNone : ∀ w sk, (w.pc 0 = .own (.bind ownPath 4) sk ∨ w.pc 0 = .enter (.bind ownPath 4) sk) →
      Unhindered w (.go 0) := by
    rintro w sk (hPc | hPc) <;> simp only [Unhindered, hPc]
    exact nofun
  have hRun := (Run.nil (M := lockSystem.restrict Unhindered) Locked.init).snoc
    (l := Act.create .stream) ⟨trivial, Acts.create .stream⟩
  have hRun := hRun.snoc (l := Act.call 0 (.bind ownPath 4) 0)
    ⟨trivial, Locked.step_call 0 (.bind ownPath 4) 0 rfl rfl (by decide)⟩
  have hRun := hRun.snoc ⟨hNone _ 0 (.inl rfl), Acts.lock (t := 0) (l := .sock 0) rfl rfl⟩
  have hRun := hRun.snoc ⟨hNone _ 0 (.inr rfl), Acts.lock (t := 0) (l := .ns) rfl rfl⟩
  exact ⟨_, hRun, locks_never_deadlock hRun⟩

/-- A connect to the path that its socket is bound to, and two polls of a pair. -/
theorem locks_deadlock :
    (∃ w, Run lockSystem Locked.init [.create .stream, .call 0 (.bind ownPath 4) 0, .go 0, .go 0, .go 0, .go 0,
      .call 0 (.connect ownPath 4) 0, .go 0, .go 0, .go 0] w ∧
      (w.pc 0).waits = some (.sock 0) ∧ .sock 0 ∈ (w.pc 0).holds ∧ ¬ NoDeadlock w) ∧
    ∃ w, Run lockSystem Locked.init [.socketpair .stream, .call 0 .poll 0, .call 1 .poll 1, .go 0, .go 1] w ∧
      .sock 0 ∈ (w.pc 0).holds ∧ (w.pc 0).waits = some (.sock 1) ∧
      .sock 1 ∈ (w.pc 1).holds ∧ (w.pc 1).waits = some (.sock 0) ∧ ¬ NoDeadlock w := by
  constructor
  · have hRun := (Run.nil (M := lockSystem) Locked.init).snoc (Acts.create .stream)
    have hRun := hRun.snoc (Locked.step_call 0 (.bind ownPath 4) 0 rfl rfl (by decide))
    have hRun := hRun.snoc (.lock (t := 0) (l := .sock 0) rfl rfl)
    have hRun := hRun.snoc (.lock (t := 0) (l := .ns) rfl rfl)
    have hRun := hRun.snoc (.unlock (t := 0) (l := .ns) rfl)
    have hRun := hRun.snoc (Acts.unlock (t := 0) (l := .sock 0) rfl)
    have hRun := hRun.snoc (Locked.step_call 0 (.connect ownPath 4) 0 rfl rfl (by decide))
    have hRun := hRun.snoc (Acts.lock (t := 0) (l := .sock 0) rfl rfl)
    have hRun := hRun.snoc (.lock (t := 0) (l := .ns) rfl rfl)
    have hRun := hRun.snoc (.unlock (t := 0) (l := .ns) rfl)
    refine ⟨_, hRun, rfl, .head _, fun h => h.own 0 (.sock 0) rfl (.head _)⟩
  · have hRun := (Run.nil (M := lockSystem) Locked.init).snoc (Acts.socketpair .stream)
    have hRun := hRun.snoc (Locked.step_call 0 .poll 0 rfl rfl (by decide))
    have hRun := hRun.snoc (Locked.step_call 1 .poll 1 rfl rfl (by decide))
    have hRun := hRun.snoc (Acts.lock (t := 0) (l := .sock 0) rfl rfl)
    have hRun := hRun.snoc (.lock (t := 1) (l := .sock 1) rfl rfl)
    exact ⟨_, hRun, .head _, rfl, .head _, rfl,
      fun h => h.crossed 0 1 0 1 List.mem_cons_self rfl List.mem_cons_self rfl⟩

end OpenXJ380.Unix
