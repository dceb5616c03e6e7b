import OpenXJ380.Unix.Locking

/-! # One lock operation after another -/

namespace OpenXJ380.Unix

open Function

open Transition

structure Alike (s s' : State) : Prop where
  next : s'.next = s.next
  ns : ∀ i ∈ s'.ns, i < s.next
  queues : ∀ l q c, (s'.socks l).connQueue = some q → c ∈ q → c < s.next
  connected : ∀ i, (s'.socks i).state = .connected ↔ (s.socks i).state = .connected
  peer : ∀ i, (s'.socks i).peer = (s.socks i).peer

def Pc.Plain : Pc → Prop
  | .name _ _ => False
  | .named _ _ _ => False
  | .second _ _ _ => False
  | .both _ _ _ => False
  | _ => True

def Pc.Still : Pc → Prop
  | .idle => True
  | .enter _ _ => True
  | .entered _ _ => True
  | .again _ => True
  | .last _ _ => True
  | _ => False

variable {w : Locked} {t : ThreadId} {c : Pc} {s s' : State} {pc pc' : ThreadId → Pc} {sk : SockId} {op : Op}

theorem Sound.alike (h : Sound s pc) (a : Alike s s')
    (hClears : ∀ i p, (∃ t, (pc t).Clears i p) → ∃ t, (pc' t).Clears i p) : Sound s' pc' where
  fresh i hi := by
    obtain ⟨hPeer, hNobody⟩ := h.fresh i (a.next ▸ hi)
    exact ⟨(a.peer i).trans hPeer, fun j => a.peer j ▸ hNobody j⟩
  names i hi := a.next ▸ a.ns i hi
  queues l q c hq hc := a.next ▸ a.queues l q c hq hc
  peers i p hp := by
    rw [a.peer] at hp ⊢
    obtain ⟨hNe, hBack⟩ := h.peers i p hp
    exact ⟨hNe, hBack.imp_right (hClears i p)⟩
  apart i hi := by
    obtain ⟨hPeer, hNobody⟩ := h.apart i fun hc => hi ((a.connected i).mpr hc)
    exact ⟨(a.peer i).trans hPeer, fun j => a.peer j ▸ hNobody j⟩

theorem clears_update {i p : SockId} (hOld : ¬ (w.pc t).Clears i p) (h : ∃ j, (w.pc j).Clears i p) :
    ∃ j, (update w.pc t c j).Clears i p := by
  obtain ⟨j, hj⟩ := h
  have hNe : j ≠ t := by
    rintro rfl
    exact hOld hj
  exact ⟨j, (update_of_ne hNe c w.pc).symm ▸ hj⟩

theorem Moves.alike (h : Ordered w) (a : Alike w.toState s) (hOld : ∀ i p, ¬ (w.pc t).Clears i p) (hFits : c.Fits s)
    (hUncrossed : ∀ x y, c.Reaches x y → x ≠ y ∧ ∀ j, j ≠ t → ¬ (w.pc j).Reaches y x)
    (hMet : ∀ x y, c.Seeks x y → x ≠ y ∧ ∀ j, j ≠ t → ¬ (w.pc j).Seeks y x) : Moves w t s c where
  next := a.next.symm.le
  frame i _ _ _ := ⟨(a.connected i).mp, a.peer i⟩
  sound := h.sound.alike a fun i p => clears_update (hOld i p)
  fits := hFits
  uncrossed := hUncrossed
  met := hMet

theorem Pc.Plain.not_seeks (h : c.Plain) (x y : SockId) : ¬ c.Seeks x y := by
  cases c <;> first | exact id | exact h.elim

theorem Pc.Plain.not_reaches (h : c.Plain) (x y : SockId) : ¬ c.Reaches x y := by
  cases c <;> first | exact id | exact h.elim

theorem Pc.Plain.not_clears (h : c.Plain) (x y : SockId) : ¬ c.Clears x y := by
  cases c <;> first | exact id | exact h.elim

theorem Pc.Plain.not_connecting (h : c.Plain) (x : SockId) : ¬ c.Connecting x := by
  cases c <;> first | exact id | exact h.elim

theorem Pc.Plain.fits (h : c.Plain) (hWanted : ∀ x, c.waits = some (.sock x) → x < s.next)
    (hDistinct : ∀ x y, c.holds = [.sock x, .sock y] → x ≠ y) : c.Fits s where
  wanted := hWanted
  found x y hx := absurd hx (h.not_seeks x y)
  connecting x hx := absurd hx (h.not_connecting x)
  reaching x y hx := absurd hx (h.not_reaches x y)
  clearing x y hx := absurd hx (h.not_clears x y)
  distinct := hDistinct
  kind op x y hc := by
    rw [hc] at h
    exact h.elim

theorem Moves.plain (h : Ordered w) (a : Alike w.toState s) (hOld : ∀ i p, ¬ (w.pc t).Clears i p) (hPlain : c.Plain)
    (hWanted : ∀ x, c.waits = some (.sock x) → x < s.next) (hDistinct : ∀ x y, c.holds = [.sock x, .sock y] → x ≠ y) :
    Moves w t s c :=
  .alike h a hOld (hPlain.fits hWanted hDistinct) (fun x y hx => absurd hx (hPlain.not_reaches x y))
    fun x y hx => absurd hx (hPlain.not_seeks x y)

theorem Pc.Still.plain (h : c.Still) : c.Plain := by
  cases c <;> first | exact trivial | exact h.elim

theorem Pc.Still.fits (h : c.Still) : c.Fits s := by
  refine h.plain.fits ?_ ?_
  · cases c <;> first | exact h.elim | exact nofun
  · cases c <;> first | exact h.elim | exact nofun

theorem Moves.still (h : Ordered w) (a : Alike w.toState s) (hOld : ∀ i p, ¬ (w.pc t).Clears i p) (hc : c.Still) :
    Moves w t s c :=
  .alike h a hOld hc.fits (fun x y hx => absurd hx (hc.plain.not_reaches x y))
    fun x y hx => absurd hx (hc.plain.not_seeks x y)

theorem Alike.refl (h : Sound s pc) : Alike s s := ⟨rfl, h.names, h.queues, fun _ => Iff.rfl, fun _ => rfl⟩

theorem Alike.set (h : Sound s pc) {f : Sock → Sock}
    (hState : (f (s.socks sk)).state = .connected ↔ (s.socks sk).state = .connected)
    (hPeer : (f (s.socks sk)).peer = (s.socks sk).peer)
    (hQueue : ∀ q c, (f (s.socks sk)).connQueue = some q → c ∈ q → c < s.next) : Alike s (s.set sk f) := by
  refine ⟨rfl, h.names, ?_, ?_, ?_⟩
  · intro l q c
    rw [State.set_socks]
    split
    · exact hQueue q c
    · exact h.queues l q c
  · intro i
    rw [State.set_socks]
    split
    · next hi => exact hi ▸ hState
    · rfl
  · intro i
    rw [State.set_socks]
    split
    · next hi => exact hi ▸ hPeer
    · rfl

theorem Alike.trans {s'' : State} (a : Alike s s') (b : Alike s' s'') : Alike s s'' where
  next := b.next.trans a.next
  ns i hi := a.next ▸ b.ns i hi
  queues l q c hq hc := a.next ▸ b.queues l q c hq hc
  connected i := (b.connected i).trans (a.connected i)
  peer i := (b.peer i).trans (a.peer i)

section

variable (h : Sound s pc)

include h

theorem Alike.assign (addr : SockaddrUn) (addrlen : Nat) (hState : (s.socks sk).state ≠ .connected) :
    Alike s (Unix.assign sk addr addrlen s) :=
  .set h ⟨nofun, (absurd · hState)⟩ rfl (h.queues sk)

theorem Alike.listen (sk : SockId) : Alike s (unixListen sk s).1 := by
  rw [unixListen]
  split
  · exact .refl h
  split
  · exact .refl h
  next hBound =>
  have hNot : (s.socks sk).state ≠ .connected := by
    rw [not_not.mp hBound]
    exact nofun
  refine .set (f := fun k => { k with state := .listening, connQueue := some (k.connQueue.getD []) }) h
    ⟨nofun, (absurd · hNot)⟩ rfl ?_
  intro q c hq hc
  cases hOld : (s.socks sk).connQueue with
  | none =>
    simp only [hOld, Option.getD_none, Option.some.injEq] at hq
    rw [← hq] at hc
    cases hc
  | some q' =>
    simp only [hOld, Option.getD_some, Option.some.injEq] at hq
    exact h.queues sk q' c hOld (hq ▸ hc)

theorem Alike.accept {ret : Int × Option SockId} (hReturns : unixAccept sk s = some (s', ret)) :
    Alike s s' := by
  rw [unixAccept] at hReturns
  split at hReturns
  · cases hReturns
    exact .refl h
  split at hReturns
  · cases hReturns
    exact .refl h
  · cases hReturns
  next c rest hQueue =>
  cases hReturns
  refine .set h Iff.rfl rfl ?_
  rintro q d hq hd
  cases hq
  exact h.queues sk _ d hQueue (.tail _ hd)

theorem Alike.mark (sk : SockId) : Alike s (s.set sk fun k => { k with closed := true }) :=
  .set h Iff.rfl rfl (h.queues sk)

theorem Alike.retain (sk : SockId) : Alike s (Unix.retain sk s) := .set h Iff.rfl rfl (h.queues sk)

theorem Alike.release (sk : SockId) : Alike s (Unix.release sk s) := .set h Iff.rfl rfl (h.queues sk)

theorem Sound.clear {f : Sock → Sock} (hPeer : (f (s.socks sk)).peer = none)
    (hQueue : (f (s.socks sk)).connQueue = (s.socks sk).connQueue) (hNobody : ∀ i, i ≠ sk → (s.socks i).peer ≠ some sk)
    (hClears : ∀ i p, i ≠ sk → (∃ t, (pc t).Clears i p) → ∃ t, (pc' t).Clears i p) : Sound (s.set sk f) pc' := by
  have hSocks : ∀ j, ((s.set sk f).socks j).peer = if j = sk then none else (s.socks j).peer := by
    intro j
    rw [State.set_socks]
    split
    · exact hPeer
    · rfl
  have hQueues : ∀ j, ((s.set sk f).socks j).connQueue = (s.socks j).connQueue := by
    intro j
    rw [State.set_socks]
    split
    · next hj => exact hj ▸ hQueue
    · rfl
  refine ⟨?_, h.names, ?_, ?_, ?_⟩
  · intro i hi
    obtain ⟨hNone, hNew⟩ := h.fresh i hi
    refine ⟨?_, fun j => ?_⟩
    · rw [hSocks]
      split
      · rfl
      · exact hNone
    · rw [hSocks]
      split
      · exact nofun
      · exact hNew j
  · intro l q c
    rw [hQueues]
    exact h.queues l q c
  · intro i p hp
    rw [hSocks] at hp ⊢
    split at hp
    · cases hp
    next hi =>
    obtain ⟨hNe, hBack⟩ := h.peers i p hp
    rw [if_neg fun hSame : p = sk => hNobody i hi (hSame ▸ hp)]
    exact ⟨hNe, hBack.imp_right (hClears i p hi)⟩
  · intro i hi
    simp only [hSocks]
    rw [State.set_socks] at hi
    grind [h.apart]

end

theorem leave_still (nsMade : Bool) (sk : SockId) (s : State) :
    (leave nsMade sk s).1 = s ∧ (leave nsMade sk s).2.Still := by
  rw [leave]
  split <;> exact ⟨rfl, trivial⟩

variable (h : Ordered w)

include h

theorem Moves.toPeer (hPc : w.pc t = .own op sk) (a : Alike w.toState s) {p : SockId}
    (hOp : op.toPeer) (hPeer : (w.socks sk).peer = some p)
    (hUnhindered : ∀ j, ¬ (w.pc j).Reaches p sk) : Moves w t s (.second op sk p) := by
  have hSame : (s.socks sk).peer = some p := (a.peer sk).trans hPeer
  have hLess : p < w.next := by
    refine not_le.mp fun hLe => ?_
    exact (h.sound.fresh p hLe).2 sk hPeer
  have hConnects : op.connects = false := by
    cases op <;> first | rfl | cases hOp
  refine .alike h a ?_ ?_ ?_ ?_
  · rw [hPc]
    exact fun _ _ => id
  · refine ⟨?_, ?_, ?_, ?_, ?_, ?_, ?_⟩
    · intro x hx
      cases hx
      exact a.next.symm ▸ hLess
    · rintro x y ⟨hc, -⟩
      exact nomatch hConnects.symm.trans hc
    · rintro x ⟨hc, -⟩
      exact nomatch hConnects.symm.trans hc
    · rintro x y ⟨-, rfl, rfl⟩
      exact hSame
    · exact fun _ _ => False.elim
    · exact nofun
    · intro op' x y hc
      cases hc
      exact .inl hOp
  · rintro x y ⟨-, rfl, rfl⟩
    exact ⟨((h.sound.peers sk p hPeer).1).symm, fun j _ => hUnhindered j⟩
  · rintro x y ⟨hc, -⟩
    exact nomatch hConnects.symm.trans hc

theorem Ordered.nobody (hFree : ∀ j, w.owner (.sock sk) = some j → ∀ i, ¬ (w.pc j).Clears i sk)
    (hPeer : (w.socks sk).peer = none) (i : SockId) : (w.socks i).peer ≠ some sk := by
  intro hi
  obtain ⟨-, hBack | ⟨j, hj⟩⟩ := h.sound.peers i sk hi
  · exact nomatch hPeer.symm.trans hBack
  · have hMem : .sock sk ∈ (w.pc j).holds := hj.holds ▸ .tail _ (.head _)
    exact hFree j ((h.mutex j sk).mp hMem) i hj

theorem Moves.becomeConnected (hOld : ∀ i p, ¬ (w.pc t).Clears i p)
    (hFree : w.owner (.sock sk) = none) (a : Alike w.toState s) (hc : c.Still) :
    Moves w t (s.set sk fun k => { k with state := .connected }) c := by
  have hSound := h.sound.alike a fun i p => @clears_update w t c i p (hOld i p)
  have hPeer : ∀ i, ((s.set sk fun k => { k with state := .connected }).socks i).peer = (s.socks i).peer := by
    intro i
    rw [State.set_socks]
    split
    · next hi => rw [hi]
    · rfl
  refine ⟨a.next.symm.le, ?_, ⟨?_, hSound.names, ?_, ?_, ?_⟩, hc.fits,
    fun x y hx => absurd hx (hc.plain.not_reaches x y), fun x y hx => absurd hx (hc.plain.not_seeks x y)⟩
  · intro i j _ hj
    have hi : i ≠ sk := by
      rintro rfl
      exact nomatch hFree.symm.trans hj
    rw [State.set_socks, if_neg hi]
    exact ⟨(a.connected i).mp, a.peer i⟩
  · intro i hi
    simp only [hPeer]
    exact hSound.fresh i hi
  · intro l q c
    have hQueue : ((s.set sk fun k => { k with state := .connected }).socks l).connQueue = (s.socks l).connQueue := by
      rw [State.set_socks]
      split
      · next hi => rw [hi]
      · rfl
    rw [hQueue]
    exact hSound.queues l q c
  · intro i p
    simp only [hPeer]
    exact hSound.peers i p
  · intro i hi
    simp only [hPeer]
    refine hSound.apart i fun hc => hi ?_
    rw [State.set_socks]
    split
    · rfl
    · exact hc

theorem Moves.own (hPc : w.pc t = .own op sk) (hFree : w.owner (.sock sk) = none)
    (hUnhindered : op.toPeer → ∀ p, (w.socks sk).peer = some p → ∀ j, ¬ (w.pc j).Reaches p sk) :
    Moves w t (ownSection w.nsMade op sk w.toState).1 (ownSection w.nsMade op sk w.toState).2 := by
  have hOld : ∀ i p, ¬ (w.pc t).Clears i p := by
    rw [hPc]
    exact fun _ _ => id
  have hRefl : Alike w.toState w.toState := .refl h.sound
  cases op with
  | bind addr addrlen =>
    simp only [ownSection]
    split_ifs with hState hPath hMade
    · exact .still h hRefl hOld trivial
    · refine .alike h hRefl hOld ⟨by rintro _ ⟨⟩, fun _ _ => False.elim, ?_, fun _ _ => False.elim, fun _ _ => False.elim,
        by rintro _ _ ⟨⟩, by rintro _ _ _ ⟨⟩⟩ (fun _ _ => False.elim) fun _ _ => False.elim
      rintro x (rfl : sk = x) hConnected
      rw [hConnected] at hState
      exact hState (by rintro ⟨⟩)
    · exact .still h (.assign h.sound addr addrlen (by rw [not_not.mp hState]; rintro ⟨⟩)) hOld trivial
    · exact .still h (.assign h.sound addr addrlen (by rw [not_not.mp hState]; rintro ⟨⟩)) hOld trivial
  | listen => exact .still h (.listen h.sound sk) hOld trivial
  | connect addr addrlen =>
    simp only [ownSection]
    have hAddr : Alike w.toState (w.set sk fun k => { k with peerAddr := k.peerAddr || addrlen > 0 }) :=
      .set h.sound Iff.rfl rfl (h.sound.queues sk)
    split_ifs with hState hType hPath
    · exact .still h hRefl hOld trivial
    · exact .becomeConnected h hOld hFree hAddr trivial
    · refine .alike h hAddr hOld ⟨by rintro _ ⟨⟩, fun _ _ => False.elim, ?_, fun _ _ => False.elim, fun _ _ => False.elim,
        by rintro _ _ ⟨⟩, by rintro _ _ _ ⟨⟩⟩ (fun _ _ => False.elim) fun _ _ => False.elim
      rintro x (rfl : sk = x) hConnected
      rw [hAddr.connected] at hConnected
      rw [hConnected] at hState
      exact hState ⟨by rintro ⟨⟩, by rintro ⟨⟩⟩
    · exact .still h hAddr hOld trivial
  | accept =>
    simp only [ownSection]
    split
    · exact .still h hRefl hOld trivial
    · next s ret hReturns => exact .still h (.accept h.sound hReturns) hOld trivial
  | poll =>
    simp only [ownSection]
    split
    · next p hPeer => exact .toPeer h hPc hRefl rfl hPeer (hUnhindered rfl p hPeer)
    · exact .still h hRefl hOld trivial
  | close =>
    have hMark := Alike.mark h.sound sk
    simp only [ownSection]
    split
    · next p hPeer =>
      rw [hMark.peer] at hPeer
      exact .toPeer h hPc hMark rfl hPeer (hUnhindered rfl p hPeer)
    · rw [(leave_still _ _ _).1]
      exact .still h hMark hOld (leave_still _ _ _).2
  | dispose owners =>
    simp only [ownSection]
    split
    · next p hPeer => exact .toPeer h hPc hRefl rfl hPeer (hUnhindered rfl p hPeer)
    next hPeer =>
    have hNobody := h.nobody (fun j hj => by cases hFree.symm.trans hj) hPeer
    refine ⟨le_rfl, ?_, ?_, Pc.Still.fits trivial, fun _ _ => False.elim, fun _ _ => False.elim⟩
    · intro i j _ hj
      have hi : i ≠ sk := by
        rintro rfl
        cases hFree.symm.trans hj
      rw [forget, State.set_socks, if_neg hi]
      exact ⟨id, rfl⟩
    · exact h.sound.clear (f := fun k => { k with peer := none, state := .free }) rfl rfl (fun i _ => hNobody i)
        fun i p _ => clears_update (hOld i p)

theorem Moves.name (hPc : w.pc t = .name op sk)
    (hUnhindered : op.connects → ∀ l, nsFind w.toState op.path = some l →
      l ≠ sk ∧ ∀ j, ¬ (w.pc j).Seeks l sk) :
    Moves w t (nameSection op sk w.toState).1 (nameSection op sk w.toState).2 := by
  have hFits := h.fits t
  rw [hPc] at hFits
  have hOld : ∀ i p, ¬ (w.pc t).Clears i p := by
    rw [hPc]
    exact fun _ _ => id
  rw [nameSection]
  split
  · next found hFind =>
    have hRetain := Alike.retain h.sound found
    refine .alike h hRetain hOld ⟨by rintro _ ⟨⟩, ?_, ?_, fun _ _ => False.elim, fun _ _ => False.elim,
      by rintro _ _ ⟨⟩, by rintro _ _ _ ⟨⟩⟩ (fun _ _ => False.elim) ?_
    · rintro x y ⟨-, -, hFound⟩
      cases hFound
      exact h.sound.names found (nsFind_mem hFind)
    · rintro x (rfl : sk = x) hConnected
      exact hFits.connecting sk rfl ((hRetain.connected sk).mp hConnected)
    · rintro x y ⟨hConnects, rfl, hFound⟩
      cases hFound
      obtain ⟨hNe, hNobody⟩ := hUnhindered hConnects found hFind
      exact ⟨hNe.symm, fun j _ => hNobody j⟩
  · refine .alike h (.refl h.sound) hOld ⟨by rintro _ ⟨⟩, ?_, ?_, fun _ _ => False.elim, fun _ _ => False.elim,
      by rintro _ _ ⟨⟩, by rintro _ _ _ ⟨⟩⟩ (fun _ _ => False.elim) ?_
    · rintro x y ⟨-, -, hFound⟩
      cases hFound
    · rintro x (rfl : sk = x)
      exact hFits.connecting sk rfl
    · rintro x y ⟨-, -, hFound⟩
      cases hFound

theorem Moves.named {found : Option SockId} (hPc : w.pc t = .named op sk found) :
    Moves w t (namedSection op sk found w.toState).1 (namedSection op sk found w.toState).2 := by
  have hFits := h.fits t
  rw [hPc] at hFits
  have hOld : ∀ i p, ¬ (w.pc t).Clears i p := by
    rw [hPc]
    exact fun _ _ => id
  cases op with
  | bind addr addrlen =>
    cases found with
    | some existing => exact .still h (.release h.sound existing) hOld trivial
    | none => exact .still h (.assign h.sound addr addrlen (hFits.connecting sk rfl)) hOld trivial
  | connect addr addrlen =>
    cases found with
    | some listener =>
      refine .alike h (.refl h.sound) hOld ⟨?_, ?_, ?_, ?_, fun _ _ => False.elim, nofun, ?_⟩ ?_ ?_
      · rintro x hx
        cases hx
        exact hFits.found sk listener ⟨rfl, rfl, rfl⟩
      · rintro x y ⟨-, rfl, rfl⟩
        exact hFits.found sk listener ⟨rfl, rfl, rfl⟩
      · rintro x ⟨-, rfl⟩
        exact hFits.connecting sk rfl
      · rintro x y ⟨hPeer, -⟩
        cases hPeer
      · rintro op x y hc
        cases hc
        exact .inr rfl
      · rintro x y ⟨hPeer, -⟩
        cases hPeer
      · rintro x y ⟨-, rfl, rfl⟩
        have hSeeks : (w.pc t).Seeks sk listener := by
          rw [hPc]
          exact ⟨rfl, rfl, rfl⟩
        refine ⟨?_, fun j _ => h.met t j sk listener hSeeks⟩
        rintro rfl
        exact h.met t t sk sk hSeeks hSeeks
    | none => exact .still h (.refl h.sound) hOld trivial
  | _ => cases found <;> exact .still h (.refl h.sound) hOld trivial

theorem Sound.clearPeer {other : SockId} (hPc : w.pc t = .second op sk other) (hOp : op.toPeer)
    (hClears : op.clears) (hFree : w.owner (.sock other) = none) :
    Sound (w.set other fun k => { k with closed := true, peer := none })
      (update w.pc t (.both op sk other)) := by
  have hFits := h.fits t
  rw [hPc] at hFits
  have hPeer : (w.socks sk).peer = some other := hFits.reaching sk other ⟨hOp, rfl, rfl⟩
  have hNew : (update w.pc t (.both op sk other) t).Clears sk other := by
    rw [update_self]
    exact ⟨hClears, rfl, rfl⟩
  have hOthers : ∀ i p, (∃ j, (w.pc j).Clears i p) → ∃ j, (update w.pc t (.both op sk other) j).Clears i p :=
    fun i p => clears_update (by rw [hPc]; exact id)
  have hUnlocked : ∀ i, ¬ ∃ j, (w.pc j).Clears i other := by
    rintro i ⟨j, hj⟩
    have hMem : .sock other ∈ (w.pc j).holds := hj.holds ▸ .tail _ (.head _)
    exact nomatch hFree.symm.trans ((h.mutex j other).mp hMem)
  have hSocks : ∀ j, ((w.set other fun k => { k with closed := true, peer := none }).socks j).peer =
      if j = other then none else (w.socks j).peer := by
    intro j
    rw [State.set_socks]
    split <;> rfl
  have hSame : ∀ j, ((w.set other fun k => { k with closed := true, peer := none }).socks j).connQueue =
      (w.socks j).connQueue ∧ ((w.set other fun k => { k with closed := true, peer := none }).socks j).state =
      (w.socks j).state := by
    intro j
    rw [State.set_socks]
    split
    · next hj => exact hj ▸ ⟨rfl, rfl⟩
    · exact ⟨rfl, rfl⟩
  have hBack : ∀ i, (w.socks i).peer = some other → (w.socks other).peer = some i :=
    fun i hi => (h.sound.peers i other hi).2.resolve_right (hUnlocked i)
  refine ⟨?_, h.sound.names, ?_, ?_, ?_⟩
  · intro i hi
    obtain ⟨hNone, hNew'⟩ := h.sound.fresh i hi
    simp only [hSocks]
    grind
  · intro l q c
    rw [(hSame l).1]
    exact h.sound.queues l q c
  · intro i p hp
    rw [hSocks] at hp ⊢
    split at hp
    · cases hp
    obtain ⟨hNe, hOld⟩ := h.sound.peers i p hp
    refine ⟨hNe, ?_⟩
    split
    · next hOther =>
      subst hOther
      -- Only `sk` has this peer, and it is `sk` that is cleared next.
      cases (hBack i hp).symm.trans (hBack sk hPeer)
      exact .inr ⟨t, hNew⟩
    · exact hOld.imp_right (hOthers i p)
  · intro i hi
    rw [(hSame i).2] at hi
    obtain ⟨hNone, hNobody⟩ := h.sound.apart i hi
    simp only [hSocks]
    grind

theorem Sound.connectTo {other : SockId} (hNe : sk ≠ other) (hSk : sk < w.next) (hLess : other < w.next)
    (hState : (w.socks sk).state ≠ .connected) (hOthers : ∀ i p, (∃ j, (w.pc j).Clears i p) → ∃ j, (pc j).Clears i p) :
    Sound (Unix.release other (Unix.connectTo sk other w.toState)) pc := by
  obtain ⟨-, hNobody⟩ := h.sound.apart sk hState
  have hSocks : ∀ j, (Unix.release other (Unix.connectTo sk other w.toState)).socks j =
      if j = other then { w.socks other with
        connQueue := (w.socks other).connQueue.map (· ++ [w.next]), refcount := (w.socks other).refcount - 1 }
      else if j = sk then { w.socks sk with state := .connected, peer := some w.next }
      else if j = w.next then { unixSockInit .stream with
        state := .connected, sunPath := (w.socks other).sunPath, peerAddr := true, peer := some sk }
      else w.socks j := by
    intro j
    simp only [Unix.release, Unix.connectTo, State.set_socks, State.alloc_socks]
    grind
  have hNext : (Unix.release other (Unix.connectTo sk other w.toState)).next = w.next + 1 := rfl
  have hNs : (Unix.release other (Unix.connectTo sk other w.toState)).ns = w.ns := rfl
  revert hSocks hNext hNs
  generalize Unix.release other (Unix.connectTo sk other w.toState) = s'
  intro hSocks hNext hNs
  have hInit : (unixSockInit .stream).connQueue = none := rfl
  have hFresh := h.sound.fresh w.next le_rfl
  refine ⟨?_, ?_, ?_, ?_, ?_⟩
  · intro i hi
    have hNot : w.next + 1 ≤ i := hNext ▸ hi
    have hOld := h.sound.fresh i (Nat.le_of_succ_le hNot)
    grind
  · intro i hi
    exact hNext ▸ Nat.lt_succ_of_lt (h.sound.names i (hNs ▸ hi))
  · intro l q c hq hc
    rw [hSocks] at hq
    split at hq
    · next hl =>
      cases hOld : (w.socks other).connQueue with
      | none =>
        rw [hOld] at hq
        cases hq
      | some q' =>
        rw [hOld] at hq
        cases hq
        obtain hc | hc := List.mem_append.mp hc
        · exact hNext ▸ Nat.lt_succ_of_lt (h.sound.queues other q' c hOld hc)
        · rw [List.mem_singleton.mp hc, hNext]
          exact Nat.lt_succ_self _
    · have hOld := h.sound.queues l q c
      grind
  · intro i p hp
    have hOld := h.sound.peers i p
    have hOther := hOthers i p
    have hNeNext : sk ≠ w.next := hSk.ne
    have hOtherNext : other ≠ w.next := hLess.ne
    have hUnnamed := hFresh.2 i
    have hUnconnected := hNobody i
    rw [hSocks] at hp
    split at hp
    · next hi =>
      subst hi
      obtain ⟨hNe', hBack⟩ := hOld hp
      refine ⟨hNe', hBack.imp (fun hBack => ?_) hOther⟩
      rw [hSocks]
      grind
    split at hp
    · next hi =>
      cases hp
      refine ⟨hi ▸ hNeNext.symm, .inl ?_⟩
      rw [hSocks, if_neg hOtherNext.symm, if_neg hNeNext.symm, if_pos rfl, hi]
    split at hp
    · next hi =>
      cases hp
      refine ⟨hi ▸ hNeNext, .inl ?_⟩
      rw [hSocks, if_neg hNe, if_pos rfl, hi]
    · obtain ⟨hNe', hBack⟩ := hOld hp
      refine ⟨hNe', hBack.imp (fun hBack => ?_) hOther⟩
      rw [hSocks]
      grind
  · intro i hi
    have hOld := h.sound.apart i
    grind

theorem Moves.second {other : SockId} (hPc : w.pc t = .second op sk other)
    (hFree : w.owner (.sock other) = none) :
    Moves w t (secondSection op sk other w.toState).1 (secondSection op sk other w.toState).2 := by
  have hFits := h.fits t
  rw [hPc] at hFits
  have hOld : ∀ i p, ¬ (w.pc t).Clears i p := by
    rw [hPc]
    exact fun _ _ => id
  have hNe : sk ≠ other := by
    rintro rfl
    have hMem : .sock sk ∈ (w.pc t).holds := by
      rw [hPc]
      exact List.mem_cons_self
    cases hFree.symm.trans ((h.mutex t sk).mp hMem)
  have hFrame : ∀ i j, j ≠ t → w.owner (.sock i) = some j → i ≠ sk ∧ i ≠ other ∧ i ≠ w.next := by
    intro i j hjt hj
    refine ⟨?_, ?_, ?_⟩
    · rintro rfl
      have hMem : .sock i ∈ (w.pc t).holds := by
        rw [hPc]
        exact List.mem_cons_self
      exact hjt (Option.some.inj (hj.symm.trans ((h.mutex t i).mp hMem)))
    · rintro rfl
      cases hFree.symm.trans hj
    · rintro rfl
      cases (h.bounded w.next (Nat.le_refl _)).symm.trans hj
  have hPlain : ∀ {s : State}, (op.clears → (s.socks sk).peer = some other ∧ (s.socks other).peer = none) →
      (Pc.both op sk other).Fits s := by
    intro s hClears
    refine ⟨by rintro _ ⟨⟩, fun _ _ => False.elim, fun _ => False.elim, fun _ _ => False.elim, ?_, ?_,
      by rintro _ _ _ ⟨⟩⟩
    · rintro x y ⟨hOp, rfl, rfl⟩
      exact hClears hOp
    · rintro x y hHolds
      cases hHolds
      exact hNe
  have hClear : op.toPeer → op.clears →
      Moves w t (w.set other fun k => { k with closed := true, peer := none }) (.both op sk other) := by
    intro hOp hClears
    refine ⟨Nat.le_refl _, ?_, Sound.clearPeer h hPc hOp hClears hFree, hPlain fun _ => ?_, fun _ _ => False.elim,
      fun _ _ => False.elim⟩
    · intro i j hjt hj
      rw [State.set_socks, if_neg (hFrame i j hjt hj).2.1]
      exact ⟨id, rfl⟩
    · rw [State.set_socks, State.set_socks, if_neg hNe, if_pos rfl]
      exact ⟨hFits.reaching sk other ⟨hOp, rfl, rfl⟩, rfl⟩
  cases op with
  | connect addr addrlen =>
    simp only [secondSection]
    split
    · refine .plain h (.refl h.sound) hOld trivial (by rintro _ ⟨⟩) ?_
      intro x y hHolds
      cases hHolds
      exact hNe
    · have hSk : sk < w.next := by
        refine Ordered.less (t := t) h ?_
        rw [hPc]
        exact List.mem_cons_self
      have hState := hFits.connecting sk ⟨rfl, rfl⟩
      refine ⟨Nat.le_succ _, ?_, ?_, hPlain (by rintro ⟨⟩), fun _ _ => False.elim, fun _ _ => False.elim⟩
      · intro i j hjt hj
        obtain ⟨hi, hiOther, hiNext⟩ := hFrame i j hjt hj
        simp only [Unix.release, Unix.connectTo, State.set_socks, State.alloc_socks]
        grind
      · exact Sound.connectTo h hNe hSk (hFits.wanted other rfl) hState fun i p => clears_update (hOld i p)
  | poll =>
    exact .alike h (.refl h.sound) hOld (hPlain (by rintro ⟨⟩)) (fun _ _ => False.elim) fun _ _ => False.elim
  | close => exact hClear rfl rfl
  | dispose owners => exact hClear rfl rfl
  | _ =>
    obtain hPeer | hConnects := hFits.kind _ sk other rfl
    · cases hPeer
    · cases hConnects

theorem Moves.both {other : SockId} (hPc : w.pc t = .both op sk other) :
    Moves w t (bothSection w.nsMade op sk w.toState).1 (bothSection w.nsMade op sk w.toState).2 := by
  have hFits := h.fits t
  rw [hPc] at hFits
  have hNe : sk ≠ other := hFits.distinct sk other rfl
  have hMine : ∀ j, w.owner (.sock sk) = some j → j = t := by
    intro j hj
    have hMem : .sock sk ∈ (w.pc t).holds := by
      rw [hPc]
      exact .head _
    exact Option.some.inj (hj.symm.trans ((h.mutex t sk).mp hMem))
  have hNobody : op.clears → ∀ i, i ≠ sk → (w.socks i).peer ≠ some sk := by
    intro hOp i hi hPeer
    obtain ⟨hPeerSk, hPeerOther⟩ := hFits.clearing sk other ⟨hOp, rfl, rfl⟩
    obtain ⟨-, hBack | ⟨j, hj⟩⟩ := h.sound.peers i sk hPeer
    · cases hPeerSk.symm.trans hBack
      exact nomatch hPeerOther.symm.trans hPeer
    · have hMem : .sock sk ∈ (w.pc j).holds := hj.holds ▸ .tail _ (.head _)
      cases hMine j ((h.mutex j sk).mp hMem)
      rw [hPc] at hj
      exact hi hj.2.1.symm
  have hForget : ∀ {f : Sock → Sock} {c : Pc}, op.clears → (f (w.socks sk)).peer = none →
      (f (w.socks sk)).connQueue = (w.socks sk).connQueue → c.Still → Moves w t (w.set sk f) c := by
    intro f c hOp hPeer hQueue hc
    refine ⟨le_rfl, ?_, ?_, hc.fits, fun x y hx => absurd hx (hc.plain.not_reaches x y),
      fun x y hx => absurd hx (hc.plain.not_seeks x y)⟩
    · intro i j hjt hj
      have hi : i ≠ sk := by
        rintro rfl
        exact hjt (hMine j hj)
      rw [State.set_socks, if_neg hi]
      exact ⟨id, rfl⟩
    · refine h.sound.clear hPeer hQueue (hNobody hOp) fun i p hi => clears_update ?_
      rw [hPc]
      exact fun hClears => hi hClears.2.1.symm
  have hKeep : op.clears = false → ∀ i p, ¬ (w.pc t).Clears i p := by
    rintro hOp i p
    rw [hPc]
    exact fun hClears => nomatch hOp.symm.trans hClears.1
  cases op with
  | close =>
    simp only [bothSection]
    rw [(leave_still _ _ _).1]
    exact hForget rfl rfl rfl (leave_still _ _ _).2
  | dispose owners =>
    exact @hForget (fun k => { k with peer := none, state := .free }) (.last (.dispose owners) sk) rfl rfl rfl trivial
  | _ => exact .still h (.refl h.sound) (hKeep rfl) trivial

theorem Moves.enter (hPc : w.pc t = .enter op sk) :
    Moves w t (enterSection op sk w.toState).1 (enterSection op sk w.toState).2 := by
  have hOld : ∀ i p, ¬ (w.pc t).Clears i p := by
    rw [hPc]
    exact fun _ _ => id
  have hLess : sk < w.next := by
    refine Ordered.less (t := t) h ?_
    rw [hPc]
    exact List.mem_cons_self
  have hRegister : Alike w.toState (nsRegister sk w.toState) := by
    rw [nsRegister]
    split
    · exact .refl h.sound
    · refine ⟨rfl, ?_, h.sound.queues, fun _ => Iff.rfl, fun _ => rfl⟩
      intro i hi
      obtain hMem | hMem := List.mem_append.mp hi
      · exact h.sound.names i hMem
      · exact List.mem_singleton.mp hMem ▸ hLess
  have hUnregister : Alike w.toState (nsUnregister sk w.toState) :=
    ⟨rfl, fun i hi => h.sound.names i (List.mem_of_mem_erase hi), h.sound.queues, fun _ => Iff.rfl, fun _ => rfl⟩
  cases op with
  | bind addr addrlen => exact .still h hRegister hOld trivial
  | _ => exact .still h hUnregister hOld trivial

theorem unwind_moves (hOld : ∀ i p, ¬ (w.pc t).Clears i p) (owners : List SockId)
    (a : Alike w.toState s) : Moves w t (unwind sk owners s).1 (unwind sk owners s).2 := by
  have hRelease : ∀ {s : State} (sk : SockId), Alike w.toState s →
      Alike w.toState (s.set sk fun k => { k with released := k.released + 1 }) := by
    intro s sk a
    have hSound : Sound s w.pc := h.sound.alike a fun _ _ => id
    exact a.trans (.set hSound Iff.rfl rfl (hSound.queues sk))
  have hQueued : ∀ {s : State} {sk cs : SockId} {rest owners : List SockId}, Alike w.toState s →
      (s.socks sk).connQueue = some (cs :: rest) → Moves w t s (.own (.dispose (sk :: owners)) cs) := by
    intro s sk cs rest owners a hQueue
    refine .plain h a hOld trivial ?_ nofun
    intro x hx
    cases hx
    exact a.next.symm ▸ a.queues sk _ cs hQueue (.head _)
  induction owners generalizing sk s with
  | nil =>
    rw [unwind]
    split
    · next cs rest hQueue => exact hQueued a hQueue
    · exact .still h (hRelease sk a) hOld trivial
  | cons owner rest ih =>
    rw [unwind]
    split
    · next cs rest' hQueue => exact hQueued a hQueue
    · have hReleased := hRelease sk a
      have hSound : Sound _ w.pc := h.sound.alike hReleased fun _ _ => id
      refine ih (hReleased.trans (.set hSound Iff.rfl rfl ?_))
      intro q c hq hc
      cases hOwner : ((s.set sk fun k => { k with released := k.released + 1 }).socks owner).connQueue with
      | none =>
        rw [hOwner] at hq
        cases hq
      | some q' =>
        rw [hOwner] at hq
        cases hq
        exact hSound.queues owner q' c hOwner (List.mem_of_mem_tail hc)

theorem Moves.last (hPc : w.pc t = .last op sk) :
    Moves w t (lastSection op sk w.toState).1 (lastSection op sk w.toState).2 := by
  have hOld : ∀ i p, ¬ (w.pc t).Clears i p := by
    rw [hPc]
    exact fun _ _ => id
  cases op with
  | close =>
    simp only [lastSection]
    split
    · exact unwind_moves h hOld [] (.release h.sound sk)
    · exact .still h (.release h.sound sk) hOld trivial
  | dispose owners => exact unwind_moves h hOld owners (.refl h.sound)
  | _ => exact .still h (.refl h.sound) hOld trivial

end OpenXJ380.Unix
