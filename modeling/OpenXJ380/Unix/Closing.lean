import OpenXJ380.Unix.Lifetimes

/-! # Creating and closing sockets -/

namespace OpenXJ380.Unix

open Function

section

open Transition

variable {w w' : World} {s : State} {sk : SockId}

theorem Orderly.create (h : Orderly w) {k : Sock} (hNext : w'.next = w.next + 1) (hNs : w'.ns = w.ns)
    (hOpened : ∀ j, w'.opened j = if j = w.next then true else w.opened j) (hPaired : ∀ j, w'.paired j = w.paired j)
    (hSocks : ∀ j, w'.socks j = if j = w.next then k else w.socks j)
    (hNew : k.peer = none ∧ k.connQueue = none ∧ k.refcount = 1 ∧ k.released = 0) : Orderly w' := by
  have hLive : ∀ i, w'.Live i ↔ w.Live i ∨ i = w.next := by
    intro i
    simp only [State.Live, hNext, hSocks]
    grind
  have hNot : ¬ w.Live w.next := fun hi => absurd hi.1 (lt_irrefl _)
  have hOld : ∀ j p, w'.Live j → (w'.socks j).connQueue = some p → w.Live j ∧ (w.socks j).connQueue = some p := by
    intro j p hj hp
    grind
  have hQueued : ∀ i, w.Queued i → w'.Queued i := by
    rintro i ⟨l, q, hl, hq, hMem⟩
    exact ⟨l, q, (hLive l).mpr (.inl hl), by grind, hMem⟩
  have hFresh := h.fresh w.next le_rfl
  constructor
  case fresh => grind [h.fresh]
  case linked => grind [h.linked]
  case idle => grind [h.idle]
  case queued => grind [h.queued]
  case once => grind [h.once]
  case apart => grind [h.apart]
  case owner => grind [h.owner]
  case names => grind [h.names]
  case nodup => grind [h.nodup]
  case opened => grind [h.opened]
  case pairs => grind [h.pairs]
  case closed => grind [h.closed]

theorem Orderly.pair (h : Orderly w) {a b : SockId} (hNext : w'.next = w.next) (hNs : w'.ns = w.ns)
    (hOpened : ∀ j, w'.opened j = w.opened j)
    (hPaired : ∀ j, w'.paired j = if j = b then true else if j = a then true else w.paired j)
    (hSocks : ∀ j, w'.socks j =
      if j = a then { w.socks a with state := .connected, peer := some b, refcount := 2 }
      else if j = b then { w.socks b with state := .connected, peer := some a, refcount := 2 } else w.socks j)
    (hNe : a ≠ b) (ha : w.opened a) (hb : w.opened b) (hAlone : ∀ j, j = a ∨ j = b →
      (w.socks j).peer = none ∧ (w.socks j).connQueue = none) : Orderly w' := by
  obtain ⟨hLiveA, -⟩ := h.opened a ha
  obtain ⟨hLiveB, -⟩ := h.opened b hb
  have hAloneA := hAlone a (.inl rfl)
  have hAloneB := hAlone b (.inr rfl)
  have hLive := live_congr hNext fun j => show (w'.socks j).released = _ by grind
  have hQueue : ∀ j, (w'.socks j).connQueue = (w.socks j).connQueue := by grind
  have hQueued := queued_congr hNext (fun j => show (w'.socks j).released = _ by grind) hQueue
  constructor
  case fresh => grind [h.fresh, State.Live]
  case linked => grind [h.linked]
  case idle => grind [h.idle]
  case queued => grind [h.queued]
  case once => grind [h.once]
  case apart => grind [h.apart]
  case owner => grind [h.owner]
  case names => grind [h.names]
  case nodup => grind [h.nodup]
  case opened => grind [h.opened]
  case pairs => grind [h.pairs, State.Live]
  case closed => grind [h.closed]

theorem Orderly.unregister (h : Orderly w) (sk : SockId) : Orderly (w.put (nsUnregister sk w.toState)) :=
  { h with names := fun i hMem => h.names i (List.mem_of_mem_erase hMem), nodup := h.nodup.erase sk }

theorem Orderly.retire (h : Orderly w) {k : Sock} (hNext : w'.next = w.next) (hNs : w'.ns = w.ns)
    (hOpened : ∀ j, w'.opened j = if j = sk then false else w.opened j) (hPaired : ∀ j, w'.paired j = w.paired j)
    (hSocks : ∀ j, w'.socks j = if j = sk then k else w.socks j) (hOpen : w.opened sk)
    (hAlone : (w.socks sk).peer = none) (hEmpty : ∀ q, (w.socks sk).connQueue = some q → q = [])
    (hNameless : sk ∉ w.ns)
    (hGoes : w.paired sk = false ∧ k.released = 1 ∨ w.paired sk ∧ ∃ n, k = { w.socks sk with refcount := n }) :
    Orderly w' := by
  obtain ⟨hLiveSk, -⟩ := h.opened sk hOpen
  have hOldLive : ∀ i, w'.Live i → w.Live i := by
    intro i
    simp only [State.Live, hNext, hSocks] at hLiveSk ⊢
    grind
  have hLive : ∀ i, w.Live i → i ≠ sk → w'.Live i := by
    intro i
    simp only [State.Live, hNext, hSocks]
    grind
  have hNotQueued : ∀ l q, w.Live l → (w.socks l).connQueue = some q → sk ∉ q := by
    intro l q hl hq hMem
    obtain ⟨-, hClosed, -⟩ := h.queued l q sk hl hq hMem
    rw [hOpen] at hClosed
    cases hClosed
  have hOld : ∀ j p, w'.Live j → (w'.socks j).connQueue = some p →
      w.Live j ∧ (w.socks j).connQueue = some p ∧ (j = sk → p = []) := by
    intro j p hj hp
    have hOldJ := hOldLive j hj
    simp only [State.Live, hSocks] at hj
    grind
  have hQueued : ∀ i, w.Queued i → w'.Queued i := by
    rintro i ⟨l, q, hl, hq, hMem⟩
    have hNe : l ≠ sk := by
      rintro rfl
      rw [hEmpty q hq] at hMem
      cases hMem
    exact ⟨l, q, hLive l hl hNe, by grind, hMem⟩
  constructor
  case fresh => grind [h.fresh]
  case linked =>
    intro i p hi hPeer
    have hOldLink := h.linked i p (hOldLive i hi)
    have hBack := h.linked sk i hLiveSk
    simp only [State.Live, hNext, hSocks] at hi hPeer hOldLink hBack ⊢
    grind
  case idle =>
    intro i hi
    have hOldIdle := h.idle i (hOldLive i hi)
    simp only [State.Live, hNext, hSocks] at hi ⊢
    grind
  case queued =>
    intro j p c hj hp hMem
    obtain ⟨hj, hp, -⟩ := hOld j p hj hp
    have hNe : c ≠ sk := fun hc => hNotQueued j p hj hp (hc ▸ hMem)
    have hOldQueued := h.queued j p c hj hp hMem
    exact ⟨hLive c hOldQueued.1 hNe, by grind, by grind, by grind, by grind⟩
  case once => exact fun j p hj hp => h.once j p (hOld j p hj hp).1 (hOld j p hj hp).2.1
  case apart =>
    intro j j' p p' c hj hj' hp hp'
    exact h.apart j j' p p' c (hOld j p hj hp).1 (hOld j' p' hj' hp').1 (hOld j p hj hp).2.1 (hOld j' p' hj' hp').2.1
  case owner =>
    intro l hl hq
    have hOldOwner := h.owner l (hOldLive l hl)
    simp only [State.Live, hNext, hSocks] at hl
    grind
  case names =>
    intro i hi
    have hOldNames := h.names i (hNs ▸ hi)
    have hNe : i ≠ sk := fun hc => hNameless (hNs ▸ hc ▸ hi)
    grind
  case nodup => grind [h.nodup]
  case opened =>
    intro i hi
    have hOldOpened := h.opened i
    simp only [State.Live, hNext, hSocks] at hOldOpened ⊢
    grind
  case pairs =>
    intro i hi
    have hOldPairs := h.pairs i (hPaired i ▸ hi)
    grind
  case closed =>
    intro i hi hClosed hSolo
    have hOldClosed := h.closed i (hNext ▸ hi)
    grind

theorem unixSockFree_of_none {depth : Nat} {cs : SockId} (hNone : (s.socks cs).connQueue = none) :
    unixSockFree (depth + 1) cs s = s.set cs fun k => { k with released := k.released + 1 } := by
  rw [unixSockFree, hNone]
  rfl

theorem disconnect_keeps (s : State) (sk j : SockId) :
    ((disconnect sk s).socks j).connQueue = (s.socks j).connQueue ∧
      ((disconnect sk s).socks j).state = (s.socks j).state ∧
      ((disconnect sk s).socks j).refcount = (s.socks j).refcount ∧
      ((disconnect sk s).socks j).released = (s.socks j).released ∧
      ((s.socks j).peer = none → ((disconnect sk s).socks j).peer = none) ∧
      ((disconnect sk s).socks sk).peer = none := by
  rw [disconnect]
  cases hPeer : (s.socks sk).peer with
  | none => exact ⟨rfl, rfl, rfl, rfl, id, hPeer⟩
  | some p =>
    simp only [State.set_socks]
    grind

theorem disconnect_retain (s : State) (cs sk : SockId) : disconnect cs (retain sk s) = retain sk (disconnect cs s) := by
  have hPeer : ((retain sk s).socks cs).peer = (s.socks cs).peer := by
    rw [retain, State.set_socks]
    split
    · next hSame => rw [hSame]
    · rfl
  rw [disconnect, hPeer, disconnect]
  cases (s.socks cs).peer with
  | none => rfl
  | some p =>
    simp only [retain, State.set]
    congr 1
    funext j
    simp only [update_apply]
    grind

def freeHead (sockFree : SockId → State → State) (sk cs : SockId) (s : State) : State :=
  popHead sk (sockFree cs ((disconnect cs s).set cs fun k => { k with peer := none, state := .free }))

theorem Orderly.freeHead (h : Orderly (w.put (retain sk s))) {cs : SockId} {rest : List SockId} {depth : Nat}
    (hL : (w.put (retain sk s)).Live sk) (hQueue : (s.socks sk).connQueue = some (cs :: rest)) :
    let s' := Unix.freeHead (unixSockFree (depth + 1)) sk cs s
    Orderly (w.put (retain sk s')) ∧ s'.next = s.next ∧ s'.ns = s.ns ∧
      (s'.socks sk).connQueue = some rest ∧ (s'.socks sk).refcount = (s.socks sk).refcount ∧
      (s'.socks sk).released = (s.socks sk).released ∧ ((s.socks sk).peer = none → (s'.socks sk).peer = none) := by
  intro s'
  have hQueue' : ((w.put (retain sk s)).socks sk).connQueue = some (cs :: rest) := by
    change ((retain sk s).socks sk).connQueue = _
    rw [retain, State.set_socks, if_pos rfl, hQueue]
  obtain ⟨hCs, -, -, hNone, -⟩ := h.queued sk _ cs hL hQueue' (.head _)
  have hNe : cs ≠ sk := by
    rintro rfl
    rw [hQueue'] at hNone
    cases hNone
  have hCsNone : (s.socks cs).connQueue = none := by
    change ((retain sk s).socks cs).connQueue = none at hNone
    rwa [retain, State.set_socks, if_neg hNe] at hNone
  have hFree : s' = popHead sk ((disconnect cs s).set cs fun k =>
      { k with peer := none, state := .free, released := k.released + 1 }) := by
    rw [show s' = popHead sk (unixSockFree (depth + 1) cs
      ((disconnect cs s).set cs fun k => { k with peer := none, state := .free })) from rfl, unixSockFree_of_none]
    · rw [State.set_set]
    · rw [State.set_socks, if_pos rfl, (disconnect_keeps s cs cs).1, hCsNone]
  have hSocks : ∀ j, (retain sk s').socks j =
      if j = sk then { (disconnect cs (retain sk s)).socks sk with connQueue := some rest }
      else if j = cs then { (disconnect cs (retain sk s)).socks cs with
        peer := none, state := .free, released := ((disconnect cs (retain sk s)).socks cs).released + 1 }
      else (disconnect cs (retain sk s)).socks j := by
    intro j
    have hKeeps := disconnect_keeps s cs sk
    rw [disconnect_retain, hFree]
    simp only [popHead, retain, State.set_socks]
    grind
  constructor
  · have hKeeps := disconnect_keeps (retain sk s) cs
    have hFrame := Frame.disconnect h hCs
    have hReleased : ((retain sk s).socks cs).released = 0 := hCs.2
    have hRefcount := (h.queued sk _ cs hL hQueue' (.head _)).2.2.2.2
    refine (h.frame hFrame).takeHead ?_ ?_ (fun _ => rfl) hSocks ?_ (c := cs) ?_ ?_ (.inr ⟨?_, ?_, fun _ => rfl⟩)
    · change s'.next = (disconnect cs (retain sk s)).next
      rw [disconnect_retain, hFree]
      rfl
    · change s'.ns = (disconnect cs (retain sk s)).ns
      rw [disconnect_retain, hFree]
      rfl
    · exact (hFrame.live sk).mpr hL
    · exact (hFrame.queue sk).trans hQueue'
    · exact ⟨(hFrame.queue cs).trans hNone, (hFrame.refcount cs).trans hRefcount⟩
    · change ((disconnect cs (retain sk s)).socks cs).released + 1 = 1
      rw [(hKeeps cs).2.2.2.1, hReleased]
    · exact (hKeeps cs).2.2.2.2.2
  · rw [hFree]
    have hKeeps := disconnect_keeps s cs sk
    have hNext : (disconnect cs s).next = s.next ∧ (disconnect cs s).ns = s.ns := by
      rw [disconnect]
      split <;> exact ⟨rfl, rfl⟩
    simp only [popHead, State.set_socks, State.set_next, State.set_ns]
    grind

theorem Orderly.freeQueued {depth : Nat} (q : List SockId) (h : Orderly (w.put (retain sk s)))
    (hL : sk < s.next ∧ (s.socks sk).released = 0) (hQueue : (s.socks sk).connQueue = some q) :
    let s' := Unix.freeQueued (unixSockFree (depth + 1)) sk q.length s
    Orderly (w.put (retain sk s')) ∧ s'.next = s.next ∧ s'.ns = s.ns ∧
      (s'.socks sk).connQueue = some [] ∧ (s'.socks sk).refcount = (s.socks sk).refcount ∧
      (s'.socks sk).released = (s.socks sk).released ∧ ((s.socks sk).peer = none → (s'.socks sk).peer = none) := by
  induction q generalizing s with
  | nil => exact ⟨h, rfl, rfl, hQueue, rfl, rfl, id⟩
  | cons cs rest ih =>
    have hLive : (w.put (retain sk s)).Live sk := by
      refine ⟨hL.1, ?_⟩
      change ((retain sk s).socks sk).released = 0
      rw [retain, State.set_socks, if_pos rfl]
      exact hL.2
    obtain ⟨hOrderly, hNext, hNs, hRest, hCount, hReleased, hPeer⟩ :=
      @Orderly.freeHead w s sk h cs rest depth hLive hQueue
    obtain ⟨hOrderly', hNext', hNs', hRest', hCount', hReleased', hPeer'⟩ :=
      ih hOrderly ⟨hNext ▸ hL.1, hReleased.trans hL.2⟩ hRest
    have hLoop : Unix.freeQueued (unixSockFree (depth + 1)) sk (cs :: rest).length s =
        Unix.freeQueued (unixSockFree (depth + 1)) sk rest.length
          (Unix.freeHead (unixSockFree (depth + 1)) sk cs s) := by
      rw [List.length_cons, Unix.freeQueued, hQueue]
      rfl
    rw [hLoop]
    exact ⟨hOrderly', hNext'.trans hNext, hNs'.trans hNs, hRest', hCount'.trans hCount, hReleased'.trans hReleased,
      hPeer' ∘ hPeer⟩

theorem unixSockFree_spec {depth : Nat} (h : Orderly (w.put (retain sk s)))
    (hL : sk < s.next ∧ (s.socks sk).released = 0) :
    ∃ s', unixSockFree (depth + 2) sk s = s'.set sk (fun k => { k with released := k.released + 1 }) ∧
      Orderly (w.put (retain sk s')) ∧ s'.next = s.next ∧ s'.ns = s.ns ∧
      (∀ q, (s'.socks sk).connQueue = some q → q = []) ∧ (s'.socks sk).released = (s.socks sk).released ∧
      ((s.socks sk).peer = none → (s'.socks sk).peer = none) := by
  cases hQueue : (s.socks sk).connQueue with
  | none =>
    refine ⟨s, unixSockFree_of_none hQueue, h, rfl, rfl, ?_, rfl, id⟩
    rw [hQueue]
    exact nofun
  | some q =>
    obtain ⟨hOrderly, hNext, hNs, hEmpty, -, hReleased, hPeer⟩ := @Orderly.freeQueued w s sk depth q h hL hQueue
    refine ⟨Unix.freeQueued (unixSockFree (depth + 1)) sk q.length s, ?_, hOrderly, hNext, hNs, ?_, hReleased, hPeer⟩
    · rw [unixSockFree, hQueue]
      rfl
    · rintro q' hq'
      rw [hEmpty] at hq'
      cases hq'
      rfl

theorem retain_release (hPos : 0 < (s.socks sk).refcount) : retain sk (release sk s) = s := by
  rw [retain, release, State.set_set, State.set, Nat.sub_add_cancel hPos]
  exact congrArg (fun socks => { s with socks := socks }) (update_eq_self sk s.socks)

theorem Orderly.leave (h : Orderly w) (hOpen : w.opened sk) :
    let s := disconnect sk (w.set sk fun k => { k with closed := true })
    let s' := if (s.socks sk).state.named then nsUnregister sk s else s
    Orderly (w.put s') ∧ (s'.socks sk).peer = none ∧ sk ∉ s'.ns := by
  intro s s'
  have hMarked : Orderly (w.put (w.set sk fun k => { k with closed := true })) := h.frame (.set id id rfl rfl rfl rfl)
  have hAlone : Orderly (w.put s) := hMarked.frame (.disconnect hMarked (hMarked.opened sk hOpen).1)
  have hPeer : (s.socks sk).peer = none :=
    (disconnect_keeps (w.set sk fun k => { k with closed := true }) sk sk).2.2.2.2.2
  cases hNamed : (s.socks sk).state.named with
  | true =>
    rw [show s' = nsUnregister sk s from if_pos hNamed]
    exact ⟨hAlone.unregister sk, hPeer, fun hMem => (hAlone.nodup.mem_erase_iff.mp hMem).1 rfl⟩
  | false =>
    rw [show s' = s from if_neg (by rw [hNamed]; exact nofun)]
    refine ⟨hAlone, hPeer, fun hMem => (hAlone.names sk hMem).2 ?_⟩
    exact of_not_not (of_decide_eq_false hNamed)

theorem Orderly.close (h : Orderly w) (hOpen : w.opened sk) :
    Orderly ((w.put (unixClose sk w.toState)).setOpened sk false) := by
  obtain ⟨hLeft, hPeer, hNameless⟩ := h.leave hOpen
  rw [unixClose]
  revert hLeft hPeer hNameless
  generalize (if SockState.named _ = true then nsUnregister sk _ else _) = s
  intro hLeft hPeer hNameless
  obtain ⟨hLive, hCount⟩ := hLeft.opened sk hOpen
  change (s.socks sk).refcount = if w.paired sk = true then 2 else 1 at hCount
  have hRelease : retain sk (release sk s) = s := by
    apply retain_release
    rw [hCount]
    split <;> decide
  have hCount' : ((release sk s).socks sk).refcount = (if w.paired sk = true then 2 else 1) - 1 := by
    rw [release, State.set_socks, if_pos rfl, hCount]
  cases hPaired : w.paired sk with
  | true =>
    rw [hPaired] at hCount'
    rw [if_neg (by rw [hCount']; decide)]
    refine hLeft.retire rfl rfl (fun _ => update_apply _ _ _ _) (fun _ => rfl)
      (fun j => s.set_socks sk j fun k => { k with refcount := k.refcount - 1 }) hOpen hPeer ?_ hNameless
      (.inr ⟨hPaired, _, rfl⟩)
    intro q hq
    have hOwner := hLeft.owner sk hLive fun hNone => by cases hNone.symm.trans hq
    cases hOwner.2.symm.trans hPaired
  | false =>
    rw [hPaired] at hCount'
    rw [if_pos (show ((release sk s).socks sk).refcount = 0 from hCount')]
    have hLess : sk < s.next := hLive.1
    obtain ⟨depth, hDepth⟩ := Nat.exists_eq_succ_of_ne_zero (Nat.ne_zero_of_lt hLess)
    have hStart : Orderly (w.put (retain sk (release sk s))) := hRelease.symm ▸ hLeft
    have hFirst : sk < (release sk s).next ∧ ((release sk s).socks sk).released = 0 := by
      refine ⟨hLive.1, ?_⟩
      rw [release, State.set_socks, if_pos rfl]
      exact hLive.2
    obtain ⟨s', hFree, hEnd, -, hNs, hEmpty, hReleased, hPeer'⟩ := @unixSockFree_spec w _ sk depth hStart hFirst
    rw [show (release sk s).next + 1 = depth + 2 from congrArg (· + 1) hDepth, hFree]
    have hSelf : (retain sk s').socks sk = { s'.socks sk with refcount := (s'.socks sk).refcount + 1 } := by
      rw [retain, State.set_socks, if_pos rfl]
    refine hEnd.retire (k := { s'.socks sk with released := 1 }) rfl rfl (fun _ => update_apply _ _ _ _)
      (fun _ => rfl) ?_ hOpen ?_ ?_ ?_ (.inl ⟨hPaired, rfl⟩)
    · intro j
      change (s'.set sk fun k => { k with released := k.released + 1 }).socks j =
        if j = sk then { s'.socks sk with released := 1 } else (retain sk s').socks j
      rw [State.set_socks, retain, State.set_socks, hReleased, hFirst.2]
      split <;> rfl
    · change ((retain sk s').socks sk).peer = none
      rw [hSelf]
      apply hPeer'
      rw [release, State.set_socks, if_pos rfl]
      exact hPeer
    · intro q hq
      change ((retain sk s').socks sk).connQueue = some q at hq
      rw [hSelf] at hq
      exact hEmpty q hq
    · change sk ∉ s'.ns
      rw [hNs]
      exact hNameless

end

/-! # Runs of socket calls -/

open Transition

section

variable {w w' : World} {s : State} {sk : SockId}

theorem Orderly.accept (h : Orderly w) (hOpen : w.opened sk) {newSk : SockId} {ret : Int}
    (hReturns : unixAccept sk w.toState = some (s, ret, some newSk)) : Orderly ((w.put s).setOpened newSk true) := by
  obtain ⟨hLive, -⟩ := h.opened sk hOpen
  rw [unixAccept] at hReturns
  split at hReturns
  · cases hReturns
  split at hReturns
  · cases hReturns
  · cases hReturns
  next rest hQueue =>
  cases hReturns
  refine h.takeHead (k := w.socks newSk) rfl rfl (fun _ => rfl) (fun j => ?_) hLive hQueue ?_
    (.inl ⟨rfl, fun _ => update_apply _ _ _ _⟩)
  · change (w.set sk fun k => { k with connQueue := some rest }).socks j = _
    rw [State.set_socks]
    split
    · rfl
    · split
      · next hj => rw [hj]
      · rfl
  · exact (h.queued sk _ newSk hLive hQueue (.head _)).2.2.2

theorem unixAccept_none {ret : Int} (hReturns : unixAccept sk s = some (s', ret, none)) : s' = s := by
  rw [unixAccept] at hReturns
  split at hReturns
  · cases hReturns
    rfl
  split at hReturns <;> cases hReturns
  rfl

theorem Orderly.socketpair (h : Orderly w) (type : SockType) :
    Orderly (((((w.put (unixSocketpair type w.toState).1).setOpened w.next true).setOpened (w.next + 1) true).setPaired
      w.next).setPaired (w.next + 1)) := by
  let w₁ := (w.put (unixCreate type w.toState).1).setOpened w.next true
  let w₂ := (w₁.put (unixCreate type w₁.toState).1).setOpened w₁.next true
  have hCreate : ∀ {v : World}, Orderly v → Orderly ((v.put (unixCreate type v.toState).1).setOpened v.next true) :=
    fun hv => hv.create rfl rfl (fun _ => update_apply _ _ _ _) (fun _ => rfl) (State.alloc_socks _ · _)
      ⟨rfl, rfl, rfl, rfl⟩
  have hBoth : Orderly w₂ := hCreate (hCreate h)
  have hNe : w.next ≠ w.next + 1 := (Nat.lt_succ_self _).ne
  have hSocks : ∀ j, w₂.socks j = if j = w.next + 1 ∨ j = w.next then unixSockInit type else w.socks j := by
    intro j
    change ((w.toState.alloc (unixSockInit type)).alloc (unixSockInit type)).socks j = _
    rw [State.alloc_socks, State.alloc_socks, State.alloc_next]
    split <;> split <;> grind
  refine hBoth.pair (a := w.next) (b := w.next + 1) rfl rfl ?_ ?_ ?_ hNe ?_ ?_ ?_
  · exact fun _ => rfl
  · intro j
    exact (update_apply _ _ _ _).trans (congrArg _ (update_apply _ _ _ _))
  · intro j
    change (retain w.next (retain (w.next + 1) ((w₂.set w.next fun k =>
      { k with state := .connected, peer := some (w.next + 1) }).set (w.next + 1) fun k =>
      { k with state := .connected, peer := some w.next }))).socks j = _
    simp only [retain, State.set_socks, hSocks]
    grind [unixSockInit]
  · exact (update_of_ne hNe _ _).trans (update_self _ _ _)
  · exact update_self _ _ _
  · intro j hj
    rw [hSocks, if_pos hj.symm]
    exact ⟨rfl, rfl⟩

theorem Orderly.step {c : Call} (hStep : Calls w c w') (h : Orderly w) : Orderly w' := by
  cases hStep with
  | create type =>
    exact h.create rfl rfl (fun _ => update_apply _ _ _ _) (fun _ => rfl)
      (w.toState.alloc_socks · (unixSockInit type)) ⟨rfl, rfl, rfl, rfl⟩
  | bind addr addrlen hOpen => exact h.bind hOpen addr addrlen
  | listen hOpen => exact h.listen hOpen
  | connect hOpen hReturns => exact h.connect hOpen hReturns
  | acceptFails hOpen hReturns => 
    rw [unixAccept_none hReturns]
    exact h
  | accept hOpen hReturns => exact h.accept hOpen hReturns
  | socketpair type => exact h.socketpair type
  | lookup path =>
    rw [lookupName]
    split
    · exact h
    · rw [release_retain]
      exact h
  | close hOpen => exact h.close hOpen

theorem Orderly.init : Orderly World.init where
  fresh _ _ := ⟨rfl, rfl⟩
  linked _ _ hLive := nomatch hLive.1
  idle _ hLive := nomatch hLive.1
  queued _ _ _ hLive := nomatch hLive.1
  once _ _ hLive := nomatch hLive.1
  apart _ _ _ _ _ hLive := nomatch hLive.1
  owner _ hLive := nomatch hLive.1
  names _ hMem := nomatch hMem
  nodup := List.nodup_nil
  opened _ hOpen := nomatch hOpen
  pairs _ hPaired := nomatch hPaired
  closed _ hLess := nomatch hLess

theorem Orderly.of_run {calls : List Call} (hRun : Run callSystem World.init calls w) : Orderly w :=
  hRun.invariant (fun _ _ _ hOrderly hStep => hOrderly.step hStep) Orderly.init

end

def World.close (w : World) (sk : SockId) : World := (w.put (unixClose sk w.toState)).setOpened sk false

end OpenXJ380.Unix
