import OpenXJ380.Pty.Model

/-! # Pairs live as long as their descriptors

What is true of a pair depends on the pair and its two nodes, and a step changes one pair
and its nodes.
-/

namespace OpenXJ380.Pty.Lifetime

open Function

open Device Transition

/-- A pair with open descriptors: `m` and `s` are its nodes, and the last two numbers count what is open. -/
structure Holds (p : PairId) (b : Pair) (m s : Node) (masters slaves : Nat) : Prop where
  free : b.freed = 0
  masterFds : b.masterFds = masters
  slaveFds : b.slaveFds = slaves
  some : 0 < masters + slaves
  master : m.side = .master ∧ m.linked = false
  masterOpen : 0 < masters → m.handle = .some p ∧ m.refcount = masters
  slave : s.side = .slave ∧ s.linked = true ∧ s.name = b.id ∧ s.refcount = slaves + 1
  slaveOpen : s.handle = .some p ∨ s.handle = .none ∧ slaves = 0

structure Gone (b : Pair) (masters slaves : Nat) : Prop where
  freed : b.freed = 1
  closed : masters = 0 ∧ slaves = 0

def HoldsAt (w : World) (p : PairId) : Prop :=
  Holds p (w.pair p) (w.node (w.pair p).masterNode) (w.node (w.pair p).slaveNode) (w.opened (w.pair p).masterNode)
    (w.opened (w.pair p).slaveNode)

def GoneAt (w : World) (p : PairId) : Prop :=
  Gone (w.pair p) (w.opened (w.pair p).masterNode) (w.opened (w.pair p).slaveNode)

structure Placed (w : World) : Prop where
  dev : ∃ d, w.dev = [d] ∧ d < w.nodes ∧ (w.node d).side = .master ∧ (w.node d).handle = none ∧ w.opened d = 0 ∧
    ∀ p < w.pairs, (w.pair p).masterNode ≠ d ∧ (w.pair p).slaveNode ≠ d
  known : ∀ p < w.pairs, (w.pair p).masterNode < w.nodes ∧ (w.pair p).slaveNode < w.nodes
  masters : ∀ p < w.pairs, ∀ q < w.pairs, (w.pair p).masterNode = (w.pair q).masterNode → p = q
  slaves : ∀ p < w.pairs, ∀ q < w.pairs, (w.pair p).slaveNode = (w.pair q).slaveNode → p = q
  apart : ∀ p < w.pairs, ∀ q < w.pairs, (w.pair p).masterNode ≠ (w.pair q).slaveNode
  opened : ∀ n, 0 < w.opened n → ∃ p < w.pairs, n = (w.pair p).masterNode ∨ n = (w.pair p).slaveNode

structure Sound (w : World) : Prop where
  placed : Placed w
  pairs : ∀ p < w.pairs, HoldsAt w p ∨ GoneAt w p
  pts : ∀ n, n ∈ w.pts ↔ ∃ p, w.live p ∧ n = (w.pair p).slaveNode
  ptsOnce : w.pts.Nodup
  listed : ∀ p, p ∈ w.listed ↔ w.live p
  listedOnce : w.listed.Nodup
  allocator : w.ids.Sound
  taken : ∀ id, w.ids.bitmap id = true ↔ ∃ p, w.live p ∧ (w.pair p).id = id
  ids : ∀ p q, w.live p → w.live q → (w.pair p).id = (w.pair q).id → p = q

variable {w w' : World} {p q : PairId} {n : NodeId}

theorem Sound.holds (h : Sound w) (hLive : w.live p) : HoldsAt w p := by
  obtain hHolds | hGone := h.pairs p hLive.1
  · exact hHolds
  · exact absurd (hGone.freed.symm.trans hLive.2) one_ne_zero

theorem HoldsAt.live (h : HoldsAt w p) (hLt : p < w.pairs) : w.live p := ⟨hLt, h.free⟩

theorem Sound.open_live (h : Sound w) (hOpened : 0 < w.opened n) :
    ∃ p, w.live p ∧ (n = (w.pair p).masterNode ∨ n = (w.pair p).slaveNode) := by
  obtain ⟨p, hp, hNode⟩ := h.placed.opened n hOpened
  obtain hHolds | hGone := h.pairs p hp
  · exact ⟨p, hHolds.live hp, hNode⟩
  · obtain ⟨hMasters, hSlaves⟩ := hGone.closed
    obtain rfl | rfl := hNode
    · exact absurd hMasters hOpened.ne'
    · exact absurd hSlaves hOpened.ne'

theorem Sound.lives (h : Sound w) : Lives w := by
  constructor
  · exact fun p hp => ⟨(h.holds hp).masterFds, (h.holds hp).slaveFds⟩
  · intro p hp
    obtain hHolds | hGone := h.pairs p hp
    · have hFree := hHolds.free
      have hSome := hHolds.some
      constructor
      · omega
      · omega
    · have hFreed := hGone.freed
      obtain ⟨hMasters, hSlaves⟩ := hGone.closed
      constructor
      · omega
      · exact iff_of_true hFreed ⟨hMasters, hSlaves⟩
  · intro n hOpened
    obtain ⟨p, hp, hNode⟩ := h.open_live hOpened
    have hHolds := h.holds hp
    refine ⟨p, hp, ?_, hNode⟩
    obtain rfl | rfl := hNode
    · exact (hHolds.masterOpen hOpened).1
    · exact hHolds.slaveOpen.resolve_right fun hNone => absurd hNone.2 hOpened.ne'
  · exact h.ids

/-- Only the pair `p` and its nodes are changed, and it keeps its nodes and its id. -/
structure Rewrites (w w' : World) (p : PairId) : Prop where
  pairs : w'.pairs = w.pairs
  nodes : w'.nodes = w.nodes
  dev : w'.dev = w.dev
  pair : ∀ q, q ≠ p → w'.pair q = w.pair q
  masterNode : (w'.pair p).masterNode = (w.pair p).masterNode
  slaveNode : (w'.pair p).slaveNode = (w.pair p).slaveNode
  id : (w'.pair p).id = (w.pair p).id
  node : ∀ n, n ≠ (w.pair p).masterNode → n ≠ (w.pair p).slaveNode → w'.node n = w.node n ∧ w'.opened n = w.opened n

theorem Rewrites.ends (h : Rewrites w w' p) (q : PairId) : (w'.pair q).masterNode = (w.pair q).masterNode ∧
    (w'.pair q).slaveNode = (w.pair q).slaveNode ∧ (w'.pair q).id = (w.pair q).id := by
  obtain rfl | hq := eq_or_ne q p
  · exact ⟨h.masterNode, h.slaveNode, h.id⟩
  · rw [h.pair q hq]
    exact ⟨rfl, rfl, rfl⟩

theorem Placed.rewrites (hPlaced : Placed w) (hp : p < w.pairs) (h : Rewrites w w' p) : Placed w' := by
  constructor
  · obtain ⟨d, hDev, hLt, hSide, hHandle, hOpened, hNot⟩ := hPlaced.dev
    obtain ⟨hNode, hCount⟩ := h.node d (hNot p hp).1.symm (hNot p hp).2.symm
    refine ⟨d, h.dev.trans hDev, h.nodes ▸ hLt, ?_, ?_, hCount.trans hOpened, ?_⟩
    · rw [hNode]
      exact hSide
    · rw [hNode]
      exact hHandle
    · intro q hq
      rw [(h.ends q).1, (h.ends q).2.1]
      exact hNot q (h.pairs ▸ hq)
  · intro q hq
    rw [(h.ends q).1, (h.ends q).2.1, h.nodes]
    exact hPlaced.known q (h.pairs ▸ hq)
  · intro q hq r hr hEq
    rw [(h.ends q).1, (h.ends r).1] at hEq
    exact hPlaced.masters q (h.pairs ▸ hq) r (h.pairs ▸ hr) hEq
  · intro q hq r hr hEq
    rw [(h.ends q).2.1, (h.ends r).2.1] at hEq
    exact hPlaced.slaves q (h.pairs ▸ hq) r (h.pairs ▸ hr) hEq
  · intro q hq r hr
    rw [(h.ends q).1, (h.ends r).2.1]
    exact hPlaced.apart q (h.pairs ▸ hq) r (h.pairs ▸ hr)
  · intro n hOpened
    rw [h.pairs]
    obtain hMaster | hMaster := eq_or_ne n (w.pair p).masterNode
    · exact ⟨p, hp, .inl (hMaster.trans h.masterNode.symm)⟩
    obtain hSlave | hSlave := eq_or_ne n (w.pair p).slaveNode
    · exact ⟨p, hp, .inr (hSlave.trans h.slaveNode.symm)⟩
    rw [(h.node n hMaster hSlave).2] at hOpened
    obtain ⟨q, hq, hNode⟩ := hPlaced.opened n hOpened
    refine ⟨q, hq, ?_⟩
    rw [(h.ends q).1, (h.ends q).2.1]
    exact hNode

theorem Placed.others (hPlaced : Placed w) (hp : p < w.pairs) (h : Rewrites w w' p) (hq : q < w.pairs) (hne : q ≠ p) :
    (HoldsAt w q ↔ HoldsAt w' q) ∧ (GoneAt w q ↔ GoneAt w' q) := by
  obtain ⟨hMaster, hMasters⟩ := h.node (w.pair q).masterNode (fun hEq => hne (hPlaced.masters q hq p hp hEq))
    (hPlaced.apart q hq p hp)
  obtain ⟨hSlave, hSlaves⟩ := h.node (w.pair q).slaveNode (fun hEq => hPlaced.apart p hp q hq hEq.symm)
    (fun hEq => hne (hPlaced.slaves q hq p hp hEq))
  rw [HoldsAt, HoldsAt, GoneAt, GoneAt, h.pair q hne, hMaster, hMasters, hSlave, hSlaves]
  exact ⟨Iff.rfl, Iff.rfl⟩

theorem Rewrites.live_of_ne (h : Rewrites w w' p) (hne : q ≠ p) : w'.live q ↔ w.live q := by
  rw [World.live, World.live, h.pairs, h.pair q hne]

theorem Sound.keeps (hSound : Sound w) (hLive : w.live p) (h : Rewrites w w' p) (hHolds : HoldsAt w' p)
    (hPts : w'.pts = w.pts) (hListed : w'.listed = w.listed) (hIds : w'.ids = w.ids) : Sound w' := by
  have hLives : ∀ q, w'.live q ↔ w.live q := by
    intro q
    obtain rfl | hq := eq_or_ne q p
    · exact iff_of_true (hHolds.live (h.pairs ▸ hLive.1)) hLive
    · exact h.live_of_ne hq
  constructor
  · exact hSound.placed.rewrites hLive.1 h
  · intro q hq
    obtain rfl | hne := eq_or_ne q p
    · exact .inl hHolds
    · have hOthers := hSound.placed.others hLive.1 h (h.pairs ▸ hq) hne
      exact (hSound.pairs q (h.pairs ▸ hq)).imp hOthers.1.mp hOthers.2.mp
  · intro n
    rw [hPts, hSound.pts]
    simp only [hLives, (h.ends _).2.1]
  · exact hPts ▸ hSound.ptsOnce
  · intro q
    rw [hListed, hLives, hSound.listed]
  · exact hListed ▸ hSound.listedOnce
  · exact hIds ▸ hSound.allocator
  · intro id
    rw [hIds, hSound.taken]
    simp only [hLives, (h.ends _).2.2]
  · intro q r hq hr hEq
    rw [(h.ends q).2.2, (h.ends r).2.2] at hEq
    exact hSound.ids q r ((hLives q).mp hq) ((hLives r).mp hr) hEq

theorem Sound.destroys (hSound : Sound w) (hLive : w.live p) (h : Rewrites w w' p) (hGone : GoneAt w' p)
    (hPts : w'.pts = w.pts.erase (w.pair p).slaveNode) (hListed : w'.listed = w.listed.erase p)
    (hIds : w'.ids = (idFree w.ids (w.pair p).id).1) : Sound w' := by
  have hLives : ∀ q, w'.live q ↔ w.live q ∧ q ≠ p := by
    intro q
    obtain rfl | hq := eq_or_ne q p
    · refine iff_of_false (fun hNow => ?_) (fun hBoth => hBoth.2 rfl)
      exact absurd (hGone.freed.symm.trans hNow.2) one_ne_zero
    · rw [h.live_of_ne hq]
      exact (and_iff_left hq).symm
  constructor
  · exact hSound.placed.rewrites hLive.1 h
  · intro q hq
    obtain rfl | hne := eq_or_ne q p
    · exact .inr hGone
    · have hOthers := hSound.placed.others hLive.1 h (h.pairs ▸ hq) hne
      exact (hSound.pairs q (h.pairs ▸ hq)).imp hOthers.1.mp hOthers.2.mp
  · intro n
    rw [hPts, hSound.ptsOnce.mem_erase_iff, hSound.pts]
    constructor
    · rintro ⟨hne, q, hq, rfl⟩
      have hqp : q ≠ p := fun hEq => hne (hEq ▸ rfl)
      exact ⟨q, (hLives q).mpr ⟨hq, hqp⟩, (h.ends q).2.1.symm⟩
    · rintro ⟨q, hq, rfl⟩
      obtain ⟨hWas, hne⟩ := (hLives q).mp hq
      rw [(h.ends q).2.1]
      exact ⟨fun hEq => hne (hSound.placed.slaves q hWas.1 p hLive.1 hEq), q, hWas, rfl⟩
  · rw [hPts]
    exact hSound.ptsOnce.erase _
  · intro q
    rw [hListed, hSound.listedOnce.mem_erase_iff, hSound.listed, hLives, and_comm]
  · rw [hListed]
    exact hSound.listedOnce.erase _
  · rw [hIds]
    exact idFree_sound hSound.allocator _
  · intro id
    rw [hIds, idFree_bitmap hSound.allocator, update_apply]
    split
    · next hEq =>
      refine iff_of_false Bool.false_ne_true ?_
      rintro ⟨q, hq, hId⟩
      obtain ⟨hWas, hne⟩ := (hLives q).mp hq
      rw [(h.ends q).2.2, hEq] at hId
      exact hne (hSound.ids q p hWas hLive hId)
    · next hne =>
      rw [hSound.taken]
      constructor
      · rintro ⟨q, hq, rfl⟩
        have hqp : q ≠ p := fun hEq => hne (hEq ▸ rfl)
        exact ⟨q, (hLives q).mpr ⟨hq, hqp⟩, (h.ends q).2.2⟩
      · rintro ⟨q, hq, rfl⟩
        exact ⟨q, ((hLives q).mp hq).1, (h.ends q).2.2.symm⟩
  · intro q r hq hr hEq
    rw [(h.ends q).2.2, (h.ends r).2.2] at hEq
    exact hSound.ids q r ((hLives q).mp hq).1 ((hLives r).mp hr).1 hEq

theorem Rewrites.refl (w : World) (p : PairId) : Rewrites w w p :=
  ⟨rfl, rfl, rfl, fun _ _ => rfl, rfl, rfl, rfl, fun _ _ _ => ⟨rfl, rfl⟩⟩

theorem Rewrites.setNode (h : Rewrites w w' p) (hn : n = (w.pair p).masterNode ∨ n = (w.pair p).slaveNode)
    (x : Node) : Rewrites w (w'.setNode n x) p := by
  refine { h with node := ?_ }
  intro k hMaster hSlave
  have hne : k ≠ n := by
    rintro rfl
    exact hn.elim hMaster hSlave
  exact ⟨(update_of_ne hne ..).trans (h.node k hMaster hSlave).1, (h.node k hMaster hSlave).2⟩

theorem Rewrites.setOpened (h : Rewrites w w' p) (hn : n = (w.pair p).masterNode ∨ n = (w.pair p).slaveNode)
    (count : Nat) : Rewrites w (w'.setOpened n count) p := by
  refine { h with node := ?_ }
  intro k hMaster hSlave
  have hne : k ≠ n := by
    rintro rfl
    exact hn.elim hMaster hSlave
  exact ⟨(h.node k hMaster hSlave).1, (update_of_ne hne ..).trans (h.node k hMaster hSlave).2⟩

variable {b : Pair} {m s : Node} {masters slaves : Nat}

theorem Rewrites.setPair (h : Rewrites w w' p) (hMaster : b.masterNode = (w.pair p).masterNode)
    (hSlave : b.slaveNode = (w.pair p).slaveNode) (hId : b.id = (w.pair p).id) : Rewrites w (w'.setPair p b) p := by
  have hSelf : (w'.setPair p b).pair p = b := update_self ..
  refine ⟨h.pairs, h.nodes, h.dev, ?_, ?_, ?_, ?_, h.node⟩
  · exact fun q hq => (update_of_ne hq ..).trans (h.pair q hq)
  · rw [hSelf, hMaster]
  · rw [hSelf, hSlave]
  · rw [hSelf, hId]

theorem holdsAt_of (hPair : w.pair p = b)
    (hMaster : w.node b.masterNode = m) (hSlave : w.node b.slaveNode = s) (hMasters : w.opened b.masterNode = masters)
    (hSlaves : w.opened b.slaveNode = slaves) (h : Holds p b m s masters slaves) : HoldsAt w p := by
  rw [HoldsAt, hPair, hMaster, hSlave, hMasters, hSlaves]
  exact h

theorem Sound.setMaster {count : Nat} (h : Sound w) (hp : w.live p)
    (hMaster : b.masterNode = (w.pair p).masterNode) (hSlave : b.slaveNode = (w.pair p).slaveNode)
    (hId : b.id = (w.pair p).id)
    (hHolds : Holds p b m (w.node (w.pair p).slaveNode) count (w.opened (w.pair p).slaveNode)) :
    Sound (((w.setPair p b).setNode (w.pair p).masterNode m).setOpened (w.pair p).masterNode count) := by
  have hApart := (h.placed.apart p hp.1 p hp.1).symm
  have hRewrites := (((Rewrites.refl w p).setPair hMaster hSlave hId).setNode (.inl rfl) m).setOpened (.inl rfl) count
  refine h.keeps hp hRewrites ?_ rfl rfl rfl
  rw [← hMaster, ← hSlave] at hApart
  rw [← hSlave] at hHolds
  rw [← hMaster]
  exact holdsAt_of (update_self ..) (update_self ..) (update_of_ne hApart ..)
    (update_self ..) (update_of_ne hApart ..) hHolds

theorem Sound.setSlave {count : Nat} (h : Sound w) (hp : w.live p)
    (hMaster : b.masterNode = (w.pair p).masterNode) (hSlave : b.slaveNode = (w.pair p).slaveNode)
    (hId : b.id = (w.pair p).id)
    (hHolds : Holds p b (w.node (w.pair p).masterNode) s (w.opened (w.pair p).masterNode) count) :
    Sound (((w.setPair p b).setNode (w.pair p).slaveNode s).setOpened (w.pair p).slaveNode count) := by
  have hApart := h.placed.apart p hp.1 p hp.1
  have hRewrites := (((Rewrites.refl w p).setPair hMaster hSlave hId).setNode (.inr rfl) s).setOpened (.inr rfl) count
  refine h.keeps hp hRewrites ?_ rfl rfl rfl
  rw [← hMaster, ← hSlave] at hApart
  rw [← hMaster] at hHolds
  rw [← hSlave]
  exact holdsAt_of (update_self ..) (update_of_ne hApart ..) (update_self ..)
    (update_of_ne hApart ..) (update_self ..) hHolds

section

variable (h : Holds p b m s masters slaves)

include h

theorem Holds.dupMaster
    (hOpen : 0 < masters) : Holds p { b with masterFds := b.masterFds + 1 } { m with refcount := m.refcount + 1 } s
      (masters + 1) slaves := by
  obtain ⟨hHandle, hCount⟩ := h.masterOpen hOpen
  refine { h with masterFds := congrArg (· + 1) h.masterFds, some := ?_, masterOpen := ?_ }
  · exact (Nat.succ_pos masters).trans_le (Nat.le_add_right ..)
  · exact fun _ => ⟨hHandle, congrArg (· + 1) hCount⟩

theorem Holds.openSlave :
    Holds p { b with slaveFds := b.slaveFds + 1 } m { s with refcount := s.refcount + 1, handle := .some p }
      masters (slaves + 1) := by
  obtain ⟨hSide, hLinked, hName, hCount⟩ := h.slave
  refine ⟨h.free, h.masterFds, congrArg (· + 1) h.slaveFds, ?_, h.master, h.masterOpen, ?_, .inl rfl⟩
  · exact h.some.trans_le (Nat.le_succ _)
  · exact ⟨hSide, hLinked, hName, congrArg (· + 1) hCount⟩

theorem Holds.slaveHandle (hOpen : 0 < slaves) : s.handle = .some p :=
  h.slaveOpen.resolve_right fun hNone => absurd hNone.2 hOpen.ne'

end

theorem Sound.dup (h : Sound w) (hOpened : 0 < w.opened n) : Sound (fdDup w n) := by
  obtain ⟨p, hp, rfl | rfl⟩ := h.open_live hOpened
  · have hHolds := h.holds hp
    have hDup : fdDup w (w.pair p).masterNode =
        ((w.setPair p { w.pair p with masterFds := (w.pair p).masterFds + 1 }).setNode (w.pair p).masterNode
          { w.node (w.pair p).masterNode with refcount := (w.node (w.pair p).masterNode).refcount + 1 }).setOpened
            (w.pair p).masterNode (w.opened (w.pair p).masterNode + 1) := by
      rw [fdDup, (hHolds.masterOpen hOpened).1, hHolds.master.1]
      rfl
    rw [hDup]
    exact h.setMaster hp rfl rfl rfl (hHolds.dupMaster hOpened)
  · have hHolds := h.holds hp
    have hHandle := hHolds.slaveHandle hOpened
    have hDup : fdDup w (w.pair p).slaveNode =
        ((w.setPair p { w.pair p with slaveFds := (w.pair p).slaveFds + 1 }).setNode (w.pair p).slaveNode
          { w.node (w.pair p).slaveNode with refcount := (w.node (w.pair p).slaveNode).refcount + 1 }).setOpened
            (w.pair p).slaveNode (w.opened (w.pair p).slaveNode + 1) := by
      rw [fdDup, hHandle, hHolds.slave.1]
      rfl
    rw [hDup]
    have hOpen := hHolds.openSlave
    rw [← hHandle] at hOpen
    exact h.setSlave hp rfl rfl rfl hOpen

theorem Sound.findSlave {number : Nat} (h : Sound w) (hFind : findSlave w number = some n) :
    ∃ p, w.live p ∧ n = (w.pair p).slaveNode ∧ (w.pair p).id = number := by
  obtain ⟨p, hp, rfl⟩ := (h.pts n).mp (List.mem_of_find?_eq_some hFind)
  have hName := List.find?_some hFind
  rw [decide_eq_true_eq] at hName
  exact ⟨p, hp, rfl, (h.holds hp).slave.2.2.1.symm.trans hName⟩

theorem Sound.find_listed (h : Sound w) (hp : w.live p) :
    (w.listed.find? fun q => (w.pair q).id = (w.pair p).id) = some p := by
  cases hFind : w.listed.find? fun q => (w.pair q).id = (w.pair p).id with
  | none =>
    have hNot := List.find?_eq_none.mp hFind p ((h.listed p).mpr hp)
    exact absurd (decide_eq_true rfl) hNot
  | some q =>
    have hId := List.find?_some hFind
    rw [decide_eq_true_eq] at hId
    have hq := (h.listed q).mp (List.mem_of_find?_eq_some hFind)
    exact congrArg some (h.ids q p hq hp hId)

theorem Sound.updateSlave (h : Sound w) (hp : w.live p) (hNone : (w.node (w.pair p).slaveNode).handle = none) :
    updateSlave (reference w (w.pair p).slaveNode) (w.pair p).slaveNode =
      (w.setPair p { w.pair p with slaveFds := (w.pair p).slaveFds + 1 }).setNode (w.pair p).slaveNode
        { w.node (w.pair p).slaveNode with
          refcount := (w.node (w.pair p).slaveNode).refcount + 1, handle := some p } := by
  have hSelf : (reference w (w.pair p).slaveNode).node (w.pair p).slaveNode =
      { w.node (w.pair p).slaveNode with refcount := (w.node (w.pair p).slaveNode).refcount + 1 } :=
    update_self ..
  have hListed : ((reference w (w.pair p).slaveNode).listed.find? fun q =>
      ((reference w (w.pair p).slaveNode).pair q).id =
        ((reference w (w.pair p).slaveNode).node (w.pair p).slaveNode).name) = some p := by
    rw [hSelf]
    change (w.listed.find? fun q => (w.pair q).id = (w.node (w.pair p).slaveNode).name) = some p
    rw [(h.holds hp).slave.2.2.1]
    exact h.find_listed hp
  have hHandle : ((reference w (w.pair p).slaveNode).node (w.pair p).slaveNode).handle = none := by
    rw [hSelf]
    exact hNone
  rw [Lifetime.updateSlave, if_pos hHandle, ptsOpen, hListed, hSelf]
  simp only [reference, World.setNode, World.setPair, update_idem]

theorem Sound.openSlave {number : Nat} (h : Sound w) (hOpen : openSlave w number = some w')
    (hOnce : ∀ n, Lifetime.findSlave w number = some n → (w.node n).handle = none) : Sound w' := by
  unfold Lifetime.openSlave at hOpen
  cases hFind : Lifetime.findSlave w number with
  | none =>
    rw [hFind] at hOpen
    cases hOpen
  | some n =>
    rw [hFind] at hOpen
    dsimp only at hOpen
    obtain ⟨p, hp, rfl, -⟩ := h.findSlave hFind
    rw [h.updateSlave hp (hOnce _ hFind)] at hOpen
    cases hOpen
    exact h.setSlave hp rfl rfl rfl (h.holds hp).openSlave

/-- What the end of `vfs_close` leaves of a node. -/
def Node.released (x : Node) : Node :=
  if 0 < x.refcount then x else { x with handle := none, freed := x.freed || !x.linked }

theorem dropHandle_eq (w : World) (n : NodeId) : dropHandle w n = w.setNode n (w.node n).released := by
  rw [dropHandle, Node.released]
  split
  · rw [World.setNode, update_eq_self]
  · rfl

theorem Rewrites.destroy (h : Rewrites w w' p) : Rewrites w (pairDestroy w' p) p := by
  rw [pairDestroy]
  split
  · have hNode := (h.setNode (n := (w'.pair p).slaveNode) (.inr h.slaveNode) { w'.node (w'.pair p).slaveNode with
      handle := none, linked := false
      freed := (w'.node (w'.pair p).slaveNode).freed || (w'.node (w'.pair p).slaveNode).handle = none }).setPair
        (b := { w'.pair p with freed := (w'.pair p).freed + 1 }) h.masterNode h.slaveNode h.id
    exact { hNode with }
  · have hPair := h.setPair (b := { w'.pair p with freed := (w'.pair p).freed + 1 }) h.masterNode h.slaveNode h.id
    exact { hPair with }

theorem pairDestroy_pair (w : World) (p : PairId) :
    (pairDestroy w p).pair p = { w.pair p with freed := (w.pair p).freed + 1 } := by
  rw [pairDestroy]
  exact update_self ..

theorem pairDestroy_opened (w : World) (p : PairId) : (pairDestroy w p).opened = w.opened := by
  rw [pairDestroy]
  split
  · rfl
  · rfl

theorem pairDestroy_ids (w : World) (p : PairId) : (pairDestroy w p).ids = (idFree w.ids (w.pair p).id).1 := by
  rw [pairDestroy]
  split
  · rfl
  · rfl

theorem pairDestroy_listed (w : World) (p : PairId) : (pairDestroy w p).listed = w.listed.erase p := by
  rw [pairDestroy]
  split
  · rfl
  · rfl

theorem pairDestroy_pts (hLinked : (w.node (w.pair p).slaveNode).linked) :
    (pairDestroy w p).pts = w.pts.erase (w.pair p).slaveNode := by
  rw [pairDestroy]
  dsimp only
  rw [if_pos hLinked]
  rfl

theorem Sound.closeLast {side : Side} {x : Node} (h : Sound w) (hp : w.live p)
    (hn : n = (w.pair p).masterNode ∨ n = (w.pair p).slaveNode) (hLinked : n = (w.pair p).slaveNode → x.linked)
    (hFds : ((w.pair p).setFds ((w.pair p).fds side - 1) side).masterFds = 0 ∧
      ((w.pair p).setFds ((w.pair p).fds side - 1) side).slaveFds = 0)
    (hOpened : ∀ k, k = (w.pair p).masterNode ∨ k = (w.pair p).slaveNode → k ≠ n → w.opened k = 0) :
    Sound ((dropHandle (ptyClose (w.setNode n x) p side) n).setOpened n 0) := by
  generalize hb : (w.pair p).setFds ((w.pair p).fds side - 1) side = b at hFds
  have hEnds : b.masterNode = (w.pair p).masterNode ∧ b.slaveNode = (w.pair p).slaveNode ∧ b.id = (w.pair p).id ∧
      b.freed = (w.pair p).freed := by
    rw [← hb]
    cases side <;> exact ⟨rfl, rfl, rfl, rfl⟩
  obtain ⟨hMaster, hSlave, hId, hFree⟩ := hEnds
  have hClose : ptyClose (w.setNode n x) p side = pairDestroy ((w.setNode n x).setPair p b) p := by
    rw [ptyClose, ← hb]
    exact if_pos (hb ▸ hFds)
  have hPair : ((w.setNode n x).setPair p b).pair p = b := update_self ..
  have hRewrites := ((((Rewrites.refl w p).setNode hn x).setPair hMaster hSlave hId).destroy.setNode hn
    ((pairDestroy ((w.setNode n x).setPair p b) p).node n).released).setOpened hn 0
  have hAll : ∀ k, k = (w.pair p).masterNode ∨ k = (w.pair p).slaveNode → update w.opened n 0 k = 0 := by
    intro k hk
    obtain rfl | hne := Decidable.em (k = n)
    · exact update_self ..
    · exact (update_of_ne hne ..).trans (hOpened k hk hne)
  rw [hClose, dropHandle_eq]
  refine h.destroys hp hRewrites ?_ ?_ ?_ ?_
  · have hGone : (pairDestroy ((w.setNode n x).setPair p b) p).pair p = { b with freed := b.freed + 1 } := by
      rw [pairDestroy_pair, hPair]
    have hCount : (pairDestroy ((w.setNode n x).setPair p b) p).opened = w.opened := pairDestroy_opened ..
    constructor
    · change ((pairDestroy ((w.setNode n x).setPair p b) p).pair p).freed = 1
      rw [hGone, hFree, hp.2]
    · change update (pairDestroy ((w.setNode n x).setPair p b) p).opened n 0
          ((pairDestroy ((w.setNode n x).setPair p b) p).pair p).masterNode = 0 ∧
        update (pairDestroy ((w.setNode n x).setPair p b) p).opened n 0
          ((pairDestroy ((w.setNode n x).setPair p b) p).pair p).slaveNode = 0
      rw [hGone, hCount]
      exact ⟨hAll _ (.inl hMaster), hAll _ (.inr hSlave)⟩
  · refine (pairDestroy_pts ?_).trans ?_
    · rw [hPair, hSlave]
      obtain hEq | hne := Decidable.em ((w.pair p).slaveNode = n)
      · exact (congrArg Node.linked ((congrArg _ hEq).trans (update_self ..))).trans (hLinked hEq.symm)
      · exact (congrArg Node.linked (update_of_ne hne ..)).trans (h.holds hp).slave.2.1
    · rw [hPair, hSlave]
      rfl
  · exact pairDestroy_listed ..
  · refine (pairDestroy_ids ..).trans ?_
    rw [hPair, hId]
    rfl

theorem Node.released_eq (x : Node) :
    x.released.side = x.side ∧ x.released.linked = x.linked ∧ (0 < x.refcount → x.released = x) := by
  rw [Node.released]
  split
  · exact ⟨rfl, rfl, fun _ => rfl⟩
  · next hNone => exact ⟨rfl, rfl, (absurd · hNone)⟩

theorem closeMore {side : Side} {x : Node} (hb : (w.pair p).setFds ((w.pair p).fds side - 1) side = b)
    (hFds : ¬ (b.masterFds = 0 ∧ b.slaveFds = 0)) :
    dropHandle (ptyClose (w.setNode n x) p side) n = (w.setPair p b).setNode n x.released := by
  have hClose : ptyClose (w.setNode n x) p side = (w.setNode n x).setPair p b := by
    rw [ptyClose, ← hb]
    exact if_neg (hb ▸ hFds)
  have hNode : ((w.setNode n x).setPair p b).node n = x := update_self ..
  rw [hClose, dropHandle_eq, hNode]
  simp only [World.setNode, World.setPair, update_idem]

theorem Holds.closeMaster (h : Holds p b m s masters slaves) (hOpen : 0 < masters) (hMore : 0 < masters - 1 + slaves) :
    Holds p { b with masterFds := b.masterFds - 1 } { m with refcount := m.refcount - 1 }.released s
      (masters - 1) slaves := by
  obtain ⟨hSide, hLinked, hSame⟩ := Node.released_eq { m with refcount := m.refcount - 1 }
  obtain ⟨hHandle, hCount⟩ := h.masterOpen hOpen
  refine ⟨h.free, congrArg (· - 1) h.masterFds, h.slaveFds, hMore, ?_, ?_, h.slave, h.slaveOpen⟩
  · exact ⟨hSide.trans h.master.1, hLinked.trans h.master.2⟩
  · intro hStill
    rw [hSame (by rw [hCount]; exact hStill)]
    exact ⟨hHandle, congrArg (· - 1) hCount⟩

theorem Holds.closeSlave (h : Holds p b m s masters slaves) (hOpen : 0 < slaves) (hMore : 0 < masters + (slaves - 1)) :
    Holds p { b with slaveFds := b.slaveFds - 1 } m { s with refcount := s.refcount - 1 }.released
      masters (slaves - 1) := by
  obtain ⟨hSide, hLinked, hName, hCount⟩ := h.slave
  obtain ⟨-, -, hSame⟩ := Node.released_eq { s with refcount := s.refcount - 1 }
  have hReferenced : 0 < s.refcount - 1 := by
    rw [hCount]
    exact hOpen
  rw [hSame hReferenced]
  refine ⟨h.free, h.masterFds, congrArg (· - 1) h.slaveFds, hMore, h.master, h.masterOpen, ?_, .inl
      (h.slaveHandle hOpen)⟩
  refine ⟨hSide, hLinked, hName, ?_⟩
  change s.refcount - 1 = slaves - 1 + 1
  omega

theorem Sound.close (h : Sound w) (hOpened : 0 < w.opened n) : Sound (vfsClose w n) := by
  obtain ⟨p, hp, rfl | rfl⟩ := h.open_live hOpened
  · have hHolds := h.holds hp
    have hMasters := hHolds.masterFds
    have hSlaves := hHolds.slaveFds
    rw [vfsClose, (hHolds.masterOpen hOpened).1, hHolds.master.1]
    dsimp only
    obtain hLast | hMore := eq_or_ne (w.opened (w.pair p).masterNode - 1 + w.opened (w.pair p).slaveNode) 0
    · have hZero : w.opened (w.pair p).masterNode - 1 = 0 ∧ w.opened (w.pair p).slaveNode = 0 := by omega
      rw [hZero.1]
      refine h.closeLast hp (.inl rfl) ?_ ?_ ?_
      · exact (absurd · (h.placed.apart p hp.1 p hp.1))
      · exact ⟨(congrArg (· - 1) hMasters).trans hZero.1, hSlaves.trans hZero.2⟩
      · rintro k (rfl | rfl) hne
        · exact absurd rfl hne
        · exact hZero.2
    · have hFds : ¬ ((w.pair p).masterFds - 1 = 0 ∧ (w.pair p).slaveFds = 0) := by omega
      rw [closeMore (b := { w.pair p with masterFds := (w.pair p).masterFds - 1 }) rfl hFds]
      exact h.setMaster hp rfl rfl rfl (hHolds.closeMaster hOpened (Nat.pos_of_ne_zero hMore))
  · have hHolds := h.holds hp
    have hMasters := hHolds.masterFds
    have hSlaves := hHolds.slaveFds
    rw [vfsClose, hHolds.slaveHandle hOpened, hHolds.slave.1]
    dsimp only
    obtain hLast | hMore := eq_or_ne (w.opened (w.pair p).masterNode + (w.opened (w.pair p).slaveNode - 1)) 0
    · have hZero : w.opened (w.pair p).masterNode = 0 ∧ w.opened (w.pair p).slaveNode - 1 = 0 := by omega
      rw [hZero.2]
      refine h.closeLast hp (.inr rfl) ?_ ?_ ?_
      · exact fun _ => hHolds.slave.2.1
      · exact ⟨hMasters.trans hZero.1, (congrArg (· - 1) hSlaves).trans hZero.2⟩
      · rintro k (rfl | rfl) hne
        · exact hZero.1
        · exact absurd rfl hne
    · have hFds : ¬ ((w.pair p).masterFds = 0 ∧ (w.pair p).slaveFds - 1 = 0) := by omega
      rw [closeMore (b := { w.pair p with slaveFds := (w.pair p).slaveFds - 1 }) rfl hFds]
      exact h.setSlave hp rfl rfl rfl (hHolds.closeSlave hOpened (Nat.pos_of_ne_zero hMore))

end OpenXJ380.Pty.Lifetime
