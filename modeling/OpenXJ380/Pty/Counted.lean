import OpenXJ380.Pty.Descriptors

/-! # The counts of a pair

A new pair takes the node of `/dev/ptmx` with it. The counts are right as long as no slave
is opened that was opened before, and no longer.
-/

namespace OpenXJ380.Pty.Lifetime

open Nat (lt_succ_of_lt lt_succ_self)
open Function

open Device Transition

section

variable {w w' : World} {p q : PairId} {n d : NodeId} {id : Nat}

/-- The node `d` becomes the master of a new pair. -/
structure Adds (w w' : World) (d : NodeId) (id : Nat) : Prop where
  pairs : w'.pairs = w.pairs + 1
  nodes : w'.nodes = w.nodes + 2
  dev : w'.dev = [w.nodes + 1]
  pair : ∀ q < w.pairs, w'.pair q = w.pair q
  new : w'.pair w.pairs =
    { id := id, masterFds := 1, slaveFds := 0, masterNode := d, slaveNode := w.nodes, freed := 0 }
  node : ∀ k < w.nodes, k ≠ d → w'.node k = w.node k
  master : w'.node d = { w.node d with refcount := 1, handle := some w.pairs, linked := false }
  slave : w'.node w.nodes = { side := .slave, name := id, refcount := 1, handle := none, linked := true, freed :=
    false }
  ptmx : w'.node (w.nodes + 1) =
    { side := .master, name := 0, refcount := 1, handle := none, linked := true, freed := false }
  opened : w'.opened = update w.opened d (w.opened d + 1)
  pts : w'.pts = w.nodes :: w.pts
  listed : w'.listed = w.listed ++ [w.pairs]
  ids : Takes w.ids w'.ids id

theorem Sound.removeOldSlave (h : Sound w) (hFree : w.ids.bitmap id = false) (hd : d ∉ w.pts) :
    removeOldSlave (reference w d) id = reference w d := by
  have hNone : ((reference w d).pts.find? fun n => ((reference w d).node n).name = id) = none := by
    rw [List.find?_eq_none]
    intro n hn hName
    rw [decide_eq_true_eq] at hName
    have hne : n ≠ d := fun hEq => hd (hEq ▸ hn)
    have hNode : (reference w d).node n = w.node n := update_of_ne hne ..
    rw [hNode] at hName
    obtain ⟨p, hp, rfl⟩ := (h.pts n).mp hn
    have hTaken := (h.taken id).mpr ⟨p, hp, (h.holds hp).slave.2.2.1.symm.trans hName⟩
    exact absurd (hFree.symm.trans hTaken) nofun
  rw [Lifetime.removeOldSlave, hNone]

theorem Sound.adds (h : Sound w) (hOpen : openMaster w = some w') : ∃ d id, w.dev = [d] ∧ Adds w w' d id := by
  obtain ⟨d, hDev, hLt, hSide, hHandle, hOpened, hNot⟩ := h.placed.dev
  rw [openMaster, hDev] at hOpen
  dsimp only [List.head?] at hOpen
  have hSelf : (reference w d).node d = { w.node d with refcount := (w.node d).refcount + 1 } := update_self ..
  have hNone : ((reference w d).node d).handle = none := by
    rw [hSelf]
    exact hHandle
  rw [if_pos hNone] at hOpen
  cases hAlloc : idAlloc (reference w d).ids with
  | mk ids found =>
    rw [hAlloc] at hOpen
    cases found with
    | none => cases hOpen
    | some id =>
      cases hOpen
      have hTakes : Takes w.ids ids id := by
        have hSome : (idAlloc w.ids).2 = some id := congrArg Prod.snd hAlloc
        have hFst : (idAlloc w.ids).1 = ids := congrArg Prod.fst hAlloc
        exact hFst ▸ idAlloc_some h.allocator hSome
      have hPts : d ∉ w.pts := by
        intro hIn
        obtain ⟨p, hp, hEq⟩ := (h.pts d).mp hIn
        exact (hNot p hp.1).2 hEq.symm
      have hRemoved := h.removeOldSlave (mem_free.mp hTakes.free).2 hPts
      refine ⟨d, id, hDev, ?_⟩
      simp only [ptmxOpen, hRemoved]
      have hSlave : w.nodes ≠ d := hLt.ne.symm
      have hPtmx : w.nodes + 1 ≠ d := (lt_succ_of_lt hLt).ne'
      refine ⟨rfl, rfl, ?_, ?_, ?_, ?_, ?_, ?_, ?_, ?_, rfl, rfl, hTakes⟩
      · have hErase : w.dev.erase d = [] := by rw [hDev, List.erase_cons_head]
        exact congrArg (List.cons (w.nodes + 1)) hErase
      · exact fun q hq => update_of_ne hq.ne ..
      · exact update_self ..
      · intro k hk hne
        have hNew : k ≠ w.nodes := hk.ne
        have hNext : k ≠ w.nodes + 1 := (lt_succ_of_lt hk).ne
        refine (update_of_ne hne ..).trans ((update_of_ne hNext ..).trans ?_)
        exact (update_of_ne hNew ..).trans (update_of_ne hne ..)
      · refine (update_self ..).trans ?_
        rw [hSelf]
        rfl
      · refine (update_of_ne hSlave ..).trans ?_
        exact (update_of_ne (lt_succ_self _).ne ..).trans (update_self ..)
      · exact (update_of_ne hPtmx ..).trans (update_self ..)
      · rfl

theorem Adds.placed (hPlaced : Placed w) (hDev : w.dev = [d]) (h : Adds w w' d id) : Placed w' := by
  obtain ⟨e, hEq, hLt, hSide, -, hOpened, hNot⟩ := hPlaced.dev
  obtain rfl : d = e := List.head_eq_of_cons_eq (hDev.symm.trans hEq)
  have hOld : ∀ q < w'.pairs, q ≠ w.pairs → q < w.pairs := by
    intro q hq hne
    rw [h.pairs] at hq
    exact lt_of_le_of_ne (Nat.le_of_lt_succ hq) hne
  have hEnds : ∀ q < w'.pairs, (q = w.pairs ∧ (w'.pair q).masterNode = d ∧ (w'.pair q).slaveNode = w.nodes) ∨
      (q < w.pairs ∧ w'.pair q = w.pair q) := by
    intro q hq
    obtain rfl | hne := eq_or_ne q w.pairs
    · refine .inl ⟨rfl, ?_⟩
      rw [h.new]
      exact ⟨rfl, rfl⟩
    · exact .inr ⟨hOld q hq hne, h.pair q (hOld q hq hne)⟩
  constructor
  · refine ⟨w.nodes + 1, h.dev, ?_, ?_, ?_, ?_, ?_⟩
    · rw [h.nodes]
      exact lt_succ_self _
    · rw [h.ptmx]
    · rw [h.ptmx]
    · have hne : w.nodes + 1 ≠ d := (lt_succ_of_lt hLt).ne'
      rw [h.opened, update_of_ne hne]
      refine Nat.eq_zero_of_not_pos fun hPos => ?_
      obtain ⟨q, hq, hEnd | hEnd⟩ := hPlaced.opened _ hPos
      · exact (lt_succ_of_lt (hPlaced.known q hq).1).ne hEnd.symm
      · exact (lt_succ_of_lt (hPlaced.known q hq).2).ne hEnd.symm
    · intro q hq
      obtain ⟨-, hMaster, hSlave⟩ | ⟨hLess, hPair⟩ := hEnds q hq
      · rw [hMaster, hSlave]
        exact ⟨(lt_succ_of_lt hLt).ne, (lt_succ_self _).ne⟩
      · rw [hPair]
        exact ⟨(lt_succ_of_lt (hPlaced.known q hLess).1).ne, (lt_succ_of_lt (hPlaced.known q hLess).2).ne⟩
  · intro q hq
    rw [h.nodes]
    obtain ⟨-, hMaster, hSlave⟩ | ⟨hLess, hPair⟩ := hEnds q hq
    · rw [hMaster, hSlave]
      exact ⟨lt_succ_of_lt (lt_succ_of_lt hLt), lt_succ_of_lt (lt_succ_self _)⟩
    · rw [hPair]
      exact ⟨lt_succ_of_lt (lt_succ_of_lt (hPlaced.known q hLess).1),
        lt_succ_of_lt (lt_succ_of_lt (hPlaced.known q hLess).2)⟩
  · intro q hq r hr hSame
    obtain ⟨rfl, hMaster, -⟩ | ⟨hLess, hPair⟩ := hEnds q hq
    · obtain ⟨rfl, -, -⟩ | ⟨hLess', hPair'⟩ := hEnds r hr
      · rfl
      · rw [hMaster, hPair'] at hSame
        exact absurd hSame.symm (hNot r hLess').1
    · obtain ⟨rfl, hMaster, -⟩ | ⟨hLess', hPair'⟩ := hEnds r hr
      · rw [hMaster, hPair] at hSame
        exact absurd hSame (hNot q hLess).1
      · rw [hPair, hPair'] at hSame
        exact hPlaced.masters q hLess r hLess' hSame
  · intro q hq r hr hSame
    obtain ⟨rfl, -, hSlave⟩ | ⟨hLess, hPair⟩ := hEnds q hq
    · obtain ⟨rfl, -, -⟩ | ⟨hLess', hPair'⟩ := hEnds r hr
      · rfl
      · rw [hSlave, hPair'] at hSame
        exact absurd hSame.symm (hPlaced.known r hLess').2.ne
    · obtain ⟨rfl, -, hSlave⟩ | ⟨hLess', hPair'⟩ := hEnds r hr
      · rw [hSlave, hPair] at hSame
        exact absurd hSame (hPlaced.known q hLess).2.ne
      · rw [hPair, hPair'] at hSame
        exact hPlaced.slaves q hLess r hLess' hSame
  · intro q hq r hr hSame
    obtain ⟨rfl, hMaster, -⟩ | ⟨hLess, hPair⟩ := hEnds q hq
    · obtain ⟨rfl, -, hSlave⟩ | ⟨hLess', hPair'⟩ := hEnds r hr
      · rw [hMaster, hSlave] at hSame
        exact hLt.ne hSame
      · rw [hMaster, hPair'] at hSame
        exact (hNot r hLess').2 hSame.symm
    · obtain ⟨rfl, -, hSlave⟩ | ⟨hLess', hPair'⟩ := hEnds r hr
      · rw [hSlave, hPair] at hSame
        exact (hPlaced.known q hLess).1.ne hSame
      · rw [hPair, hPair'] at hSame
        exact hPlaced.apart q hLess r hLess' hSame
  · intro n hPos
    rw [h.pairs]
    obtain rfl | hne := eq_or_ne n d
    · refine ⟨w.pairs, lt_succ_self _, .inl ?_⟩
      rw [h.new]
    · rw [h.opened, update_of_ne hne] at hPos
      obtain ⟨q, hq, hNode⟩ := hPlaced.opened n hPos
      refine ⟨q, lt_succ_of_lt hq, ?_⟩
      rw [h.pair q hq]
      exact hNode

theorem Adds.others (hPlaced : Placed w) (hDev : w.dev = [d]) (h : Adds w w' d id) (hq : q < w.pairs) :
    (HoldsAt w' q ↔ HoldsAt w q) ∧ (GoneAt w' q ↔ GoneAt w q) := by
  obtain ⟨e, hEq, -, -, -, -, hNot⟩ := hPlaced.dev
  obtain rfl : d = e := List.head_eq_of_cons_eq (hDev.symm.trans hEq)
  have hKnown := hPlaced.known q hq
  have hMaster := h.node _ hKnown.1 (hNot q hq).1
  have hSlave := h.node _ hKnown.2 (hNot q hq).2
  have hMasters : w'.opened (w.pair q).masterNode = w.opened (w.pair q).masterNode := by
    rw [h.opened, update_of_ne (hNot q hq).1]
  have hSlaves : w'.opened (w.pair q).slaveNode = w.opened (w.pair q).slaveNode := by
    rw [h.opened, update_of_ne (hNot q hq).2]
  rw [HoldsAt, HoldsAt, GoneAt, GoneAt, h.pair q hq, hMaster, hSlave, hMasters, hSlaves]
  exact ⟨Iff.rfl, Iff.rfl⟩

theorem Adds.holds (hPlaced : Placed w) (hDev : w.dev = [d]) (h : Adds w w' d id) : HoldsAt w' w.pairs := by
  obtain ⟨e, hEq, hLt, hSide, -, hOpened, -⟩ := hPlaced.dev
  obtain rfl : d = e := List.head_eq_of_cons_eq (hDev.symm.trans hEq)
  have hMasters : w'.opened d = 1 := by rw [h.opened, update_self, hOpened]
  have hSlaves : w'.opened w.nodes = 0 := by
    have hne : w.nodes ≠ d := hLt.ne.symm
    rw [h.opened, update_of_ne hne]
    refine Nat.eq_zero_of_not_pos fun hPos => ?_
    obtain ⟨q, hq, hNode⟩ := hPlaced.opened _ hPos
    obtain hEnd | hEnd := hNode
    · exact (hPlaced.known q hq).1.ne hEnd.symm
    · exact (hPlaced.known q hq).2.ne hEnd.symm
  refine holdsAt_of h.new h.master h.slave hMasters hSlaves ?_
  refine ⟨rfl, rfl, rfl, Nat.one_pos, ⟨hSide, rfl⟩, fun _ => ⟨rfl, rfl⟩, ⟨rfl, rfl, rfl, rfl⟩, .inr ⟨rfl, rfl⟩⟩

theorem Sound.openMaster (hSound : Sound w) (hOpen : openMaster w = some w') : Sound w' := by
  obtain ⟨d, id, hDev, h⟩ := hSound.adds hOpen
  have hNew := h.holds hSound.placed hDev
  have hLives : ∀ q, w'.live q ↔ q = w.pairs ∨ w.live q := by
    intro q
    obtain rfl | hne := eq_or_ne q w.pairs
    · exact iff_of_true (hNew.live (Nat.lt_of_lt_of_eq (lt_succ_self _) h.pairs.symm)) (.inl rfl)
    · rw [or_iff_right hne, World.live, World.live, h.pairs]
      constructor
      · rintro ⟨hLt, hFree⟩
        have hLess := lt_of_le_of_ne (Nat.le_of_lt_succ hLt) hne
        exact ⟨hLess, h.pair q hLess ▸ hFree⟩
      · rintro ⟨hLess, hFree⟩
        exact ⟨lt_succ_of_lt hLess, (h.pair q hLess).symm ▸ hFree⟩
  have hId : (w'.pair w.pairs).id = id := by rw [h.new]
  have hSlave : (w'.pair w.pairs).slaveNode = w.nodes := by rw [h.new]
  have hFree : ∀ q, w.live q → (w.pair q).id ≠ id := by
    intro q hq hEq
    have hTaken := (hSound.taken id).mpr ⟨q, hq, hEq⟩
    exact absurd ((mem_free.mp h.ids.free).2.symm.trans hTaken) Bool.false_ne_true
  constructor
  · exact h.placed hSound.placed hDev
  · intro q hq
    obtain rfl | hne := eq_or_ne q w.pairs
    · exact .inl hNew
    · have hLess : q < w.pairs := lt_of_le_of_ne (Nat.le_of_lt_succ (Nat.lt_of_lt_of_eq hq h.pairs)) hne
      have hOthers := h.others hSound.placed hDev hLess
      exact (hSound.pairs q hLess).imp hOthers.1.mpr hOthers.2.mpr
  · intro n
    rw [h.pts, List.mem_cons, hSound.pts]
    constructor
    · rintro (rfl | ⟨p, hp, rfl⟩)
      · exact ⟨w.pairs, (hLives _).mpr (.inl rfl), hSlave.symm⟩
      · exact ⟨p, (hLives p).mpr (.inr hp), congrArg Pair.slaveNode (h.pair p hp.1).symm⟩
    · rintro ⟨p, hp, rfl⟩
      obtain rfl | hWas := (hLives p).mp hp
      · exact .inl hSlave
      · exact .inr ⟨p, hWas, congrArg Pair.slaveNode (h.pair p hWas.1)⟩
  · rw [h.pts, List.nodup_cons]
    refine ⟨fun hIn => ?_, hSound.ptsOnce⟩
    obtain ⟨p, hp, hEq⟩ := (hSound.pts _).mp hIn
    exact (hSound.placed.known p hp.1).2.ne hEq.symm
  · intro q
    rw [h.listed, List.mem_append, List.mem_singleton, hLives, hSound.listed, or_comm]
  · rw [h.listed, List.nodup_append_comm, List.singleton_append, List.nodup_cons]
    exact ⟨fun hIn => lt_irrefl _ ((hSound.listed _).mp hIn).1, hSound.listedOnce⟩
  · exact h.ids.sound
  · intro k
    rw [h.ids.bitmap, update_apply]
    split
    · next hEq =>
      refine iff_of_true rfl ⟨w.pairs, (hLives _).mpr (.inl rfl), hId.trans hEq.symm⟩
    · next hne =>
      rw [hSound.taken]
      constructor
      · rintro ⟨q, hq, rfl⟩
        exact ⟨q, (hLives q).mpr (.inr hq), congrArg Pair.id (h.pair q hq.1)⟩
      · rintro ⟨q, hq, rfl⟩
        obtain rfl | hWas := (hLives q).mp hq
        · exact absurd hId hne
        · exact ⟨q, hWas, congrArg Pair.id (h.pair q hWas.1).symm⟩
  · intro q r hq hr hEq
    obtain rfl | hWas := (hLives q).mp hq
    · obtain rfl | hWas' := (hLives r).mp hr
      · rfl
      · rw [hId, h.pair r hWas'.1] at hEq
        exact absurd hEq.symm (hFree r hWas')
    · obtain rfl | hWas' := (hLives r).mp hr
      · rw [hId, h.pair q hWas.1] at hEq
        exact absurd hEq (hFree q hWas)
      · rw [h.pair q hWas.1, h.pair r hWas'.1] at hEq
        exact hSound.ids q r hWas hWas' hEq

theorem World.init_sound : Sound World.init := by
  have hNone : ∀ p, ¬ World.init.live p := fun p hp => Nat.not_lt_zero _ hp.1
  constructor
  · refine ⟨⟨0, rfl, Nat.one_pos, rfl, rfl, rfl, ?_⟩, ?_, ?_, ?_, ?_, ?_⟩
    all_goals intro n hn
    all_goals exact nomatch hn
  · exact fun p hp => nomatch hp
  · exact fun n => iff_of_false List.not_mem_nil fun ⟨p, hp, _⟩ => hNone p hp
  · exact List.nodup_nil
  · exact fun p => iff_of_false List.not_mem_nil (hNone p)
  · exact List.nodup_nil
  · exact idAllocatorCreate_sound (by decide)
  · exact fun id => iff_of_false Bool.false_ne_true fun ⟨p, hp, _⟩ => hNone p hp
  · exact fun p _ hp => absurd hp (hNone p)

theorem Acts.sound {a : Act} (hActs : Acts w a w') (h : Sound w) (hOnce : OpensOnce w a) : Sound w' := by
  cases hActs with
  | openMaster hOpen => exact h.openMaster hOpen
  | openSlave hOpen => exact h.openSlave hOpen hOnce
  | notFound => exact h
  | dup hOpened => exact h.dup hOpened
  | close hOpened => exact h.close hOpened

theorem Sound.opens_uncounted {number : Nat} (h : Sound w) (hOpen : Lifetime.openSlave w number = some w')
    (hFind : Lifetime.findSlave w number = some n) (hSome : (w.node n).handle ≠ none) : ¬ Lives w' := by
  obtain ⟨p, hp, rfl, -⟩ := h.findSlave hFind
  have hHandle : ((reference w (w.pair p).slaveNode).node (w.pair p).slaveNode).handle ≠ none := by
    have hSelf : (reference w (w.pair p).slaveNode).node (w.pair p).slaveNode =
        { w.node (w.pair p).slaveNode with refcount := (w.node (w.pair p).slaveNode).refcount + 1 } :=
      update_self ..
    rw [hSelf]
    exact hSome
  rw [Lifetime.openSlave, hFind] at hOpen
  dsimp only at hOpen
  rw [Lifetime.updateSlave, if_neg hHandle] at hOpen
  cases hOpen
  intro hLives
  have hCount := (hLives.counts p hp).2
  have hOpened : w.opened (w.pair p).slaveNode + 1 = (w.pair p).slaveFds := (update_self ..).symm.trans hCount.symm
  rw [(h.holds hp).slaveFds] at hOpened
  exact Nat.succ_ne_self _ hOpened

end

/-- The pairs live as long as their descriptors, until a slave is opened once more. -/
theorem pairs_live_with_descriptors {acts : List Act} {w : World}
    (hRun : Run (ptySystem.restrict OpensOnce) World.init acts w) :
    Lives w ∧ ∀ a w', ptySystem.step w a w' → (Lives w' ↔ OpensOnce w a) := by
  have hStep : ∀ v a v', Sound v → (ptySystem.restrict OpensOnce).step v a v' → Sound v' :=
    fun _ _ _ h hActs => Acts.sound hActs.2 h hActs.1
  have hSound := hRun.invariant hStep World.init_sound
  refine ⟨hSound.lives, fun a w' hActs => ⟨fun hLives => ?_, fun hOnce => (Acts.sound hActs hSound hOnce).lives⟩⟩
  cases hActs with
  | openSlave hOpen =>
    intro n hFind
    by_contra hSome
    exact hSound.opens_uncounted hOpen hFind hSome hLives
  | notFound hNot =>
    intro n hFind
    rw [openSlave, hFind] at hNot
    cases hNot
  | openMaster | dup | close => exact trivial

/-- A terminal is opened at both ends and its slave closed. -/
theorem pairs_live_with_descriptors_opened : ∃ w,
    Run (ptySystem.restrict OpensOnce) World.init [.openMaster, .openSlave 0, .close 1] w ∧ Lives w ∧
      ∀ a w', ptySystem.step w a w' → (Lives w' ↔ OpensOnce w a) := by
  have hOnce : ∀ n, findSlave ((openMaster World.init).get rfl) 0 = some n →
      (((openMaster World.init).get rfl).node n).handle = none := by
    intro n hFind
    have hFound : findSlave ((openMaster World.init).get rfl) 0 = some 1 := rfl
    cases hFound.symm.trans hFind
    rfl
  have hOpen : Acts World.init .openMaster ((openMaster World.init).get rfl) := .openMaster (Option.some_get rfl).symm
  have hRun := (Run.nil (M := ptySystem.restrict OpensOnce) World.init).snoc (l := Act.openMaster) ⟨trivial, hOpen⟩
  have hRun := hRun.snoc (l := Act.openSlave 0) ⟨hOnce, .openSlave (Option.some_get (x := openSlave _ 0) rfl).symm⟩
  have hRun := hRun.snoc (l := Act.close 1) ⟨trivial, .close (by decide)⟩
  exact ⟨_, hRun, pairs_live_with_descriptors hRun⟩

/-- The slave is closed and opened again; when the master is closed the pair is freed under it. -/
theorem pair_freed_while_open : ∃ acts w, Run ptySystem World.init acts w ∧ (w.pair 0).freed = 1 ∧
    (w.pair 0).slaveNode = 1 ∧ w.opened 1 = 1 ∧ ¬ Lives w := by
  have hOpen : Acts World.init .openMaster ((openMaster World.init).get rfl) := .openMaster (Option.some_get rfl).symm
  have hRun := (Run.nil (M := ptySystem) World.init).snoc hOpen
  have hRun := hRun.snoc (l := Act.openSlave 0) (.openSlave (Option.some_get (x := openSlave _ 0) rfl).symm)
  have hRun := hRun.snoc (l := Act.close 1) (.close (by decide))
  have hRun := hRun.snoc (l := Act.openSlave 0) (.openSlave (Option.some_get (x := openSlave _ 0) rfl).symm)
  have hRun := hRun.snoc (l := Act.close 0) (.close (by decide))
  refine ⟨_, _, hRun, rfl, rfl, rfl, fun hLives => ?_⟩
  have hClosed := ((hLives.destroyed 0 (by decide)).2.mp rfl).2
  exact absurd hClosed (by decide)

end OpenXJ380.Pty.Lifetime
