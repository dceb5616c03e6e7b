import Mathlib.Data.Finset.Card
import OpenXJ380.Process.System
import OpenXJ380.Process.Ledger

/-! # Tables and the processes that share them

A table has one counter, which is the number of the processes that refer to it. A
process that gives up its table closes it if it was the last.
-/

namespace OpenXJ380.Process

open Function

namespace State

/-- The processes whose `file_open` is the table. -/
def sharers (s : State) (t : TableId) : Finset PcbId :=
  (Finset.range s.pcbs).filter fun p => s.pcbFreed p = 0 ∧ (s.pcb p).fileOpen = some t

def Uses (s : State) (t : TableId) : Prop := ∃ p, p ∈ s.sharers t

/-- A process that may be referred to: it was not freed, or has no table any more. -/
def Sound (s : State) (p : PcbId) : Prop := p < s.pcbs ∧ (s.pcbFreed p = 0 ∨ (s.pcb p).fileOpen = none)

variable {s : State} {t : TableId} {p : PcbId}

theorem mem_sharers :
    p ∈ s.sharers t ↔ p < s.pcbs ∧ s.pcbFreed p = 0 ∧ (s.pcb p).fileOpen = some t := by
  rw [sharers, Finset.mem_filter, Finset.mem_range]

theorem sharers_unique {u : TableId} (h : p ∈ s.sharers t) (h' : p ∈ s.sharers u) :
    t = u :=
  Option.some.inj ((mem_sharers.1 h).2.2.symm.trans (mem_sharers.1 h').2.2)

theorem Sound.sharers (h : s.Sound p) (ht : (s.pcb p).fileOpen = some t) :
    p ∈ s.sharers t := by
  refine mem_sharers.2 ⟨h.1, h.2.resolve_right ?_, ht⟩
  rw [ht]
  nofun

end State

/-- The account of a state: one counter a table, and the number of those who share it. -/
structure Shared (s : State) : Prop where
  filed : Filed s.files s.Uses
  refs : ∀ p t, p ∈ s.sharers t → ∃ c, (s.pcb p).fileOpenSharedRefs = some c ∧ c < s.files.counters ∧
    s.files.counter c = (s.sharers t).card
  same : ∀ p q t, p ∈ s.sharers t → q ∈ s.sharers t → (s.pcb p).fileOpenSharedRefs = (s.pcb q).fileOpenSharedRefs
  own : ∀ p q t u, p ∈ s.sharers t → q ∈ s.sharers u →
    (s.pcb p).fileOpenSharedRefs = (s.pcb q).fileOpenSharedRefs → t = u

structure SameShares (s s' : State) : Prop where
  sharers : ∀ t, s'.sharers t = s.sharers t
  refs : ∀ p t, p ∈ s.sharers t → (s'.pcb p).fileOpenSharedRefs = (s.pcb p).fileOpenSharedRefs

variable {s s' : State} {t : TableId} {f : Files} {c : CounterId} {p : PcbId}

theorem SameShares.uses (h : SameShares s s') (t : TableId) : s'.Uses t ↔ s.Uses t := by
  unfold State.Uses
  rw [h.sharers]

theorem Shared.keep (hShared : Shared s) (h : SameShares s s') (hFiled : Filed s'.files s.Uses)
    (hCounters : s.files.counters ≤ s'.files.counters)
    (hCounter : ∀ c, c < s.files.counters → s'.files.counter c = s.files.counter c) : Shared s' where
  filed := hFiled.congr fun t => (h.uses t).symm
  refs p t hp := by
    rw [h.sharers] at hp
    obtain ⟨c, hRefs, hLt, hCard⟩ := hShared.refs p t hp
    rw [h.sharers, h.refs p t hp]
    exact ⟨c, hRefs, hLt.trans_le hCounters, (hCounter c hLt).trans hCard⟩
  same p q t hp hq := by
    rw [h.sharers] at hp hq
    rw [h.refs p t hp, h.refs q t hq]
    exact hShared.same p q t hp hq
  own p q t u hp hq hEq := by
    rw [h.sharers] at hp hq
    rw [h.refs p t hp, h.refs q u hq] at hEq
    exact hShared.own p q t u hp hq hEq

structure Retains (s s' : State) : Prop where
  tables : s.files.tables ≤ s'.files.tables
  held : ∀ u, u < s.files.tables → s'.Uses u → s.Uses u ∧ ∀ h, h ∈ s.files.held u → h ∈ s'.files.held u

theorem Retains.trans {s'' : State} (h : Retains s s') (h' : Retains s' s'') : Retains s s'' where
  tables := h.tables.trans h'.tables
  held u hu hUses := by
    obtain ⟨hUses', hHeld'⟩ := h'.held u (hu.trans_le h.tables) hUses
    obtain ⟨hUses'', hHeld⟩ := h.held u hu hUses'
    exact ⟨hUses'', fun x hx => hHeld' x (hHeld x hx)⟩

theorem SameShares.retains (h : SameShares s s') (hTables : s.files.tables ≤ s'.files.tables)
    (hHeld : ∀ u, u < s.files.tables → ∀ x, x ∈ s.files.held u → x ∈ s'.files.held u) : Retains s s' :=
  ⟨hTables, fun u hu hUses => ⟨(h.uses u).1 hUses, hHeld u hu⟩⟩

theorem freeFdHandleQueue_rest (f : Files) {u : TableId} (hu : u ≠ t) : (freeFdHandleQueue f t).held u = f.held u ∧
    (freeFdHandleQueue f t).tables = f.tables := by
  obtain ⟨closed, h⟩ := foldl_closeHandle ((f.table t).map Descriptor.data) f
  rw [freeFdHandleQueue, h]
  exact ⟨(held_setTable { f with closed } t u []).trans (if_neg hu), rfl⟩

theorem freeFdHandleQueue_counters (f : Files) (t : TableId) : (freeFdHandleQueue f t).counter = f.counter ∧
    (freeFdHandleQueue f t).counters = f.counters := by
  obtain ⟨closed, h⟩ := foldl_closeHandle ((f.table t).map Descriptor.data) f
  rw [freeFdHandleQueue, h]
  exact ⟨rfl, rfl⟩

def giveUp (f : Files) (t : TableId) (refs : Option CounterId) : Files :=
  if (fdTableUnref f refs).2 then freeFdHandleQueue (fdTableUnref f refs).1 t else (fdTableUnref f refs).1

theorem fdTableUnref_kept (h : ¬f.counter c ≤ 1) : fdTableUnref f (some c) =
    ({ f with counter := update f.counter c (f.counter c - 1) }, false) :=
  if_neg h

theorem fdTableUnref_last (h : f.counter c ≤ 1) : fdTableUnref f (some c) =
    ({ f with
      counter := update f.counter c (f.counter c - 1)
      dropped := update f.dropped c (f.dropped c + 1) }, true) :=
  if_pos h

theorem giveUp_kept (h : ¬f.counter c ≤ 1) (t : TableId) : giveUp f t (some c) =
    { f with counter := update f.counter c (f.counter c - 1) } := by
  rw [giveUp, fdTableUnref_kept h]
  rfl

theorem giveUp_last (h : f.counter c ≤ 1) (t : TableId) : giveUp f t (some c) =
    freeFdHandleQueue { f with
      counter := update f.counter c (f.counter c - 1)
      dropped := update f.dropped c (f.dropped c + 1) } t := by
  rw [giveUp, fdTableUnref_last h]
  rfl

structure GivesUp (s s' : State) (p : PcbId) (t : TableId) : Prop where
  sharers : ∀ u, s'.sharers u = (s.sharers u).erase p
  refs : ∀ q u, q ∈ s'.sharers u → (s'.pcb q).fileOpenSharedRefs = (s.pcb q).fileOpenSharedRefs
  files : s'.files = giveUp s.files t (s.pcb p).fileOpenSharedRefs

theorem GivesUp.gone (h : GivesUp s s' p t) (hp : p ∈ s.sharers t)
    (hLast : (s.sharers t).card ≤ 1) : s'.sharers t = ∅ := by
  rw [h.sharers, ← Finset.card_eq_zero, Finset.card_erase_of_mem hp]
  omega

theorem Shared.givesUp (hShared : Shared s) (hp : p ∈ s.sharers t) (h : GivesUp s s' p t) : Shared s' := by
  obtain ⟨c, hRefs, hLt, hCard⟩ := hShared.refs p t hp
  have hOther : ∀ u, u ≠ t → s'.sharers u = s.sharers u := by
    intro u hu
    rw [h.sharers, Finset.erase_eq_of_notMem]
    intro hMem
    exact hu (State.sharers_unique hMem hp)
  have hMem : ∀ q u, q ∈ s'.sharers u → q ∈ s.sharers u := by
    intro q u hq
    rw [h.sharers] at hq
    exact Finset.mem_of_mem_erase hq
  have hSame : ∀ q r u, q ∈ s'.sharers u → r ∈ s'.sharers u →
      (s'.pcb q).fileOpenSharedRefs = (s'.pcb r).fileOpenSharedRefs := by
    intro q r u hq hr
    rw [h.refs q u hq, h.refs r u hr]
    exact hShared.same q r u (hMem q u hq) (hMem r u hr)
  have hOwn : ∀ q r u v, q ∈ s'.sharers u → r ∈ s'.sharers v →
      (s'.pcb q).fileOpenSharedRefs = (s'.pcb r).fileOpenSharedRefs → u = v := by
    intro q r u v hq hr hEq
    rw [h.refs q u hq, h.refs r v hr] at hEq
    exact hShared.own q r u v (hMem q u hq) (hMem r v hr) hEq
  -- no process of another table has the counter
  have hCounter : ∀ q u, u ≠ t → q ∈ s.sharers u → ∀ d, (s.pcb q).fileOpenSharedRefs = some d → d ≠ c := by
    rintro q u hu hq d hd rfl
    exact hu (hShared.own q p u t hq hp (hd.trans hRefs.symm))
  have hFiles := h.files
  rw [hRefs] at hFiles
  obtain hMany | hLast := lt_or_ge 1 (s.sharers t).card
  · have hKept : ¬s.files.counter c ≤ 1 := by
      rw [hCard]
      exact not_le.2 hMany
    have hFiles' := hFiles.trans (giveUp_kept hKept t)
    have hCardErase : (s'.sharers t).card = (s.sharers t).card - 1 := by
      rw [h.sharers, Finset.card_erase_of_mem hp]
    refine ⟨?_, ?_, hSame, hOwn⟩
    · have hUses : ∀ u, s.Uses u ↔ s'.Uses u := by
        intro u
        obtain rfl | hu := eq_or_ne u t
        · have hSome : 0 < (s'.sharers u).card := by
            rw [hCardErase]
            omega
          exact ⟨fun _ => Finset.card_pos.1 hSome, fun _ => ⟨p, hp⟩⟩
        · rw [State.Uses, State.Uses, hOther u hu]
      rw [hFiles']
      have hFiled : Filed { s.files with counter := update s.files.counter c (s.files.counter c - 1) }
          s.Uses := { hShared.filed with }
      exact hFiled.congr hUses
    · intro q u hq
      rw [h.refs q u hq]
      obtain ⟨d, hd, hdLt, hdCard⟩ := hShared.refs q u (hMem q u hq)
      refine ⟨d, hd, hFiles' ▸ hdLt, ?_⟩
      have hUpdate : s'.files.counter d = if d = c then s.files.counter c - 1 else s.files.counter d := by
        rw [hFiles']
        exact update_apply ..
      rw [hUpdate]
      obtain rfl | hu := eq_or_ne u t
      · have hdc : d = c := Option.some.inj (hd.symm.trans ((hShared.same q p u (hMem q u hq) hp).trans hRefs))
        rw [if_pos hdc, hCard, hCardErase]
      · rw [if_neg (hCounter q u hu (hMem q u hq) d hd), hOther u hu, hdCard]
  · have hZero : s.files.counter c ≤ 1 := by
      rw [hCard]
      exact hLast
    have hFiles' := hFiles.trans (giveUp_last hZero t)
    have hGone := h.gone hp hLast
    refine ⟨?_, ?_, hSame, hOwn⟩
    · have hFiled : Filed { s.files with
          counter := update s.files.counter c (s.files.counter c - 1)
          dropped := update s.files.dropped c (s.files.dropped c + 1) } s.Uses := { hShared.filed with }
      rw [hFiles']
      refine (hFiled.free ⟨p, hp⟩).congr ?_
      intro u
      obtain rfl | hu := eq_or_ne u t
      · rw [State.Uses, State.Uses, hGone]
        constructor
        · exact fun hu => absurd rfl hu.2
        · rintro ⟨q, hq⟩
          exact absurd hq (Finset.notMem_empty q)
      · rw [State.Uses, State.Uses, hOther u hu]
        exact ⟨And.left, fun hu' => ⟨hu', hu⟩⟩
    · intro q u hq
      have hu : u ≠ t := by
        rintro rfl
        rw [hGone] at hq
        exact Finset.notMem_empty q hq
      rw [h.refs q u hq, hOther u hu, hFiles', (freeFdHandleQueue_counters _ t).1, (freeFdHandleQueue_counters _ t).2]
      obtain ⟨d, hd, hdLt, hdCard⟩ := hShared.refs q u (hMem q u hq)
      have hUpdate := update_of_ne (hCounter q u hu (hMem q u hq) d hd) (s.files.counter c - 1) s.files.counter
      exact ⟨d, hd, hdLt, hUpdate.trans hdCard⟩

theorem GivesUp.retains (hShared : Shared s) (hp : p ∈ s.sharers t) (h : GivesUp s s' p t) : Retains s s' := by
  obtain ⟨c, hRefs, -, hCard⟩ := hShared.refs p t hp
  have hUses : ∀ u, s'.Uses u → s.Uses u := by
    rintro u ⟨q, hq⟩
    rw [h.sharers] at hq
    exact ⟨q, Finset.mem_of_mem_erase hq⟩
  have hFiles := h.files
  rw [hRefs] at hFiles
  obtain hMany | hLast := lt_or_ge 1 (s.sharers t).card
  · have hKept : ¬s.files.counter c ≤ 1 := by
      rw [hCard]
      exact not_le.2 hMany
    rw [giveUp_kept hKept] at hFiles
    refine ⟨(congrArg Files.tables hFiles).symm.le, ?_⟩
    intro u _ hu
    refine ⟨hUses u hu, fun x hx => ?_⟩
    rw [hFiles]
    exact hx
  · have hZero : s.files.counter c ≤ 1 := by
      rw [hCard]
      exact hLast
    rw [giveUp_last hZero] at hFiles
    have hGone := h.gone hp hLast
    constructor
    · obtain ⟨-, hTables⟩ := freeFdHandleQueue_rest { s.files with
        counter := update s.files.counter c (s.files.counter c - 1)
        dropped := update s.files.dropped c (s.files.dropped c + 1) } (Nat.succ_ne_self t)
      rw [hFiles]
      exact hTables.symm.le
    · intro u _ hu
      have hne : u ≠ t := by
        rintro rfl
        obtain ⟨q, hq⟩ := hu
        rw [hGone] at hq
        exact Finset.notMem_empty q hq
      refine ⟨hUses u hu, fun x hx => ?_⟩
      rw [hFiles]
      exact (freeFdHandleQueue_rest _ hne).1.symm ▸ hx

structure Joins (s s' : State) (p : PcbId) (t : TableId) (c : CounterId) : Prop where
  new : ∀ u, p ∉ s.sharers u
  sharers : ∀ q u, q ∈ s'.sharers u ↔ q ∈ s.sharers u ∨ q = p ∧ u = t
  refs : ∀ q u, q ∈ s.sharers u → (s'.pcb q).fileOpenSharedRefs = (s.pcb q).fileOpenSharedRefs
  self : (s'.pcb p).fileOpenSharedRefs = some c

theorem Joins.insert (h : Joins s s' p t c) :
    s'.sharers t = insert p (s.sharers t) := by
  ext q
  rw [h.sharers, Finset.mem_insert, or_comm]
  exact ⟨Or.imp_left And.left, Or.imp_left fun hq => ⟨hq, rfl⟩⟩

theorem Joins.other (h : Joins s s' p t c) {u : TableId} (hu : u ≠ t) : s'.sharers u = s.sharers u := by
  ext q
  rw [h.sharers]
  exact ⟨fun hq => hq.resolve_right fun hq => hu hq.2, .inl⟩

theorem Joins.card (h : Joins s s' p t c) :
    (s'.sharers t).card = (s.sharers t).card + 1 := by
  rw [h.insert, Finset.card_insert_of_notMem (h.new t)]

theorem Shared.joins (hShared : Shared s) {q : PcbId}
    (hq : q ∈ s.sharers t) (hRefs : (s.pcb q).fileOpenSharedRefs = some c) (h : Joins s s' p t c)
    (hFiles : s'.files = fdTableRef s.files (some c)) : Shared s' := by
  have hKnown : ∀ r u, r ∈ s'.sharers u → (∃ z, z ∈ s.sharers u ∧
      (s'.pcb r).fileOpenSharedRefs = (s.pcb z).fileOpenSharedRefs) := by
    intro r u hr
    obtain hr | ⟨rfl, rfl⟩ := (h.sharers r u).1 hr
    · exact ⟨r, hr, h.refs r u hr⟩
    · exact ⟨q, hq, h.self.trans hRefs.symm⟩
  refine ⟨?_, ?_, ?_, ?_⟩
  · have hFiled : Filed (fdTableRef s.files (some c)) s.Uses := { hShared.filed with }
    rw [hFiles]
    refine hFiled.congr fun u => ?_
    obtain rfl | hu := eq_or_ne u t
    · exact ⟨fun _ => ⟨q, (h.sharers q u).2 (.inl hq)⟩, fun _ => ⟨q, hq⟩⟩
    · rw [State.Uses, State.Uses, h.other hu]
  · intro r u hr
    obtain ⟨z, hz, hEq⟩ := hKnown r u hr
    obtain ⟨d, hd, hdLt, hdCard⟩ := hShared.refs z u hz
    refine ⟨d, hEq.trans hd, hFiles ▸ hdLt, ?_⟩
    have hUpdate : s'.files.counter d = if d = c then s.files.counter c + 1 else s.files.counter d := by
      rw [hFiles]
      exact update_apply ..
    rw [hUpdate]
    obtain rfl | hu := eq_or_ne u t
    · have hdc : d = c := Option.some.inj (hd.symm.trans ((hShared.same z q u hz hq).trans hRefs))
      rw [if_pos hdc, h.card, ← hdc, hdCard]
    · have hdc : d ≠ c := by
        rintro rfl
        exact hu (hShared.own z q u t hz hq (hd.trans hRefs.symm))
      rw [if_neg hdc, h.other hu, hdCard]
  · intro r r' u hr hr'
    obtain ⟨z, hz, hEq⟩ := hKnown r u hr
    obtain ⟨z', hz', hEq'⟩ := hKnown r' u hr'
    rw [hEq, hEq']
    exact hShared.same z z' u hz hz'
  · intro r r' u v hr hr' hSame
    obtain ⟨z, hz, hEq⟩ := hKnown r u hr
    obtain ⟨z', hz', hEq'⟩ := hKnown r' v hr'
    rw [hEq, hEq'] at hSame
    exact hShared.own z z' u v hz hz' hSame

theorem Joins.retains (h : Joins s s' p t c)
    (ht : t < s.files.tables → s.Uses t) (hTables : s.files.tables ≤ s'.files.tables)
    (hHeld : ∀ u, u < s.files.tables → s'.files.held u = s.files.held u) : Retains s s' := by
  refine ⟨hTables, ?_⟩
  rintro u hu ⟨q, hq⟩
  have hUses : s.Uses u := by
    obtain hq | ⟨-, rfl⟩ := (h.sharers q u).1 hq
    · exact ⟨q, hq⟩
    · exact ht hu
  exact ⟨hUses, fun x hx => (hHeld u hu).symm ▸ hx⟩

theorem Shared.owns (hShared : Shared s)
    (h : Joins s s' p t s.files.counters) (hNew : ¬s.Uses t) (hFiled : Filed s'.files fun u => s.Uses u ∨ u = t)
    (hCounters : s'.files.counters = s.files.counters + 1)
    (hCounter : s'.files.counter = update s.files.counter s.files.counters 1) : Shared s' := by
  have hNone : s.sharers t = ∅ := Finset.not_nonempty_iff_eq_empty.1 hNew
  have hOnly : ∀ r, r ∈ s'.sharers t → r = p := by
    intro r hr
    rw [h.insert, hNone] at hr
    exact Finset.mem_singleton.1 hr
  have hOther : ∀ r u, r ∈ s'.sharers u → u ≠ t → r ∈ s.sharers u := by
    intro r u hr hu
    rwa [h.other hu] at hr
  have hFresh : ∀ r u, r ∈ s.sharers u → (s.pcb r).fileOpenSharedRefs ≠ some s.files.counters := by
    intro r u hr hEq
    obtain ⟨d, hd, hLt, -⟩ := hShared.refs r u hr
    exact hLt.ne (Option.some.inj (hd.symm.trans hEq))
  refine ⟨?_, ?_, ?_, ?_⟩
  · refine hFiled.congr fun u => ?_
    constructor
    · rintro (⟨r, hr⟩ | rfl)
      · exact ⟨r, (h.sharers r u).2 (.inl hr)⟩
      · exact ⟨p, (h.sharers p u).2 (.inr ⟨rfl, rfl⟩)⟩
    · rintro ⟨r, hr⟩
      exact ((h.sharers r u).1 hr).imp (fun hr => ⟨r, hr⟩) And.right
  · intro r u hr
    obtain rfl | hu := eq_or_ne u t
    · rw [hOnly r hr]
      refine ⟨s.files.counters, h.self, hCounters ▸ Nat.lt_succ_self _, ?_⟩
      rw [hCounter, update_self, h.card, hNone, Finset.card_empty]
    · have hr := hOther r u hr hu
      obtain ⟨d, hd, hLt, hCard⟩ := hShared.refs r u hr
      refine ⟨d, (h.refs r u hr).trans hd, hCounters ▸ Nat.lt_succ_of_lt hLt, ?_⟩
      rw [hCounter, update_of_ne hLt.ne, h.other hu, hCard]
  · intro r r' u hr hr'
    obtain rfl | hu := eq_or_ne u t
    · rw [hOnly r hr, hOnly r' hr']
    · have hr := hOther r u hr hu
      have hr' := hOther r' u hr' hu
      rw [h.refs r u hr, h.refs r' u hr']
      exact hShared.same r r' u hr hr'
  · intro r r' u v hr hr' hSame
    obtain rfl | hu := eq_or_ne u t
    · obtain rfl | hv := eq_or_ne v u
      · rfl
      · have hr' := hOther r' v hr' hv
        rw [hOnly r hr, h.self, h.refs r' v hr'] at hSame
        exact absurd hSame.symm (hFresh r' v hr')
    · have hr := hOther r u hr hu
      obtain rfl | hv := eq_or_ne v t
      · rw [hOnly r' hr', h.self, h.refs r u hr] at hSame
        exact absurd hSame (hFresh r u hr)
      · have hr' := hOther r' v hr' hv
        rw [h.refs r u hr, h.refs r' v hr'] at hSame
        exact hShared.own r r' u v hr hr' hSame

end OpenXJ380.Process
