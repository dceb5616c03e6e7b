import OpenXJ380.Pipe.Waiting

/-! # No wake-up is lost

Whoever is on a list is in a transfer that cannot go on, unless the task that holds
the lock is about to empty the list. Whoever sleeps without a time limit is on a
list, or before a task that walks its nodes.
-/

namespace OpenXJ380.Pipe.Waiting

open Sched Transition

def State.Empties (s : State) (e : End) : Prop := ∃ u closing, s.place u = .emptying e closing

def Fits (s : State) (t : TcbT) : Place → Prop
  | .outside => True
  | .registering x => ¬ x.Ready s.pipe ∧ s.status t ≠ .wait
  | .marking x => t ∈ s.pipe.blocking x.waitsOn ∧ s.status t ≠ .wait
  | .parting x => t ∈ s.pipe.blocking x.waitsOn
  | .asleep x => s.status t = .wait → s.Listed x.waitsOn t
  | .sleeping _ => s.status t = .wait → s.wakeupTime t ≠ 0
  | _ => s.status t ≠ .wait

structure Orderly (s : State) : Prop where
  bounded : s.pipe.ptr ≤ pipeBuff
  lock : ∀ t, (s.place t).Holds → s.lock = some t
  listed : ∀ e, ∀ t ∈ s.pipe.blocking e, ∃ x, (s.place t).transfer = some x ∧ x.waitsOn = e ∧
    (¬ x.Ready s.pipe ∨ s.Empties e)
  fits : ∀ t, Fits s t (s.place t)

variable {s s' : State} {t u : TcbT} {e : End} {x : Transfer} {p : Place}

@[simp] theorem go_place_self (s : State) (t : TcbT) (p : Place) : (s.go t p).place t = p := by simp [State.go]

@[simp] theorem go_place_ne (s : State) (p : Place) (hNe : u ≠ t) : (s.go t p).place u = s.place u := by
  simp [State.go, hNe]

theorem Orderly.holder (h : Orderly s) (ht : (s.place t).Holds) (hu : (s.place u).Holds) : u = t :=
  Option.some.inj ((h.lock u hu).symm.trans (h.lock t ht))

theorem todo_holds {l : End × List TcbT} (hTodo : p.todo = some l) : p.Holds := by
  cases p with
  | waking e todo closing => trivial
  | starting e task todo closing => trivial
  | _ => cases hTodo

theorem Orderly.nobody (h : Orderly s) (hHeld : (s.place t).Holds) (hNone : (s.place t).todo = none) (v : TcbT)
    (l : End × List TcbT) : (s.place v).todo ≠ some l := by
  intro hTodo
  rw [h.holder hHeld (todo_holds hTodo), hNone] at hTodo
  cases hTodo

theorem State.Listed.mono (h : s.Listed e t) (hBlocking : t ∈ s.pipe.blocking e → t ∈ s'.pipe.blocking e)
    (hTodo : ∀ u todo, (s.place u).todo = some (e, todo) → t ∈ todo →
      ∃ todo', (s'.place u).todo = some (e, todo') ∧ t ∈ todo') : s'.Listed e t := by
  obtain hMem | ⟨u, todo, hWalks, hMem⟩ := h
  · exact .inl (hBlocking hMem)
  · obtain ⟨todo', hWalks', hMem'⟩ := hTodo u todo hWalks hMem
    exact .inr ⟨u, todo', hWalks', hMem'⟩

theorem Fits.frame (h : Fits s t p)
    (hStatus : s'.status t = .wait → s.status t = .wait ∧ s'.wakeupTime t = s.wakeupTime t)
    (hPipe : p.Holds → s'.pipe = s.pipe)
    (hListed : ∀ e, p.Holds ∨ s'.status t = .wait → s.Listed e t → s'.Listed e t) : Fits s' t p := by
  have hAwake : s.status t ≠ .wait → s'.status t ≠ .wait := fun hNot hWait => hNot (hStatus hWait).1
  cases p with
  | outside => trivial
  | registering x =>
    refine ⟨?_, hAwake h.2⟩
    rw [hPipe trivial]
    exact h.1
  | marking x =>
    refine ⟨?_, hAwake h.2⟩
    rw [hPipe trivial]
    exact h.1
  | parting x =>
    change t ∈ s'.pipe.blocking _
    rw [hPipe trivial]
    exact h
  | asleep x => exact fun hWait => hListed _ (.inr hWait) (h (hStatus hWait).1)
  | sleeping x =>
    intro hWait
    rw [(hStatus hWait).2]
    exact h (hStatus hWait).1
  | locking r => exact hAwake h
  | testing r => exact hAwake h
  | emptying e c => exact hAwake h
  | waking e l c => exact hAwake h
  | starting e v l c => exact hAwake h
  | unlocking f => exact hAwake h
  | freeing => exact hAwake h
  | awake x => exact hAwake h
  | yielding x => exact hAwake h
  | giving x => exact hAwake h
  | dozing x => exact hAwake h

theorem Orderly.statuses (h : Orderly s) (hPipe : s'.pipe = s.pipe) (hLock : s'.lock = s.lock)
    (hPlace : s'.place = s.place) (hStatus : ∀ t, s.place t ≠ .outside → s'.status t = .wait →
      s.status t = .wait ∧ s'.wakeupTime t = s.wakeupTime t) : Orderly s' := by
  refine ⟨?_, ?_, ?_, ?_⟩
  · rw [hPipe]
    exact h.bounded
  · intro t ht
    rw [hPlace] at ht
    rw [hLock]
    exact h.lock t ht
  · intro e t ht
    rw [hPipe] at ht
    rw [hPlace, hPipe, State.Empties, hPlace]
    exact h.listed e t ht
  · intro t
    rw [hPlace]
    by_cases hOutside : s.place t = .outside
    · rw [hOutside]
      trivial
    · apply (h.fits t).frame (hStatus t hOutside) fun _ => hPipe
      intro e _ hListed
      apply hListed.mono
      · rw [hPipe]
        exact id
      · rw [hPlace]
        exact fun u todo hTodo hMem => ⟨todo, hTodo, hMem⟩

def Place.Plain (p : Place) : Prop := p.todo = none ∧ ∀ e closing, p ≠ .emptying e closing

theorem Orderly.move (h : Orderly s) (hPlain : (s.place t).Plain) (hPipe : s'.pipe = s.pipe)
    (hPlace : s'.place = (s.go t p).place) (hLock : ∀ u, (s'.place u).Holds → s'.lock = some u)
    (hStatus : ∀ u, u ≠ t → s'.status u = s.status u ∧ s'.wakeupTime u = s.wakeupTime u)
    (hTransfer : ∀ e, t ∈ s.pipe.blocking e → p.transfer = (s.place t).transfer) (hOwn : Fits s' t p) : Orderly s' := by
  have hSelf : s'.place t = p := by rw [hPlace, go_place_self]
  have hOther : ∀ u, u ≠ t → s'.place u = s.place u := fun u hu => by rw [hPlace, go_place_ne s p hu]
  have hListed : ∀ e u, s.Listed e u → s'.Listed e u := by
    intro e u hMem
    apply hMem.mono
    · rw [hPipe]
      exact id
    · intro v todo hTodo hIn
      refine ⟨todo, ?_, hIn⟩
      rw [hOther v, hTodo]
      rintro rfl
      rw [hPlain.1] at hTodo
      cases hTodo
  refine ⟨?_, hLock, ?_, ?_⟩
  · rw [hPipe]
    exact h.bounded
  · intro e u hu
    rw [hPipe] at hu
    obtain ⟨x, hx, hEnd, hReady⟩ := h.listed e u hu
    refine ⟨x, ?_, hEnd, ?_⟩
    · by_cases hSame : u = t
      · subst hSame
        rw [hSelf, hTransfer e hu, hx]
      · rw [hOther u hSame, hx]
    · rw [hPipe]
      obtain hNot | ⟨v, closing, hv⟩ := hReady
      · exact .inl hNot
      · refine .inr ⟨v, closing, ?_⟩
        rw [hOther v, hv]
        rintro rfl
        exact hPlain.2 e closing hv
  · intro u
    by_cases hSame : u = t
    · subst hSame
      rw [hSelf]
      exact hOwn
    · rw [hOther u hSame]
      refine (h.fits u).frame ?_ (fun _ => hPipe) fun e _ => hListed e u
      intro hWait
      obtain ⟨hBefore, hTime⟩ := hStatus u hSame
      exact ⟨hBefore ▸ hWait, hTime⟩

theorem Orderly.lock_kept (h : Orderly s) (hPlace : s'.place = (s.go t p).place) (hLock : s'.lock = s.lock)
    (hHolds : p.Holds → (s.place t).Holds) : ∀ u, (s'.place u).Holds → s'.lock = some u := by
  intro u hu
  rw [hPlace] at hu
  rw [hLock]
  by_cases hSame : u = t
  · subst hSame
    rw [go_place_self] at hu
    exact h.lock u (hHolds hu)
  · rw [go_place_ne s p hSame] at hu
    exact h.lock u hu

theorem Orderly.lock_left (h : Orderly s) (hPlace : s'.place = (s.go t p).place) (hHeld : (s.place t).Holds)
    (hHolds : ¬ p.Holds) : ∀ u, (s'.place u).Holds → s'.lock = some u := by
  intro u hu
  rw [hPlace] at hu
  by_cases hSame : u = t
  · subst hSame
    rw [go_place_self] at hu
    exact absurd hu hHolds
  · rw [go_place_ne s p hSame] at hu
    exact absurd (h.holder hHeld hu) hSame

theorem Orderly.lock_taken (h : Orderly s) (hPlace : s'.place = (s.go t p).place) (hFree : s.lock = none)
    (hLock : s'.lock = some t) : ∀ u, (s'.place u).Holds → s'.lock = some u := by
  intro u hu
  rw [hPlace] at hu
  by_cases hSame : u = t
  · rw [hSame, hLock]
  · rw [go_place_ne s p hSame] at hu
    have hHeld := h.lock u hu
    rw [hFree] at hHeld
    cases hHeld

theorem Orderly.change (h : Orderly s) (hHeld : (s.place t).Holds) (hPlace : s'.place = (s.go t p).place)
    (hLock : s'.lock = s.lock) (hBound : s'.pipe.ptr ≤ pipeBuff)
    (hStatus : ∀ u, u ≠ t → s'.status u = .wait → s.status u = .wait ∧ s'.wakeupTime u = s.wakeupTime u)
    (hListedAfter : ∀ e, ∀ u ∈ s'.pipe.blocking e, ∃ x, (s'.place u).transfer = some x ∧ x.waitsOn = e ∧
      (¬ x.Ready s'.pipe ∨ s'.Empties e))
    (hListed : ∀ e u, u ≠ t → s'.status u = .wait → s.Listed e u → s'.Listed e u) (hOwn : Fits s' t p) :
    Orderly s' := by
  have hSelf : s'.place t = p := by rw [hPlace, go_place_self]
  have hOther : ∀ u, u ≠ t → s'.place u = s.place u := fun u hu => by rw [hPlace, go_place_ne s p hu]
  refine ⟨hBound, h.lock_kept hPlace hLock fun _ => hHeld, hListedAfter, ?_⟩
  intro u
  by_cases hSame : u = t
  · subst hSame
    rw [hSelf]
    exact hOwn
  · rw [hOther u hSame]
    have hAway : ¬ (s.place u).Holds := fun hu => hSame (h.holder hHeld hu)
    refine (h.fits u).frame (hStatus u hSame) (absurd · hAway) ?_
    rintro e (hu | hWait) hMem
    · exact absurd hu hAway
    · exact hListed e u hSame hWait hMem

variable {pipe pipe' : PipeInfo}

@[simp] theorem blocking_setBlocking_self (waiters : List TcbT) :
    (pipe.setBlocking e waiters).blocking e = waiters := by
  cases e <;> rfl

@[simp] theorem blocking_setBlocking_ne {e' : End} (waiters : List TcbT) (hNe : e' ≠ e) :
    (pipe.setBlocking e waiters).blocking e' = pipe.blocking e' := by
  cases e <;> cases e' <;> first | rfl | exact absurd rfl hNe

structure SameTests (pipe pipe' : PipeInfo) : Prop where
  ready : ∀ x : Transfer, x.Ready pipe' → x.Ready pipe
  blocking : ∀ e, pipe'.blocking e = pipe.blocking e

theorem ready_setBlocking (waiters : List TcbT) : x.Ready (pipe.setBlocking e waiters) ↔ x.Ready pipe := by
  cases e <;> cases x <;> exact Iff.rfl

theorem clearSpec_tests (pipe : PipeInfo) (e : End) : SameTests pipe (clearSpec pipe e) := by
  cases e <;> refine ⟨fun x => ?_, fun e => ?_⟩ <;> first | (cases x <;> exact id) | (cases e <;> rfl)

theorem dupSection_tests (pipe : PipeInfo) (e : End) : SameTests pipe (dupSection pipe e) := by
  constructor
  · intro x hReady
    cases e with
    | read =>
      cases x with
      | read size => exact hReady
      | write bytes =>
        obtain hNever | hRoom := hReady
        · exact absurd hNever (Nat.succ_ne_zero _)
        · exact .inr hRoom
    | write =>
      cases x with
      | read size =>
        obtain hBytes | hNever := hReady
        · exact .inl hBytes
        · exact absurd hNever (Nat.succ_ne_zero _)
      | write bytes => exact hReady
  · intro e'
    cases e <;> cases e' <;> rfl

theorem dropFd_ready (hReady : x.Ready (dropFd pipe e)) :
    x.Ready pipe ∨ ((dropFd pipe e).fds e = 0 ∧ x.waitsOn = e.other) := by
  cases e with
  | read =>
    cases x with
    | read size => exact .inl hReady
    | write bytes =>
      obtain hNone | hRoom := hReady
      · exact .inr ⟨hNone, rfl⟩
      · exact .inl (.inr hRoom)
  | write =>
    cases x with
    | read size =>
      obtain hBytes | hNone := hReady
      · exact .inl (.inl hBytes)
      · exact .inr ⟨hNone, rfl⟩
    | write bytes => exact .inl hReady

theorem dropFd_blocking (e' : End) : (dropFd pipe e).blocking e' = pipe.blocking e' := by
  cases e <;> cases e' <;> rfl

theorem perform_blocking {woken : Option End} (hPerform : x.perform pipe = (pipe', woken)) (e' : End) :
    pipe'.blocking e' = pipe.blocking e' := by
  cases x with
  | read size =>
    rw [Transfer.perform] at hPerform
    split at hPerform <;> obtain ⟨rfl, -⟩ := Prod.mk.inj hPerform <;> cases e' <;> rfl
  | write bytes =>
    rw [Transfer.perform] at hPerform
    split at hPerform <;> obtain ⟨rfl, -⟩ := Prod.mk.inj hPerform <;> cases e' <;> rfl

theorem perform_ready {y : Transfer} (hBound : pipe.ptr ≤ pipeBuff) (hReady : x.Ready pipe)
    (hPerform : x.perform pipe = (pipe', some e)) (hAfter : y.Ready pipe') : y.Ready pipe ∨ y.waitsOn = e := by
  cases x with
  | read size =>
    rw [Transfer.perform] at hPerform
    split at hPerform
    · next hBytes =>
      obtain ⟨rfl, hEnd⟩ := Prod.mk.inj hPerform
      cases hEnd
      cases y with
      | read size' => exact .inl (.inl hBytes)
      | write bytes => exact .inr rfl
    · cases (Prod.mk.inj hPerform).2
  | write bytes =>
    rw [Transfer.perform] at hPerform
    split at hPerform
    · cases (Prod.mk.inj hPerform).2
    · next hReaders =>
      obtain ⟨rfl, hEnd⟩ := Prod.mk.inj hPerform
      cases hEnd
      have hRoom : bytes.length ≤ room pipe := hReady.resolve_left hReaders
      cases y with
      | read size => exact .inr rfl
      | write bytes' =>
        obtain hNone | hFits := hAfter
        · exact absurd hNone hReaders
        · refine .inl (.inr ?_)
          have hAppended := appendBytes_spec hBound hRoom
          rw [room_eq hAppended.2] at hFits
          rw [room_eq hBound] at hRoom ⊢
          have hPtr : (appendBytes pipe bytes).ptr = (pipe.ptr + bytes.length) % 2 ^ 32 := rfl
          rw [hPtr] at hFits
          rw [pipeBuff] at *
          omega

theorem perform_bound {woken : Option End} (hBound : pipe.ptr ≤ pipeBuff) (hReady : x.Ready pipe)
    (hPerform : x.perform pipe = (pipe', woken)) : pipe'.ptr ≤ pipeBuff := by
  cases x with
  | read size =>
    rw [Transfer.perform] at hPerform
    split at hPerform
    · obtain ⟨rfl, -⟩ := Prod.mk.inj hPerform
      exact (takeBytes_spec pipe size).2.1.trans hBound
    · obtain ⟨rfl, -⟩ := Prod.mk.inj hPerform
      exact hBound
  | write bytes =>
    rw [Transfer.perform] at hPerform
    split at hPerform
    · obtain ⟨rfl, -⟩ := Prod.mk.inj hPerform
      exact hBound
    · next hReaders =>
      obtain ⟨rfl, -⟩ := Prod.mk.inj hPerform
      exact (appendBytes_spec hBound (hReady.resolve_left hReaders)).2

end OpenXJ380.Pipe.Waiting
