import OpenXJ380.Pipe.WakeUps

/-! # Waiting for a pipe ends

Each step of the code keeps the lists in order, and so does all that may come
between two steps.
-/

namespace OpenXJ380.Pipe.Waiting

open Function

open Sched Transition

section

variable {s s' : State} {t u : TcbT} {e : End} {x : Transfer} {p : Place}

theorem Orderly.plain {q : Place} {lock : Option TcbT} {gone : Bool} (h : Orderly s) (hPlace : s.place t = q)
    (hPlain : q.Plain) (hLock : ∀ u, (({ s with lock, gone }.go t p).place u).Holds → lock = some u)
    (hTransfer : ∀ e, t ∈ s.pipe.blocking e → p.transfer = q.transfer)
    (hOwn : Fits ({ s with lock, gone }.go t p) t p) : Orderly ({ s with lock, gone }.go t p) := by
  subst hPlace
  exact h.move hPlain rfl rfl hLock (fun _ _ => ⟨rfl, rfl⟩) hTransfer hOwn

theorem Orderly.moves {q : Place} (h : Orderly s) (hPlace : s.place t = q) (hPlain : q.Plain)
    (hHolds : p.Holds → q.Holds) (hTransfer : ∀ e, t ∈ s.pipe.blocking e → p.transfer = q.transfer)
    (hOwn : Fits (s.go t p) t p) : Orderly (s.go t p) :=
  h.plain hPlace hPlain (h.lock_kept rfl rfl (hPlace ▸ hHolds)) hTransfer hOwn

theorem Orderly.leaves {q : Place} (h : Orderly s) (hPlace : s.place t = q) (hPlain : q.Plain) (hHeld : q.Holds)
    (hNot : ¬ p.Holds) (hTransfer : ∀ e, t ∈ s.pipe.blocking e → p.transfer = q.transfer)
    (hOwn : Fits ({ s with lock := none }.go t p) t p) : Orderly ({ s with lock := none }.go t p) :=
  h.plain hPlace hPlain (h.lock_left rfl (hPlace ▸ hHeld) hNot) hTransfer hOwn

theorem Orderly.fits_at {q : Place} (h : Orderly s) (hPlace : s.place t = q) : Fits s t q := hPlace ▸ h.fits t

theorem Orderly.unlisted (h : Orderly s) (hNone : (s.place t).transfer = none) (e : End) : t ∉ s.pipe.blocking e := by
  intro hMem
  obtain ⟨x, hx, -⟩ := h.listed e t hMem
  rw [hNone] at hx
  cases hx

theorem todo_transfer {l : End × List TcbT} (hTodo : p.todo = some l) : p.transfer = none := by
  cases p with
  | waking e todo closing => rfl
  | starting e task todo closing => rfl
  | _ => cases hTodo

theorem Orderly.ready_unlisted (h : Orderly s) (hPlace : s.place t = .testing (.transfer x)) (hReady : x.Ready s.pipe)
    (e : End) : t ∉ s.pipe.blocking e := by
  intro hMem
  obtain ⟨y, hy, -, hNot | ⟨u, closing, hu⟩⟩ := h.listed e t hMem
  · rw [hPlace] at hy
    cases hy
    exact hNot hReady
  · have hSame : u = t := h.holder (by rw [hPlace]; trivial) (by rw [hu]; trivial)
    rw [hSame, hPlace] at hu
    cases hu

theorem Orderly.not_ready (h : Orderly s) (hHeld : (s.place t).Holds)
    (hNot : ∀ e closing, s.place t ≠ .emptying e closing)
    (hMem : u ∈ s.pipe.blocking e) : ∃ y, (s.place u).transfer = some y ∧ y.waitsOn = e ∧ ¬ y.Ready s.pipe := by
  obtain ⟨y, hy, hEnd, hReady | ⟨v, closing, hv⟩⟩ := h.listed e u hMem
  · exact ⟨y, hy, hEnd, hReady⟩
  · have hSame : v = t := h.holder hHeld (by rw [hv]; trivial)
    rw [hSame] at hv
    exact absurd hv (hNot e closing)

theorem Orderly.effect {pipe : PipeInfo} (h : Orderly s) (hHeld : (s.place t).Holds) (hPlain : (s.place t).Plain)
    (hOut : ∀ e, t ∉ s.pipe.blocking e) (hBound : pipe.ptr ≤ pipeBuff)
    (hBlocking : ∀ e, pipe.blocking e = s.pipe.blocking e)
    (hReady : ∀ y : Transfer, y.Ready pipe → y.Ready s.pipe ∨ ∃ closing, p = .emptying y.waitsOn closing)
    (hOwn : Fits ({ s with pipe := pipe }.go t p) t p) : Orderly ({ s with pipe := pipe }.go t p) := by
  have hWalks := h.nobody hHeld hPlain.1
  refine h.change hHeld rfl rfl hBound ?_ ?_ ?_ hOwn
  · exact fun u _ hWait => ⟨hWait, rfl⟩
  · intro e u hMem
    change u ∈ pipe.blocking e at hMem
    rw [hBlocking] at hMem
    have hNe : u ≠ t := by
      rintro rfl
      exact hOut e hMem
    obtain ⟨y, hy, hEnd, hNot⟩ := h.not_ready hHeld hPlain.2 hMem
    have hPlace : ({ s with pipe := pipe }.go t p).place u = s.place u := go_place_ne _ p hNe
    refine ⟨y, by rw [hPlace, hy], hEnd, ?_⟩
    by_cases hNow : y.Ready pipe
    · obtain hBefore | ⟨closing, rfl⟩ := hReady y hNow
      · exact absurd hBefore hNot
      · refine .inr ⟨t, closing, ?_⟩
        rw [go_place_self, hEnd]
    · exact .inl hNow
  · intro e u _ _ hListed
    obtain hMem | ⟨v, todo, hTodo, -⟩ := hListed
    · left
      change u ∈ pipe.blocking e
      rwa [hBlocking]
    · exact (hWalks v _ hTodo).elim

theorem Orderly.walk {todo : List TcbT} {pipe : PipeInfo} {status : TcbT → TaskStatus} {wakeupTime : TcbT → Nat}
    {waits : TcbT → Bool} (h : Orderly s) (hTodo : (s.place t).todo = some (e, todo)) (hPtr : pipe.ptr = s.pipe.ptr)
    (hTests : SameTests s.pipe pipe)
    (hStatus : ∀ u, u ≠ t → status u = .wait → s.status u = .wait ∧ wakeupTime u = s.wakeupTime u)
    (hKept : ∀ u, status u = .wait → u ∈ todo → ∃ todo', p.todo = some (e, todo') ∧ u ∈ todo')
    (hOwn : Fits ({ s with pipe, status, wakeupTime, waits }.go t p) t p) :
    Orderly ({ s with pipe, status, wakeupTime, waits }.go t p) := by
  have hHeld : (s.place t).Holds := todo_holds hTodo
  have hNone : (s.place t).transfer = none := todo_transfer hTodo
  have hNot : ∀ e closing, s.place t ≠ .emptying e closing := by
    intro e' closing hPlace
    rw [hPlace] at hTodo
    cases hTodo
  refine h.change hHeld rfl rfl ?_ hStatus ?_ ?_ hOwn
  · change pipe.ptr ≤ pipeBuff
    rw [hPtr]
    exact h.bounded
  · intro e' u hMem
    change u ∈ pipe.blocking e' at hMem
    rw [hTests.blocking] at hMem
    have hNe : u ≠ t := by
      rintro rfl
      exact h.unlisted hNone e' hMem
    obtain ⟨y, hy, hEnd, hReady⟩ := h.not_ready hHeld hNot hMem
    refine ⟨y, ?_, hEnd, .inl fun hNow => hReady (hTests.ready y hNow)⟩
    rw [← hy]
    exact congrArg Place.transfer (go_place_ne _ p hNe)
  · intro e' u _ hWait hListed
    obtain hMem | ⟨v, l, hWalks, hMem⟩ := hListed
    · left
      change u ∈ pipe.blocking e'
      rwa [hTests.blocking]
    · have hSame : v = t := h.holder hHeld (todo_holds hWalks)
      rw [hSame, hTodo] at hWalks
      cases hWalks
      obtain ⟨todo', hTodo', hMem'⟩ := hKept u hWait hMem
      refine .inr ⟨t, todo', ?_, hMem'⟩
      rw [go_place_self, hTodo']

theorem Orderly.empty {closing : Option End} (h : Orderly s) (hPlace : s.place t = .emptying e closing) :
    Orderly ({ s with pipe := s.pipe.setBlocking e [] }.go t (.waking e (s.pipe.blocking e) closing)) := by
  have hHeld : (s.place t).Holds := by
    rw [hPlace]
    trivial
  have hAwake : Fits s t (.emptying e closing) := hPlace ▸ h.fits t
  refine h.change hHeld rfl rfl ?_ (fun u _ hWait => ⟨hWait, rfl⟩) ?_ ?_ hAwake
  · exact (setBlocking_same s.pipe e []).ptr ▸ h.bounded
  · intro e' u hMem
    change u ∈ (s.pipe.setBlocking e []).blocking e' at hMem
    by_cases hSame : e' = e
    · rw [hSame, blocking_setBlocking_self] at hMem
      cases hMem
    · rw [blocking_setBlocking_ne [] hSame] at hMem
      have hNe : u ≠ t := by
        rintro rfl
        exact h.unlisted (by rw [hPlace]; rfl) e' hMem
      obtain ⟨y, hy, hEnd, hNot | ⟨v, c, hv⟩⟩ := h.listed e' u hMem
      · refine ⟨y, ?_, hEnd, .inl fun hNow => hNot ((ready_setBlocking []).mp hNow)⟩
        rw [← hy]
        exact congrArg Place.transfer (go_place_ne _ _ hNe)
      · have hHolder : v = t := h.holder hHeld (by rw [hv]; trivial)
        rw [hHolder, hPlace] at hv
        cases hv
        exact absurd rfl hSame
  · intro e' u _ _ hListed
    obtain hMem | ⟨v, l, hWalks, hMem⟩ := hListed
    · by_cases hSame : e' = e
      · subst hSame
        refine .inr ⟨t, s.pipe.blocking e', ?_, hMem⟩
        rw [go_place_self]
        rfl
      · left
        change u ∈ (s.pipe.setBlocking e []).blocking e'
        rwa [blocking_setBlocking_ne [] hSame]
    · exact absurd hWalks (h.nobody hHeld (by rw [hPlace]; rfl) v _)

theorem pipeAddWaiter_mem {waiters waiters' : List TcbT} {node : Bool}
    (hAdd : pipeAddWaiter waiters t node = some waiters') :
    u ∈ waiters' ↔ u = t ∨ u ∈ waiters := by
  rw [pipeAddWaiter] at hAdd
  split at hAdd
  · next hThere =>
    cases hAdd
    rw [pipeWaiterContains, List.contains_iff_mem] at hThere
    constructor
    · exact .inr
    · rintro (rfl | hMem)
      · exact hThere
      · exact hMem
  · split at hAdd
    · cases hAdd
      exact List.mem_cons
    · cases hAdd

theorem Orderly.add {node : Bool} {waiters : List TcbT} (h : Orderly s) (hPlace : s.place t = .registering x)
    (hAdd : pipeAddWaiter (s.pipe.blocking x.waitsOn) t node = some waiters) :
    Orderly (({ s with pipe := s.pipe.setBlocking x.waitsOn waiters }.setWaits t true).go t (.marking x)) := by
  have hHeld : (s.place t).Holds := by
    rw [hPlace]
    trivial
  have hNot : ∀ e closing, s.place t ≠ .emptying e closing := by
    intro e closing hEmptying
    rw [hPlace] at hEmptying
    cases hEmptying
  have hOwn : Fits s t (.registering x) := hPlace ▸ h.fits t
  refine h.change hHeld rfl rfl ?_ (fun u _ hWait => ⟨hWait, rfl⟩) ?_ ?_ ⟨?_, hOwn.2⟩
  · exact (setBlocking_same s.pipe x.waitsOn waiters).ptr ▸ h.bounded
  · intro e u hMem
    change u ∈ (s.pipe.setBlocking x.waitsOn waiters).blocking e at hMem
    by_cases hSame : u = t
    · subst hSame
      refine ⟨x, by rw [go_place_self]; rfl, ?_, .inl fun hNow => hOwn.1 ((ready_setBlocking waiters).mp hNow)⟩
      by_contra hNe
      rw [blocking_setBlocking_ne waiters (.symm hNe)] at hMem
      obtain ⟨y, hy, hEnd, -⟩ := h.listed e u hMem
      rw [hPlace] at hy
      cases hy
      exact hNe hEnd
    · have hBefore : u ∈ s.pipe.blocking e := by
        by_cases hEnd : e = x.waitsOn
        · rw [hEnd, blocking_setBlocking_self] at hMem
          rw [hEnd]
          exact ((pipeAddWaiter_mem hAdd).mp hMem).resolve_left hSame
        · rwa [blocking_setBlocking_ne waiters hEnd] at hMem
      obtain ⟨y, hy, hEnd, hReady⟩ := h.not_ready hHeld hNot hBefore
      refine ⟨y, ?_, hEnd, .inl fun hNow => hReady ((ready_setBlocking waiters).mp hNow)⟩
      rw [← hy]
      exact congrArg Place.transfer (go_place_ne _ _ hSame)
  · intro e u _ _ hListed
    obtain hMem | ⟨v, l, hWalks, hMem⟩ := hListed
    · left
      change u ∈ (s.pipe.setBlocking x.waitsOn waiters).blocking e
      by_cases hEnd : e = x.waitsOn
      · subst hEnd
        rw [blocking_setBlocking_self]
        exact (pipeAddWaiter_mem hAdd).mpr (.inr hMem)
      · rwa [blocking_setBlocking_ne waiters hEnd]
    · exact absurd hWalks (h.nobody hHeld (by rw [hPlace]; rfl) v _)
  · change t ∈ (s.pipe.setBlocking x.waitsOn waiters).blocking x.waitsOn
    rw [blocking_setBlocking_self]
    exact (pipeAddWaiter_mem hAdd).mpr (.inl rfl)

theorem started_ne {status : TcbT → TaskStatus} {v : TcbT} (hWait : update status u .start v = .wait) :
    v ≠ u := by
  rintro rfl
  rw [update_self] at hWait
  cases hWait

theorem Orderly.taskStep (h : Orderly s) (hStep : TaskStep t s s') : Orderly s' := by
  cases hStep with
  | call r hPlace hRuns =>
    refine h.moves hPlace ⟨rfl, nofun⟩ False.elim ?_ hRuns
    exact fun e hMem => absurd hMem (h.unlisted (by rw [hPlace]; rfl) e)
  | acquire hPlace hFree hHere =>
    rename_i r
    refine h.plain hPlace ⟨rfl, nofun⟩ (h.lock_taken rfl hFree rfl) ?_ (h.fits_at hPlace)
    cases r <;> exact fun _ _ => rfl
  | perform hPlace hReady hPerform =>
    have hOut := h.ready_unlisted hPlace hReady
    refine h.effect (by rw [hPlace]; trivial) ?_ hOut (perform_bound h.bounded hReady hPerform)
      (perform_blocking hPerform) ?_ (h.fits_at hPlace)
    · rw [hPlace]
      exact ⟨rfl, nofun⟩
    · intro y hNow
      obtain hBefore | rfl := perform_ready h.bounded hReady hPerform hNow
      · exact .inl hBefore
      · exact .inr ⟨none, rfl⟩
  | finish hPlace hReady hPerform =>
    have hOut := h.ready_unlisted hPlace hReady
    refine h.moves hPlace ⟨rfl, nofun⟩ id ?_ (h.fits_at hPlace)
    exact fun e hMem => absurd hMem (hOut e)
  | idle hPlace hNot =>
    exact h.moves hPlace ⟨rfl, nofun⟩ id (fun _ _ => rfl) (h.fits_at hPlace)
  | enter hPlace hNot =>
    exact h.moves hPlace ⟨rfl, nofun⟩ id (fun _ _ => rfl) ⟨hNot, h.fits_at hPlace⟩
  | dropLast hPlace hLast =>
    have hOut := h.unlisted (t := t) (by rw [hPlace]; rfl)
    refine h.effect (by rw [hPlace]; trivial) ?_ hOut ?_ dropFd_blocking ?_ (h.fits_at hPlace)
    · rw [hPlace]
      exact ⟨rfl, nofun⟩
    · exact (dropFd_same s.pipe _).ptr ▸ h.bounded
    · intro y hNow
      obtain hBefore | ⟨-, hEnd⟩ := dropFd_ready hNow
      · exact .inl hBefore
      · rw [hEnd]
        exact .inr ⟨_, rfl⟩
  | drop hPlace hMore =>
    have hOut := h.unlisted (t := t) (by rw [hPlace]; rfl)
    refine h.effect (by rw [hPlace]; trivial) ?_ hOut ?_ dropFd_blocking ?_ (h.fits_at hPlace)
    · rw [hPlace]
      exact ⟨rfl, nofun⟩
    · exact (dropFd_same s.pipe _).ptr ▸ h.bounded
    · intro y hNow
      obtain hBefore | ⟨hLast, -⟩ := dropFd_ready hNow
      · exact .inl hBefore
      · exact absurd hLast hMore
  | dup hPlace =>
    rename_i e
    have hOut := h.unlisted (t := t) (by rw [hPlace]; rfl)
    have hTests := dupSection_tests s.pipe e
    refine h.effect (by rw [hPlace]; trivial) ?_ hOut ?_ hTests.blocking (fun y hNow => .inl (hTests.ready y hNow))
      (h.fits_at hPlace)
    · rw [hPlace]
      exact ⟨rfl, nofun⟩
    · exact (dupSection_same s.pipe e).ptr ▸ h.bounded
  | empty hPlace => exact h.empty hPlace
  | skip hPlace hStatus =>
    refine h.walk (by rw [hPlace]; rfl) rfl ⟨fun _ => id, fun _ => rfl⟩ (fun _ _ hWait => ⟨hWait, rfl⟩) ?_
      (h.fits_at hPlace)
    intro v hWait hMem
    refine ⟨_, rfl, ?_⟩
    obtain rfl | hMem := List.mem_cons.mp hMem
    · exact absurd hWait hStatus
    · exact hMem
  | wake hPlace hStatus =>
    exact h.walk (by rw [hPlace]; rfl) rfl ⟨fun _ => id, fun _ => rfl⟩ (fun _ _ hWait => ⟨hWait, rfl⟩)
      (fun _ _ hMem => ⟨_, rfl, hMem⟩) (h.fits_at hPlace)
  | start hPlace =>
    rename_i e u todo closing
    refine h.walk (by rw [hPlace]; rfl) rfl ⟨fun _ => id, fun _ => rfl⟩ ?_ ?_ ?_
    · intro v _ hWait
      have hNe : v ≠ u := fun hEq => started_ne hWait hEq
      refine ⟨(update_of_ne hNe _ _).symm.trans hWait, update_of_ne hNe _ _⟩
    · intro v hWait hMem
      refine ⟨_, rfl, ?_⟩
      obtain rfl | hMem := List.mem_cons.mp hMem
      · exact absurd rfl (started_ne hWait)
      · exact hMem
    · intro hWait
      exact h.fits_at hPlace ((update_of_ne (started_ne hWait) _ _).symm.trans hWait)
  | woken hPlace =>
    exact h.walk (by rw [hPlace]; rfl) rfl ⟨fun _ => id, fun _ => rfl⟩ (fun _ _ hWait => ⟨hWait, rfl⟩)
      (fun _ _ hMem => by cases hMem) (h.fits_at hPlace)
  | closed hPlace =>
    exact h.walk (by rw [hPlace]; rfl) (clearSpec_same _ _).ptr (clearSpec_tests _ _) (fun _ _ hWait => ⟨hWait, rfl⟩)
      (fun _ _ hMem => by cases hMem) (h.fits_at hPlace)
  | unlock hPlace =>
    rename_i free
    refine h.leaves hPlace ⟨rfl, nofun⟩ trivial ?_ ?_ ?_
    · cases free <;> exact id
    · cases free <;> exact fun _ _ => rfl
    · cases free
      · trivial
      · exact h.fits_at hPlace
  | release hPlace =>
    exact h.plain hPlace ⟨rfl, nofun⟩ (h.lock_kept rfl rfl False.elim) (fun _ _ => rfl) trivial
  | add hPlace hAdd => exact h.add hPlace hAdd
  | addFails hPlace hAdd =>
    exact h.moves hPlace ⟨rfl, nofun⟩ id (fun _ _ => rfl) (h.fits_at hPlace).2
  | mark hPlace =>
    refine h.move ?_ rfl rfl (h.lock_kept rfl rfl ?_) ?_ ?_ (h.fits_at hPlace).1
    · rw [hPlace]
      exact ⟨rfl, nofun⟩
    · rw [hPlace]
      exact id
    · exact fun u hNe => ⟨update_of_ne hNe _ _, update_of_ne hNe _ _⟩
    · rw [hPlace]
      exact fun _ _ => rfl
  | part hPlace =>
    exact h.leaves hPlace ⟨rfl, nofun⟩ trivial id (fun _ _ => rfl) (fun _ => .inl (h.fits_at hPlace))
  | rouse hPlace hStatus =>
    obtain hPlace | hPlace := hPlace
    · exact h.moves hPlace ⟨rfl, nofun⟩ False.elim (fun _ _ => rfl) hStatus
    · exact h.moves hPlace ⟨rfl, nofun⟩ False.elim (fun _ _ => rfl) hStatus
  | again hPlace =>
    refine h.move ?_ rfl rfl (h.lock_kept rfl rfl False.elim) ?_ ?_ ?_
    · rw [hPlace]
      exact ⟨rfl, nofun⟩
    · exact fun u hNe => ⟨update_of_ne hNe _ _, rfl⟩
    · rw [hPlace]
      exact fun _ _ => rfl
    · change update s.status t _ t ≠ .wait
      rw [update_self]
      split
      · exact TaskStatus.noConfusion
      · exact h.fits_at hPlace
  | yield hPlace =>
    exact h.leaves hPlace ⟨rfl, nofun⟩ trivial id (fun _ _ => rfl) (h.fits_at hPlace)
  | give hPlace =>
    exact h.leaves hPlace ⟨rfl, nofun⟩ trivial id (fun _ _ => rfl) (h.fits_at hPlace)
  | doze time hPlace hTime =>
    refine h.move ?_ rfl rfl (h.lock_kept rfl rfl False.elim) ?_ ?_ ?_
    · rw [hPlace]
      exact ⟨rfl, nofun⟩
    · exact fun u hNe => ⟨update_of_ne hNe _ _, update_of_ne hNe _ _⟩
    · rw [hPlace]
      exact fun _ _ => rfl
    · intro _
      change update s.wakeupTime t time t ≠ 0
      rwa [update_self]
  | dozeYields hPlace =>
    exact h.moves hPlace ⟨rfl, nofun⟩ False.elim (fun _ _ => rfl) (h.fits_at hPlace)

theorem Orderly.set {time : TcbT → Nat} {freed : TcbT → Bool} {status : TaskStatus} (h : Orderly s)
    (hStatus : status ≠ .wait ∨ s.place t = .outside) (hTime : ∀ u, u ≠ t → time u = s.wakeupTime u) :
    Orderly ({ s with wakeupTime := time, freed := freed }.setStatus t status) := by
  refine h.statuses rfl rfl rfl ?_
  intro u hInside hWait
  have hNe : u ≠ t := by
    rintro rfl
    obtain hNot | hOutside := hStatus
    · change update s.status u status u = .wait at hWait
      rw [update_self] at hWait
      exact hNot hWait
    · exact hInside hOutside
  exact ⟨(update_of_ne hNe _ _).symm.trans hWait, hTime u hNe⟩

theorem Orderly.step {l : Label} (h : Orderly s) (hStep : Step s l s') : Orderly s' := by
  cases hStep with
  | task hAlive hStep => exact h.taskStep hStep
  | scheduler hStep =>
    cases hStep with
    | preempt hStatus => exact h.set (.inl TaskStatus.noConfusion) fun _ _ => rfl
    | dispatch hStatus => exact h.set (.inl TaskStatus.noConfusion) fun _ _ => rfl
    | timer hStatus hTime => exact h.set (.inl TaskStatus.noConfusion) fun u hNe => update_of_ne hNe _ _
    | resume => exact h.set (.inl TaskStatus.noConfusion) fun _ _ => rfl
  | other status time hPlace => exact h.set (.inr hPlace) fun u hNe => update_of_ne hNe _ _
  | kill => exact h.set (.inl TaskStatus.noConfusion) fun _ _ => rfl
  | free => exact h.set (.inl TaskStatus.noConfusion) fun _ _ => rfl

theorem opened_orderly : Orderly opened where
  bounded := Nat.zero_le _
  lock _ := False.elim
  listed e t hMem := by cases e <;> cases hMem
  fits _ := trivial

theorem run_orderly {labels : List Label} (hRun : Run waitSystem opened labels s) : Orderly s :=
  hRun.invariant (fun _ _ _ h hStep => h.step hStep) opened_orderly

end

/-- While nobody else holds the lock, whoever sleeps in `pipe_wait_on` without a time limit has to wait. -/
theorem no_lost_wake_up {labels : List Label} {s : State} {t : TcbT} {x : Transfer}
    (hRun : Run waitSystem opened labels s) (hLock : ∀ u, s.lock = some u → u = t) (hPlace : (s.place t).InWait x)
    (hStatus : s.status t = .wait) (hTime : s.wakeupTime t = 0) : ¬ x.Ready s.pipe := by
  have h := run_orderly hRun
  have hFits := h.fits t
  have hListed : t ∈ s.pipe.blocking x.waitsOn := by
    obtain hMarking | hParting | hAsleep | hYielding | hGiving | hDozing | hSleeping := hPlace
    · rw [hMarking] at hFits
      exact hFits.1
    · rw [hParting] at hFits
      exact hFits
    · rw [hAsleep] at hFits
      obtain hMem | ⟨u, todo, hWalks, -⟩ := hFits hStatus
      · exact hMem
      · have hSame := hLock u (h.lock u (todo_holds hWalks))
        rw [hSame, hAsleep] at hWalks
        cases hWalks
    · rw [hYielding] at hFits
      exact absurd hStatus hFits
    · rw [hGiving] at hFits
      exact absurd hStatus hFits
    · rw [hDozing] at hFits
      exact absurd hStatus hFits
    · rw [hSleeping] at hFits
      exact absurd hTime (hFits hStatus)
  obtain ⟨y, hy, -, hNot | ⟨u, closing, hu⟩⟩ := h.listed _ t hListed
  · have hTransfer : (s.place t).transfer = some x := by
      obtain hAt | hAt | hAt | hAt | hAt | hAt | hAt := hPlace <;> rw [hAt] <;> rfl
    rw [hTransfer] at hy
    cases hy
    exact hNot
  · have hSame := hLock u (h.lock u (by rw [hu]; trivial))
    rw [hSame] at hu
    rw [hu] at hPlace
    obtain hAt | hAt | hAt | hAt | hAt | hAt | hAt := hPlace <;> cases hAt

theorem opened_not_ready (size : Nat) : ¬ (Transfer.read size).Ready opened.pipe := by
  rintro (hBytes | hClosed)
  · exact hBytes rfl
  · cases hClosed

theorem reader_sleeps :
    ∃ s, Run waitSystem opened (List.replicate 6 (.task 1)) s ∧ s.place 1 = .asleep (.read 1) ∧ s.status 1 = .wait ∧
      s.wakeupTime 1 = 0 ∧ s.lock = none ∧ s.pipe.blocking .read = [1] := by
  have hAdd : pipeAddWaiter [] 1 true = some [1] := rfl
  have hRun := (((((Run.nil (M := waitSystem) opened).snoc (.task (t := 1) rfl (.call (.transfer (.read 1)) rfl
    TaskStatus.noConfusion))).snoc (.task (t := 1) rfl (.acquire rfl rfl rfl))).snoc (.task (t := 1) rfl (.enter rfl
    (opened_not_ready 1)))).snoc (.task (t := 1) rfl (.add rfl hAdd))).snoc (.task (t := 1) rfl (.mark rfl))
  exact ⟨_, hRun.snoc (.task (t := 1) rfl (.part rfl)), rfl, rfl, rfl, rfl, rfl⟩

/-- A reader has gone to sleep. -/
theorem no_lost_wake_up_reader :
    ∃ labels s, Run waitSystem opened labels s ∧ s.status 1 = .wait ∧ ¬ (Transfer.read 1).Ready s.pipe := by
  obtain ⟨s, hRun, hPlace, hStatus, hTime, hLock, -⟩ := reader_sleeps
  have hNobody : ∀ u, s.lock = some u → u = 1 := by
    intro u hHeld
    rw [hLock] at hHeld
    cases hHeld
  exact ⟨_, s, hRun, hStatus, no_lost_wake_up hRun hNobody (.inr (.inr (.inl hPlace))) hStatus hTime⟩

/-- A reader for whom there is no node sleeps for some time, although a byte has been written. -/
theorem sleeper_without_node :
    ∃ labels s, Run waitSystem opened labels s ∧ s.lock = none ∧ (s.place 1).InWait (.read 1) ∧ s.status 1 = .wait ∧
      (Transfer.read 1).Ready s.pipe := by
  have hFails : pipeAddWaiter [] 1 false = none := rfl
  have hSleeps := ((((((Run.nil (M := waitSystem) opened).snoc (.task (t := 1) rfl (.call (.transfer (.read 1)) rfl
    TaskStatus.noConfusion))).snoc (.task (t := 1) rfl (.acquire rfl rfl rfl))).snoc (.task (t := 1) rfl (.enter rfl
    (opened_not_ready 1)))).snoc (.task (t := 1) rfl (.addFails rfl hFails))).snoc
    (.task (t := 1) rfl (.give rfl))).snoc
    (.task (t := 1) rfl (.doze 1 rfl Nat.one_ne_zero))
  have hWritten := ((((((hSleeps.snoc (.task (t := 2) rfl (.call (.transfer (.write [0])) rfl
    TaskStatus.noConfusion))).snoc (.task (t := 2) rfl (.acquire rfl rfl rfl))).snoc (.task (t := 2) rfl (.perform rfl
    (.inr (by decide)) rfl))).snoc (.task (t := 2) rfl (.empty rfl))).snoc (.task (t := 2) rfl (.woken rfl))).snoc
    (.task (t := 2) rfl (.unlock rfl)))
  exact ⟨_, _, hWritten, rfl, .inr (.inr (.inr (.inr (.inr (.inr rfl))))), rfl, .inl Nat.one_ne_zero⟩

end OpenXJ380.Pipe.Waiting
