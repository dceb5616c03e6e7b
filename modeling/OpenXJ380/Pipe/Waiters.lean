import OpenXJ380.Pipe.NoLostWakeUp

/-! # Whom a pipe wakes

A task is on one list, once, from when it registers to when `pipe_wake_waiters`
has dealt with its node. Killing it changes nothing of this.
-/

namespace OpenXJ380.Pipe.Waiting

open Function

open Sched Transition

structure Counted (s : State) : Prop where
  alone : ∀ e, (s.pipe.blocking e).Nodup
  walk : ∀ u e todo, (s.place u).todo = some (e, todo) → s.pipe.blocking e = [] ∧ todo.Nodup ∧
    ∀ v ∈ todo, ∃ x, (s.place v).transfer = some x ∧ x.waitsOn = e
  counted : ∀ t, s.waits t = true ↔ ∃ e, s.Listed e t
  alive : ∀ t, s.waits t = true → s.freed t = false

section

variable {s s' : State} {t u : TcbT} {e : End} {x : Transfer} {p q : Place}

theorem Counted.transfer (h : Orderly s) (c : Counted s) (hListed : s.Listed e t) :
    ∃ x, (s.place t).transfer = some x ∧ x.waitsOn = e := by
  obtain hMem | ⟨u, todo, hWalks, hMem⟩ := hListed
  · obtain ⟨x, hx, hEnd, -⟩ := h.listed e t hMem
    exact ⟨x, hx, hEnd⟩
  · exact (c.walk u e todo hWalks).2.2 t hMem

theorem Counted.frame (c : Counted s) (hBlocking : ∀ e, s'.pipe.blocking e = s.pipe.blocking e)
    (hWalk : ∀ v l, (s'.place v).todo = some l → (s.place v).todo = some l)
    (hListed : ∀ e v, s.Listed e v → s'.Listed e v)
    (hTransfer : ∀ e v, s.Listed e v → (s'.place v).transfer = (s.place v).transfer) (hWaits : s'.waits = s.waits)
    (hAlive : ∀ v, s.waits v → s'.freed v = false) : Counted s' := by
  have hBack : ∀ e v, s'.Listed e v → s.Listed e v := by
    intro e v hMem
    apply hMem.mono
    · rw [hBlocking]
      exact id
    · exact fun w todo hWalks hIn => ⟨todo, hWalk w _ hWalks, hIn⟩
  refine ⟨?_, ?_, ?_, ?_⟩
  · intro e
    rw [hBlocking]
    exact c.alone e
  · intro w e todo hWalks
    obtain ⟨hEmpty, hNodup, hInside⟩ := c.walk w e todo (hWalk w _ hWalks)
    refine ⟨by rw [hBlocking, hEmpty], hNodup, ?_⟩
    intro v hMem
    rw [hTransfer e v (.inr ⟨w, todo, hWalk w _ hWalks, hMem⟩)]
    exact hInside v hMem
  · intro v
    rw [hWaits, c.counted]
    exact ⟨fun ⟨e, hMem⟩ => ⟨e, hListed e v hMem⟩, fun ⟨e, hMem⟩ => ⟨e, hBack e v hMem⟩⟩
  · intro v hWaiting
    rw [hWaits] at hWaiting
    exact hAlive v hWaiting

theorem Counted.go (c : Counted s) (hPlace : s.place t = q) (hTodo : ∀ e todo, q.todo = some (e, todo) → todo = [])
    (hTodo' : p.todo = none) (hBlocking : ∀ e, s'.pipe.blocking e = s.pipe.blocking e)
    (hMoved : s'.place = (s.go t p).place) (hTransfer : ∀ e, s.Listed e t → p.transfer = q.transfer)
    (hWaits : s'.waits = s.waits) (hFreed : s'.freed = s.freed) : Counted s' := by
  have hSelf : s'.place t = p := by rw [hMoved, go_place_self]
  have hOther : ∀ v, v ≠ t → s'.place v = s.place v := fun v hv => by rw [hMoved, go_place_ne s p hv]
  refine c.frame hBlocking ?_ ?_ ?_ hWaits ?_
  · intro v l hWalks
    by_cases hSame : v = t
    · rw [hSame, hSelf, hTodo'] at hWalks
      cases hWalks
    · rwa [hOther v hSame] at hWalks
  · intro e v hListed
    apply hListed.mono
    · rw [hBlocking]
      exact id
    · intro w todo hWalks hMem
      refine ⟨todo, ?_, hMem⟩
      rw [hOther w, hWalks]
      rintro rfl
      rw [hPlace] at hWalks
      rw [hTodo e todo hWalks] at hMem
      cases hMem
  · intro e v hListed
    by_cases hSame : v = t
    · subst hSame
      rw [hSelf, hPlace, hTransfer e hListed]
    · rw [hOther v hSame]
  · rw [hFreed]
    exact c.alive

structure Registered (s : State) : Prop where
  orderly : Orderly s
  counted : Counted s

theorem Registered.out (h : Registered s) (hPlace : s.place t = q) (hNone : q.transfer = none) (e : End) :
    s.Listed e t → p.transfer = q.transfer := by
  intro hListed
  obtain ⟨x, hx, -⟩ := h.counted.transfer h.orderly hListed
  rw [hPlace, hNone] at hx
  cases hx

theorem Registered.going (h : Registered s) (hPlace : s.place t = .testing (.transfer x)) (hReady : x.Ready s.pipe)
    (e : End) :
    ¬ s.Listed e t := by
  rintro (hMem | ⟨u, todo, hWalks, -⟩)
  · exact h.orderly.ready_unlisted hPlace hReady e hMem
  · exact h.orderly.nobody (t := t) (by rw [hPlace]; trivial) (by rw [hPlace]; rfl) u _ hWalks

theorem Registered.empty {closing : Option End} (h : Registered s) (hPlace : s.place t = .emptying e closing) :
    Counted ({ s with pipe := s.pipe.setBlocking e [] }.go t (.waking e (s.pipe.blocking e) closing)) := by
  have hHeld : (s.place t).Holds := by
    rw [hPlace]
    trivial
  have hNobody := h.orderly.nobody hHeld (by rw [hPlace]; rfl)
  set s' := { s with pipe := s.pipe.setBlocking e [] }.go t (.waking e (s.pipe.blocking e) closing) with hs'
  have hSelf : s'.place t = .waking e (s.pipe.blocking e) closing := go_place_self _ _ _
  have hOther : ∀ v, v ≠ t → s'.place v = s.place v := fun v hv => go_place_ne _ _ hv
  have hOthers : ∀ v l, (s'.place v).todo = some l → v = t ∧ l = (e, s.pipe.blocking e) := by
    intro v l hTodo
    by_cases hSame : v = t
    · rw [hSame, hSelf] at hTodo
      exact ⟨hSame, (Option.some.inj hTodo).symm⟩
    · rw [hOther v hSame] at hTodo
      exact absurd hTodo (hNobody v l)
  have hListed : ∀ e' v, s'.Listed e' v ↔ s.Listed e' v := by
    intro e' v
    constructor
    · rintro (hMem | ⟨w, todo, hTodo, hMem⟩)
      · left
        change v ∈ (s.pipe.setBlocking e []).blocking e' at hMem
        by_cases hEnd : e' = e
        · rw [hEnd, blocking_setBlocking_self] at hMem
          cases hMem
        · rwa [blocking_setBlocking_ne [] hEnd] at hMem
      · obtain ⟨-, hEq⟩ := hOthers w _ hTodo
        cases hEq
        exact .inl hMem
    · rintro (hMem | ⟨w, todo, hTodo, -⟩)
      · by_cases hEnd : e' = e
        · rw [hEnd] at hMem ⊢
          refine .inr ⟨t, _, ?_, hMem⟩
          rw [hSelf]
          rfl
        · left
          change v ∈ (s.pipe.setBlocking e []).blocking e'
          rwa [blocking_setBlocking_ne [] hEnd]
      · exact absurd hTodo (hNobody w _)
  refine ⟨?_, ?_, ?_, h.counted.alive⟩
  · intro e'
    change ((s.pipe.setBlocking e []).blocking e').Nodup
    by_cases hEnd : e' = e
    · rw [hEnd, blocking_setBlocking_self]
      exact List.nodup_nil
    · rw [blocking_setBlocking_ne [] hEnd]
      exact h.counted.alone e'
  · intro v e' todo hTodo
    obtain ⟨rfl, hEq⟩ := hOthers v _ hTodo
    cases hEq
    refine ⟨blocking_setBlocking_self [], h.counted.alone _, ?_⟩
    intro w hMem
    obtain ⟨x, hx, hEnd, -⟩ := h.orderly.listed _ w hMem
    refine ⟨x, ?_, hEnd⟩
    rw [hOther w, hx]
    rintro rfl
    rw [hPlace] at hx
    cases hx
  · intro v
    change s.waits v ↔ _
    rw [h.counted.counted]
    exact ⟨fun ⟨e', hMem⟩ => ⟨e', (hListed e' v).mpr hMem⟩, fun ⟨e', hMem⟩ => ⟨e', (hListed e' v).mp hMem⟩⟩

theorem Registered.pass {todo : List TcbT} (h : Registered s) (hTodo : (s.place t).todo = some (e, u :: todo))
    (hPipe : s'.pipe = s.pipe) (hMoved : s'.place = (s.go t p).place) (hTodo' : p.todo = some (e, todo))
    (hWaits : s'.waits = update s.waits u false) (hFreed : s'.freed = s.freed) : Counted s' := by
  have hHeld := todo_holds hTodo
  have hSelf : s'.place t = p := by rw [hMoved, go_place_self]
  have hOther : ∀ v, v ≠ t → s'.place v = s.place v := fun v hv => by rw [hMoved, go_place_ne s p hv]
  obtain ⟨hEmpty, hNodup, hInside⟩ := h.counted.walk t e _ hTodo
  obtain ⟨hAway, hRest⟩ := List.nodup_cons.mp hNodup
  have hWalker : ∀ v l, (s.place v).todo = some l → v = t ∧ l = (e, u :: todo) := by
    intro v l hWalks
    have hSame : v = t := h.orderly.holder hHeld (todo_holds hWalks)
    rw [hSame, hTodo] at hWalks
    exact ⟨hSame, (Option.some.inj hWalks).symm⟩
  have hWalker' : ∀ v l, (s'.place v).todo = some l → v = t ∧ l = (e, todo) := by
    intro v l hWalks
    by_cases hSame : v = t
    · rw [hSame, hSelf, hTodo'] at hWalks
      exact ⟨hSame, (Option.some.inj hWalks).symm⟩
    · rw [hOther v hSame] at hWalks
      exact absurd (hWalker v l hWalks).1 hSame
  -- The node that is gone was the only one of its task.
  have hListed : ∀ e' v, s'.Listed e' v ↔ v ≠ u ∧ s.Listed e' v := by
    intro e' v
    constructor
    · rintro (hMem | ⟨w, l, hWalks, hMem⟩)
      · rw [hPipe] at hMem
        refine ⟨?_, .inl hMem⟩
        rintro rfl
        obtain ⟨x, hx, hEnd, -⟩ := h.orderly.listed e' v hMem
        obtain ⟨y, hy, hEnd'⟩ := hInside v (.head _)
        rw [hx] at hy
        cases hy
        rw [← hEnd, hEnd', hEmpty] at hMem
        cases hMem
      · obtain ⟨-, hEq⟩ := hWalker' w _ hWalks
        cases hEq
        refine ⟨?_, .inr ⟨t, _, hTodo, .tail u hMem⟩⟩
        rintro rfl
        exact hAway hMem
    · rintro ⟨hNe, hMem | ⟨w, l, hWalks, hMem⟩⟩
      · rw [← hPipe] at hMem
        exact .inl hMem
      · obtain ⟨-, hEq⟩ := hWalker w _ hWalks
        cases hEq
        refine .inr ⟨t, todo, ?_, (List.mem_cons.mp hMem).resolve_left hNe⟩
        rw [hSelf, hTodo']
  have hNone : (s.place t).transfer = none := todo_transfer hTodo
  refine ⟨?_, ?_, ?_, ?_⟩
  · intro e'
    rw [hPipe]
    exact h.counted.alone e'
  · intro v e' l hWalks
    obtain ⟨rfl, hEq⟩ := hWalker' v _ hWalks
    cases hEq
    refine ⟨by rw [hPipe, hEmpty], hRest, ?_⟩
    intro w hMem
    obtain ⟨x, hx, hEnd⟩ := hInside w (.tail u hMem)
    refine ⟨x, ?_, hEnd⟩
    rw [hOther w, hx]
    rintro rfl
    rw [hNone] at hx
    cases hx
  · intro v
    rw [hWaits]
    by_cases hSame : v = u
    · subst hSame
      rw [update_self]
      exact ⟨fun hFalse => (by cases hFalse), fun ⟨e', hMem⟩ => absurd rfl ((hListed e' v).mp hMem).1⟩
    · rw [update_of_ne hSame, h.counted.counted]
      exact ⟨fun ⟨e', hMem⟩ => ⟨e', (hListed e' v).mpr ⟨hSame, hMem⟩⟩,
        fun ⟨e', hMem⟩ => ⟨e', ((hListed e' v).mp hMem).2⟩⟩
  · intro v hWaiting
    rw [hWaits] at hWaiting
    rw [hFreed]
    apply h.counted.alive v
    by_cases hSame : v = u
    · rw [hSame, update_self] at hWaiting
      cases hWaiting
    · rwa [update_of_ne hSame] at hWaiting

theorem pipeAddWaiter_nodup {waiters waiters' : List TcbT} {node : Bool} (hNodup : waiters.Nodup)
    (hAdd : pipeAddWaiter waiters t node = some waiters') : waiters'.Nodup := by
  rw [pipeAddWaiter] at hAdd
  split at hAdd
  · cases hAdd
    exact hNodup
  · next hAway =>
    rw [pipeWaiterContains, List.contains_iff_mem] at hAway
    split at hAdd
    · cases hAdd
      exact List.nodup_cons.mpr ⟨hAway, hNodup⟩
    · cases hAdd

theorem Registered.add {node : Bool} {waiters : List TcbT} (h : Registered s) (hPlace : s.place t = .registering x)
    (hAdd : pipeAddWaiter (s.pipe.blocking x.waitsOn) t node = some waiters) (hFreed : s.freed t = false) :
    Counted (({ s with pipe := s.pipe.setBlocking x.waitsOn waiters }.setWaits t true).go t (.marking x)) := by
  have hHeld : (s.place t).Holds := by
    rw [hPlace]
    trivial
  have hNobody := h.orderly.nobody hHeld (by rw [hPlace]; rfl)
  set s' := ({ s with pipe := s.pipe.setBlocking x.waitsOn waiters }.setWaits t true).go t (.marking x) with hs'
  have hSelf : s'.place t = .marking x := go_place_self _ _ _
  have hOther : ∀ v, v ≠ t → s'.place v = s.place v := fun v hv => go_place_ne _ _ hv
  have hNobody' : ∀ v l, (s'.place v).todo ≠ some l := by
    intro v l hTodo
    by_cases hSame : v = t
    · rw [hSame, hSelf] at hTodo
      cases hTodo
    · rw [hOther v hSame] at hTodo
      exact hNobody v l hTodo
  have hListed : ∀ e v, s'.Listed e v ↔ v ∈ s'.pipe.blocking e :=
    fun e v => ⟨fun hMem => hMem.resolve_right fun ⟨w, l, hTodo, _⟩ => hNobody' w _ hTodo, .inl⟩
  have hListedBefore : ∀ e v, s.Listed e v ↔ v ∈ s.pipe.blocking e :=
    fun e v => ⟨fun hMem => hMem.resolve_right fun ⟨w, l, hTodo, _⟩ => hNobody w _ hTodo, .inl⟩
  have hOwn : s'.pipe.blocking x.waitsOn = waiters := blocking_setBlocking_self waiters
  have hRest : ∀ e, e ≠ x.waitsOn → s'.pipe.blocking e = s.pipe.blocking e :=
    fun e hNe => blocking_setBlocking_ne waiters hNe
  have hMem : ∀ e v, v ≠ t → (v ∈ s'.pipe.blocking e ↔ v ∈ s.pipe.blocking e) := by
    intro e v hNe
    by_cases hEnd : e = x.waitsOn
    · subst hEnd
      rw [hOwn, pipeAddWaiter_mem hAdd]
      exact or_iff_right hNe
    · rw [hRest e hEnd]
  refine ⟨?_, ?_, ?_, ?_⟩
  · intro e
    by_cases hEnd : e = x.waitsOn
    · rw [hEnd, hOwn]
      exact pipeAddWaiter_nodup (h.counted.alone _) hAdd
    · rw [hRest e hEnd]
      exact h.counted.alone e
  · exact fun v e todo hTodo => absurd hTodo (hNobody' v _)
  · intro v
    simp only [hListed]
    change update s.waits t true v ↔ _
    by_cases hSame : v = t
    · rw [hSame, update_self]
      refine ⟨fun _ => ⟨x.waitsOn, ?_⟩, fun _ => rfl⟩
      rw [hOwn]
      exact (pipeAddWaiter_mem hAdd).mpr (.inl rfl)
    · rw [update_of_ne hSame, h.counted.counted]
      simp only [hListedBefore, hMem _ v hSame]
  · intro v hWaiting
    change update s.waits t true v = true at hWaiting
    by_cases hSame : v = t
    · rw [hSame]
      exact hFreed
    · rw [update_of_ne hSame] at hWaiting
      exact h.counted.alive v hWaiting

theorem Registered.taskStep (h : Registered s) (hFreed : s.freed t = false) (hStep : TaskStep t s s') : Counted s' := by
  have c := h.counted
  cases hStep with
  | call r hPlace hRuns =>
    exact c.go hPlace (fun _ _ hTodo => by cases hTodo) rfl (fun _ => rfl) rfl (h.out hPlace rfl) rfl rfl
  | acquire hPlace hFree hHere =>
    rename_i r
    refine c.go hPlace (fun _ _ hTodo => by cases hTodo) rfl (fun _ => rfl) rfl (fun _ _ => ?_) rfl rfl
    cases r <;> rfl
  | perform hPlace hReady hPerform =>
    refine c.go hPlace (fun _ _ hTodo => by cases hTodo) rfl (perform_blocking hPerform) rfl
      (fun e hListed => ?_) rfl rfl
    exact absurd hListed (h.going hPlace hReady e)
  | finish hPlace hReady hPerform =>
    refine c.go hPlace (fun _ _ hTodo => by cases hTodo) rfl (fun _ => rfl) rfl (fun e hListed => ?_) rfl rfl
    exact absurd hListed (h.going hPlace hReady e)
  | idle hPlace hNot =>
    exact c.go hPlace (fun _ _ hTodo => by cases hTodo) rfl (fun _ => rfl) rfl (fun _ _ => rfl) rfl rfl
  | enter hPlace hNot =>
    exact c.go hPlace (fun _ _ hTodo => by cases hTodo) rfl (fun _ => rfl) rfl (fun _ _ => rfl) rfl rfl
  | dropLast hPlace hLast =>
    exact c.go hPlace (fun _ _ hTodo => by cases hTodo) rfl dropFd_blocking rfl (h.out hPlace rfl) rfl rfl
  | drop hPlace hMore =>
    exact c.go hPlace (fun _ _ hTodo => by cases hTodo) rfl dropFd_blocking rfl (h.out hPlace rfl) rfl rfl
  | dup hPlace =>
    exact c.go hPlace (fun _ _ hTodo => by cases hTodo) rfl (dupSection_tests s.pipe _).blocking rfl (h.out hPlace rfl)
      rfl rfl
  | empty hPlace => exact h.empty hPlace
  | skip hPlace hStatus => exact h.pass (by rw [hPlace]; rfl) rfl rfl rfl rfl rfl
  | wake hPlace hStatus =>
    rename_i e u todo closing
    have hTodo : ∀ v, ((s.go t (.starting e u todo closing)).place v).todo = (s.place v).todo := by
      intro v
      by_cases hSame : v = t
      · rw [hSame, go_place_self, hPlace]
        rfl
      · rw [go_place_ne s _ hSame]
    have hNone : (s.place t).transfer = none := by
      rw [hPlace]
      rfl
    refine c.frame (fun _ => rfl) (fun v l hWalks => (hTodo v).symm.trans hWalks) ?_ ?_ rfl c.alive
    · exact fun e v hListed => hListed.mono id fun w l hWalks hMem => ⟨l, (hTodo w).trans hWalks, hMem⟩
    · intro e v hListed
      obtain ⟨x, hx, -⟩ := c.transfer h.orderly hListed
      rw [go_place_ne s _]
      rintro rfl
      rw [hNone] at hx
      cases hx
  | start hPlace => exact h.pass (by rw [hPlace]; rfl) rfl rfl rfl rfl rfl
  | woken hPlace =>
    exact c.go hPlace (fun _ _ hTodo => by cases hTodo; rfl) rfl (fun _ => rfl) rfl (h.out hPlace rfl) rfl rfl
  | closed hPlace =>
    exact c.go hPlace (fun _ _ hTodo => by cases hTodo; rfl) rfl (clearSpec_tests s.pipe _).blocking rfl
      (h.out hPlace rfl) rfl rfl
  | unlock hPlace =>
    rename_i free
    refine c.go hPlace (fun _ _ hTodo => by cases hTodo) ?_ (fun _ => rfl) rfl (h.out hPlace rfl) rfl rfl
    cases free <;> rfl
  | release hPlace =>
    exact c.go hPlace (fun _ _ hTodo => by cases hTodo) rfl (fun _ => rfl) rfl (h.out hPlace rfl) rfl rfl
  | add hPlace hAdd => exact h.add hPlace hAdd hFreed
  | rouse hPlace hStatus =>
    obtain hPlace | hPlace := hPlace
    · exact c.go hPlace (fun _ _ hTodo => by cases hTodo) rfl (fun _ => rfl) rfl (fun _ _ => rfl) rfl rfl
    · exact c.go hPlace (fun _ _ hTodo => by cases hTodo) rfl (fun _ => rfl) rfl (fun _ _ => rfl) rfl rfl
  | addFails hPlace _ | mark hPlace | part hPlace | again hPlace | yield hPlace | give hPlace | doze _ hPlace _
  | dozeYields hPlace =>
    exact c.go hPlace (fun _ _ hTodo => by cases hTodo) rfl (fun _ => rfl) rfl (fun _ _ => rfl) rfl rfl

def FreesUnregistered (s : State) (l : Label) : Prop := ∀ t, l = .free t → s.waits t = false

theorem Registered.step {l : Label} (h : Registered s) (hAllowed : FreesUnregistered s l) (hStep : Step s l s') :
    Registered s' := by
  refine ⟨h.orderly.step hStep, ?_⟩
  cases hStep with
  | task hAlive hStep => exact h.taskStep hAlive hStep
  | scheduler hStep =>
    cases hStep <;> exact h.counted.frame (fun _ => rfl) (fun _ _ => id) (fun _ _ => id) (fun _ _ _ => rfl) rfl
      h.counted.alive
  | other | kill =>
    exact h.counted.frame (fun _ => rfl) (fun _ _ => id) (fun _ _ => id) (fun _ _ _ => rfl) rfl h.counted.alive
  | free =>
    rename_i t
    refine h.counted.frame (fun _ => rfl) (fun _ _ => id) (fun _ _ => id) (fun _ _ _ => rfl) rfl ?_
    intro v hWaiting
    have hNe : v ≠ t := by
      rintro rfl
      rw [hAllowed v rfl] at hWaiting
      cases hWaiting
    exact (update_of_ne hNe _ _).trans (h.counted.alive v hWaiting)

theorem opened_registered : Registered opened where
  orderly := opened_orderly
  counted :=
    { alone := fun e => by cases e <;> exact List.nodup_nil
      walk := fun _ _ _ hTodo => by cases hTodo
      counted := fun t => by
        refine ⟨fun hWaiting => (by cases hWaiting), ?_⟩
        rintro ⟨e, hMem | ⟨u, todo, hWalks, -⟩⟩
        · cases e <;> cases hMem
        · cases hWalks
      alive := fun _ _ => rfl }

theorem run_registered {labels : List Label} (hRun : Run (waitSystem.restrict FreesUnregistered) opened labels s) :
    Registered s :=
  hRun.invariant (fun _ _ _ h hStep => h.step hStep.1 hStep.2) opened_registered

end

/-- Where only tasks that are not registered are freed, every node is that of a task that exists; and freeing one more
task keeps this just when it is not registered. -/
theorem waiters_exist {labels : List Label} {s : State}
    (hRun : Run (waitSystem.restrict FreesUnregistered) opened labels s) :
    (∀ e t, s.Listed e t → s.freed t = false) ∧
      ∀ t s', Step s (.free t) s' → ((∀ e u, s'.Listed e u → s'.freed u = false) ↔ s.waits t = false) := by
  have c := (run_registered hRun).counted
  have hExist : ∀ e t, s.Listed e t → s.freed t = false := fun e t hListed => c.alive t ((c.counted t).mpr ⟨e, hListed⟩)
  refine ⟨hExist, ?_⟩
  intro t s' hStep
  cases hStep
  constructor
  · intro hAfter
    by_contra hWaiting
    obtain ⟨e, hListed⟩ := (c.counted t).mp (eq_true_of_ne_false hWaiting)
    have hGone : update s.freed t true t = false := hAfter e t hListed
    rw [update_self] at hGone
    cases hGone
  · intro hAway e u hListed
    have hNe : u ≠ t := by
      rintro rfl
      rw [(c.counted u).mpr ⟨e, hListed⟩] at hAway
      cases hAway
    exact (update_of_ne hNe _ _).trans (hExist e u hListed)

/-- A reader that sleeps is on its list. -/
theorem waiters_exist_reader :
    ∃ labels s, Run (waitSystem.restrict FreesUnregistered) opened labels s ∧ s.Listed .read 1 ∧
      ∀ e t, s.Listed e t → s.freed t = false := by
  obtain ⟨s, hRun, -, -, -, -, hBlocking⟩ := reader_sleeps
  have hAllowed : ∀ s, ∀ l ∈ List.replicate 6 (.task 1), FreesUnregistered s l := by
    intro s l hMem t hFree
    rw [List.eq_of_mem_replicate hMem] at hFree
    cases hFree
  have hRestricted := hRun.restrict hAllowed
  refine ⟨_, s, hRestricted, .inl ?_, (waiters_exist hRestricted).1⟩
  rw [hBlocking]
  exact .head _

/-- A task that is killed and freed while it waits stays on the list. -/
theorem freed_waiter_listed :
    ∃ labels s, Run waitSystem opened labels s ∧ 1 ∈ s.pipe.blocking .read ∧ s.freed 1 = true := by
  obtain ⟨s, hRun, -, -, -, -, hBlocking⟩ := reader_sleeps
  refine ⟨_, _, (hRun.snoc (.kill (t := 1))).snoc (.free (t := 1)), ?_, rfl⟩
  change 1 ∈ s.pipe.blocking .read
  rw [hBlocking]
  exact .head _

end OpenXJ380.Pipe.Waiting
