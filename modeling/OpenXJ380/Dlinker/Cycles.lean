import OpenXJ380.Dlinker.Works
import Mathlib.Algebra.Order.BigOperators.Group.Finset

/-! # Opening and closing

What is open is in the list and counted, and the calls of a load work for the directory of
the caller. Each step of a load leaves less to do.
-/

namespace OpenXJ380.Dlinker

open Function

open Transition

section

variable {files : Name → Option SharedObject} {s s' : Session} {w w' : World} {h : HandleId} {path : Name} {pd : Pd}

theorem settle_world (s : Session) (w : World) : (s.settle w).world = w := by
  rw [Session.settle]
  split
  · rfl
  · rfl

structure Kept (files : Name → Option SharedObject) (s : Session) : Prop where
  books : Books files s.world none
  listed : ∀ h, 0 < s.opened h → h ∈ s.world.listed
  counted : ∀ h, s.opened h ≤ (s.world.handle h).refCount
  caller : ∀ l ∈ s.world.stack, (s.world.handle l.id).pd = s.caller

theorem Kept.lives (hKept : Kept files s) : Lives files s := by
  have hHeld : ∀ h ∈ s.world.listed, h ∈ s.world.held := fun h hh => World.mem_held.mpr (.inr hh)
  constructor
  · exact fun h hh g hg => hKept.books.paths h (hHeld h hh) g (hHeld g hg)
  · intro h hOpen
    have hListed := hKept.listed h hOpen
    have hCount := hOpen.trans_le (hKept.counted h)
    exact ⟨hListed, (hKept.books.ups h).mpr ⟨hListed, (hKept.books.counts h hListed).mpr hCount⟩⟩
  · exact fun n h hEvent => (hKept.books.inits n h hEvent).2
  · exact hKept.books.finis

theorem Works.not_fini (hWorks : Works w w' pd) (h : HandleId) : w'.log ≠ w.log ++ [.fini h] := by
  intro hFini
  obtain hSame | ⟨g, hInit⟩ := hWorks.quiet
  · have hNil := List.append_cancel_left ((List.append_nil _).trans (hSame.symm.trans hFini))
    cases hNil
  · cases List.append_cancel_left (hInit.symm.trans hFini)

theorem Works.opened (hKept : Kept files s) (hWorks : Works s.world w pd) (h : HandleId) :
    s.opened h ≤ (w.handle h).refCount := by
  obtain hNone | hOpen := Nat.eq_zero_or_pos (s.opened h)
  · rw [hNone]
    exact Nat.zero_le _
  · exact (hKept.counted h).trans (hWorks.counted h (hKept.listed h hOpen))

theorem Kept.settle (hKept : Kept files s) (hBooks : Books files w none) (hWorks : Works s.world w pd)
    (hGives : Gives s.world w pd) :
    Kept files ({ s with caller := pd }.settle w) ∧ Serves files s ({ s with caller := pd }.settle w) := by
  rw [Session.settle]
  split
  · next g hIdle hReturned =>
    obtain ⟨hListed, hMapped, hCount⟩ := hGives hIdle g hReturned
    refine ⟨⟨hBooks, fun h hOpen => ?_, fun h => ?_, hWorks.caller⟩, ?_, fun h hMore => ?_⟩
    · obtain rfl | hne := eq_or_ne h g
      · exact hListed
      · dsimp only at hOpen
        rw [update_of_ne hne] at hOpen
        exact hWorks.listed h (hKept.listed h hOpen)
    · dsimp only
      obtain rfl | hne := eq_or_ne h g
      · rw [update_self]
        obtain ⟨-, hOnce⟩ | ⟨hFirst, hPos⟩ := hCount
        · rw [hOnce]
          exact Nat.succ_le_succ (hKept.counted h)
        · have hClosed : s.opened h = 0 := Nat.eq_zero_of_not_pos fun hOpen => hFirst (hKept.listed h hOpen)
          rw [hClosed]
          exact hPos
      · rw [update_of_ne hne]
        exact hWorks.opened hKept h
    · exact fun h hFini => absurd hFini (hWorks.not_fini h)
    · obtain rfl | hne := eq_or_ne h g
      · exact hMapped
      · dsimp only at hMore
        rw [update_of_ne hne] at hMore
        exact absurd hMore.symm (Nat.succ_ne_self _)
  · refine ⟨⟨hBooks, fun h hOpen => ?_, fun h => hWorks.opened hKept h, hWorks.caller⟩, ?_, fun h hMore => ?_⟩
    · exact hWorks.listed h (hKept.listed h hOpen)
    · exact fun h hFini => absurd hFini (hWorks.not_fini h)
    · exact absurd hMore.symm (Nat.succ_ne_self _)

theorem dlclose_cases (w : World) (h : HandleId) : (1 < (w.handle h).refCount ∧
      dlclose w h = w.setHandle h { w.handle h with refCount := (w.handle h).refCount - 1 }) ∨
    (w.handle h).refCount ≤ 1 ∧
      ((w.handle h).initCalled = false ∧ dlclose w h = w.setHandle h { w.handle h with refCount := 0 } ∨
        (w.handle h).initCalled ∧ Closed w (dlclose w h) h) := by
  rw [dlclose]
  split
  · next hMore => exact .inl ⟨hMore, rfl⟩
  · next hLast =>
    refine .inr ⟨not_lt.mp hLast, ?_⟩
    dsimp only
    obtain hUp | hDown := Bool.eq_false_or_eq_true (w.handle h).initCalled
    · refine .inr ⟨hUp, ?_⟩
      rw [callDynamicFinalizers, if_pos hUp]
      have hSet : ∀ g (x y : Handle), g ≠ h → update (update w.handle h x) h y g = w.handle g := by
        intro g x y hne
        rw [update_of_ne hne, update_of_ne hne]
      refine ⟨⟨le_rfl, fun g _ => ?_, fun _ _ h => h⟩, rfl, rfl, rfl, ?_, fun g hne => hSet g _ _ hne⟩
      · obtain rfl | hne := eq_or_ne g h
        · simp [World.setHandle]
        · exact congrArg Handle.toImage (hSet g _ _ hne)
      · simp [World.setHandle]
    · refine .inl ⟨hDown, ?_⟩
      have hSame : callDynamicFinalizers w h = w := by rw [callDynamicFinalizers, hDown]; rfl
      rw [hSame]

theorem Keeps.needs {g d : HandleId} (hKeeps : Keeps w w') (hg : g < w.handles) (hd : d < w.handles)
    (h : Needs files w' g d) : Needs files w g d := by
  obtain ⟨name, hNeeded, hPath⟩ := h
  rw [hKeeps.image g hg] at hNeeded hPath
  rw [hKeeps.image d hd] at hPath
  exact ⟨name, hNeeded, hPath⟩

def Session.closed (s : Session) (h : HandleId) (w : World) : Session :=
  { s with world := w, opened := update s.opened h (s.opened h - 1) }

theorem closed_opened (s : Session) (h g : HandleId) (w : World) : (s.closed h w).opened g ≤ s.opened g := by
  rw [Session.closed]
  dsimp only
  obtain rfl | hne := eq_or_ne g h
  · rw [update_self]
    exact Nat.sub_le _ _
  · rw [update_of_ne hne]

theorem closed_mapped (s : Session) (h : HandleId) (w : World) (g : HandleId)
    (hMore : (s.closed h w).opened g = s.opened g + 1) : Mapped w s.caller g := by
  have hLess := closed_opened s h g w
  rw [hMore] at hLess
  exact absurd hLess (Nat.not_succ_le_self _)

section

variable (hKept : Kept files s)

include hKept

theorem Kept.closed (hBooks : Books files w none) (hStack : w.stack = [])
    (hListed : w.listed = s.world.listed) (hHere : s.opened h - 1 ≤ (w.handle h).refCount)
    (hOthers : ∀ g ≠ h, w.handle g = s.world.handle g) : Kept files (s.closed h w) := by
  refine ⟨hBooks, fun g hOpen => ?_, fun g => ?_, fun l hl => ?_⟩
  · change g ∈ w.listed
    rw [hListed]
    exact hKept.listed g (hOpen.trans_le (closed_opened s h g w))
  · rw [Session.closed]
    dsimp only
    obtain rfl | hne := eq_or_ne g h
    · rw [update_self]
      exact hHere
    · rw [update_of_ne hne, hOthers g hne]
      exact hKept.counted g
  · change l ∈ w.stack at hl
    rw [hStack] at hl
    cases hl

theorem lower_closed {n : Nat} (hStack : s.world.stack = [])
    (hCount : 0 < n ↔ 0 < (s.world.handle h).refCount) (hHere : s.opened h - 1 ≤ n) :
    Kept files (s.closed h (s.world.setHandle h { s.world.handle h with refCount := n })) ∧
      Serves files s (s.closed h (s.world.setHandle h { s.world.handle h with refCount := n })) := by
  have hAlike : Alike s.world (s.world.setHandle h { s.world.handle h with refCount := n }) :=
    setHandle_alike rfl rfl hCount
  refine ⟨hKept.closed (hKept.books.alike hAlike) hStack rfl ?_ ?_, fun g hFini => ?_, closed_mapped s h _⟩
  · simpa [World.setHandle] using hHere
  · exact fun g hne => update_of_ne hne ..
  · have hNil := List.append_cancel_left ((List.append_nil _).trans hFini)
    cases hNil

theorem dlclose_kept (hStack : s.world.stack = []) (hListed : h ∈ s.world.listed)
    (hPermitted : Permitted files s (.dlclose h)) :
    Kept files (s.closed h (dlclose s.world h)) ∧ Serves files s (s.closed h (dlclose s.world h)) := by
  have hCounted := hKept.counted h
  obtain ⟨hMore, hLess⟩ | ⟨hLast, ⟨hDown, hZero⟩ | ⟨hUp, hClosed⟩⟩ := dlclose_cases s.world h
  · rw [hLess]
    refine lower_closed hKept hStack ⟨fun _ => by omega, fun _ => by omega⟩ (Nat.sub_le_sub_right hCounted 1)
  · have hNone : (s.world.handle h).refCount = 0 := by
      refine Nat.eq_zero_of_not_pos fun hPos => ?_
      rw [← hKept.books.counts h hListed, hDown] at hPos
      cases hPos
    rw [hZero]
    exact lower_closed hKept hStack (by rw [hNone]) (by omega)
  · have hBooks := hKept.books.close hStack hListed hUp hClosed
    have hOld := hKept.books.oldListed hListed
    refine ⟨hKept.closed hBooks (hClosed.stack.trans hStack) hClosed.listed (by omega) hClosed.others,
      fun g hFini => ?_, closed_mapped s h _⟩
    have hLog : (s.closed h (dlclose s.world h)).world.log = s.world.log ++ [.fini h] := hClosed.log
    cases List.append_cancel_left (hLog.symm.trans hFini)
    refine ⟨?_, fun k hk hNeeds => ?_⟩
    · rw [Session.closed]
      dsimp only
      rw [update_self]
      omega
    · rw [hLog, up_fini] at hk
      split at hk
      · cases hk
      · obtain ⟨hIn, hInit⟩ := (hKept.books.ups k).mp hk
        refine hPermitted hLast k hIn ((hKept.books.counts k hIn).mp hInit) ?_
        exact hClosed.toKeeps.needs (hKept.books.oldListed hIn) hOld hNeeds

theorem dlopen_kept {flags : Flags} (hStack : s.world.stack = [])
    (hPermitted : Permitted files s (.dlopen path flags pd)) (h : dlopen files s.world path flags pd = some w) :
    Kept files ({ s with caller := pd }.settle w) ∧ Serves files s ({ s with caller := pd }.settle w) := by
  have hBooks := hKept.books
  have hCaller : ∀ l ∈ s.world.stack, (s.world.handle l.id).pd = pd := by
    intro l hl
    rw [hStack] at hl
    cases hl
  rw [dlopen] at h
  split at h
  · next g hFound =>
    cases h
    obtain ⟨hCount, hPd⟩ := hPermitted g hFound
    have hListed := List.mem_of_find?_eq_some hFound
    have hAlike : Alike s.world (s.world.setHandle g
        { s.world.handle g with refCount := (s.world.handle g).refCount + 1 }) :=
      setHandle_alike rfl rfl ⟨fun _ => hCount, fun _ => Nat.succ_pos _⟩
    have hWorks := recount_works hBooks hCount hCaller
    have hAfter := hBooks.alike hAlike
    refine hKept.settle ?_ ?_ fun _ k hk => ?_
    · exact hAfter.alike ⟨⟨le_rfl, fun _ _ => rfl, fun _ _ h => h⟩, rfl, rfl, rfl, fun _ _ => rfl, fun _ _ => Iff.rfl⟩
    · exact { hWorks with toKeeps := { hWorks with } }
    · cases hk
      have hImage := hAlike.image g (hBooks.oldListed hListed)
      refine ⟨hListed, hAfter.mapped hListed ?_, .inl ⟨hListed, ?_⟩⟩
      · rw [hImage]
        exact hPd
      · exact (recount_refCount s.world g g).trans (if_pos rfl)
  · next hNone =>
    split at h
    · cases h
      refine hKept.settle ?_ ?_ fun _ => nofun
      · exact hBooks.alike ⟨⟨le_rfl, fun _ _ => rfl, fun _ _ h => h⟩, rfl, rfl, rfl, fun _ _ => rfl, fun _ _ => Iff.rfl⟩
      · have hSame := Works.refl hCaller
        exact { hSame with toKeeps := { hSame with } }
    · have hAbsent : ∀ g, (s.world.listed.find? fun h => (s.world.handle h).path = path) ≠ some g := by
        intro g hg
        cases hNone.symm.trans hg
      have hLoaded : Books files w none := by
        refine hBooks.load (.inl ⟨hStack, rfl⟩) (fun g hg => absurd hg (hAbsent g)) (fun _ l hl => ?_) h
        rw [hStack] at hl
        cases hl
      obtain ⟨hWorks, hGives⟩ := hBooks.load_works hCaller (fun g hg => absurd hg (hAbsent g)) h
      exact hKept.settle hLoaded hWorks hGives

theorem acts_kept {a : Act} (hPermitted : Permitted files s a) (h : Acts files s a s') :
    Kept files s' ∧ Serves files s s' := by
  cases h with
  | dlopen hStack hOpen => exact dlopen_kept hKept hStack hPermitted hOpen
  | dlclose hStack hListed => exact dlclose_kept hKept hStack hListed hPermitted
  | next hNext =>
    obtain ⟨hWorks, hGives⟩ := hKept.books.next_works hKept.caller hPermitted hNext
    exact hKept.settle (hKept.books.next hPermitted hNext) hWorks hGives

end

theorem Session.init_kept (kernelSymbols : List (Name × Nat)) : Kept files (Session.init kernelSymbols) := by
  refine ⟨?_, nofun, fun _ => le_rfl, nofun⟩
  refine ⟨List.nodup_nil, nofun, nofun, nofun, nofun, fun h => ?_, nofun, nofun, trivial, nofun⟩
  exact iff_of_false nofun fun hIn => nomatch hIn.1

section

variable {paths : Finset Name} {l : Loading} {rest : List Loading}

theorem absent_subset (h : ∀ g ∈ w.held, ∃ k ∈ w'.held, (w'.handle k).path = (w.handle g).path) :
    w'.absent paths ⊆ w.absent paths := by
  intro path hPath
  rw [World.absent, Finset.mem_filter] at hPath ⊢
  refine ⟨hPath.1, fun g hg hEq => ?_⟩
  obtain ⟨k, hk, hSame⟩ := h g hg
  exact hPath.2 k hk (hSame.trans hEq)

theorem weight_lt (hStack : w.stack = l :: rest) (h : w'.stack = [] ∨
      (∑ path ∈ w'.absent paths, (neededCount files path + 2)) + (w'.stack.map fun k => k.needed.length + 1).sum <
        (∑ path ∈ w.absent paths, (neededCount files path + 2)) +
          (l.needed.length + 1 + (rest.map fun k => k.needed.length + 1).sum)) :
    w'.weight files paths < w.weight files paths := by
  rw [World.weight, World.weight, hStack, if_neg (List.cons_ne_nil _ _), List.map_cons, List.sum_cons]
  obtain hIdle | hLess := h
  · rw [if_pos hIdle]
    omega
  · split
    · omega
    · exact hLess

theorem absent_le (h : ∀ g ∈ w.held, ∃ k ∈ w'.held, (w'.handle k).path = (w.handle g).path) :
    ∑ path ∈ w'.absent paths, (neededCount files path + 2) ≤ ∑ path ∈ w.absent paths, (neededCount files path + 2) :=
  Finset.sum_le_sum_of_subset (absent_subset h)

theorem waiting_lt {name : Option Name} {more : List (Option Name)} (hStack : w.stack = l :: rest)
    (hNeeded : l.needed = name :: more) (hSame : w'.stack = (w.waiting l more rest).stack)
    (hHeld : ∀ g ∈ w.held, ∃ k ∈ w'.held, (w'.handle k).path = (w.handle g).path) :
    w'.weight files paths < w.weight files paths := by
  refine weight_lt hStack (.inr ?_)
  have hLe := @absent_le files _ _ paths hHeld
  rw [hSame, World.waiting, List.map_cons, List.sum_cons, hNeeded, List.length_cons]
  dsimp only
  omega

theorem push_lt {name : Option Name} {more needed : List (Option Name)} {g : HandleId} (hStack : w.stack = l :: rest)
    (hNeeded : l.needed = name :: more) (hSame : w'.stack = ⟨g, needed⟩ :: (w.waiting l more rest).stack)
    (hHeld : ∀ g ∈ w.held, ∃ k ∈ w'.held, (w'.handle k).path = (w.handle g).path)
    (hPath : (w'.handle g).path = path) (hIn : path ∈ w.absent paths)
    (hCount : neededCount files path = needed.length) : w'.weight files paths < w.weight files paths := by
  refine weight_lt hStack (.inr ?_)
  have hSubset : w'.absent paths ⊆ (w.absent paths).erase path := by
    intro path' hPath'
    refine Finset.mem_erase.mpr ⟨?_, absent_subset hHeld hPath'⟩
    rintro rfl
    rw [World.absent, Finset.mem_filter] at hPath'
    refine hPath'.2 g (World.mem_held.mpr (.inl ⟨⟨g, needed⟩, ?_, rfl⟩)) hPath
    rw [hSame]
    exact List.mem_cons_self
  have hLe : ∑ path ∈ w'.absent paths, (neededCount files path + 2) ≤
      ∑ path ∈ (w.absent paths).erase path, (neededCount files path + 2) := Finset.sum_le_sum_of_subset hSubset
  have hSplit := Finset.add_sum_erase (w.absent paths) (fun path => neededCount files path + 2) hIn
  rw [hSame, World.waiting, List.map_cons, List.map_cons, List.sum_cons, List.sum_cons, hNeeded, List.length_cons]
  dsimp only at hSplit ⊢
  omega

theorem waiting_held {more : List (Option Name)} (hStack : w.stack = l :: rest) :
    (w.waiting l more rest).held = w.held := by
  rw [World.held, World.held, hStack]
  rfl

theorem Alike.held (hAlike : Alike w w') (hOld : ∀ g ∈ w.held, g < w.handles) :
    ∀ g ∈ w.held, ∃ k ∈ w'.held, (w'.handle k).path = (w.handle g).path := by
  intro g hg
  refine ⟨g, ?_, congrArg Image.path (hAlike.image g (hOld g hg))⟩
  rw [World.held, hAlike.stack, hAlike.listed]
  exact hg

theorem Alike.trans {w'' : World} (h : Alike w w') (h' : Alike w' w'') : Alike w w'' := by
  refine ⟨h.toKeeps.trans h'.toKeeps, h'.listed.trans h.listed, h'.stack.trans h.stack, h'.log.trans h.log,
    fun g hg => ?_, fun g hg => ?_⟩
  · exact (h'.initCalled g (hg.trans_le h.handles)).trans (h.initCalled g hg)
  · exact (h'.refCount g (hg.trans_le h.handles)).trans (h.refCount g hg)

theorem next_weight (hBooks : Books files w none)
    (hPermitted : ∀ l rest name more, w.stack = l :: rest → l.needed = some name :: more →
      NextPermitted files w (w.handle l.id).toImage name)
    (hPaths : ∀ path, files path ≠ none → path ∈ paths) (h : next files w = some w') :
    w'.weight files paths < w.weight files paths := by
  obtain ⟨l, rest, hStack, ⟨-, rfl⟩ | rfl | ⟨name, more, hNeeded, hGoes⟩⟩ := next_cases h
  · have hl : l ∈ w.stack := by simp [hStack]
    obtain hFailed | ⟨v, hFinished, hDeliver⟩ := finish_cases l rest (hBooks.loading l hl).1
    · rw [hFailed]
      exact weight_lt hStack (.inl rfl)
    · rw [hDeliver]
      have hAlike := deliver_alike v l.id
      refine weight_lt hStack (.inr ?_)
      have hLe : ∑ path ∈ (deliver v l.id).absent paths, (neededCount files path + 2) ≤
          ∑ path ∈ w.absent paths, (neededCount files path + 2) := by
        refine absent_le fun g hg => ⟨g, ?_, ?_⟩
        · rw [World.held, hAlike.stack, hAlike.listed, hFinished.stack, hFinished.listed]
          rw [World.held, hStack, List.map_cons, List.cons_append] at hg
          exact List.perm_middle.mem_iff.mpr hg
        · exact congrArg Image.path ((hFinished.toKeeps.trans hAlike.toKeeps).image g (hBooks.old g hg))
      rw [hAlike.stack, hFinished.stack]
      omega
  · exact weight_lt hStack (.inl rfl)
  · have hBooks' : Books files (w.waiting l more rest) (some (fullPath files (w.handle l.id).toImage name)) :=
      hBooks.advance hStack hNeeded (.inr rfl)
    have hSameHeld : (w.waiting l more rest).held = w.held := waiting_held hStack
    obtain ⟨g, -, rfl⟩ | ⟨hNone, hLoad⟩ := hGoes
    · refine waiting_lt hStack hNeeded (deliver_stack ..) ?_
      rw [← hSameHeld]
      exact (deliver_alike (w.waiting l more rest) g).held hBooks'.old
    · have hNext := hPermitted l rest name more hStack hNeeded
      rw [NextPermitted, hNone] at hNext
      dsimp only at hNext
      obtain ⟨g, hg, rfl⟩ | rfl | ⟨o, base, size, hNew, hAccepted, rfl | rfl⟩ := loadSharedObject_cases hLoad
      · refine waiting_lt hStack hNeeded ((deliver_stack ..).trans (reuse_stack ..)) ?_
        change (w.listed.find? fun h => (w.handle h).path = fullPath files (w.handle l.id).toImage name) = some g at hg
        rw [hg] at hNext
        rw [← hSameHeld]
        have hReuse : Alike (w.waiting l more rest) (reuse (w.waiting l more rest) g) := reuse_alike hNext
        exact (hReuse.trans (deliver_alike _ g)).held hBooks'.old
      · exact weight_lt hStack (.inl rfl)
      · exact weight_lt hStack (.inl rfl)
      · change (w.listed.find? fun h => (w.handle h).path = fullPath files (w.handle l.id).toImage name) = none at hNew
        rw [hNew] at hNext
        have hCreated := mapImage_created (w.waiting l more rest) (fullPath files (w.handle l.id).toImage name) o base
          size (w.handle l.id).isKernel (w.handle l.id).pd
        obtain ⟨hFile, -⟩ := acceptedAt_spec hAccepted
        refine push_lt hStack hNeeded (congrArg (List.cons _) hCreated.stack) ?_ (congrArg Image.path hCreated.new)
          ?_ ?_
        · intro g hg
          rw [← hSameHeld] at hg
          obtain ⟨k, hk, hPath⟩ := hCreated.toAlike.held hBooks'.old g hg
          exact ⟨k, .tail _ hk, hPath⟩
        · rw [World.absent, Finset.mem_filter]
          refine ⟨hPaths _ (by rw [hFile]; rintro ⟨⟩), fun g hg => ?_⟩
          obtain ⟨k, hk, rfl⟩ | hListed := World.mem_held.mp hg
          · exact hNext k hk
          · simpa using List.find?_eq_none.mp hNew g hListed
        · rw [neededCount, hFile]

theorem next_some (hContained : Contained files w) (hStack : w.stack ≠ []) : ∃ w', next files w = some w' := by
  obtain ⟨l, rest, hCons⟩ := List.exists_cons_of_ne_nil hStack
  rw [next, hCons]
  dsimp only
  split
  · exact ⟨_, rfl⟩
  · exact ⟨_, rfl⟩
  · next name more hNeeded =>
    split
    · exact ⟨_, rfl⟩
    · rw [loadSharedObject]
      split
      · exact ⟨_, rfl⟩
      split
      · exact ⟨_, rfl⟩
      · next o base size hAccepted =>
        rw [if_neg (by rw [hContained _ _ o base size hAccepted]; rintro ⟨⟩)]
        dsimp only
        split
        · exact ⟨_, rfl⟩
        · exact ⟨_, rfl⟩

end

/-- While dependencies are found as what they are and not closed, are not in a cycle, and what is opened again is up and
of the same directory, objects live as they should, and loads end. -/
theorem shared_objects_live {kernelSymbols : List (Name × Nat)} {acts : List Act} {paths : Finset Name}
    (hPaths : ∀ path, files path ≠ none → path ∈ paths)
    (hRun : Run ((linkSystem files).restrict (Permitted files)) (Session.init kernelSymbols) acts s) :
    Lives files s ∧
      (∀ a s', ((linkSystem files).restrict (Permitted files)).step s a s' → Serves files s s') ∧
      (∀ more s', Run ((linkSystem files).restrict (Permitted files)) s more s' → (∀ a ∈ more, a = .next) →
        more.length ≤ s.world.weight files paths) ∧
      (s.world.stack ≠ [] → Contained files s.world → ∃ s', (linkSystem files).step s .next s') := by
  have hStep : ∀ s a s', Kept files s → ((linkSystem files).restrict (Permitted files)).step s a s' → Kept files s' :=
    fun s a s' hKept hAct => (acts_kept hKept hAct.1 hAct.2).1
  have hKept : Kept files s := hRun.invariant hStep (Session.init_kept kernelSymbols)
  refine ⟨hKept.lives, fun a s' hAct => (acts_kept hKept hAct.1 hAct.2).2, fun more s' hMore hNext => ?_, ?_⟩
  · have hLess : ∀ s a s', Kept files s → a = Act.next → ((linkSystem files).restrict (Permitted files)).step s a s' →
        Kept files s' ∧ s'.world.weight files paths < s.world.weight files paths := by
      rintro s a s' hKept rfl ⟨hPermitted, hAct⟩
      refine ⟨(acts_kept hKept hPermitted hAct).1, ?_⟩
      cases hAct with
      | next hNext =>
        rw [settle_world]
        exact next_weight hKept.books hPermitted hPaths hNext
    exact Nat.le_of_add_right_le (hMore.length_le hLess hKept hNext).2
  · intro hStack hContained
    obtain ⟨w, hNext⟩ := next_some hContained hStack
    exact ⟨_, Acts.next hNext⟩

end

def solo (path : Name) : Option SharedObject := if path = ['a'] then some (smallObject []) else none

theorem solo_opened : ∃ s w, Acts solo (Session.init []) (.dlopen ['a'] ⟨false, false⟩ 0) s ∧
    s.world.stack = [⟨0, []⟩] ∧ next solo s.world = some w :=
  ⟨_, _, Acts.dlopen rfl rfl, rfl, rfl⟩

theorem shared_objects_live_solo : ∃ acts s,
    Run ((linkSystem solo).restrict (Permitted solo)) (Session.init []) acts s ∧ Lives solo s ∧
      (∀ a s', ((linkSystem solo).restrict (Permitted solo)).step s a s' → Serves solo s s') ∧
      (∀ more s', Run ((linkSystem solo).restrict (Permitted solo)) s more s' → (∀ a ∈ more, a = .next) →
        more.length ≤ s.world.weight solo {['a']}) ∧
      (s.world.stack ≠ [] → Contained solo s.world → ∃ s', (linkSystem solo).step s .next s') := by
  obtain ⟨s, w, hOpen, hStack, hNext⟩ := solo_opened
  have hPaths : ∀ path, solo path ≠ none → path ∈ ({['a']} : Finset Name) := by
    intro path hSome
    rw [solo] at hSome
    split at hSome
    · next hPath => simp [hPath]
    · exact absurd rfl hSome
  have hFirst : Permitted solo (Session.init []) (.dlopen ['a'] ⟨false, false⟩ 0) := by
    intro h hFound
    cases hFound
  have hSecond : Permitted solo s .next := by
    intro l rest name more hCons hNeeded
    rw [hStack] at hCons
    cases hCons
    cases hNeeded
  have hRun := (Run.single (M := (linkSystem solo).restrict (Permitted solo)) ⟨hFirst, hOpen⟩).snoc (l := Act.next)
    ⟨hSecond, Acts.next hNext⟩
  exact ⟨_, _, hRun, shared_objects_live hPaths hRun⟩

/-- The object is opened, closed and opened again: its initialisers have not been called again. -/
theorem reopened_without_initializers : ∃ files kernelSymbols acts s,
    Run (linkSystem files) (Session.init kernelSymbols) acts s ∧ ¬ Lives files s := by
  have hRun : ∃ acts s, Run (linkSystem solo) (.init []) acts s ∧ s.opened 0 = 1 ∧ up s.world.log 0 = false := by
    refine ⟨_, _, (((Run.single (l := Act.dlopen ['a'] ⟨false, false⟩ 0) (Acts.dlopen rfl rfl)).snoc
      (l := Act.next) (Acts.next rfl)).snoc (l := Act.dlclose 0) (Acts.dlclose rfl ?_)).snoc
      (l := Act.dlopen ['a'] ⟨false, false⟩ 0) (Acts.dlopen rfl rfl), rfl, rfl⟩
    exact List.mem_singleton.mpr rfl
  obtain ⟨acts, s, hRun, hOpen, hDown⟩ := hRun
  refine ⟨solo, [], acts, s, hRun, fun hLives => ?_⟩
  have hUp := (hLives.open_up 0 (by rw [hOpen]; exact Nat.one_pos)).2
  rw [hDown] at hUp
  cases hUp

end OpenXJ380.Dlinker
