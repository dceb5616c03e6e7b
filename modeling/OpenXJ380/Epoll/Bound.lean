import Mathlib.Data.List.Perm.Subperm
import OpenXJ380.Epoll.Model

/-! # Watches stay with their files -/

namespace OpenXJ380.Epoll

open Function

open Errno Transition

variable {p p' : Process} {fileOpen : List (Fd × Handle)} {fd fd' : Int} {handle : Handle} {node ep : NodeId}
  {watches : List Watch} {watch : Watch} {room : Room}

theorem queueGet_append (h : queueGet fileOpen fd = some handle) (entry : Fd × Handle) :
    queueGet (fileOpen ++ [entry]) fd = some handle := by
  obtain ⟨found, hFind, rfl⟩ := Option.map_eq_some_iff.mp h
  rw [queueGet, List.find?_append, hFind]
  rfl

theorem queueGet_removeAt (hNe : fd ≠ fd') : queueGet (queueRemoveAt fileOpen fd') fd = queueGet fileOpen fd := by
  rw [queueGet, queueGet, queueRemoveAt]
  congr 1
  induction fileOpen with
  | nil => rfl
  | cons entry rest ih =>
    by_cases hOther : (entry.1 : Int) = fd'
    · have hNot : ¬(entry.1 : Int) = fd := fun h => hNe (h.symm.trans hOther)
      rw [List.eraseP_cons_of_pos (by simpa using hOther), List.find?_cons_of_neg (by simpa using hNot)]
    · rw [List.eraseP_cons_of_neg (by simpa using hOther), List.find?_cons, List.find?_cons, ih]

theorem queueGet_eq_none : queueGet fileOpen fd = none ↔ ∀ entry ∈ fileOpen, (entry.1 : Int) ≠ fd := by
  simp [queueGet]

theorem queueGet_removed (hNodup : (fileOpen.map Prod.fst).Nodup) : queueGet (queueRemoveAt fileOpen fd) fd = none := by
  induction fileOpen with
  | nil => rfl
  | cons entry rest ih =>
    obtain ⟨hFirst, hRest⟩ := List.nodup_cons.mp hNodup
    by_cases hFd : (entry.1 : Int) = fd
    · rw [queueRemoveAt, List.eraseP_cons_of_pos (by simpa using hFd), queueGet_eq_none]
      intro other hOther hSame
      have hNumber : other.1 = entry.1 := Int.ofNat_inj.mp (hSame.trans hFd.symm)
      exact hFirst (hNumber ▸ List.mem_map_of_mem hOther)
    · rw [queueRemoveAt, List.eraseP_cons_of_neg (by simpa using hFd), queueGet,
        List.find?_cons_of_neg (by simpa using hFd)]
      exact ih hRest

theorem lowestUnused_notMem (used : List Fd) {rounds : Nat} {id : Fd} (hBefore : ∀ j < id, j ∈ used)
    (hRounds : used.length < id + rounds) : lowestUnused used rounds id ∉ used := by
  induction rounds generalizing id with
  | zero =>
    have hLength : (List.range id).length ≤ used.length :=
      (List.subperm_of_subset List.nodup_range fun j hj => hBefore j (List.mem_range.mp hj)).length_le
    rw [List.length_range] at hLength
    omega
  | succ rounds ih =>
    rw [lowestUnused]
    split
    next hUsed =>
      refine ih (fun j hj => ?_) (by omega)
      obtain rfl | hLess := eq_or_lt_of_le (Nat.le_of_lt_succ hj)
      · exact hUsed
      · exact hBefore j hLess
    next hUnused => exact hUnused

/-- The numbers are given once, and every watch stands for the file under its number. -/
structure Bound (p : Process) : Prop where
  numbers : (p.fileOpen.map Prod.fst).Nodup
  unique : ∀ ep watches, p.watches ep = some watches → (watches.map Watch.fd).Nodup
  stands : ∀ ep watches, p.watches ep = some watches → ∀ watch ∈ watches,
    (queueGet p.fileOpen watch.fd).map Handle.file = some watch.file

theorem Bound.fewer (h : Bound p) (hNumbers : (p'.fileOpen.map Prod.fst).Nodup)
    (hWatches : ∀ ep watches, p'.watches ep = some watches → p.watches ep = some watches)
    (hFiles : ∀ watch : Watch, Watched p watch.fd →
      (queueGet p.fileOpen watch.fd).map Handle.file = some watch.file →
      (queueGet p'.fileOpen watch.fd).map Handle.file = some watch.file) : Bound p' where
  numbers := hNumbers
  unique := fun ep watches hEp => h.unique ep watches (hWatches ep watches hEp)
  stands := fun ep watches hEp watch hWatch =>
    hFiles watch ⟨ep, watches, hWatches ep watches hEp, watch, hWatch, rfl⟩
      (h.stands ep watches (hWatches ep watches hEp) watch hWatch)

theorem vfsClose_watches (h : (vfsClose p node).watches ep = some watches) : p.watches ep = some watches := by
  rw [vfsClose] at h
  simp only at h
  split at h
  next hLast =>
    by_cases hSame : ep = node
    · rw [hSame] at h
      simp only [update_self, reduceCtorEq] at h
    · simpa only [update_of_ne hSame] using h
  next hMore => exact h

theorem vfsClose_fileOpen (p : Process) (node : NodeId) : (vfsClose p node).fileOpen = p.fileOpen := by
  rw [vfsClose]
  simp only
  split <;> rfl

theorem Bound.vfsClose (h : Bound p) (node : NodeId) : Bound (Epoll.vfsClose p node) := by
  refine h.fewer ?_ (fun _ _ => vfsClose_watches) fun watch _ => ?_
  · rw [vfsClose_fileOpen]
    exact h.numbers
  · rw [vfsClose_fileOpen]
    exact id

theorem Bound.retain (h : Bound p) (node : NodeId) : Bound (p.retain node) := { h with }

theorem Bound.removeAt (h : Bound p) (hUnwatched : ¬Watched p fd) :
    Bound { p with fileOpen := queueRemoveAt p.fileOpen fd } := by
  refine h.fewer ?_ (fun _ _ => id) fun watch hWatched hFile => ?_
  · exact h.numbers.sublist (List.eraseP_sublist.map _)
  · rw [queueGet_removeAt]
    · exact hFile
    · rintro rfl
      exact hUnwatched hWatched

theorem Bound.open_of_watched (h : Bound p) (hWatched : Watched p fd) : queueGet p.fileOpen fd ≠ none := by
  rintro hNone
  obtain ⟨ep, watches, hEp, watch, hWatch, rfl⟩ := hWatched
  have hStands := h.stands ep watches hEp watch hWatch
  rw [hNone] at hStands
  exact nomatch hStands

theorem Bound.replace (h : Bound p) {number : Fd}
    (hSame : Watched p number → (queueGet p.fileOpen number).map Handle.file = some handle.file) :
    Bound { p with fileOpen := queueRemoveAt p.fileOpen number ++ [(number, handle)] } := by
  have hRemoved : queueGet (queueRemoveAt p.fileOpen number) number = none := queueGet_removed h.numbers
  refine h.fewer ?_ (fun _ _ hEp => hEp) fun watch hWatched hFile => ?_
  · rw [List.map_append, List.nodup_append]
    refine ⟨h.numbers.sublist (List.eraseP_sublist.map _), List.nodup_singleton _, ?_⟩
    intro a ha b hb hEq
    obtain ⟨entry, hEntry, rfl⟩ := List.mem_map.mp ha
    rw [List.map_singleton, List.mem_singleton] at hb
    exact queueGet_eq_none.mp hRemoved entry hEntry (by rw [hEq, hb])
  · by_cases hNumber : (watch.fd : Int) = number
    · rw [hNumber] at hWatched hFile
      rw [hSame hWatched] at hFile
      rw [hNumber, queueGet, List.find?_append, Option.map_eq_none_iff.mp hRemoved, Option.none_or,
        List.find?_cons_of_pos (by simp)]
      exact hFile
    · obtain ⟨old, hOld, hFile'⟩ := Option.map_eq_some_iff.mp hFile
      rw [← queueGet_removeAt hNumber] at hOld
      rw [queueGet_append hOld]
      exact congrArg some hFile'

theorem queueRemoveAt_of_none (h : queueGet fileOpen fd = none) : queueRemoveAt fileOpen fd = fileOpen :=
  List.eraseP_of_forall_not fun entry hEntry => by simpa using queueGet_eq_none.mp h entry hEntry

theorem Bound.append (h : Bound p) {number : Fd} (hUnused : queueGet p.fileOpen number = none) :
    Bound { p with fileOpen := p.fileOpen ++ [(number, handle)] } := by
  have hReplaced : Bound { p with fileOpen := queueRemoveAt p.fileOpen number ++ [(number, handle)] } :=
    h.replace fun hWatched => absurd hUnused (h.open_of_watched hWatched)
  rwa [queueRemoveAt_of_none hUnused] at hReplaced

theorem Bound.install (h : Bound p) (handle : Handle) : Bound (p.install handle).1 := by
  have hUnused : lowestUnused (p.fileOpen.map Prod.fst) (p.fileOpen.length + 1) 0 ∉ p.fileOpen.map Prod.fst := by
    refine lowestUnused_notMem _ (fun j hj => nomatch hj) ?_
    rw [List.length_map]
    omega
  refine h.append (queueGet_eq_none.mpr fun entry hEntry hSame => hUnused ?_)
  exact Int.ofNat_inj.mp hSame ▸ List.mem_map_of_mem hEntry

theorem Bound.close (h : Bound p) (hUnwatched : Unwatched p (.close fd)) : Bound (sysClose p fd).1 := by
  rw [sysClose]
  split
  next hNegative => exact h
  next hFd =>
  cases hHandle : queueGet p.fileOpen fd with
  | none => exact h
  | some handle => exact (h.removeAt hUnwatched).vfsClose handle.node

theorem Bound.openNode (h : Bound p) (room : Room) (node : NodeId) : Bound (Epoll.openNode room p node).1 := by
  rw [Epoll.openNode]
  simp only
  split
  next hFull => exact (h.retain node).vfsClose node
  next hRoom =>
    have hNext : Bound { p.retain node with nextFile := (p.retain node).nextFile + 1 } :=
      { numbers := h.numbers, unique := h.unique, stands := h.stands }
    exact hNext.install _

theorem vfsClose_with (p : Process) (node : NodeId) (before : List (Fd × Handle)) :
    { vfsClose { p with fileOpen := before } node with fileOpen := fileOpen } =
      vfsClose { p with fileOpen := fileOpen } node := by
  rw [vfsClose, vfsClose]
  simp only
  split <;> rfl

theorem Bound.dup2 (h : Bound p) {newfd : Int} (hUnwatched : Unwatched p (.dup2 room fd newfd)) :
    Bound (sysDup2 room p fd newfd).1 := by
  rw [sysDup2]
  split
  next hNegative => exact h
  next hFds =>
  split
  next hSame => exact h
  next hDifferent =>
  cases hHandle : queueGet p.fileOpen fd with
  | none => exact h
  | some handle =>
    rw [not_or, Int.not_lt, Int.not_lt] at hFds
    obtain ⟨number, rfl⟩ := Int.eq_ofNat_of_zero_le hFds.2
    -- where the number is watched, there is room for the same file
    have hWatched : Watched p number → room.node ∧ (queueGet p.fileOpen number).map Handle.file = some handle.file := by
      intro hIs
      obtain hNegative | hEqual | hNone | ⟨hRoom, hFile⟩ := hUnwatched hIs
      · omega
      · exact absurd hEqual hDifferent
      · exact absurd (hHandle.symm.trans hNone) (Option.some_ne_none _)
      · rw [hHandle] at hFile
        exact ⟨hRoom, hFile.symm⟩
    cases hOld : queueGet p.fileOpen number with
    | none =>
      simp only
      split
      next hFull => exact (h.retain handle.node).vfsClose handle.node
      next hRoom => exact (h.retain handle.node).append hOld
    | some old =>
      simp only
      split
      next hFull =>
        have hUnwatched' : ¬Watched p number := fun hIs => by
          rw [(hWatched hIs).1] at hFull
          exact nomatch hFull
        exact ((((h.removeAt hUnwatched').vfsClose old.node).retain handle.node).vfsClose handle.node)
      next hRoom =>
        have hReplaced := ((h.replace fun hIs => (hWatched hIs).2).vfsClose old.node).retain handle.node
        rw [← vfsClose_with p old.node (queueRemoveAt p.fileOpen number)] at hReplaced
        simp only [Process.retain, vfsClose_fileOpen]
        exact { numbers := hReplaced.numbers, unique := hReplaced.unique, stands := hReplaced.stands }

theorem Bound.create (h : Bound p) (room : Room) (flags : BitVec 32) : Bound (epollCreateCommon room p flags).1 := by
  rw [epollCreateCommon]
  split
  next hFlags => exact h
  split
  next hMemory => exact h
  split
  next hFull => exact h
  next hRoom =>
    refine .install ?_ _
    refine { numbers := h.numbers, unique := fun ep watches hEp => ?_, stands := fun ep watches hEp => ?_ }
    · by_cases hNew : ep = p.nextNode
      · simp only [hNew, update_self, Option.some.injEq] at hEp
        rw [← hEp]
        exact List.nodup_nil
      · simp only [update_of_ne hNew] at hEp
        exact h.unique ep watches hEp
    · by_cases hNew : ep = p.nextNode
      · simp only [hNew, update_self, Option.some.injEq] at hEp
        rw [← hEp]
        exact nofun
      · simp only [update_of_ne hNew] at hEp
        exact h.stands ep watches hEp

theorem Bound.put (h : Bound p) (ep : NodeId) (hUnique : (watches.map Watch.fd).Nodup)
    (hStands : ∀ watch ∈ watches, (queueGet p.fileOpen watch.fd).map Handle.file = some watch.file) :
    Bound { p with watches := update p.watches ep (some watches) } where
  numbers := h.numbers
  unique := fun ep' watches' hEp => by
    by_cases hSame : ep' = ep
    · simp only [hSame, update_self, Option.some.injEq] at hEp
      exact hEp ▸ hUnique
    · simp only [update_of_ne hSame] at hEp
      exact h.unique ep' watches' hEp
  stands := fun ep' watches' hEp => by
    by_cases hSame : ep' = ep
    · simp only [hSame, update_self, Option.some.injEq] at hEp
      exact hEp ▸ hStands
    · simp only [update_of_ne hSame] at hEp
      exact h.stands ep' watches' hEp

theorem epollFromFd_watches (h : epollFromFd p fd = some (ep, watches)) : p.watches ep = some watches := by
  rw [epollFromFd] at h
  split at h
  · exact nomatch h
  cases hHandle : queueGet p.fileOpen fd with
  | none =>
    rw [hHandle] at h
    exact nomatch h
  | some handle =>
    rw [hHandle] at h
    obtain ⟨found, hFound, hEq⟩ := Option.map_eq_some_iff.mp h
    cases hEq
    exact hFound

theorem Bound.ctl (h : Bound p) (room : Room) (epfd op fd : Int) (event : Option EpollEvent) :
    Bound (sysEpollCtl room p epfd op fd event).1 := by
  rw [sysEpollCtl]
  cases hEp : epollFromFd p epfd with
  | none => exact h
  | some found =>
    obtain ⟨ep, watches⟩ := found
    have hWatches := epollFromFd_watches hEp
    have hUnique := h.unique ep watches hWatches
    have hStands := h.stands ep watches hWatches
    simp only
    split
    next hBad => exact h
    next hFd =>
    cases hTarget : queueGet p.fileOpen fd with
    | none => exact h
    | some target =>
      simp only
      split
      next hFault => exact h
      next kev hEvent =>
      split
      next hAdd =>
        cases hFind : epollFindWatch watches fd with
        | some watch => exact h
        | none =>
          simp only
          split
          next hFull => exact h
          next hRoom =>
            rw [not_or, Int.not_lt] at hFd
            obtain ⟨number, rfl⟩ := Int.eq_ofNat_of_zero_le hFd.1
            have hNone := List.find?_eq_none.mp hFind
            refine h.put ep ?_ fun watch hWatch => ?_
            · rw [List.map_append, List.nodup_append]
              refine ⟨hUnique, List.nodup_singleton _, ?_⟩
              intro a ha b hb hEq
              obtain ⟨watch, hWatch, rfl⟩ := List.mem_map.mp ha
              rw [List.map_singleton, List.mem_singleton] at hb
              exact hNone watch hWatch (by simp [hEq.trans hb])
            · obtain hOld | hNew := List.mem_append.mp hWatch
              · exact hStands watch hOld
              · rw [List.mem_singleton.mp hNew]
                exact congrArg (Option.map Handle.file) hTarget
      next hNotAdd =>
      split
      next hMod =>
        cases hFind : epollFindWatch watches fd with
        | none => exact h
        | some found =>
          refine h.put ep ?_ fun watch hWatch => ?_
          · have hSame : (watches.map fun w => if w = found then { w with event := kev } else w).map Watch.fd =
                watches.map Watch.fd := by
              rw [List.map_map]
              refine List.map_congr_left fun w _ => ?_
              simp only [comp_apply]
              split <;> rfl
            rw [hSame]
            exact hUnique
          · obtain ⟨w, hw, rfl⟩ := List.mem_map.mp hWatch
            have hBefore := hStands w hw
            split
            next hFound => exact hBefore
            next hOther => exact hBefore
      next hNotMod =>
      split
      next hDel =>
        cases hFind : epollFindWatch watches fd with
        | none => exact h
        | some found =>
          refine h.put ep (hUnique.sublist (List.eraseP_sublist.map _)) fun watch hWatch => ?_
          exact hStands watch (List.mem_of_mem_eraseP hWatch)
      next hUnknown => exact h

theorem Bound.step {a : Act} (h : Bound p) (hUnwatched : Unwatched p a) (hStep : p.step a = some p') : Bound p' := by
  cases a with
  | create room flags =>
    cases hStep
    exact h.create room flags
  | ctl room epfd op fd event =>
    cases hStep
    exact h.ctl room epfd op fd event
  | wait => exact Option.some.inj hStep ▸ h
  | openPath room node =>
    rw [Process.step] at hStep
    split at hStep
    · exact nomatch hStep
    · cases hStep
      exact h.openNode room node
  | close fd =>
    cases hStep
    exact h.close hUnwatched
  | dup2 room fd newfd =>
    cases hStep
    exact h.dup2 hUnwatched

theorem Bound.init (nodes : NodeId) : Bound (Process.init nodes) where
  numbers := List.nodup_nil
  unique := fun _ _ hEp => nomatch hEp
  stands := fun _ _ hEp => nomatch hEp

theorem revents_ready {poll : Poll} (hStands : (queueGet p.fileOpen watch.fd).map Handle.file = some watch.file)
    (hSome : revents poll p watch ≠ 0) : ReadyWith p poll watch (revents poll p watch) := by
  obtain ⟨handle, hHandle, hFile⟩ := Option.map_eq_some_iff.mp hStands
  refine ⟨handle, hHandle, hFile, hSome, ?_⟩
  rw [revents, epollPollFd, hHandle]
  rfl

theorem waitRound_ready {poll : Poll} {copy : Nat → Bool} {maxevents : Nat} {reported all : List (Watch × Events)}
    (hStands : ∀ watch ∈ watches, (queueGet p.fileOpen watch.fd).map Handle.file = some watch.file)
    (hBefore : ∀ r ∈ reported, ReadyWith p poll r.1 r.2)
    (hRound : waitRound poll copy p maxevents watches reported = .ok all) : ∀ r ∈ all, ReadyWith p poll r.1 r.2 := by
  induction watches generalizing reported with
  | nil =>
    cases hRound
    exact hBefore
  | cons watch rest ih =>
    have hRest : ∀ other ∈ rest, (queueGet p.fileOpen other.fd).map Handle.file = some other.file :=
      fun other hOther => hStands other (.tail _ hOther)
    rw [waitRound] at hRound
    split at hRound
    next hEnough =>
      cases hRound
      exact hBefore
    next hMore =>
    split at hRound
    next hQuiet => exact ih hRest hBefore hRound
    next hReady =>
    split at hRound
    next hFault => exact nomatch hRound
    next hCopied =>
      refine ih hRest (fun r hr => ?_) hRound
      obtain hOld | hNew := List.mem_append.mp hr
      · exact hBefore r hOld
      · rw [List.mem_singleton.mp hNew]
        exact revents_ready (hStands watch (.head _)) hReady

theorem waitLoop_ready {copy : Nat → Bool} {maxevents : Nat} {polls : List Poll} {all : List (Watch × Events)}
    (hStands : ∀ watch ∈ watches, (queueGet p.fileOpen watch.fd).map Handle.file = some watch.file)
    (hLoop : waitLoop copy p maxevents watches polls = .ok all) :
    ∀ r ∈ all, ∃ poll ∈ polls, ReadyWith p poll r.1 r.2 := by
  induction polls with
  | nil =>
    cases hLoop
    exact nofun
  | cons poll rest ih =>
    rw [waitLoop] at hLoop
    cases hRound : waitRound poll copy p maxevents watches [] with
    | error code =>
      rw [hRound] at hLoop
      exact nomatch hLoop
    | ok reported =>
      rw [hRound] at hLoop
      have hReady := waitRound_ready hStands (fun r hr => absurd hr List.not_mem_nil) hRound
      cases reported with
      | nil =>
        intro r hr
        obtain ⟨found, hFound, hWith⟩ := ih hLoop r hr
        exact ⟨found, .tail _ hFound, hWith⟩
      | cons first others =>
        cases hLoop
        exact fun r hr => ⟨poll, .head _, hReady r hr⟩

theorem Bound.watchesBound (h : Bound p) : WatchesBound p where
  unique := h.unique
  reports := by
    intro copy epfd maxevents polls reported hWait
    rw [sysEpollWait] at hWait
    cases hEp : epollFromFd p epfd with
    | none =>
      rw [hEp] at hWait
      exact nomatch hWait
    | some found =>
      rw [hEp] at hWait
      simp only at hWait
      split at hWait
      · exact nomatch hWait
      · exact waitLoop_ready (h.stands _ _ (epollFromFd_watches hEp)) hWait

/-- Where no number that is watched is closed or given to another file, what is reported is of the file that was
registered. -/
theorem watches_bound {nodes : NodeId} {acts : List Act}
    (hRun : Run (epollSystem.restrict Unwatched) (Process.init nodes) acts p) : WatchesBound p := by
  have hBound : Bound p := hRun.invariant (fun _ _ _ hBound hStep => hBound.step hStep.1 hStep.2) (.init nodes)
  exact hBound.watchesBound

def roomy : Room := ⟨true, true⟩

def watched : List Act :=
  [.create roomy 0, .openPath roomy 0, .ctl roomy 0 EPOLL_CTL_ADD 1 (some ⟨EPOLLIN, 7⟩)]

/-- Neither of the two acts that take a number from its file. -/
def Act.keepsNumbers : Act → Bool
  | .close _ | .dup2 _ _ _ => false
  | _ => true

theorem watches_bound_once : WatchesBound (watched.foldl (after Process.step) (Process.init 2)) := by
  have hCheck : ∀ (p : Process) (a : Act), a.keepsNumbers = true → Unwatched p a := by
    intro p a h
    cases a with
    | close | dup2 => cases h
    | create | ctl | wait | openPath => trivial
  exact watches_bound (run_of_passes hCheck (by decide))

def usedAgain : List Act := watched ++ [.close 1, .openPath roomy 1]

def reused : Process := usedAgain.foldl (after Process.step) (Process.init 2)

def secondReady : Poll := fun node => some fun _ => if node = 1 then EPOLLIN else 0

theorem watches_not_bound :
    Run epollSystem (Process.init 2) usedAgain reused ∧
      sysEpollWait (fun _ => true) reused 0 8 [secondReady] = .ok [(⟨1, ⟨EPOLLIN, 7⟩, 1⟩, EPOLLIN)] ∧
      queueGet reused.fileOpen 1 = some ⟨1, 2⟩ ∧ ¬WatchesBound reused := by
  have hWait : sysEpollWait (fun _ => true) reused 0 8 [secondReady] = .ok [(⟨1, ⟨EPOLLIN, 7⟩, 1⟩, EPOLLIN)] := rfl
  have hHandle : queueGet reused.fileOpen 1 = some ⟨1, 2⟩ := rfl
  refine ⟨run_of_steps (by decide), hWait, hHandle, fun hBound => ?_⟩
  obtain ⟨poll, -, handle, hGet, hFile, -⟩ := hBound.reports _ _ _ _ _ hWait _ (List.mem_singleton_self _)
  cases hHandle.symm.trans hGet
  exact absurd hFile (by decide)

end OpenXJ380.Epoll
