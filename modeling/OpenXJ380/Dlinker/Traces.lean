import OpenXJ380.Dlinker.Load

/-! # What a failed load leaves behind

A load that is refused before its image is mapped leaves nothing. One that fails later
leaves the pages: a page that is mapped to a new frame is not mapped back.
-/

namespace OpenXJ380.Dlinker

open Function

open Transition

def loadSystem (files : Name → Option SharedObject) : System World Unit := ⟨fun w _ w' => next files w = some w'⟩

/-- No call is waiting, a frame that is mapped is not handed out, and a handle that does not exist owns nothing. -/
structure World.Sound (w : World) : Prop where
  stack : w.stack = []
  frames : ∀ pd page frame, w.translate pd page = some frame → frame < w.frames
  owners : ∀ g ∈ w.symbols, ∀ h, g.owner = some h → h < w.handles

structure NoTrace (w w' : World) (pd : Pd) : Prop where
  listed : w'.listed = w.listed
  refCounts : ∀ h ∈ w.listed, (w'.handle h).refCount = (w.handle h).refCount
  symbols : ∀ name exclude, findSymbolInternal w' name exclude = findSymbolInternal w name exclude
  pages : ∀ page, w'.translate pd page = w.translate pd page
  owners : ∀ g ∈ w'.symbols, g.owner ≠ some w.handles

/-- The file cannot be read, there is no room, or the file does not pass the checks. -/
def Refused (files : Name → Option SharedObject) (w : World) (path : Name) (isKernel : Bool) : Prop :=
  (w.listed.find? fun h => (w.handle h).path = path) = none ∧ acceptedAt files w path isKernel = none

section

variable {files : Name → Option SharedObject} {w w' w'' : World}

structure Grows (w w' : World) : Prop where
  frames : w.frames ≤ w'.frames
  pages : ∀ pd page, w'.translate pd page = w.translate pd page ∨
    ∃ frame, w'.translate pd page = some frame ∧ w.frames ≤ frame

theorem Grows.refl (w : World) : Grows w w := ⟨le_rfl, fun _ _ => .inl rfl⟩

theorem Grows.trans (h : Grows w w') (h' : Grows w' w'') : Grows w w'' := by
  refine ⟨h.frames.trans h'.frames, fun pd page => ?_⟩
  obtain hSame | ⟨frame, hNew, hLe⟩ := h'.pages pd page
  · obtain hFirst | ⟨frame, hNew, hLe⟩ := h.pages pd page
    · exact .inl (hSame.trans hFirst)
    · exact .inr ⟨frame, hSame.trans hNew, hLe⟩
  · exact .inr ⟨frame, hNew, h.frames.trans hLe⟩

theorem Grows.same (hFrames : w'.frames = w.frames) (hKernel : w'.kernelPage = w.kernelPage)
    (hUser : w'.userPage = w.userPage) : Grows w w' := by
  refine ⟨hFrames.symm.le, fun pd page => .inl ?_⟩
  rw [World.translate, World.translate, hKernel, hUser]

theorem translate_mapPage (w : World) (pd : Pd) (page : Nat) :
    (w.mapPage pd page).translate pd page = some w.frames := by
  rw [World.mapPage]
  split
  · next hUpper => exact (if_pos hUpper).trans (update_self ..)
  · next hLower =>
    refine (if_neg hLower).trans ?_
    exact (congrFun (update_self ..) page).trans (update_self ..)

theorem mapPage_grows (w : World) (pd : Pd) (page : Nat) : Grows w (w.mapPage pd page) := by
  have hFrames : (w.mapPage pd page).frames = w.frames + 1 := by
    rw [World.mapPage]
    split
    · rfl
    · rfl
  refine ⟨(Nat.lt_of_lt_of_eq (Nat.lt_succ_self _) hFrames.symm).le, fun pd' page' => ?_⟩
  rw [World.mapPage]
  split
  · next hUpper =>
    obtain rfl | hne := eq_or_ne page' page
    · refine .inr ⟨w.frames, ?_, le_rfl⟩
      exact (if_pos hUpper).trans (update_self ..)
    · left
      rw [World.translate, World.translate]
      dsimp only
      rw [update_of_ne hne]
  · next hLower =>
    obtain rfl | hOther := eq_or_ne pd' pd
    · obtain rfl | hne := eq_or_ne page' page
      · refine .inr ⟨w.frames, ?_, le_rfl⟩
        exact (if_neg hLower).trans ((congrFun (update_self ..) page').trans (update_self ..))
      · left
        rw [World.translate, World.translate]
        dsimp only
        rw [update_self, update_of_ne hne]
    · left
      rw [World.translate, World.translate]
      dsimp only
      rw [update_of_ne hOther]

theorem mapPages_grows (pages : List Nat) (w : World) (pd : Pd) : Grows w (w.mapPages pd pages) := by
  induction pages generalizing w with
  | nil => exact .refl w
  | cons page pages ih => exact (mapPage_grows w pd page).trans (ih (w.mapPage pd page))

section

variable (w : World)

theorem mapPages_new {pages : List Nat} {page : Nat} (pd : Pd) (hIn : page ∈ pages) :
    ∃ frame, (w.mapPages pd pages).translate pd page = some frame ∧ w.frames ≤ frame := by
  induction pages generalizing w with
  | nil => cases hIn
  | cons first pages ih =>
    obtain rfl | hRest := List.mem_cons.mp hIn
    · obtain hSame | ⟨frame, hNew, hLe⟩ := (mapPages_grows pages (w.mapPage pd page) pd).pages pd page
      · exact ⟨w.frames, hSame.trans (translate_mapPage ..), le_rfl⟩
      · exact ⟨frame, hNew, (mapPage_grows w pd page).frames.trans hLe⟩
    · obtain ⟨frame, hNew, hLe⟩ := ih (w.mapPage pd first) hRest
      exact ⟨frame, hNew, (mapPage_grows w pd first).frames.trans hLe⟩

theorem callDynamicInitializers_grows (h : HandleId) : Grows w (callDynamicInitializers w h) := by
  rw [callDynamicInitializers]
  split
  · exact .refl w
  · exact .same rfl rfl rfl

theorem deliver_grows (h : HandleId) : Grows w (deliver w h) := by
  rw [deliver]
  split
  · exact .same rfl rfl rfl
  · exact .same rfl rfl rfl

theorem reuse_grows (h : HandleId) : Grows w (reuse w h) := by
  rw [reuse]
  split
  · refine .trans ?_ (callDynamicInitializers_grows _ h)
    exact .same rfl rfl rfl
  · exact .same rfl rfl rfl

theorem fail_grows : Grows w (fail w) := .same rfl rfl rfl

theorem advance_grows (isKernel : Bool) (size : Nat) : Grows w (advance w isKernel size) := by
  rw [advance]
  split
  · exact .same rfl rfl rfl
  · exact .same rfl rfl rfl

theorem mapImage_grows (path : Name) (o : SharedObject) (base size : Nat) (isKernel : Bool) (pd : Pd) :
    Grows (w.mapPages pd (imagePages o base)) (mapImage w path o base size isKernel pd) :=
  (advance_grows _ isKernel size).trans (.same rfl rfl rfl)

end

theorem loadSharedObject_grows {path : Name} {isKernel : Bool} {pd : Pd}
    (h : loadSharedObject files w path isKernel pd = some w') : Grows w w' := by
  rw [loadSharedObject] at h
  split at h
  · next found _ =>
    cases h
    exact (reuse_grows w found).trans (deliver_grows _ found)
  split at h
  · cases h
    exact fail_grows w
  · next o base size _ =>
    split at h
    · cases h
    have hMap := (mapPages_grows (imagePages o base) w pd).trans (mapImage_grows w path o base size isKernel pd)
    dsimp only at h
    split at h
    · cases h
      exact hMap.trans (fail_grows _)
    · cases h
      exact hMap.trans (.same rfl rfl rfl)

theorem finish_grows (w : World) (l : Loading) (rest : List Loading) : Grows w (finish w l rest) := by
  rw [finish]
  split
  · refine .trans ?_ (deliver_grows _ l.id)
    exact (callDynamicInitializers_grows w l.id).trans (.same rfl rfl rfl)
  · exact fail_grows w

theorem next_grows (h : next files w = some w') : Grows w w' := by
  rw [next] at h
  split at h
  · cases h
  · next l rest _ =>
    split at h
    · cases h
      exact finish_grows w l rest
    · cases h
      exact fail_grows w
    · dsimp only at h
      split at h
      · cases h
        refine .trans ?_ (deliver_grows _ _)
        exact .same rfl rfl rfl
      · refine .trans ?_ (loadSharedObject_grows h)
        exact .same rfl rfl rfl

theorem run_grows {acts : List Unit} (hRun : Run (loadSystem files) w acts w') : Grows w w' :=
  hRun.invariant (fun _ _ _ h hStep => h.trans (next_grows hStep)) (.refl w)

theorem run_ended {acts : List Unit} (hRun : Run (loadSystem files) w acts w') (hStack : w.stack = []) : w' = w := by
  have hStep : ∀ v a v', v = w → (loadSystem files).step v a v' → v' = w := by
    rintro v a v' rfl hNext
    change next files v = some v' at hNext
    rw [next, hStack] at hNext
    cases hNext
  exact hRun.invariant hStep rfl

theorem deliver_returned (h : HandleId) (hStack : w.stack = []) : (deliver w h).returned = some h := by
  rw [deliver, hStack]

theorem deliver_stack (w : World) (h : HandleId) : (deliver w h).stack = w.stack := by
  rw [deliver]
  split
  · rfl
  · rfl

theorem reuse_stack (w : World) (h : HandleId) : (reuse w h).stack = w.stack := by
  rw [reuse, callDynamicInitializers]
  split
  · split
    · rfl
    · rfl
  · rfl

theorem inOwnPages_page {o : SharedObject} {base : Nat} (h : inOwnPages o base) : ∃ page, page ∈ imagePages o base := by
  rw [inOwnPages, Bool.and_eq_true] at h
  obtain ⟨-, h⟩ := h
  split at h
  · cases h
  · next d _ => exact ⟨_, List.contains_iff_mem.mp h⟩

theorem loadSharedObject_page {path : Name} {isKernel : Bool} {pd : Pd}
    (h : loadSharedObject files w path isKernel pd = some w')
    (hNone : (w.listed.find? fun h => (w.handle h).path = path) = none)
    (hAccepted : acceptedAt files w path isKernel ≠ none) :
    ∃ page frame, w'.translate pd page = some frame ∧ w.frames ≤ frame := by
  rw [loadSharedObject, hNone] at h
  dsimp only at h
  split at h
  · next hRefused => exact absurd hRefused hAccepted
  · next o base size _ =>
    split at h
    · cases h
    next hOwn =>
    obtain ⟨page, hIn⟩ := inOwnPages_page ((Bool.not_eq_false _).mp hOwn)
    obtain ⟨frame, hNew, hLe⟩ := mapPages_new w pd hIn
    have hFrames := (mapPages_grows (imagePages o base) w pd).frames
    have hAfter : Grows (w.mapPages pd (imagePages o base)) w' := by
      refine (mapImage_grows w path o base size isKernel pd).trans ?_
      split at h
      · exact Option.some.inj h ▸ fail_grows _
      · exact Option.some.inj h ▸ .same rfl rfl rfl
    obtain hSame | ⟨frame', hNew', hLe'⟩ := hAfter.pages pd page
    · exact ⟨page, frame, hSame.trans hNew, hLe⟩
    · exact ⟨page, frame', hNew', hFrames.trans hLe'⟩

/-- A load that returns `NULL` has left nothing exactly if it was refused. -/
theorem failed_load_leaves_nothing {acts : List Unit} {path : Name} {isKernel : Bool} {pd : Pd} (hSound : w.Sound)
    (hStart : loadSharedObject files w path isKernel pd = some w') (hRun : Run (loadSystem files) w' acts w'')
    (hEnd : w''.stack = []) (hNull : w''.returned = none) :
    NoTrace w w'' pd ↔ Refused files w path isKernel := by
  cases hFound : w.listed.find? fun h => (w.handle h).path = path with
  | some h =>
    rw [loadSharedObject, hFound] at hStart
    cases hStart
    have hStack : (reuse w h).stack = [] := (reuse_stack w h).trans hSound.stack
    obtain rfl := run_ended hRun ((deliver_stack ..).trans hStack)
    cases (deliver_returned h hStack).symm.trans hNull
  | none =>
    rcases Option.eq_none_or_eq_some (acceptedAt files w path isKernel) with hRefused | hAccepted
    · refine iff_of_true ?_ ⟨hFound, hRefused⟩
      rw [loadSharedObject, hFound, hRefused] at hStart
      cases hStart
      obtain rfl := run_ended hRun rfl
      refine ⟨rfl, fun _ _ => rfl, fun _ _ => rfl, fun _ => rfl, fun g hg hOwner => ?_⟩
      exact lt_irrefl _ (hSound.owners g hg _ hOwner)
    · have hSome : acceptedAt files w path isKernel ≠ none := by
        obtain ⟨x, hx⟩ := hAccepted
        rw [hx]
        exact nofun
      refine iff_of_false (fun hTrace => ?_) (fun hRefused => hSome hRefused.2)
      obtain ⟨page, frame, hNew, hLe⟩ := loadSharedObject_page hStart hFound hSome
      have hOld := hTrace.pages page
      have hStill : ∃ frame, w''.translate pd page = some frame ∧ w.frames ≤ frame := by
        rcases (run_grows hRun).pages pd page with hSame | ⟨frame', hNew', hLe'⟩
        · exact ⟨frame, hSame.trans hNew, hLe⟩
        · exact ⟨frame', hNew', (loadSharedObject_grows hStart).frames.trans hLe'⟩
      obtain ⟨frame', hFrame, hAbove⟩ := hStill
      exact Nat.not_lt_of_le hAbove (hSound.frames pd page frame' (hOld ▸ hFrame))

end

def smallObject (needed : List Name) : SharedObject where
  size := 512
  readable := true
  ehdr := ⟨elfMagic, evCurrent, sizeofEhdr, sizeofPhdr, emX8664, etDyn, sizeofEhdr⟩
  phdrs := [⟨ptLoad, 0, 0, 512, 512, false⟩, ⟨ptDynamic, 256, 256, 64, 64, true⟩]
  symbols := []
  exportable := false
  rpath := none
  needed := needed.map some
  relocations := some ([], [])

def orphan (path : Name) : Option SharedObject := if path = ['a'] then some (smallObject [['b']]) else none

theorem World.init_sound : (World.init []).Sound := by
  refine ⟨rfl, fun pd page frame h => ?_, fun g hg => ?_⟩
  · rw [World.translate] at h
    split at h
    · cases h
    · cases h
  · cases hg

theorem orphan_loaded : ∃ w' w'', loadSharedObject orphan (World.init []) ['a'] false 0 = some w' ∧
    Run (loadSystem orphan) w' [()] w'' ∧ w''.stack = [] ∧ w''.returned = none ∧
    w''.translate 0 (userSoBaseStart / pageSize) = some 0 := by
  refine ⟨_, _, rfl, Run.single rfl, rfl, rfl, rfl⟩

theorem failed_load_leaves_nothing_orphan : ∃ w' w'', loadSharedObject orphan (World.init []) ['a'] false 0 = some w' ∧
    Run (loadSystem orphan) w' [()] w'' ∧
        (NoTrace (World.init []) w'' 0 ↔ Refused orphan (World.init []) ['a'] false) := by
  obtain ⟨w', w'', hStart, hRun, hEnd, hNull, -⟩ := orphan_loaded
  exact ⟨w', w'', hStart, hRun, failed_load_leaves_nothing World.init_sound hStart hRun hEnd hNull⟩

/-- The library that is needed is not there: the load fails, and the segment stays mapped. -/
theorem failed_load_leaves_pages : ∃ files w path pd acts w' w'', World.Sound w ∧
    loadSharedObject files w path false pd = some w' ∧ Run (loadSystem files) w' acts w'' ∧ w''.stack = [] ∧
    w''.returned = none ∧ ¬ NoTrace w w'' pd := by
  obtain ⟨w', w'', hStart, hRun, hEnd, hNull, hPage⟩ := orphan_loaded
  refine ⟨orphan, World.init [], ['a'], 0, _, w', w'', World.init_sound, hStart, hRun, hEnd, hNull, fun hTrace => ?_⟩
  cases hPage.symm.trans (hTrace.pages _)

end OpenXJ380.Dlinker
