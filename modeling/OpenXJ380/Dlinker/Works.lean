import OpenXJ380.Dlinker.Calls

/-! # What a step of a load does

A step keeps the books, and what it gives to the caller is counted and in the directory of
the caller.
-/

namespace OpenXJ380.Dlinker

open Transition

variable {files : Name → Option SharedObject} {w w' : World} {pending : Option Name} {h : HandleId} {l : Loading}
  {rest : List Loading} {path : Name} {isKernel : Bool} {pd : Pd}

theorem acceptedAt_spec {o : SharedObject} {base size : Nat}
    (h : acceptedAt files w path isKernel = some (o, base, size)) :
    files path = some o ∧ validateSharedObject o base isKernel = some size := by
  rw [acceptedAt, Option.bind_eq_bind, Option.bind_eq_some_iff] at h
  obtain ⟨o', hFile, h⟩ := h
  split at h
  · cases h
  rw [Option.bind_eq_bind, Option.bind_eq_some_iff] at h
  obtain ⟨base', -, h⟩ := h
  rw [Option.bind_eq_some_iff] at h
  obtain ⟨size', hValid, h⟩ := h
  cases h
  exact ⟨hFile, hValid⟩

theorem loadSharedObject_cases (h : loadSharedObject files w path isKernel pd = some w') :
    (∃ g, (w.listed.find? fun h => (w.handle h).path = path) = some g ∧ w' = deliver (reuse w g) g) ∨ w' = fail w ∨
    ∃ o base size, (w.listed.find? fun h => (w.handle h).path = path) = none ∧
      acceptedAt files w path isKernel = some (o, base, size) ∧ (w' = fail (mapImage w path o base size isKernel pd) ∨
        w' = { mapImage w path o base size isKernel pd with
          stack := ⟨w.handles, o.needed⟩ :: (mapImage w path o base size isKernel pd).stack }) := by
  rw [loadSharedObject] at h
  split at h
  · next g hFound => exact .inl ⟨g, hFound, (Option.some.inj h).symm⟩
  · next hNone =>
    right
    split at h
    · exact .inl (Option.some.inj h).symm
    · next o base size hAccepted =>
      refine .inr ⟨o, base, size, hNone, hAccepted, ?_⟩
      split at h
      · cases h
      dsimp only at h
      split at h
      · exact .inl (Option.some.inj h).symm
      · exact .inr (Option.some.inj h).symm

theorem reuse_counted (hCount : 0 < (w.handle h).refCount) :
    reuse w h = w.setHandle h { w.handle h with refCount := (w.handle h).refCount + 1 } := by
  rw [reuse, if_neg (Nat.pos_iff_ne_zero.mp hCount)]

theorem reuse_alike (hCount : 0 < (w.handle h).refCount) : Alike w (reuse w h) := by
  rw [reuse_counted hCount]
  exact setHandle_alike rfl rfl ⟨fun _ => hCount, fun _ => Nat.succ_pos _⟩

theorem Books.readied (hBooks : Books files w pending) (hReady : ∀ path, pending = some path → Ready w path) :
    Books files w none := by
  cases pending with
  | none => exact hBooks
  | some path => exact { hBooks with chain := hBooks.chain.ready (hReady path rfl) }

theorem Books.ready (hBooks : Books files w pending) (hListed : h ∈ w.listed) (hCount : 0 < (w.handle h).refCount) :
    Ready w (w.handle h).path := ⟨h, hListed, rfl, (hBooks.counts h hListed).mpr hCount⟩

theorem Books.load (hBooks : Books files w pending) (hPending : w.stack = [] ∧ pending = none ∨ pending = some path)
    (hFound : ∀ g, (w.listed.find? fun h => (w.handle h).path = path) = some g → 0 < (w.handle g).refCount)
    (hNone : (w.listed.find? fun h => (w.handle h).path = path) = none → ∀ l ∈ w.stack, (w.handle l.id).path ≠ path)
    (h : loadSharedObject files w path isKernel pd = some w') : Books files w' none := by
  obtain ⟨g, hg, rfl⟩ | rfl | ⟨o, base, size, hNew, hAccepted, hGoes⟩ := loadSharedObject_cases h
  · have hCount := hFound g hg
    have hAlike := reuse_alike hCount
    refine .alike (.readied (hBooks.alike hAlike) fun path' hPath => ?_) (deliver_alike _ g)
    have hIs : (w.handle g).path = path := by simpa using List.find?_some hg
    obtain ⟨-, hIdle⟩ | hWaits := hPending
    · cases hIdle.symm.trans hPath
    · cases hWaits.symm.trans hPath
      refine hBooks.ready_alike hAlike _ ?_
      rw [← hIs]
      exact hBooks.ready (List.mem_of_find?_eq_some hg) hCount
  · exact hBooks.fail
  · obtain ⟨-, hValid⟩ := acceptedAt_spec hAccepted
    have hCreated := mapImage_created w path o base size isKernel pd
    obtain rfl | rfl := hGoes
    · exact (hBooks.alike hCreated.toAlike).fail
    · refine hBooks.push hCreated (fun g hg => ?_) (hPending.imp_left And.left) (fun hKind page hPage => ?_)
      · obtain ⟨l, hl, rfl⟩ | hListed := World.mem_held.mp hg
        · exact hNone hNew l hl
        · simpa using List.find?_eq_none.mp hNew g hListed
      · cases hKind
        exact validateSharedObject_kernel hValid hPage

def World.waiting (w : World) (l : Loading) (more : List (Option Name)) (rest : List Loading) : World :=
  { w with stack := { l with needed := more } :: rest }

theorem next_cases (h : next files w = some w') : ∃ l rest, w.stack = l :: rest ∧
    ((l.needed = [] ∧ w' = finish w l rest) ∨ w' = fail w ∨ ∃ name more, l.needed = some name :: more ∧
        ((∃ g, findByName w name = some g ∧ w' = deliver (w.waiting l more rest) g) ∨ (findByName w name = none ∧
            loadSharedObject files (w.waiting l more rest) (fullPath files (w.handle l.id).toImage name)
              (w.handle l.id).isKernel (w.handle l.id).pd = some w'))) := by
  rw [next] at h
  split at h
  · cases h
  · next l rest hStack =>
    refine ⟨l, rest, hStack, ?_⟩
    split at h
    · next hNone => exact .inl ⟨hNone, (Option.some.inj h).symm⟩
    · exact .inr (.inl (Option.some.inj h).symm)
    · next name more hNeeded =>
      refine .inr (.inr ⟨name, more, hNeeded, ?_⟩)
      dsimp only at h
      split at h
      · next g hFound => exact .inl ⟨g, hFound, (Option.some.inj h).symm⟩
      · next hNone => exact .inr ⟨hNone, h⟩

theorem finish_cases (l : Loading) (rest : List Loading) (hDown : (w.handle l.id).initCalled = false) :
    finish w l rest = fail w ∨ ∃ v, Finished w v l rest ∧ finish w l rest = deliver v l.id := by
  rw [finish]
  split
  · exact .inr ⟨_, callDynamicInitializers_finished l rest hDown, rfl⟩
  · exact .inl rfl

theorem Books.next (hBooks : Books files w none)
    (hPermitted : ∀ l rest name more, w.stack = l :: rest → l.needed = some name :: more →
      NextPermitted files w (w.handle l.id).toImage name) (h : next files w = some w') : Books files w' none := by
  obtain ⟨l, rest, hStack, ⟨hDone, rfl⟩ | rfl | ⟨name, more, hNeeded, hGoes⟩⟩ := next_cases h
  · have hl : l ∈ w.stack := by simp [hStack]
    obtain hFailed | ⟨v, hFinished, hDeliver⟩ := finish_cases l rest (hBooks.loading l hl).1
    · rw [hFailed]
      exact hBooks.fail
    · rw [hDeliver]
      exact (hBooks.finish hStack hDone hFinished).alike (deliver_alike v l.id)
  · exact hBooks.fail
  · have hNext := hPermitted l rest name more hStack hNeeded
    rw [NextPermitted] at hNext
    obtain ⟨g, hFound, rfl⟩ | ⟨hNone, hLoad⟩ := hGoes
    · rw [hFound] at hNext
      obtain ⟨d, hd, hPath, hCount⟩ := hNext
      refine .alike (hBooks.advance hStack hNeeded (.inl ?_)) (deliver_alike _ g)
      rw [← hPath]
      exact hBooks.ready hd hCount
    · rw [hNone] at hNext
      refine (hBooks.advance hStack hNeeded (.inr rfl)).load (.inr rfl) (fun g hg => ?_) (fun hNew k hk => ?_) hLoad
      · change (w.listed.find? _) = some g at hg
        rw [hg] at hNext
        exact hNext
      · change (w.listed.find? _) = none at hNew
        rw [hNew] at hNext
        obtain rfl | hk := List.mem_cons.mp hk
        · exact hNext l (by simp [hStack])
        · exact hNext k (by simp [hStack, hk])

/-- A step of a load for a directory: what is in the list stays, and is counted as before or more. -/
structure Works (w w' : World) (pd : Pd) : Prop extends Keeps w w' where
  listed : ∀ h ∈ w.listed, h ∈ w'.listed
  counted : ∀ h ∈ w.listed, (w.handle h).refCount ≤ (w'.handle h).refCount
  quiet : w'.log = w.log ∨ ∃ h, w'.log = w.log ++ [.init h]
  caller : ∀ l ∈ w'.stack, (w'.handle l.id).pd = pd

def Gives (w w' : World) (pd : Pd) : Prop :=
  w'.stack = [] → ∀ h, w'.returned = some h → h ∈ w'.listed ∧ Mapped w' pd h ∧
    (h ∈ w.listed ∧ (w'.handle h).refCount = (w.handle h).refCount + 1 ∨ h ∉ w.listed ∧ 0 < (w'.handle h).refCount)

theorem Keeps.refl (w : World) : Keeps w w := ⟨le_rfl, fun _ _ => rfl, fun _ _ h => h⟩

theorem Keeps.trans {w'' : World} (h : Keeps w w') (h' : Keeps w' w'') : Keeps w w'' := by
  refine ⟨h.handles.trans h'.handles, fun g hg => ?_, fun pd page hMapped => ?_⟩
  · exact (h'.image g (hg.trans_le h.handles)).trans (h.image g hg)
  · exact h'.pages pd page (h.pages pd page hMapped)

theorem Works.refl (hCaller : ∀ l ∈ w.stack, (w.handle l.id).pd = pd) : Works w w pd :=
  ⟨.refl w, fun _ h => h, fun _ _ => le_rfl, .inl rfl, hCaller⟩

theorem Works.fail (h : Works w w' pd) : Works w (fail w') pd :=
  ⟨{ h with }, h.listed, h.counted, h.quiet, nofun⟩

theorem deliver_refCount (w : World) (g h : HandleId) : ((deliver w h).handle g).refCount = (w.handle g).refCount := by
  rw [deliver]
  split
  · rfl
  · next l _ _ =>
    rw [World.setHandle]
    dsimp only
    obtain rfl | hne := eq_or_ne g l.id
    · rw [Function.update_self]
    · rw [Function.update_of_ne hne]

theorem Works.deliver (hw : ∀ l ∈ w'.stack, l.id < w'.handles) (h : Works w w' pd) (g : HandleId) :
    Works w (deliver w' g) pd := by
  have hAlike := deliver_alike w' g
  refine ⟨h.toKeeps.trans hAlike.toKeeps, fun k hk => ?_, fun k hk => ?_, ?_, fun l hl => ?_⟩
  · rw [hAlike.listed]
    exact h.listed k hk
  · rw [deliver_refCount]
    exact h.counted k hk
  · rw [hAlike.log]
    exact h.quiet
  · rw [hAlike.stack] at hl
    exact (congrArg Image.pd (hAlike.image _ (hw l hl))).trans (h.caller l hl)

theorem Gives.waits (h : w'.stack ≠ []) : Gives w w' pd := (absurd · h)

theorem Created.works {x : Image} (hCreated : Created w w' x) (hBooks : Books files w pending) (hPd : x.pd = pd)
    (hCaller : ∀ l ∈ w.stack, (w.handle l.id).pd = pd) (more : List (Option Name)) :
    Works w { w' with stack := ⟨w.handles, more⟩ :: w'.stack } pd := by
  refine ⟨{ hCreated with }, fun h hh => ?_, fun h hh => ?_, .inl hCreated.log,
    fun l hl => ?_⟩
  · exact hCreated.listed ▸ hh
  · exact (congrArg Handle.refCount (hCreated.older h (hBooks.oldListed hh))).symm.le
  · obtain rfl | hl := List.mem_cons.mp hl
    · exact (congrArg Image.pd hCreated.new).trans hPd
    · rw [hCreated.stack] at hl
      exact (congrArg (fun x : Handle => x.pd) (hCreated.older _ (hBooks.oldLoading hl))).trans (hCaller l hl)

theorem recount_refCount (w : World) (g h : HandleId) :
    ((w.setHandle h { w.handle h with refCount := (w.handle h).refCount + 1 }).handle g).refCount =
      if g = h then (w.handle g).refCount + 1 else (w.handle g).refCount := by
  rw [World.setHandle]
  dsimp only
  split
  · next hEq => rw [hEq, Function.update_self]
  · next hne => rw [Function.update_of_ne hne]

theorem recount_works (hBooks : Books files w pending) (hCount : 0 < (w.handle h).refCount)
    (hCaller : ∀ l ∈ w.stack, (w.handle l.id).pd = pd) :
    Works w (w.setHandle h { w.handle h with refCount := (w.handle h).refCount + 1 }) pd := by
  have hAlike := reuse_alike hCount
  rw [reuse_counted hCount] at hAlike
  refine ⟨hAlike.toKeeps, fun _ hg => hg, fun g _ => ?_, .inl rfl, fun l hl => ?_⟩
  · rw [recount_refCount]
    split
    · exact Nat.le_succ _
    · exact le_rfl
  · exact (congrArg Image.pd (hAlike.image _ (hBooks.oldLoading hl))).trans (hCaller l hl)

theorem Books.load_works (hBooks : Books files w pending) (hCaller : ∀ l ∈ w.stack, (w.handle l.id).pd = pd)
    (hFound : ∀ g, (w.listed.find? fun h => (w.handle h).path = path) = some g →
      w.stack ≠ [] ∧ 0 < (w.handle g).refCount)
    (h : loadSharedObject files w path isKernel pd = some w') : Works w w' pd ∧ Gives w w' pd := by
  obtain ⟨g, hg, rfl⟩ | rfl | ⟨o, base, size, -, -, hGoes⟩ := loadSharedObject_cases h
  · obtain ⟨hBusy, hCount⟩ := hFound g hg
    have hWorks := recount_works hBooks hCount hCaller
    rw [← reuse_counted hCount] at hWorks
    refine ⟨hWorks.deliver (fun l hl => ?_) g, Gives.waits ?_⟩
    · rw [reuse_stack] at hl
      exact (hBooks.oldLoading hl).trans_le hWorks.handles
    · rw [deliver_stack, reuse_stack]
      exact hBusy
  · exact ⟨(Works.refl hCaller).fail, fun _ => nofun⟩
  · have hCreated := mapImage_created w path o base size isKernel pd
    have hWorks := hCreated.works hBooks rfl hCaller o.needed
    obtain rfl | rfl := hGoes
    · exact ⟨hWorks.fail, fun _ => nofun⟩
    · exact ⟨hWorks, Gives.waits nofun⟩

theorem Books.mapped (hBooks : Books files w pending) (hListed : h ∈ w.listed)
    (hPd : (w.handle h).isKernel ∨ (w.handle h).pd = pd) : Mapped w pd h := by
  intro page hPage
  obtain ⟨hMapped, hKernel⟩ := hBooks.pages h (World.mem_held.mpr (.inr hListed)) page hPage
  have hSame : w.translate pd page = w.translate (w.handle h).pd page := by
    obtain hKind | rfl := hPd
    · rw [World.translate, World.translate, if_pos (hKernel hKind), if_pos (hKernel hKind)]
    · rfl
  exact ⟨hSame, hSame ▸ hMapped⟩

theorem Finished.works (hFinished : Finished w w' l rest) (hBooks : Books files w pending)
    (hStack : w.stack = l :: rest) (hCaller : ∀ l ∈ w.stack, (w.handle l.id).pd = pd) : Works w w' pd := by
  refine ⟨hFinished.toKeeps, fun h hh => ?_, fun h _ => ?_, .inr ⟨_, hFinished.log⟩, fun k hk => ?_⟩
  · rw [hFinished.listed]
    exact .tail _ hh
  · exact (hFinished.refCount h).symm.le
  · rw [hFinished.stack] at hk
    have hIn : k ∈ w.stack := hStack ▸ .tail _ hk
    exact (congrArg Image.pd (hFinished.image _ (hBooks.oldLoading hIn))).trans (hCaller k hIn)

theorem Books.next_works (hBooks : Books files w none) (hCaller : ∀ l ∈ w.stack, (w.handle l.id).pd = pd)
    (hPermitted : ∀ l rest name more, w.stack = l :: rest → l.needed = some name :: more →
      NextPermitted files w (w.handle l.id).toImage name)
    (h : Dlinker.next files w = some w') : Works w w' pd ∧ Gives w w' pd := by
  obtain ⟨l, rest, hStack, ⟨hDone, rfl⟩ | rfl | ⟨name, more, hNeeded, hGoes⟩⟩ := next_cases h
  · have hl : l ∈ w.stack := by simp [hStack]
    obtain ⟨hDown, hCount⟩ := hBooks.loading l hl
    obtain hFailed | ⟨v, hFinished, hDeliver⟩ := finish_cases l rest hDown
    · rw [hFailed]
      exact ⟨(Works.refl hCaller).fail, fun _ => nofun⟩
    · rw [hDeliver]
      have hAfter := hBooks.finish hStack hDone hFinished
      refine ⟨(hFinished.works hBooks hStack hCaller).deliver (fun _ hk => hAfter.oldLoading hk) l.id, ?_⟩
      intro hIdle g hReturned
      rw [deliver_stack] at hIdle
      rw [deliver_returned l.id hIdle] at hReturned
      cases hReturned
      have hAlike := deliver_alike v l.id
      have hListed : l.id ∈ (deliver v l.id).listed := by simp [hAlike.listed, hFinished.listed]
      refine ⟨hListed, (hAfter.alike hAlike).mapped hListed (.inr ?_), .inr ⟨hBooks.apart hl, ?_⟩⟩
      · have hKeeps := hFinished.toKeeps.trans hAlike.toKeeps
        exact (congrArg Image.pd (hKeeps.image l.id (hBooks.oldLoading hl))).trans (hCaller l hl)
      · rw [deliver_refCount, hFinished.refCount]
        exact hCount
  · exact ⟨(Works.refl hCaller).fail, fun _ => nofun⟩
  · have hHere : (w.handle l.id).pd = pd := hCaller l (by simp [hStack])
    have hWaiting : ∀ k ∈ (w.waiting l more rest).stack, (w.handle k.id).pd = pd := by
      intro k hk
      obtain rfl | hk := List.mem_cons.mp hk
      · exact hHere
      · exact hCaller k (by simp [hStack, hk])
    have hBusy : (w.waiting l more rest).stack ≠ [] := nofun
    have hSame : Works w (w.waiting l more rest) pd :=
      ⟨⟨le_rfl, fun _ _ => rfl, fun _ _ h => h⟩, fun _ h => h, fun _ _ => le_rfl, .inl rfl, hWaiting⟩
    have hBooks' : Books files (w.waiting l more rest) (some (fullPath files (w.handle l.id).toImage name)) :=
      hBooks.advance hStack hNeeded (.inr rfl)
    obtain ⟨g, -, rfl⟩ | ⟨hNone, hLoad⟩ := hGoes
    · refine ⟨hSame.deliver (fun _ hk => hBooks'.oldLoading hk) g, Gives.waits ?_⟩
      rw [deliver_stack]
      exact hBusy
    · rw [hHere] at hLoad
      have hFound : ∀ g, (w.listed.find? fun h => (w.handle h).path = fullPath files (w.handle l.id).toImage name) =
          some g → 0 < (w.handle g).refCount := by
        intro g hg
        have hNext := hPermitted l rest name more hStack hNeeded
        rw [NextPermitted, hNone] at hNext
        dsimp only at hNext
        rw [hg] at hNext
        exact hNext
      obtain ⟨hWorks, hGives⟩ := hBooks'.load_works hWaiting (fun g hg => ⟨hBusy, hFound g hg⟩) hLoad
      exact ⟨{ hWorks with toKeeps := { hWorks with } }, hGives⟩

end OpenXJ380.Dlinker
