import OpenXJ380.Dlinker.Books
import OpenXJ380.Dlinker.Traces

/-! # The calls keep the books -/

namespace OpenXJ380.Dlinker

open Transition

variable {files : Name → Option SharedObject} {w w' : World} {pending : Option Name} {h : HandleId} {l : Loading}
  {rest : List Loading}

theorem logged {log : List Event} {last event : Event} {n : Nat} (h : (log ++ [last])[n]? = some event) :
    (log[n]? = some event ∧ (log ++ [last]).take n = log.take n) ∨ (event = last ∧ (log ++ [last]).take n = log) := by
  obtain hOld | hNew := lt_or_ge n log.length
  · rw [List.getElem?_append_left hOld] at h
    exact .inl ⟨h, List.take_append_of_le_length hOld.le⟩
  · rw [List.getElem?_append_right hNew, List.getElem?_singleton] at h
    split at h
    · next hLast =>
      cases h
      have hn : n = log.length := (Nat.sub_eq_zero_iff_le.mp hLast).antisymm hNew
      exact .inr ⟨rfl, by rw [hn, List.take_left]⟩
    · cases h

theorem Chain.ready {path : Name} (hReady : Ready w path) (h : Chain files w (some path) rest) :
    Chain files w none rest := by
  cases rest with
  | nil => trivial
  | cons l rest =>
    obtain ⟨⟨done, hDone, hAll⟩, hRest⟩ := h
    refine ⟨⟨done, hDone, fun name hName => .inl ?_⟩, hRest⟩
    obtain hHere | hPending := hAll name hName
    · exact hHere
    · cases hPending
      exact hReady

theorem Books.dependenciesUp (hBooks : Books files w none) (hStack : w.stack = l :: rest) (hDone : l.needed = []) :
    DependenciesUp files w w.log l.id := by
  intro name hName
  have hChain := hBooks.chain
  rw [hStack] at hChain
  obtain ⟨⟨done, hNeeded, hAll⟩, -⟩ := hChain
  rw [hDone, List.append_nil] at hNeeded
  obtain ⟨d, hd, hPath, hInit⟩ | hPending := hAll name (hNeeded ▸ hName)
  · exact ⟨d, hBooks.oldListed hd, hPath, (hBooks.ups d).mpr ⟨hd, hInit⟩⟩
  · cases hPending

/-- The initialisers of the object have been called, and the innermost call returns. -/
structure Finished (w w' : World) (l : Loading) (rest : List Loading) : Prop extends Keeps w w' where
  listed : w'.listed = l.id :: w.listed
  stack : w'.stack = rest
  log : w'.log = w.log ++ [.init l.id]
  here : (w'.handle l.id).initCalled = true
  others : ∀ g ≠ l.id, (w'.handle g).initCalled = (w.handle g).initCalled
  refCount : ∀ g, (w'.handle g).refCount = (w.handle g).refCount

theorem callDynamicInitializers_finished (l : Loading) (rest : List Loading)
    (hDown : (w.handle l.id).initCalled = false) : Finished w { callDynamicInitializers w l.id with
      listed := l.id :: (callDynamicInitializers w l.id).listed, stack := rest } l rest := by
  have hCall : callDynamicInitializers w l.id =
      { w.setHandle l.id { w.handle l.id with initCalled := true } with log := w.log ++ [.init l.id] } := by
    rw [callDynamicInitializers, hDown]
    rfl
  rw [hCall]
  have hHere : (w.setHandle l.id { w.handle l.id with initCalled := true }).handle l.id =
      { w.handle l.id with initCalled := true } := Function.update_self ..
  have hOther : ∀ g, g ≠ l.id → (w.setHandle l.id { w.handle l.id with initCalled := true }).handle g = w.handle g :=
    fun g hg => Function.update_of_ne hg ..
  refine ⟨⟨le_rfl, fun g _ => ?_, fun _ _ h => h⟩, rfl, rfl, rfl, ?_, fun g hg => ?_, fun g => ?_⟩
  · obtain rfl | hg := eq_or_ne g l.id
    · exact (congrArg Handle.toImage hHere).trans rfl
    · exact congrArg Handle.toImage (hOther g hg)
  · exact congrArg Handle.initCalled hHere
  · exact congrArg Handle.initCalled (hOther g hg)
  · obtain rfl | hg := eq_or_ne g l.id
    · exact (congrArg Handle.refCount hHere).trans rfl
    · exact congrArg Handle.refCount (hOther g hg)

theorem Books.finish (hBooks : Books files w none) (hStack : w.stack = l :: rest) (hDone : l.needed = [])
    (h : Finished w w' l rest) : Books files w' none := by
  have hl : l ∈ w.stack := by simp [hStack]
  obtain ⟨-, hCount⟩ := hBooks.loading l hl
  have hApart := hBooks.apart hl
  have hNotUp : up w.log l.id = false := by
    rw [← Bool.not_eq_true, hBooks.ups]
    exact fun hUp => hApart hUp.1
  have hPerm : w'.held.Perm w.held := by
    rw [World.held, World.held, h.stack, h.listed, hStack]
    exact List.perm_middle
  have hHeld : ∀ g, g ∈ w'.held ↔ g ∈ w.held := fun g => hPerm.mem_iff
  have hOthers : ∀ g ∈ w.listed, (w'.handle g).initCalled = (w.handle g).initCalled := by
    rintro g hg
    exact h.others g fun hEq => hApart (hEq ▸ hg)
  have hReady : ∀ path, Ready w path → Ready w' path := by
    rintro path ⟨d, hd, hPath, hInit⟩
    refine ⟨d, h.listed ▸ .tail _ hd, ?_, (hOthers d hd).trans hInit⟩
    exact (congrArg Image.path (h.image d (hBooks.oldListed hd))).trans hPath
  have hOld : l.id < w.handles := hBooks.oldLoading hl
  constructor
  · exact hPerm.nodup_iff.mpr hBooks.once
  · exact fun g hg => (hBooks.old g ((hHeld g).mp hg)).trans_le h.handles
  · intro g hg k hk hPath
    rw [hHeld] at hg hk
    rw [h.image g (hBooks.old g hg), h.image k (hBooks.old k hk)] at hPath
    exact hBooks.paths g hg k hk hPath
  · intro g hg
    rw [h.refCount]
    rw [h.listed] at hg
    obtain rfl | hg := List.mem_cons.mp hg
    · exact iff_of_true h.here hCount
    · rw [hOthers g hg]
      exact hBooks.counts g hg
  · intro k hk
    rw [h.stack] at hk
    have hIn : k ∈ w.stack := hStack ▸ .tail _ hk
    have hne : k.id ≠ l.id := by
      intro hEq
      have hOnce := (List.nodup_append.mp hBooks.once).1
      rw [hStack, List.map_cons, List.nodup_cons] at hOnce
      exact hOnce.1 (hEq ▸ List.mem_map_of_mem hk)
    rw [h.others _ hne, h.refCount]
    exact hBooks.loading k hIn
  · intro g
    rw [h.log, up_init, h.listed, List.mem_cons]
    split
    · next hEq =>
      subst hEq
      exact iff_of_true rfl ⟨.inl rfl, h.here⟩
    · next hne =>
      rw [hBooks.ups, h.others g fun hEq => hne hEq.symm]
      refine and_congr_left fun _ => ⟨.inr, fun hIn => ?_⟩
      exact hIn.resolve_left fun hEq => hne hEq.symm
  · intro n g hEvent
    rw [h.log] at hEvent ⊢
    obtain ⟨hBefore, hTake⟩ | ⟨hLast, hTake⟩ := logged hEvent
    · rw [hTake]
      obtain ⟨hg, hFirst, hUp⟩ := hBooks.inits n g hBefore
      exact ⟨hg.trans_le h.handles, hFirst, h.toKeeps.dependenciesUp hg hUp⟩
    · cases hLast
      rw [hTake]
      refine ⟨hOld.trans_le h.handles, hNotUp, ?_⟩
      exact h.toKeeps.dependenciesUp hOld (hBooks.dependenciesUp hStack hDone)
  · intro n g hEvent
    rw [h.log] at hEvent ⊢
    obtain ⟨hBefore, hTake⟩ | ⟨hLast, -⟩ := logged hEvent
    · rw [hTake]
      exact hBooks.finis n g hBefore
    · cases hLast
  · rw [h.stack]
    have hChain := hBooks.chain
    rw [hStack] at hChain
    have hKept : Chain files w' (some (w.handle l.id).path) rest := by
      refine h.toKeeps.chain (fun k hk => ?_) hReady hChain.2
      exact hBooks.oldLoading (hStack ▸ .tail _ hk)
    refine hKept.ready ⟨l.id, ?_, ?_, h.here⟩
    · rw [h.listed]
      exact .head _
    · exact congrArg Image.path (h.image _ hOld)
  · intro g hg page hPage
    rw [hHeld] at hg
    rw [h.image g (hBooks.old g hg)] at hPage ⊢
    obtain ⟨hMapped, hKernel⟩ := hBooks.pages g hg page hPage
    exact ⟨h.pages _ page hMapped, hKernel⟩

structure Closed (w w' : World) (h : HandleId) : Prop extends Keeps w w' where
  listed : w'.listed = w.listed
  stack : w'.stack = w.stack
  log : w'.log = w.log ++ [.fini h]
  here : (w'.handle h).initCalled = false ∧ (w'.handle h).refCount = 0
  others : ∀ g ≠ h, w'.handle g = w.handle g

theorem Books.close (hBooks : Books files w none) (hIdle : w.stack = []) (hListed : h ∈ w.listed)
    (hUp : (w.handle h).initCalled) (hClosed : Closed w w' h) : Books files w' none := by
  have hHeld : w'.held = w.held := by rw [World.held, World.held, hClosed.stack, hClosed.listed]
  have hStack : w'.stack = [] := hClosed.stack.trans hIdle
  constructor
  · exact hHeld ▸ hBooks.once
  · exact fun g hg => (hBooks.old g (hHeld ▸ hg)).trans_le hClosed.handles
  · intro g hg k hk hPath
    rw [hHeld] at hg hk
    rw [hClosed.image g (hBooks.old g hg), hClosed.image k (hBooks.old k hk)] at hPath
    exact hBooks.paths g hg k hk hPath
  · intro g hg
    rw [hClosed.listed] at hg
    obtain rfl | hne := eq_or_ne g h
    · simp [hClosed.here]
    · rw [hClosed.others g hne]
      exact hBooks.counts g hg
  · intro l hl
    rw [hStack] at hl
    cases hl
  · intro g
    rw [hClosed.log, up_fini, hClosed.listed]
    split
    · next hEq =>
      subst hEq
      simp [hClosed.here]
    · next hne =>
      rw [hClosed.others g fun hEq => hne hEq.symm]
      exact hBooks.ups g
  · intro n g hEvent
    rw [hClosed.log] at hEvent ⊢
    obtain ⟨hBefore, hTake⟩ | ⟨hLast, -⟩ := logged hEvent
    · rw [hTake]
      obtain ⟨hg, hFirst, hDependencies⟩ := hBooks.inits n g hBefore
      exact ⟨hg.trans_le hClosed.handles, hFirst, hClosed.toKeeps.dependenciesUp hg hDependencies⟩
    · cases hLast
  · intro n g hEvent
    rw [hClosed.log] at hEvent ⊢
    obtain ⟨hBefore, hTake⟩ | ⟨hLast, hTake⟩ := logged hEvent
    · rw [hTake]
      exact hBooks.finis n g hBefore
    · cases hLast
      rw [hTake]
      exact (hBooks.ups h).mpr ⟨hListed, hUp⟩
  · rw [hStack]
    trivial
  · intro g hg page hPage
    rw [hHeld] at hg
    rw [hClosed.image g (hBooks.old g hg)] at hPage ⊢
    obtain ⟨hMapped, hKernel⟩ := hBooks.pages g hg page hPage
    exact ⟨hClosed.pages _ page hMapped, hKernel⟩

theorem validateSharedObject_kernel {o : SharedObject} {base size page : Nat}
    (h : validateSharedObject o base true = some size) (hPage : page ∈ imagePages o base) :
    World.kernelPages ≤ page := by
  rw [imagePages, List.mem_flatMap] at hPage
  obtain ⟨p, hp, hPage⟩ := hPage
  rw [List.mem_filter, decide_eq_true_eq] at hp
  rw [segmentPages, List.mem_map] at hPage
  obtain ⟨i, -, rfl⟩ := hPage
  obtain ⟨lo, hi, hAccepted, hStart, -⟩ := validateSharedObject_accepted h
  have hTop := hAccepted.ends p hp.1 hp.2
  have hLow := (hAccepted.spans p hp.1 hp.2).1
  rw [if_pos rfl, kernelModSpaceStart] at hStart
  rw [World.kernelPages]
  rw [paddingDown] at hLow ⊢
  rw [maxU64] at hTop
  rw [pageSize] at hLow ⊢
  omega

structure Created (w w' : World) (x : Image) : Prop extends Alike w w' where
  handles_eq : w'.handles = w.handles + 1
  new : (w'.handle w.handles).toImage = x
  fresh : (w'.handle w.handles).initCalled = false ∧ (w'.handle w.handles).refCount = 1
  older : ∀ h < w.handles, w'.handle h = w.handle h
  mapped : ∀ page ∈ imagePages x.object x.base, w'.translate x.pd page ≠ none

theorem mapPages_handles (w : World) (pd : Pd) (pages : List Nat) :
    (w.mapPages pd pages).handle = w.handle ∧ (w.mapPages pd pages).handles = w.handles ∧
      (w.mapPages pd pages).listed = w.listed ∧ (w.mapPages pd pages).stack = w.stack ∧
      (w.mapPages pd pages).log = w.log := by
  induction pages generalizing w with
  | nil => exact ⟨rfl, rfl, rfl, rfl, rfl⟩
  | cons page pages ih =>
    have hHere : (w.mapPage pd page).handle = w.handle ∧ (w.mapPage pd page).handles = w.handles ∧
        (w.mapPage pd page).listed = w.listed ∧ (w.mapPage pd page).stack = w.stack ∧
        (w.mapPage pd page).log = w.log := by
      rw [World.mapPage]
      split
      · exact ⟨rfl, rfl, rfl, rfl, rfl⟩
      · exact ⟨rfl, rfl, rfl, rfl, rfl⟩
    obtain ⟨h₁, h₂, h₃, h₄, h₅⟩ := ih (w.mapPage pd page)
    obtain ⟨k₁, k₂, k₃, k₄, k₅⟩ := hHere
    exact ⟨h₁.trans k₁, h₂.trans k₂, h₃.trans k₃, h₄.trans k₄, h₅.trans k₅⟩

theorem advance_handles (w : World) (isKernel : Bool) (size : Nat) :
    (advance w isKernel size).handle = w.handle ∧ (advance w isKernel size).listed = w.listed ∧
      (advance w isKernel size).stack = w.stack ∧ (advance w isKernel size).log = w.log := by
  rw [advance]
  split
  · exact ⟨rfl, rfl, rfl, rfl⟩
  · exact ⟨rfl, rfl, rfl, rfl⟩

theorem Grows.keeps {pd : Pd} {page : Nat} (h : Grows w w') (hMapped : w.translate pd page ≠ none) :
    w'.translate pd page ≠ none := by
  obtain hSame | ⟨frame, hNew, -⟩ := h.pages pd page
  · rw [hSame]
    exact hMapped
  · rw [hNew]
    exact nofun

theorem mapImage_created (w : World) (path : Name) (o : SharedObject) (base size : Nat) (isKernel : Bool) (pd : Pd) :
    Created w (mapImage w path o base size isKernel pd)
      { path := path, object := o, base := base, isKernel := isKernel, pd := pd } := by
  obtain ⟨hHandle, -, hListed, hStack, hLog⟩ := mapPages_handles w pd (imagePages o base)
  obtain ⟨kHandle, kListed, kStack, kLog⟩ := advance_handles (w.mapPages pd (imagePages o base)) isKernel size
  have hOlder : ∀ h < w.handles, (mapImage w path o base size isKernel pd).handle h = w.handle h := by
    intro h hh
    refine (Function.update_of_ne hh.ne ..).trans ?_
    rw [kHandle, hHandle]
  have hFresh : (mapImage w path o base size isKernel pd).handle w.handles =
      { path := path, object := o, base := base, isKernel := isKernel, pd := pd, refCount := 1
        initCalled := false, exports := exportsOf o base, dependencies := [] } := Function.update_self ..
  refine ⟨⟨⟨Nat.le_succ _, fun h hh => ?_, fun pd' page hMapped => ?_⟩, kListed.trans hListed, kStack.trans hStack,
    kLog.trans hLog, fun h hh => ?_, fun h hh => ?_⟩, rfl, ?_, ?_, hOlder, fun page hPage => ?_⟩
  · rw [hOlder h hh]
  · exact (mapImage_grows w path o base size isKernel pd).keeps ((mapPages_grows _ w pd).keeps hMapped)
  · rw [hOlder h hh]
  · rw [hOlder h hh]
  · rw [hFresh]
  · rw [hFresh]
    exact ⟨rfl, rfl⟩
  · obtain ⟨frame, hFrame, -⟩ := mapPages_new w pd hPage
    refine (mapImage_grows w path o base size isKernel pd).keeps ?_
    rw [hFrame]
    exact nofun

theorem Books.push (hBooks : Books files w pending) {x : Image} (hCreated : Created w w' x)
    (hNew : ∀ h ∈ w.held, (w.handle h).path ≠ x.path) (hPending : w.stack = [] ∨ pending = some x.path)
    (hKernel : x.isKernel → ∀ page ∈ imagePages x.object x.base, World.kernelPages ≤ page) :
    Books files { w' with stack := ⟨w.handles, x.object.needed⟩ :: w'.stack } none := by
  have hSame := hBooks.alike hCreated.toAlike
  have hHeldSame : w'.held = w.held := by rw [World.held, World.held, hCreated.stack, hCreated.listed]
  have hNotHeld : w.handles ∉ w'.held := fun hIn => lt_irrefl _ (hBooks.old _ (hHeldSame ▸ hIn))
  have hPath : (w'.handle w.handles).path = x.path := congrArg Image.path hCreated.new
  have hApart : ∀ h ∈ w'.held, (w'.handle h).path ≠ x.path := by
    intro h hh
    rw [hHeldSame] at hh
    rw [hCreated.older h (hBooks.old h hh)]
    exact hNew h hh
  have hNewest : w.handles < w'.handles := by simp [hCreated.handles_eq]
  constructor
  · exact List.nodup_cons.mpr ⟨hNotHeld, hSame.once⟩
  · intro h hh
    obtain rfl | hh := List.mem_cons.mp hh
    · exact hNewest
    · exact hSame.old h hh
  · intro h hh g hg hEq
    obtain rfl | hh := List.mem_cons.mp hh
    · obtain rfl | hg := List.mem_cons.mp hg
      · rfl
      · exact absurd (hEq.symm.trans hPath) (hApart g hg)
    · obtain rfl | hg := List.mem_cons.mp hg
      · exact absurd (hEq.trans hPath) (hApart h hh)
      · exact hSame.paths h hh g hg hEq
  · exact hSame.counts
  · intro l hl
    obtain rfl | hl := List.mem_cons.mp hl
    · simp [hCreated.fresh]
    · exact hSame.loading l hl
  · exact hSame.ups
  · exact hSame.inits
  · exact hSame.finis
  · refine ⟨⟨[], congrArg (fun x => x.object.needed) hCreated.new, by rintro _ ⟨⟩⟩, ?_⟩
    obtain hIdle | hWaits := hPending
    · have hIdle' : w'.stack = [] := hCreated.stack.trans hIdle
      rw [hIdle']
      trivial
    · have hChain := hSame.chain
      rw [hWaits, ← hPath] at hChain
      have hKeeps : Keeps w' { w' with stack := ⟨w.handles, x.object.needed⟩ :: w'.stack } :=
        ⟨le_rfl, fun _ _ => rfl, fun _ _ h => h⟩
      exact hKeeps.chain (fun _ hl => hSame.oldLoading hl) (fun _ h => h) hChain
  · intro h hh page hPage
    obtain rfl | hh := List.mem_cons.mp hh
    · have hPd : (w'.handle w.handles).pd = x.pd := congrArg Image.pd hCreated.new
      have hIs : (w'.handle w.handles).isKernel = x.isKernel := congrArg Image.isKernel hCreated.new
      have hImage : page ∈ imagePages x.object x.base := by
        rw [← hCreated.new]
        exact hPage
      rw [hPd, hIs]
      exact ⟨hCreated.mapped page hImage, fun hKind => hKernel hKind page hImage⟩
    · exact hSame.pages h hh page hPage

theorem Books.advance {name : Name} {more : List (Option Name)} (hBooks : Books files w none)
    (hStack : w.stack = l :: rest) (hNeeded : l.needed = some name :: more)
    (hReady : Ready w (fullPath files (w.handle l.id).toImage name) ∨
      pending = some (fullPath files (w.handle l.id).toImage name)) :
    Books files { w with stack := { l with needed := more } :: rest } pending := by
  have hHeld : World.held { w with stack := { l with needed := more } :: rest } = w.held := by
    rw [World.held, World.held, hStack]
    rfl
  have hKeeps : Keeps w { w with stack := { l with needed := more } :: rest } :=
    ⟨le_rfl, fun _ _ => rfl, fun _ _ h => h⟩
  have hChain := hBooks.chain
  rw [hStack] at hChain
  obtain ⟨⟨done, hDone, hAll⟩, hRest⟩ := hChain
  constructor
  · exact hHeld ▸ hBooks.once
  · exact fun h hh => hBooks.old h (hHeld ▸ hh)
  · exact fun h hh g hg => hBooks.paths h (hHeld ▸ hh) g (hHeld ▸ hg)
  · exact hBooks.counts
  · intro k hk
    obtain rfl | hk := List.mem_cons.mp hk
    · exact hBooks.loading l (by simp [hStack])
    · exact hBooks.loading k (by simp [hStack, hk])
  · exact hBooks.ups
  · exact hBooks.inits
  · exact hBooks.finis
  · refine ⟨⟨done ++ [some name], ?_, fun name' hName => ?_⟩, ?_⟩
    · rw [hNeeded] at hDone
      rw [List.append_assoc]
      exact hDone
    · obtain hBefore | hLast := List.mem_append.mp hName
      · obtain hHere | hNone := hAll name' hBefore
        · exact .inl hHere
        · cases hNone
      · cases Option.some.inj (List.mem_singleton.mp hLast)
        exact hReady
    · refine hKeeps.chain (fun k hk => ?_) (fun _ h => h) hRest
      exact hBooks.oldLoading (hStack ▸ .tail _ hk)
  · exact fun h hh => hBooks.pages h (hHeld ▸ hh)

end OpenXJ380.Dlinker
