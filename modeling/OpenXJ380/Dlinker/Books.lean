import Mathlib.Algebra.BigOperators.Group.Finset.Basic
import Mathlib.Algebra.GroupWithZero.Nat
import OpenXJ380.Dlinker.Load

/-! # The life of a shared object

Sequences of `dlopen` and `dlclose`, where a load is the steps of its calls. An object is up
from its initialisers to its finalisers.
-/

namespace OpenXJ380.Dlinker

section

open Transition

variable {files : Name → Option SharedObject}

/-- The linker, how often a caller has each handle, and the directory of the last caller of `dlopen`. -/
structure Session where
  world : World
  opened : HandleId → Nat
  caller : Pd

def Session.settle (s : Session) (w : World) : Session :=
  match w.stack, w.returned with
  | [], some h => { s with world := w, opened := Function.update s.opened h (s.opened h + 1) }
  | _, _ => { s with world := w }

def Session.init (kernelSymbols : List (Name × Nat)) : Session := ⟨.init kernelSymbols, fun _ => 0, 0⟩

inductive Act where
  | dlopen (path : Name) (flags : Flags) (pd : Pd)
  | dlclose (h : HandleId)
  | next

inductive Acts (files : Name → Option SharedObject) : Session → Act → Session → Prop
  | dlopen {s : Session} {w : World} {path : Name} {flags : Flags} {pd : Pd} (hStack : s.world.stack = [])
      (hOpen : dlopen files s.world path flags pd = some w) :
      Acts files s (.dlopen path flags pd) ({ s with caller := pd }.settle w)
  | dlclose {s : Session} {h : HandleId} (hStack : s.world.stack = []) (hListed : h ∈ s.world.listed) :
      Acts files s (.dlclose h)
        { s with world := dlclose s.world h, opened := Function.update s.opened h (s.opened h - 1) }
  | next {s : Session} {w : World} (hNext : next files s.world = some w) : Acts files s .next (s.settle w)

def linkSystem (files : Name → Option SharedObject) : System Session Act := ⟨Acts files⟩

def up (log : List Event) (h : HandleId) : Bool :=
  log.foldl (fun before event =>
    match event with
    | .init g => if g = h then true else before
    | .fini g => if g = h then false else before) false

def Needs (files : Name → Option SharedObject) (w : World) (h d : HandleId) : Prop :=
  ∃ name, some name ∈ (w.handle h).object.needed ∧ fullPath files (w.handle h).toImage name = (w.handle d).path

def DependenciesUp (files : Name → Option SharedObject) (w : World) (log : List Event) (h : HandleId) : Prop :=
  ∀ name, some name ∈ (w.handle h).object.needed →
    ∃ d, d < w.handles ∧ (w.handle d).path = fullPath files (w.handle h).toImage name ∧ up log d = true

/-- The image is in the directory as it is in the one that it was loaded into. -/
def Mapped (w : World) (pd : Pd) (h : HandleId) : Prop :=
  ∀ page ∈ imagePages (w.handle h).object (w.handle h).base,
    w.translate pd page = w.translate (w.handle h).pd page ∧ w.translate pd page ≠ none

/-- Each object is loaded once at most; what is open is up; initialisers are called for what is not up, after those of
the libraries that are needed; and finalisers for what is up. -/
structure Lives (files : Name → Option SharedObject) (s : Session) : Prop where
  once : ∀ h ∈ s.world.listed, ∀ g ∈ s.world.listed, (s.world.handle h).path = (s.world.handle g).path → h = g
  open_up : ∀ h, 0 < s.opened h → h ∈ s.world.listed ∧ up s.world.log h = true
  inits : ∀ n h, s.world.log[n]? = some (.init h) →
    up (s.world.log.take n) h = false ∧ DependenciesUp files s.world (s.world.log.take n) h
  finis : ∀ n h, s.world.log[n]? = some (.fini h) → up (s.world.log.take n) h = true

/-- What is finalised in a step is used by nobody, and the caller has the image that it gets. -/
structure Serves (files : Name → Option SharedObject) (s s' : Session) : Prop where
  unused : ∀ h, s'.world.log = s.world.log ++ [.fini h] →
    s'.opened h = 0 ∧ ∀ g, up s'.world.log g = true → ¬ Needs files s'.world g h
  mapped : ∀ h, s'.opened h = s.opened h + 1 → Mapped s'.world s'.caller h

/-- Where a library that is needed next is found by its name, it is in the list and not closed; one that is not in the
list is not being loaded. -/
def NextPermitted (files : Name → Option SharedObject) (w : World) (x : Image) (name : Name) : Prop :=
  match findByName w name with
  | some _ => ∃ d ∈ w.listed, (w.handle d).path = fullPath files x name ∧ 0 < (w.handle d).refCount
  | none =>
    match w.listed.find? fun h => (w.handle h).path = fullPath files x name with
    | some h => 0 < (w.handle h).refCount
    | none => ∀ l ∈ w.stack, (w.handle l.id).path ≠ fullPath files x name

def Permitted (files : Name → Option SharedObject) (s : Session) : Act → Prop
  | .dlopen path _ pd =>
    ∀ h, (s.world.listed.find? fun h => (s.world.handle h).path = path) = some h →
      0 < (s.world.handle h).refCount ∧ ((s.world.handle h).isKernel = true ∨ (s.world.handle h).pd = pd)
  | .dlclose h =>
    (s.world.handle h).refCount ≤ 1 →
      ∀ g ∈ s.world.listed, 0 < (s.world.handle g).refCount → ¬ Needs files s.world g h
  | .next => ∀ l rest name more, s.world.stack = l :: rest → l.needed = some name :: more →
      NextPermitted files s.world (s.world.handle l.id).toImage name

def neededCount (files : Name → Option SharedObject) (path : Name) : Nat :=
  match files path with
  | none => 0
  | some o => o.needed.length

def World.held (w : World) : List HandleId := w.stack.map Loading.id ++ w.listed

def World.absent (w : World) (paths : Finset Name) : Finset Name :=
  paths.filter fun path => ∀ h ∈ w.held, (w.handle h).path ≠ path

def World.weight (files : Name → Option SharedObject) (w : World) (paths : Finset Name) : Nat :=
  if w.stack = [] then 0
  else (∑ path ∈ w.absent paths, (neededCount files path + 2)) + (w.stack.map fun l => l.needed.length + 1).sum

def Contained (files : Name → Option SharedObject) (w : World) : Prop :=
  ∀ path isKernel o base size, acceptedAt files w path isKernel = some (o, base, size) → inOwnPages o base = true

variable (log : List Event) (g h : HandleId)

@[simp]
theorem up_init : up (log ++ [.init g]) h = if g = h then true else up log h := by
  rw [up, List.foldl_append]
  rfl

@[simp]
theorem up_fini : up (log ++ [.fini g]) h = if g = h then false else up log h := by
  rw [up, List.foldl_append]
  rfl

end

/-! # What the linker knows

The handles of the list and of the calls that have not returned have their own paths. A
handle of the list is counted exactly while it is up, and each call has the libraries
behind it that it has looked for.
-/

open Transition

def Ready (w : World) (path : Name) : Prop :=
  ∃ d ∈ w.listed, (w.handle d).path = path ∧ (w.handle d).initCalled = true

/-- The libraries that a call has looked for are ready, up to one that is being loaded. -/
def Progress (files : Name → Option SharedObject) (w : World) (pending : Option Name) (l : Loading) : Prop :=
  ∃ done, (w.handle l.id).object.needed = done ++ l.needed ∧ ∀ name, some name ∈ done →
    Ready w (fullPath files (w.handle l.id).toImage name) ∨
      pending = some (fullPath files (w.handle l.id).toImage name)

def Chain (files : Name → Option SharedObject) (w : World) : Option Name → List Loading → Prop
  | _, [] => True
  | pending, l :: rest => Progress files w pending l ∧ Chain files w (some (w.handle l.id).path) rest

/-- The innermost call waits for `pending`, if it has gone to load it. -/
structure Books (files : Name → Option SharedObject) (w : World) (pending : Option Name) : Prop where
  once : w.held.Nodup
  old : ∀ h ∈ w.held, h < w.handles
  paths : ∀ h ∈ w.held, ∀ g ∈ w.held, (w.handle h).path = (w.handle g).path → h = g
  counts : ∀ h ∈ w.listed, ((w.handle h).initCalled = true ↔ 0 < (w.handle h).refCount)
  loading : ∀ l ∈ w.stack, (w.handle l.id).initCalled = false ∧ 0 < (w.handle l.id).refCount
  ups : ∀ h, up w.log h = true ↔ h ∈ w.listed ∧ (w.handle h).initCalled = true
  inits : ∀ n h, w.log[n]? = some (.init h) →
    h < w.handles ∧ up (w.log.take n) h = false ∧ DependenciesUp files w (w.log.take n) h
  finis : ∀ n h, w.log[n]? = some (.fini h) → up (w.log.take n) h = true
  chain : Chain files w pending w.stack
  pages : ∀ h ∈ w.held, ∀ page ∈ imagePages (w.handle h).object (w.handle h).base,
    w.translate (w.handle h).pd page ≠ none ∧ ((w.handle h).isKernel = true → World.kernelPages ≤ page)

variable {files : Name → Option SharedObject} {w w' : World} {pending : Option Name} {h : HandleId} {l : Loading}
  {rest : List Loading}

theorem World.mem_held : h ∈ w.held ↔ (∃ l ∈ w.stack, l.id = h) ∨ h ∈ w.listed := by
  rw [held, List.mem_append, List.mem_map]

structure Keeps (w w' : World) : Prop where
  handles : w.handles ≤ w'.handles
  image : ∀ h < w.handles, (w'.handle h).toImage = (w.handle h).toImage
  pages : ∀ pd page, w.translate pd page ≠ none → w'.translate pd page ≠ none

theorem Keeps.dependenciesUp {log : List Event} (hKeeps : Keeps w w') (hOld : h < w.handles)
    (hUp : DependenciesUp files w log h) : DependenciesUp files w' log h := by
  intro name hNeeded
  rw [hKeeps.image h hOld] at hNeeded ⊢
  obtain ⟨d, hd, hPath, hDep⟩ := hUp name hNeeded
  exact ⟨d, hd.trans_le hKeeps.handles, (congrArg Image.path (hKeeps.image d hd)).trans hPath, hDep⟩

theorem Keeps.progress (hKeeps : Keeps w w') (hOld : l.id < w.handles)
    (hReady : ∀ path, Ready w path → Ready w' path) (h : Progress files w pending l) : Progress files w' pending l := by
  obtain ⟨done, hDone, hAll⟩ := h
  refine ⟨done, ?_, fun name hName => ?_⟩
  · rw [hKeeps.image _ hOld]
    exact hDone
  · rw [hKeeps.image _ hOld]
    exact (hAll name hName).imp_left (hReady _)

theorem Keeps.chain (hKeeps : Keeps w w') (hOld : ∀ l ∈ rest, l.id < w.handles)
    (hReady : ∀ path, Ready w path → Ready w' path) (h : Chain files w pending rest) : Chain files w' pending rest := by
  induction rest generalizing pending with
  | nil => trivial
  | cons l rest ih =>
    obtain ⟨hHere, hRest⟩ := h
    refine ⟨hKeeps.progress (hOld l (.head _)) hReady hHere, ?_⟩
    rw [congrArg Image.path (hKeeps.image l.id (hOld l (.head _)))]
    exact ih (fun k hk => hOld k (.tail _ hk)) hRest

theorem Books.oldLoading (hBooks : Books files w pending) (hl : l ∈ w.stack) : l.id < w.handles :=
  hBooks.old _ (World.mem_held.mpr (.inl ⟨l, hl, rfl⟩))

theorem Books.oldListed (hBooks : Books files w pending) (hh : h ∈ w.listed) : h < w.handles :=
  hBooks.old _ (World.mem_held.mpr (.inr hh))

theorem Books.apart (hBooks : Books files w pending) (hl : l ∈ w.stack) : l.id ∉ w.listed := by
  intro hListed
  have hOnce := hBooks.once
  rw [World.held, List.nodup_append] at hOnce
  exact hOnce.2.2 _ (List.mem_map_of_mem hl) _ hListed rfl

structure Alike (w w' : World) : Prop extends Keeps w w' where
  listed : w'.listed = w.listed
  stack : w'.stack = w.stack
  log : w'.log = w.log
  initCalled : ∀ h < w.handles, (w'.handle h).initCalled = (w.handle h).initCalled
  refCount : ∀ h < w.handles, (0 < (w'.handle h).refCount ↔ 0 < (w.handle h).refCount)

theorem Books.ready_alike (hBooks : Books files w pending) (hAlike : Alike w w') (path : Name) (h : Ready w path) :
    Ready w' path := by
  obtain ⟨d, hd, hPath, hInit⟩ := h
  have hOld := hBooks.oldListed hd
  refine ⟨d, hAlike.listed ▸ hd, (congrArg Image.path (hAlike.image d hOld)).trans hPath, ?_⟩
  exact (hAlike.initCalled d hOld).trans hInit

theorem Books.alike (hBooks : Books files w pending) (hAlike : Alike w w') : Books files w' pending := by
  have hHeld : w'.held = w.held := by rw [World.held, World.held, hAlike.stack, hAlike.listed]
  constructor
  · exact hHeld ▸ hBooks.once
  · exact fun h hh => (hBooks.old h (hHeld ▸ hh)).trans_le hAlike.handles
  · intro h hh g hg hPath
    rw [hHeld] at hh hg
    rw [hAlike.image h (hBooks.old h hh), hAlike.image g (hBooks.old g hg)] at hPath
    exact hBooks.paths h hh g hg hPath
  · intro h hh
    rw [hAlike.listed] at hh
    have hOld := hBooks.oldListed hh
    rw [hAlike.initCalled h hOld, hAlike.refCount h hOld]
    exact hBooks.counts h hh
  · intro l hl
    rw [hAlike.stack] at hl
    have hOld := hBooks.oldLoading hl
    rw [hAlike.initCalled _ hOld, hAlike.refCount _ hOld]
    exact hBooks.loading l hl
  · intro h
    rw [hAlike.log, hAlike.listed, hBooks.ups]
    refine and_congr_right fun hh => ?_
    rw [hAlike.initCalled h (hBooks.oldListed hh)]
  · intro n h hEvent
    rw [hAlike.log] at hEvent ⊢
    obtain ⟨hOld, hDown, hUp⟩ := hBooks.inits n h hEvent
    exact ⟨hOld.trans_le hAlike.handles, hDown, hAlike.toKeeps.dependenciesUp hOld hUp⟩
  · intro n h hEvent
    rw [hAlike.log] at hEvent ⊢
    exact hBooks.finis n h hEvent
  · rw [hAlike.stack]
    exact hAlike.toKeeps.chain (fun _ hl => hBooks.oldLoading hl) (hBooks.ready_alike hAlike) hBooks.chain
  · intro h hh page hPage
    rw [hHeld] at hh
    rw [hAlike.image h (hBooks.old h hh)] at hPage ⊢
    obtain ⟨hMapped, hKernel⟩ := hBooks.pages h hh page hPage
    exact ⟨hAlike.pages _ page hMapped, hKernel⟩

theorem setHandle_alike {x : Handle} (hImage : x.toImage = (w.handle h).toImage)
    (hInit : x.initCalled = (w.handle h).initCalled) (hCount : 0 < x.refCount ↔ 0 < (w.handle h).refCount) :
    Alike w (w.setHandle h x) := by
  have hSame : ∀ g, ((w.setHandle h x).handle g).toImage = (w.handle g).toImage ∧
      ((w.setHandle h x).handle g).initCalled = (w.handle g).initCalled ∧
      (0 < ((w.setHandle h x).handle g).refCount ↔ 0 < (w.handle g).refCount) := by
    intro g
    rw [World.setHandle]
    dsimp only
    obtain rfl | hne := eq_or_ne g h
    · rw [Function.update_self]
      exact ⟨hImage, hInit, hCount⟩
    · rw [Function.update_of_ne hne]
      exact ⟨rfl, rfl, Iff.rfl⟩
  exact ⟨⟨le_rfl, fun g _ => (hSame g).1, fun _ _ h => h⟩, rfl, rfl, rfl, fun g _ => (hSame g).2.1,
    fun g _ => (hSame g).2.2⟩

theorem deliver_alike (w : World) (h : HandleId) : Alike w (deliver w h) := by
  rw [deliver]
  split
  · exact ⟨⟨le_rfl, fun _ _ => rfl, fun _ _ h => h⟩, rfl, rfl, rfl, fun _ _ => rfl, fun _ _ => Iff.rfl⟩
  · exact setHandle_alike rfl rfl Iff.rfl

theorem Books.fail (hBooks : Books files w pending) : Books files (fail w) none := by
  have hIn : ∀ h, h ∈ (Dlinker.fail w).held → h ∈ w.held := fun h hh => List.mem_append_right _ hh
  constructor
  · exact (List.nodup_append.mp hBooks.once).2.1
  · exact fun h hh => hBooks.old h (hIn h hh)
  · exact fun h hh g hg => hBooks.paths h (hIn h hh) g (hIn g hg)
  · exact hBooks.counts
  · exact nofun
  · exact hBooks.ups
  · exact hBooks.inits
  · exact hBooks.finis
  · trivial
  · exact fun h hh => hBooks.pages h (hIn h hh)

end OpenXJ380.Dlinker
