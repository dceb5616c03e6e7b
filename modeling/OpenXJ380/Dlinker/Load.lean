import OpenXJ380.Dlinker.Object
import OpenXJ380.Lib.Transition

/-! # Loading, opening and closing (`kernel/dlinker.cpp`)

A call of `load_shared_object_internal` waits for those that load its dependencies: the
calls that have not returned are a stack. An image that would be read or written outside its
pages is not followed.
-/

namespace OpenXJ380.Dlinker

open Transition

abbrev Pd := Nat
abbrev HandleId := Nat

structure Image where
  path : Name
  object : SharedObject
  base : Nat
  isKernel : Bool
  pd : Pd

structure Handle extends Image where
  refCount : Nat
  initCalled : Bool
  exports : List (Name × Nat)
  dependencies : List HandleId

/-- An entry of the global symbol table; those of the kernel have no owner. -/
structure GlobalSymbol where
  name : Name
  addr : Nat
  owner : Option HandleId

/-- A call that has not returned: its handle, and the libraries that it still has to look for. -/
structure Loading where
  id : HandleId
  needed : List (Option Name)

inductive Event where
  | init (h : HandleId)
  | fini (h : HandleId)

/-- The handles and which of them are in the list; the tables of symbols; the pages with their frames, those of the
kernel being the same in all directories; and what has been called. -/
structure World where
  handle : HandleId → Handle
  handles : Nat
  listed : List HandleId
  symbols : List GlobalSymbol
  kernelSymbols : List (Name × Nat)
  kernelPage : Nat → Option Nat
  userPage : Pd → Nat → Option Nat
  frames : Nat
  kernelModulesLoadOffset : Nat
  userSoNextAddr : Nat
  stack : List Loading
  returned : Option HandleId
  log : List Event

namespace World

def setHandle (w : World) (h : HandleId) (x : Handle) : World := { w with handle := Function.update w.handle h x }

def kernelPages : Nat := 2 ^ 63 / pageSize

def translate (w : World) (pd : Pd) (page : Nat) : Option Nat :=
  if kernelPages ≤ page then w.kernelPage page else w.userPage pd page

/-- `page_map_to`, to a frame that nobody has. -/
def mapPage (w : World) (pd : Pd) (page : Nat) : World :=
  if kernelPages ≤ page then
    { w with kernelPage := Function.update w.kernelPage page (some w.frames), frames := w.frames + 1 }
  else
    { w with
      userPage := Function.update w.userPage pd (Function.update (w.userPage pd) page (some w.frames))
      frames := w.frames + 1 }

def mapPages (w : World) (pd : Pd) (pages : List Nat) : World := pages.foldl (fun w page => w.mapPage pd page) w

end World

def maxGlobalSymbols : Nat := 4096

/-- `add_global_symbol`. -/
def addGlobalSymbol (symbols : List GlobalSymbol) (name : Name) (addr : Nat) (owner : HandleId) : List GlobalSymbol :=
  if maxGlobalSymbols ≤ symbols.length then symbols
  else
    match symbols.findIdx? fun g => g.name = name with
    | some i => symbols.modify i fun g => if g.owner = some owner then { g with addr := addr } else g
    | none => symbols ++ [{ name := name, addr := addr, owner := some owner }]

/-- `find_symbol_internal`; 0 is `NULL`. -/
def findSymbolInternal (w : World) (name : Name) (exclude : Option HandleId) : Nat :=
  match w.symbols.find? fun g => nameMatches name g.name && (exclude = none || g.owner ≠ exclude) with
  | some g => g.addr
  | none =>
    match w.kernelSymbols.find? fun f => nameMatches name f.1 with
    | some f => f.2
    | none =>
      match exclude with
      | none => 0
      | some h => (((w.handle h).exports.find? fun f => f.1 = name).map Prod.snd).getD 0

/-- `resolve_relocation_symbol`. -/
def resolveRelocationSymbol (w : World) (h : HandleId) (s : Sym) : Nat :=
  let x := w.handle h
  if s.defined = true ∧ symbolLoaded x.object x.base s = false then 0
  else if s.defined = true ∧ (s.bind = stbLocal ∨ s.visibility = stvHidden ∨ s.visibility = stvInternal ∨
      s.visibility = stvProtected) then x.base + s.value
  else
    let known := match s.name with
      | none => 0
      | some [] => 0
      | some name =>
        if findSymbolInternal w name (some h) ≠ 0 then findSymbolInternal w name (some h)
        else ((x.exports.find? fun f => f.1 = name).map Prod.snd).getD 0
    if known ≠ 0 then known else if s.defined then x.base + s.value else 0

def rX8664None : Nat := 0
def rX866464 : Nat := 1
def rX8664Pc32 : Nat := 2
def rX8664Plt32 : Nat := 4
def rX8664Copy : Nat := 5
def rX8664GlobDat : Nat := 6
def rX8664JumpSlot : Nat := 7
def rX8664Relative : Nat := 8
def rX866432 : Nat := 10
def rX866432S : Nat := 11
def rX8664Pc64 : Nat := 24
def rX8664Size32 : Nat := 32
def rX8664Size64 : Nat := 33
def rX8664Irelative : Nat := 37

def resolvesSymbol (type : Nat) : Bool :=
  [rX8664GlobDat, rX8664JumpSlot, rX866464, rX8664Copy, rX8664Pc32, rX8664Plt32, rX8664Pc64, rX866432,
    rX866432S].contains type

def otherRelocation (type : Nat) : Bool :=
  [rX8664None, rX8664Relative, rX8664Size32, rX8664Size64, rX8664Irelative].contains type

def targetSize (type : Nat) (sym : Option Sym) : Nat :=
  match sym with
  | some s =>
    if type = rX8664Copy then s.size
    else if [rX8664Pc32, rX8664Plt32, rX866432, rX866432S, rX8664Size32].contains type then 4 else 8
  | none => if [rX8664Pc32, rX8664Plt32, rX866432, rX866432S, rX8664Size32].contains type then 4 else 8

def relocate (w : World) (h : HandleId) (r : Rela) : Bool :=
  let x := w.handle h
  if maxU64 - x.base < r.offset ∨ (r.sym ≠ 0 ∧ x.object.symbols.length ≤ r.sym) then false
  else
    let sym := if r.sym = 0 then none else x.object.symbols[r.sym]?
    if r.type ≠ rX8664None ∧ rangeLoaded x.object x.base (x.base + r.offset) (targetSize r.type sym) = false then false
    else if resolvesSymbol r.type then
      match sym with
      | none => true
      | some s => resolveRelocationSymbol w h s ≠ 0 || s.bind = stbWeak
    else otherRelocation r.type

def relocatePlt (w : World) (h : HandleId) (r : Rela) : Bool :=
  let x := w.handle h
  if maxU64 - x.base < r.offset ∨ r.sym = 0 then false
  else
    match x.object.symbols[r.sym]? with
    | none => false
    | some s =>
      rangeLoaded x.object x.base (x.base + r.offset) 8 && (resolveRelocationSymbol w h s ≠ 0 || s.bind = stbWeak)

/-- `process_dynamic_relocations`. -/
def processDynamicRelocations (w : World) (h : HandleId) : Bool :=
  match (w.handle h).object.relocations with
  | none => false
  | some (relas, plt) => relas.all (relocate w h) && plt.all (relocatePlt w h)

def callDynamicInitializers (w : World) (h : HandleId) : World :=
  if (w.handle h).initCalled then w
  else { w.setHandle h { w.handle h with initCalled := true } with log := w.log ++ [.init h] }

def callDynamicFinalizers (w : World) (h : HandleId) : World :=
  if (w.handle h).initCalled then
    { w.setHandle h { w.handle h with initCalled := false } with log := w.log ++ [.fini h] }
  else w

def loadAddress (w : World) (isKernel : Bool) : Option Nat :=
  if isKernel then
    if kernelModSpaceEnd - kernelModSpaceStart ≤ w.kernelModulesLoadOffset then none
    else some (kernelModSpaceStart + w.kernelModulesLoadOffset)
  else if userSoBaseEnd ≤ w.userSoNextAddr then none
  else some w.userSoNextAddr

def advance (w : World) (isKernel : Bool) (size : Nat) : World :=
  if isKernel then { w with kernelModulesLoadOffset := w.kernelModulesLoadOffset + paddingUp size }
  else { w with userSoNextAddr := w.userSoNextAddr + paddingUp size }

/-- The object is mapped and what it exports published; the libraries that it needs come next. -/
def mapImage (w : World) (path : Name) (o : SharedObject) (base size : Nat) (isKernel : Bool) (pd : Pd) : World :=
  let mapped := advance (w.mapPages pd (imagePages o base)) isKernel size
  let handle : Handle :=
    { path := path, object := o, base := base, isKernel := isKernel, pd := pd, refCount := 1, initCalled := false
      exports := exportsOf o base, dependencies := [] }
  { mapped.setHandle w.handles handle with
    handles := w.handles + 1
    symbols := (exportsOf o base).foldl (fun symbols f => addGlobalSymbol symbols f.1 f.2 w.handles) w.symbols }

/-- What a call returns to the one that waits for it, or to the caller of `dlopen`. -/
def deliver (w : World) (h : HandleId) : World :=
  match w.stack with
  | [] => { w with returned := some h }
  | l :: _ => w.setHandle l.id { w.handle l.id with dependencies := (w.handle l.id).dependencies ++ [h] }

def fail (w : World) : World := { w with stack := [], returned := none }

/-- A handle of the list is used again by `load_shared_object_internal`. -/
def reuse (w : World) (h : HandleId) : World :=
  if (w.handle h).refCount = 0 then callDynamicInitializers (w.setHandle h { w.handle h with refCount := 1 }) h
  else w.setHandle h { w.handle h with refCount := (w.handle h).refCount + 1 }

def acceptedAt (files : Name → Option SharedObject) (w : World) (path : Name) (isKernel : Bool) :
    Option (SharedObject × Nat × Nat) := do
  let o ← files path
  if o.readable = false ∨ o.size < sizeofEhdr ∨ elfTestHead o.ehdr = false ∨ o.ehdr.type ≠ etDyn then none
  else
    let base ← loadAddress w isKernel
    let size ← validateSharedObject o base isKernel
    some (o, base, size)

def maxDependencies : Nat := 64

/-- `load_shared_object_internal`, up to the first library that is needed. -/
def loadSharedObject (files : Name → Option SharedObject) (w : World) (path : Name) (isKernel : Bool) (pd : Pd) :
    Option World :=
  match w.listed.find? fun h => (w.handle h).path = path with
  | some h => some (deliver (reuse w h) h)
  | none =>
    match acceptedAt files w path isKernel with
    | none => some (fail w)
    | some (o, base, size) =>
      if inOwnPages o base = false then none
      else
        let mapped := mapImage w path o base size isKernel pd
        if maxDependencies < o.needed.length then some (fail mapped)
        else some { mapped with stack := { id := w.handles, needed := o.needed } :: mapped.stack }

def finish (w : World) (l : Loading) (rest : List Loading) : World :=
  if processDynamicRelocations w l.id then
    let ready := callDynamicInitializers w l.id
    deliver { ready with listed := l.id :: ready.listed, stack := rest } l.id
  else fail w

def pathBytes : Nat := 383

def fullPath (files : Name → Option SharedObject) (x : Image) (name : Name) : Name :=
  if name.contains '/' then name.take pathBytes
  else if x.isKernel then ("/lib/modules/".toList ++ name).take pathBytes
  else
    let fallback := ("/lib/".toList ++ name).take pathBytes
    match x.object.rpath with
    | none => fallback
    | some rpath =>
      let there := (rpath ++ '/' :: name).take pathBytes
      if (files there).isSome then there else fallback

/-- A handle of the list whose path has the name in it (`strstr`). -/
def findByName (w : World) (name : Name) : Option HandleId :=
    w.listed.find? fun h => decide (name <:+: (w.handle h).path)

def next (files : Name → Option SharedObject) (w : World) : Option World :=
  match w.stack with
  | [] => none
  | l :: rest =>
    match l.needed with
    | [] => some (finish w l rest)
    | none :: _ => some (fail w)
    | some name :: more =>
      let waiting := { w with stack := { l with needed := more } :: rest }
      match findByName w name with
      | some h => some (deliver waiting h)
      | none =>
        let x := w.handle l.id
        loadSharedObject files waiting (fullPath files x.toImage name) x.isKernel x.pd

/-- A path of a kernel module, for `dlopen`. -/
def isKernelPath (path : Name) : Bool := decide (".sys".toList <:+: path) || decide ("/system/".toList <:+: path)

/-- `RTLD_NOLOAD` and `RTLD_KERNEL`. -/
structure Flags where
  noload : Bool
  kernel : Bool

/-- `dlopen` by a process with the directory `pd`. -/
def dlopen (files : Name → Option SharedObject) (w : World) (path : Name) (flags : Flags) (pd : Pd) : Option World :=
  match w.listed.find? fun h => (w.handle h).path = path with
  | some h => some { w.setHandle h { w.handle h with refCount := (w.handle h).refCount + 1 } with returned := some h }
  | none =>
    if flags.noload then some { w with returned := none }
    else loadSharedObject files w path (isKernelPath path || flags.kernel) pd

def dlclose (w : World) (h : HandleId) : World :=
  if 1 < (w.handle h).refCount then w.setHandle h { w.handle h with refCount := (w.handle h).refCount - 1 }
  else
    let finished := callDynamicFinalizers w h
    finished.setHandle h { finished.handle h with refCount := 0 }

/-- Nothing is loaded; `dlinker_init` has entered what the kernel exports. -/
def World.init (kernelSymbols : List (Name × Nat)) : World where
  handle _ :=
    { path := [], base := 0, isKernel := false, pd := 0, refCount := 0, initCalled := false, exports := []
      dependencies := []
      object :=
        { size := 0, readable := false, ehdr := ⟨0, 0, 0, 0, 0, 0, 0⟩, phdrs := [], symbols := [], exportable := false
          rpath := none, needed := [], relocations := none } }
  handles := 0
  listed := []
  symbols := kernelSymbols.map fun f => { name := f.1, addr := f.2, owner := none }
  kernelSymbols := kernelSymbols
  kernelPage _ := none
  userPage _ _ := none
  frames := 0
  kernelModulesLoadOffset := 0
  userSoNextAddr := userSoBaseStart
  stack := []
  returned := none
  log := []

end OpenXJ380.Dlinker
