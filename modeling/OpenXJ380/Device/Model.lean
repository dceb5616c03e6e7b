import Mathlib.Data.Finset.Card
import Mathlib.Data.Nat.ModEq
import OpenXJ380.Errno
import OpenXJ380.Vfs.Model

/-! # The identifier allocator (`kernel/id_alloc.cpp`)

The word and the bit of an identifier are one position of the bitmap. An
identifier that is handed out was free; where one is free, one is handed out.
-/

namespace OpenXJ380.Device

open Function

structure IdAllocator where
  bitmap : Nat → Bool
  maxIds : Nat
  freeCount : Nat
  nextId : Nat

def idAllocatorCreate (maxIds : Nat) : IdAllocator where
  bitmap := fun _ => false
  maxIds := maxIds
  freeCount := maxIds
  nextId := 0

/-- The `do`-`while` loop; it comes back to `start` after `maxIds` rounds. -/
def idAllocLoop (a : IdAllocator) : Nat → Nat → Option Nat
  | 0, _ => none
  | rounds + 1, id =>
    if a.bitmap id = false then some id
    else if (id + 1) % a.maxIds = a.nextId then none
    else idAllocLoop a rounds ((id + 1) % a.maxIds)

def idAlloc (a : IdAllocator) : IdAllocator × Option Nat :=
  if a.freeCount = 0 then (a, none)
  else
    match idAllocLoop a a.maxIds a.nextId with
    | none => (a, none)
    | some id =>
      ({ a with
          bitmap := update a.bitmap id true
          freeCount := a.freeCount - 1
          nextId := (id + 1) % a.maxIds }, some id)

def idFree (a : IdAllocator) (id : Nat) : IdAllocator × Bool :=
  if a.maxIds ≤ id then (a, false)
  else if a.bitmap id then
    ({ a with bitmap := update a.bitmap id false, freeCount := a.freeCount + 1 }, true)
  else (a, false)

def IdAllocator.free (a : IdAllocator) : Finset Nat := (Finset.range a.maxIds).filter fun id => a.bitmap id = false

structure IdAllocator.Sound (a : IdAllocator) : Prop where
  next : a.nextId < a.maxIds
  above : ∀ id, a.maxIds ≤ id → a.bitmap id = false
  count : a.freeCount = a.free.card

theorem idAllocatorCreate_sound {maxIds : Nat} (hMax : 0 < maxIds) : (idAllocatorCreate maxIds).Sound := by
  constructor
  · exact hMax
  · intro id _
    rfl
  · have hFree : (idAllocatorCreate maxIds).free = Finset.range maxIds := Finset.filter_true_of_mem fun _ _ => rfl
    rw [hFree, Finset.card_range]
    rfl

variable {a : IdAllocator} {id : Nat}

theorem mem_free : id ∈ a.free ↔ id < a.maxIds ∧ a.bitmap id = false := by
  rw [IdAllocator.free, Finset.mem_filter, Finset.mem_range]

theorem idAllocLoop_some {rounds start : Nat} (hStart : start < a.maxIds) (h : idAllocLoop a rounds start = some id) :
    id ∈ a.free := by
  induction rounds generalizing start with
  | zero => cases h
  | succ rounds ih =>
    rw [idAllocLoop] at h
    split at h
    · next hClear =>
      cases h
      exact mem_free.2 ⟨hStart, hClear⟩
    · split at h
      · cases h
      · exact ih (Nat.mod_lt _ ((Nat.zero_le _).trans_lt hStart)) h

theorem idAllocLoop_none {rounds done : Nat} (hNext : a.nextId < a.maxIds) (hRounds : rounds + done = a.maxIds)
    (h : idAllocLoop a rounds ((a.nextId + done) % a.maxIds) = none) :
    ∀ k, done ≤ k → k < a.maxIds → a.bitmap ((a.nextId + k) % a.maxIds) := by
  induction rounds generalizing done with
  | zero => omega
  | succ rounds ih =>
    intro k hFrom hTo
    rw [idAllocLoop] at h
    split at h
    · cases h
    next hTaken =>
    obtain rfl | hLater := Nat.eq_or_lt_of_le hFrom
    · exact eq_true_of_ne_false hTaken
    have hStep : ((a.nextId + done) % a.maxIds + 1) % a.maxIds = (a.nextId + (done + 1)) % a.maxIds := by
      rw [Nat.mod_add_mod, add_assoc]
    rw [hStep] at h
    split at h
    · next hBack =>
      have hMod : (a.nextId + (done + 1)) % a.maxIds = a.nextId % a.maxIds := by rw [hBack, Nat.mod_eq_of_lt hNext]
      have hDvd : a.maxIds ∣ done + 1 := Nat.modEq_zero_iff_dvd.1 (.add_left_cancel' a.nextId hMod)
      exact absurd (Nat.le_of_dvd (Nat.succ_pos done) hDvd) (by omega)
    · exact ih (by omega) h k hLater hTo

theorem idAlloc_none (h : a.Sound) (hNone : (idAlloc a).2 = none) : a.free = ∅ ∧ (idAlloc a).1 = a := by
  rw [idAlloc] at hNone ⊢
  split at hNone
  · next hCount =>
    rw [if_pos hCount]
    exact ⟨Finset.card_eq_zero.1 (h.count ▸ hCount), rfl⟩
  · next hCount =>
    rw [if_neg hCount]
    split at hNone
    · next hLoop =>
      refine ⟨Finset.eq_empty_of_forall_notMem fun id hIn => ?_, rfl⟩
      obtain ⟨hLt, hClear⟩ := mem_free.1 hIn
      have hZero : a.nextId = (a.nextId + 0) % a.maxIds := (Nat.mod_eq_of_lt h.next).symm
      rw [hZero] at hLoop
      have hTaken := idAllocLoop_none h.next (add_zero _) hLoop ((id + (a.maxIds - a.nextId)) % a.maxIds)
        (Nat.zero_le _) (Nat.mod_lt _ (Nat.lt_of_le_of_lt (Nat.zero_le _) hLt))
      have hBack : (a.nextId + (id + (a.maxIds - a.nextId)) % a.maxIds) % a.maxIds = id := by
        have hSum : a.nextId + (id + (a.maxIds - a.nextId)) = id + a.maxIds := by
          have := h.next
          omega
        rw [Nat.add_mod_mod, hSum, Nat.add_mod_right, Nat.mod_eq_of_lt hLt]
      rw [hBack, hClear] at hTaken
      cases hTaken
    · cases hNone

structure Takes (a a' : IdAllocator) (id : Nat) : Prop where
  free : id ∈ a.free
  bitmap : a'.bitmap = update a.bitmap id true
  sound : a'.Sound
  maxIds : a'.maxIds = a.maxIds

theorem idAlloc_some (h : a.Sound) (hSome : (idAlloc a).2 = some id) : Takes a (idAlloc a).1 id := by
  rw [idAlloc] at hSome ⊢
  split at hSome
  · cases hSome
  next hCount =>
  rw [if_neg hCount]
  cases hLoop : idAllocLoop a a.maxIds a.nextId with
  | none =>
    rw [hLoop] at hSome
    cases hSome
  | some found =>
    rw [hLoop] at hSome
    cases hSome
    have hFree := idAllocLoop_some h.next hLoop
    have hMax : 0 < a.maxIds := (Nat.zero_le _).trans_lt h.next
    refine ⟨hFree, rfl, ⟨Nat.mod_lt _ hMax, ?_, ?_⟩, rfl⟩
    · intro k hk
      have hNe : k ≠ id := (Nat.lt_of_lt_of_le (mem_free.1 hFree).1 hk).ne'
      exact (update_of_ne hNe ..).trans (h.above k hk)
    · have hErase : IdAllocator.free
          { a with bitmap := update a.bitmap id true, freeCount := a.freeCount - 1,
                   nextId := (id + 1) % a.maxIds } = a.free.erase id := by
        ext k
        rw [Finset.mem_erase, mem_free, mem_free]
        by_cases hk : k = id
        · subst hk
          simp
        · simp [hk]
      rw [hErase, Finset.card_erase_of_mem hFree, ← h.count]

theorem idFree_sound (h : a.Sound) (id : Nat) : (idFree a id).1.Sound := by
  rw [idFree]
  split
  · exact h
  next hLt =>
  split
  · next hTaken =>
    refine ⟨h.next, ?_, ?_⟩
    · intro k hk
      obtain rfl | hNe := eq_or_ne k id
      · exact update_self ..
      · exact (update_of_ne hNe ..).trans (h.above k hk)
    · have hInsert : IdAllocator.free
          { a with bitmap := update a.bitmap id false, freeCount := a.freeCount + 1 } = insert id a.free := by
        ext k
        rw [Finset.mem_insert, mem_free, mem_free]
        by_cases hk : k = id
        · subst hk
          simp only [update_self, and_true, true_or, iff_true]
          exact not_le.mp hLt
        · simp [hk]
      have hNot : id ∉ a.free := fun hIn => by
        rw [(mem_free.1 hIn).2] at hTaken
        cases hTaken
      rw [hInsert, Finset.card_insert_of_notMem hNot, ← h.count]
  · exact h

theorem idFree_bitmap (h : a.Sound) (id : Nat) : (idFree a id).1.bitmap = update a.bitmap id false := by
  rw [idFree]
  split
  · next hAbove => exact (Function.update_eq_self_iff.2 (h.above id hAbove).symm).symm
  · split
    · rfl
    · next hClear =>
      exact (Function.update_eq_self_iff.2 (eq_false_of_ne_true hClear).symm).symm

/-! # The device table and its nodes (`driver/device.cpp`, `driver/fs/vfs/dev.cpp`)

A device is an entry of `device_ctl`, an identifier of the allocator and a node below
`/dev` whose handle points to the entry. The file systems may look at the table.
-/

open Vfs Errno

inductive DeviceFlag where
  | block
  | stream
  | fb
  deriving DecidableEq

/-- What `read` and `write` point to: the functions for a partition, or a driver's. -/
inductive Driver where
  | partition
  | driver
  deriving DecidableEq

structure DeviceT where
  read : Option Driver
  write : Option Driver
  flag : Int
  size : BitVec 64
  sectorSize : BitVec 64
  type : DeviceFlag
  driveName : Text
  vdiskid : Nat
  path : Option Nat
  maxSize : BitVec 64
  deriving DecidableEq

def DeviceT.zero : DeviceT where
  read := none
  write := none
  flag := 0
  size := 0
  sectorSize := 0
  type := .block
  driveName := []
  vdiskid := 0
  path := none
  maxSize := 0

structure DeviceHandle where
  isDir : Bool
  device : Option Nat
  name : Text
  child : List Nat

/-- The handles of the device file system, and what the other file systems have. -/
structure Store (ψ : Type) where
  handles : Nat → DeviceHandle
  count : Nat
  rest : ψ

variable {ψ : Type}

def Store.set (st : Store ψ) (h : Nat) (handle : DeviceHandle) : Store ψ :=
  { st with handles := Function.update st.handles h handle }

def Store.add (st : Store ψ) (handle : DeviceHandle) : Store ψ := { st.set st.count handle with count := st.count + 1 }

/-- The paths are strings that were allocated and may have been freed, the last one freed first. -/
structure State (ψ : Type) where
  ctl : Nat → DeviceT
  allocator : IdAllocator
  bounce : Nat → Bool
  strings : Nat → Text
  stringCount : Nat
  freed : List Nat
  rootHandle : Option Nat
  devfsRoot : Option NodeId
  vfs : Vfs.State (Store ψ)

abbrev Callbacks (ψ : Type) := (Nat → DeviceT) → Vfs.Env (Store ψ)

def devices : Nat := 256

def State.setDevice (s : State ψ) (i : Nat) (device : DeviceT) : State ψ :=
  { s with ctl := Function.update s.ctl i device }

def deviceManagerInit (s : State ψ) : State ψ :=
  { s with
    ctl := fun i => { s.ctl i with flag := 0 }
    bounce := fun _ => false
    allocator := idAllocatorCreate devices }

def dev : Text := ['/', 'd', 'e', 'v']

def devPath (path : Option Text) : Text :=
  match path with
  | none => dev
  | some path => dev ++ '/' :: path

/-- A handle for the entry, at the end of the list of the directory, and a node for the handle. -/
def appendDevice (device : DeviceT) (id : Nat) (node : NodeId) (parent : Nat) (vfs : Vfs.State (Store ψ)) :
    Vfs.State (Store ψ) :=
  let st := vfs.tree.store
  let handle : DeviceHandle := { isDir := false, device := some id, name := device.driveName, child := [] }
  let directory := st.handles parent
  let st' := (st.add handle).set parent { directory with child := directory.child ++ [st.count] }
  let child := vfs.tree.allocated
  let vfs := (vfs.withTree { vfs.tree with store := st' }).alloc node device.driveName
  vfs.withTree (vfs.tree.set child { vfs.tree.nodes child with handle := some st.count })

def devfsRegister0 (env : Callbacks ψ) (path : Option Text) (id : Nat) (s : State ψ) : State ψ × Int :=
  match vfsOpen (env s.ctl) (devPath path) s.vfs with
  | (vfs, none) => ({ s with vfs }, ENOENT)
  | (vfs, some node) =>
    match (vfs.tree.nodes node).handle with
    | none => ({ s with vfs := vfsClose (env s.ctl) vfs node }, ENODEV)
    | some parent =>
      if (vfs.tree.store.handles parent).isDir = false then
        ({ s with vfs := vfsClose (env s.ctl) vfs node }, ENOTDIR)
      else ({ s with vfs := vfsClose (env s.ctl) (appendDevice (s.ctl id) id node parent vfs) node }, EOK)

def State.pathText (s : State ψ) (i : Nat) : Option Text := (s.ctl i).path.map s.strings

/-- `strdup` of the path for the entry. -/
def State.setPath (s : State ψ) (id : Nat) (path : Option Text) : State ψ :=
  match path with
  | none => s.setDevice id { s.ctl id with path := none }
  | some path =>
    { s.setDevice id { s.ctl id with path := some s.stringCount } with
      strings := Function.update s.strings s.stringCount path
      stringCount := s.stringCount + 1 }

def devfsRegister (env : Callbacks ψ) (path : Option Text) (id : Nat) (s : State ψ) : State ψ × Int :=
  let s := s.setPath id path
  if s.devfsRoot = none then (s, EOK) else devfsRegister0 env (s.pathText id) id s

def devfsMount (env : Callbacks ψ) (node : NodeId) (s : State ψ) : State ψ :=
  let t := s.vfs.tree
  let root := s.rootHandle.getD t.store.count
  let st := if s.rootHandle = none then t.store.add { isDir := true, device := none, name := [], child :=
    [] } else t.store
  let t := { t.set node { t.nodes node with handle := some root } with store := st }
  let s := { s with vfs := s.vfs.withTree t, rootHandle := some root, devfsRoot := some node }
  (List.range devices).foldl (fun s i => (devfsRegister0 env (s.pathText i) i s).1) s

/-- `vfs_free`, which closes a node and frees it after those below it. -/
def vfsFree (env : Vfs.Env (Store ψ)) : Nat → NodeId → Vfs.State (Store ψ) → Vfs.State (Store ψ)
  | 0, _, s => s
  | depth + 1, node, s =>
    let child := (s.tree.nodes node).child
    let s := s.withTree (s.tree.set node { s.tree.nodes node with child := [] })
    (vfsClose env (child.foldl (fun s c => vfsFree env depth c s) s) node).free node

/-- Nothing is returned where the code follows a pointer to the directory above the root. -/
def devfsDelete (env : Callbacks ψ) (path : Text) (s : State ψ) : Option (State ψ) :=
  match vfsOpen (env s.ctl) (devPath (some path)) s.vfs with
  | (vfs, none) => some { s with vfs }
  | (vfs, some node) =>
    match (vfs.tree.nodes node).parent with
    | none => none
    | some _ =>
      let vfs := vfsFree (env s.ctl) (vfs.tree.allocated + 1) node (vfs.withTree (vfs.tree.unlist node))
      some { s with vfs }

/-- What `regist_device` returns, and whether the device is a disk that it has scanned for partitions. -/
structure Registered where
  id : Option Nat
  scanned : Bool

def registDevice (env : Callbacks ψ) (path : Option Text) (vd : DeviceT) (s : State ψ) : State ψ × Registered :=
  match idAlloc s.allocator with
  | (allocator, none) => ({ s with allocator }, ⟨none, false⟩)
  | (allocator, some i) =>
    let r := devfsRegister env path i ({ s with allocator }.setDevice i { vd with vdiskid := i })
    (r.1, ⟨some i, r.2 = EOK ∧ (r.1.ctl i).type = .block⟩)

def dropNode (env : Callbacks ψ) (device : DeviceT) (s : State ψ) : Option (State ψ) :=
  match device.path with
  | some path => (devfsDelete env (s.strings path) s).map fun s => { s with freed := path :: s.freed }
  | none => if device.driveName = [] then some s else devfsDelete env device.driveName s

/-- `locked` says that the buffer of the device is in use. The fields that are cleared at the end are those of a copy of
the entry. Nothing is returned where the code looks in front of the table. -/
def deleteDevice (env : Callbacks ψ) (vdiskid : Int) (locked : Bool) (s : State ψ) : Option (State ψ) :=
  if (devices : Int) ≤ vdiskid then some s
  else if vdiskid < 0 then none
  else
    let i := vdiskid.toNat
    let s := if locked then s else { s with bounce := Function.update s.bounce i false }
    let dev := s.ctl i
    (dropNode env dev s).map fun s => { s with allocator := (idFree s.allocator dev.vdiskid).1 }

def haveVdisk (ctl : Nat → DeviceT) (drive : Int) : Bool := drive < devices ∧ 0 < (ctl drive.toNat).flag

def getDevice (ctl : Nat → DeviceT) (id : Nat) : Option DeviceT := if (ctl id).flag = 0 then none else some (ctl id)

end OpenXJ380.Device
