import OpenXJ380.Tmpfs.Contents
import OpenXJ380.Tmpfs.Model

/-! # Files that are deleted while they are open (`driver/fs/vfs/vfs.cpp`, `driver/fs/vfs/tmpfs.cpp`)

The node of a file that others have open stays when the file is deleted. The file system takes its handle away
at once, and with it what the file contains.
-/

namespace OpenXJ380.Tmpfs

open Vfs

structure Files where
  state : State Store
  content : EntryId → Content

def Files.withTree (x : Files) (t : Vfs.Tree Store) : Files := { x with state := x.state.withTree t }

/-- The callbacks of a file system that are about what files contain. They take the handle of the file. -/
structure DataCallback where
  read : Files → Option EntryId → Nat → Nat → Int × List Byte
  write : (Nat → Bool) → Files → Option EntryId → Nat → List Byte → Files × Int
  resize : (Nat → Bool) → Files → Option EntryId → Nat → Files

structure FileEnv extends DirEnv Store where
  data : Nat → DataCallback

def Files.setContent (x : Files) (e : EntryId) (content : Content) : Files :=
  { x with content := Function.update x.content e content }

def tmpfsDataCallbacks : DataCallback where
  read x file offset size :=
    match file with
    | none => (vfsStatusFailed, [])
    | some e => tmpfsRead (x.content e) offset size
  write realloc x file offset bytes :=
    match file with
    | none => (x, vfsStatusFailed)
    | some e =>
      let r := tmpfsWrite realloc (x.content e) offset bytes
      (x.setContent e r.1, r.2)
  resize realloc x file size :=
    match file with
    | none => x
    | some e => x.setContent e (tmpfsResize realloc (x.content e) size)

def Files.update (env : FileEnv) (x : Files) (file : NodeId) : Files :=
  x.withTree (doUpdate env.toEnv x.state.tree file)

def Files.node (x : Files) (file : NodeId) : VfsNode := x.state.tree.nodes file

def vfsRead (env : FileEnv) (file : NodeId) (offset size : Nat) (x : Files) : Files × Int × List Byte :=
  let x := x.update env file
  if (x.node file).type = fileDir then (x, vfsStatusFailed, [])
  else (x, (env.data (x.node file).fsid).read x (x.node file).handle offset size)

def vfsWrite (env : FileEnv) (realloc : Nat → Bool) (file : NodeId) (offset : Nat) (bytes : List Byte) (x : Files) :
    Files × Int :=
  let x := x.update env file
  if (x.node file).type = fileDir then (x, vfsStatusFailed)
  else
    let r := (env.data (x.node file).fsid).write realloc x (x.node file).handle offset bytes
    (r.1.update env file, r.2)

def vfsResize (env : FileEnv) (realloc : Nat → Bool) (file : NodeId) (size : Nat) (x : Files) : Files × Int :=
  let x := x.update env file
  if (x.node file).type = fileDir then (x, vfsStatusFailed)
  else
    let x := (env.data (x.node file).fsid).resize realloc x (x.node file).handle size
    (x.update env file, vfsStatusSuccess)

inductive Use where
  | read (offset size : Nat)
  | write (realloc : Nat → Bool) (offset : Nat) (bytes : List Byte)
  | resize (realloc : Nat → Bool) (size : Nat)

def Use.run (env : FileEnv) (file : NodeId) (x : Files) : Use → Files × Int × List Byte
  | .read offset size => vfsRead env file offset size x
  | .write realloc offset bytes =>
    let r := vfsWrite env realloc file offset bytes x
    (r.1, r.2, [])
  | .resize realloc size =>
    let r := vfsResize env realloc file size x
    (r.1, r.2, [])

def outcomes (env : FileEnv) (file : NodeId) : List Use → Files → List (Int × List Byte)
  | [], _ => []
  | use :: rest, x => (use.run env file x).2 :: outcomes env file rest (use.run env file x).1

def Files.delete (env : FileEnv) (file : NodeId) (x : Files) : Files × Int :=
  let r := vfsDelete env.toDirEnv (some file) x.state
  ({ x with state := r.1 }, r.2)

/-- What is done with a deleted file goes as if it had not been deleted, and its paths lead nowhere. -/
structure StaysUsable (env : FileEnv) (file : NodeId) (x : Files) : Prop where
  uses : ∀ uses, outcomes env file uses (x.delete env file).1 = outcomes env file uses x
  path : ∀ path, (vfsOpen env.toEnv path x.state).2 = some file →
    (vfsOpen env.toEnv path (x.delete env file).1.state).2 = none

/-- A file of the file system that has been opened. It is in its directory, and the one who deletes it is not the only
one with a reference. -/
structure OpenFile (tmpfsId : Nat) (x : Files) (file : NodeId) (e : EntryId) : Prop where
  type : (x.node file).type = fileNone
  fsid : (x.node file).fsid = tmpfsId
  handle : (x.node file).handle = some e
  found : tmpfsFindByNode x.state.tree.store file = some e
  isFile : (x.state.tree.store.entry e).isDir = false
  content : (x.content e).isDir = false
  parent : ∃ parent, (x.node file).parent = some parent
  notRoot : file ≠ x.state.tree.rootdir
  held : 3 ≤ x.state.refcount file

structure ServesData (tmpfsId : Nat) (env : FileEnv) : Prop extends Serves tmpfsId env.toDirEnv where
  data : env.data tmpfsId = tmpfsDataCallbacks

section

variable {tmpfsId : Nat} {env : FileEnv} {x : Files} {file : NodeId} {e : EntryId}

theorem plain_file {node : VfsNode} (h : node.type = fileNone ∨ node.type = fileNone ||| fileDelete) :
    node.is fileSymlink = false ∧ node.is fileNone := by
  rw [VfsNode.is, VfsNode.is]
  obtain h | h := h
  · rw [h]
    decide
  · rw [h]
    decide

theorem doUpdate_of_none {t : Vfs.Tree Store} (hLink : (t.nodes file).is fileSymlink = false)
    (hNone : (t.nodes file).is fileNone) : doUpdate env.toEnv t file = doOpen env.toEnv t file := by
  simp only [doUpdate, hLink, hNone, Bool.false_eq_true, false_and, if_false, true_or, if_true]

theorem OpenFile.update (hEnv : ServesData tmpfsId env) (h : OpenFile tmpfsId x file e) :
    x.update env file = x.withTree (tmpfsApply tmpfsId x.state.tree e file) := by
  have hType : (x.state.tree.nodes file).type = fileNone := h.type
  have hHandle : (x.state.tree.nodes file).handle = some e := h.handle
  have hFsid : (x.state.tree.nodes file).fsid = tmpfsId := h.fsid
  obtain ⟨hLink, hNone⟩ := plain_file (.inl hType)
  have hDelete : (x.state.tree.nodes file).is fileDelete = false := by
    rw [VfsNode.is, hType]
    decide
  have hCall : openCallback env.toEnv x.state.tree file = some (tmpfsApply tmpfsId x.state.tree e file) := by
    rw [openCallback, if_pos (by rw [hHandle]; rfl), callbackof, hFsid, hEnv.callbacks]
    change some (tmpfsStat tmpfsId x.state.tree file) = _
    rw [tmpfsStat, hHandle]
  rw [Files.update, doUpdate_of_none hLink hNone]
  simp only [doOpen, hCall, hDelete, Bool.false_eq_true, if_false]

structure Gone (tmpfsId : Nat) (x : Files) (file : NodeId) : Prop where
  type : (x.node file).type = fileNone ||| fileDelete
  fsid : (x.node file).fsid = tmpfsId
  handle : (x.node file).handle = none
  parent : (x.node file).parent = none

theorem Gone.update (h : Gone tmpfsId x file) : x.update env file = x := by
  have hType : (x.state.tree.nodes file).type = fileNone ||| fileDelete := h.type
  obtain ⟨hLink, hNone⟩ := plain_file (.inr hType)
  have hCall : openCallback env.toEnv x.state.tree file = none := by
    have hHandle : (x.state.tree.nodes file).handle = none := h.handle
    have hParent : (x.state.tree.nodes file).parent = none := h.parent
    rw [openCallback, if_neg (by rw [hHandle]; exact nofun), hParent]
  rw [Files.update, doUpdate_of_none hLink hNone, doOpen, hCall]
  rfl

theorem OpenFile.delCallback (hEnv : ServesData tmpfsId env) (h : OpenFile tmpfsId x file e) (parent : NodeId) :
    Vfs.delCallback env.toDirEnv (x.state.tree.setType file ((x.node file).type ||| fileDelete)) parent file =
      ((withStore (x.state.tree.setType file ((x.node file).type ||| fileDelete))
        (tmpfsUnlinkEntry x.state.tree.store e)).clearHandle file, vfsStatusSuccess) := by
  let t := x.state.tree.setType file ((x.node file).type ||| fileDelete)
  have hNode : t.nodes file = { x.node file with type := (x.node file).type ||| fileDelete } := Function.update_self ..
  have hHandle : (t.nodes file).handle = some e := by rw [hNode, ← h.handle]
  have hFsid : (t.nodes file).fsid = tmpfsId := by rw [hNode, ← h.fsid]
  have hType : (t.nodes file).type = fileNone ||| fileDelete := by
    rw [hNode, ← h.type]
  have hLink := (plain_file (.inr hType)).1
  have hPlain : notLinked (t.nodes file) := by
    rw [notLinked, hLink]
    rfl
  have hDelete : tmpfsDelete t file =
      ((withStore t (tmpfsUnlinkEntry x.state.tree.store e)).clearHandle file, vfsStatusSuccess) := by
    have hFound : tmpfsFindByNode t.store file = some e := h.found
    have hFile : ¬((t.store.entry e).isDir ∧ tmpfsHasChild t.store e) := by
      rintro ⟨hDir, -⟩
      exact Bool.false_ne_true (h.isFile.symm.trans hDir)
    rw [tmpfsDelete, hFound]
    exact if_neg hFile
  change Vfs.delCallback env.toDirEnv t parent file = _
  simp only [Vfs.delCallback, hHandle, reduceCtorEq, if_false, hPlain, Bool.true_eq_false, hFsid, hEnv.dirs]
  exact hDelete

theorem detached (t : Vfs.Tree Store) (parent file : NodeId) {t' : Vfs.Tree Store}
    (hList : t' = t.set parent { t.nodes parent with child := (t.nodes parent).child.erase file }) :
    (t'.nodes file).type = (t.nodes file).type ∧ (t'.nodes file).fsid = (t.nodes file).fsid ∧
      (t'.nodes file).handle = (t.nodes file).handle := by
  rw [hList, Tree.set]
  by_cases hSame : file = parent
  · subst hSame
    simp only [Function.update_self, and_self]
  · simp only [Function.update_of_ne hSame, and_self]

theorem OpenFile.delete (hEnv : ServesData tmpfsId env) (h : OpenFile tmpfsId x file e) :
    (x.delete env file).2 = vfsStatusSuccess ∧ Gone tmpfsId (x.delete env file).1 file ∧
      (x.delete env file).1.state.freed = x.state.freed := by
  obtain ⟨parent, hParent⟩ := h.parent
  have hParent : (x.state.tree.nodes file).parent = some parent := hParent
  have hType : (x.state.tree.nodes file).type = fileNone := h.type
  have hGo : ¬(file = x.state.tree.rootdir ∨ (x.state.tree.nodes file).is fileDelete ∨
      ((x.state.tree.nodes file).is fileDir ∧ (x.state.tree.nodes file).child ≠ [])) := by
    rw [VfsNode.is, VfsNode.is, hType]
    rintro (hRoot | hDelete | ⟨hDir, -⟩)
    · exact h.notRoot hRoot
    · exact absurd hDelete (by decide)
    · exact absurd hDir (by decide)
  -- the reference of somebody else is left
  have hCount : ∀ t, ((((x.state.withTree t).unref file).unref file).refcount file = 0) = False := by
    intro t
    refine eq_false ?_
    change Function.update (Function.update x.state.refcount file (x.state.refcount file - 1)) file
      (Function.update x.state.refcount file (x.state.refcount file - 1) file - 1) file ≠ 0
    rw [Function.update_self, Function.update_self]
    have hHeld := h.held
    omega
  have hSuccess : ¬vfsStatusSuccess < 0 := by decide
  have hDel := h.delCallback hEnv parent
  rw [Files.node] at hDel
  generalize hTree : (withStore (x.state.tree.setType file ((x.state.tree.nodes file).type ||| fileDelete))
    (tmpfsUnlinkEntry x.state.tree.store e)).clearHandle file = t at hDel
  have hNode : t.nodes file = { x.node file with type := (x.node file).type ||| fileDelete, handle := none } := by
    rw [← hTree, Tree.clearHandle, withStore, Tree.setType, Tree.set, Tree.set]
    simp only [Function.update_self]
    rfl
  obtain ⟨t', hList⟩ :
      ∃ t', t' = t.set parent { t.nodes parent with child := (t.nodes parent).child.erase file } := ⟨_, rfl⟩
  obtain ⟨hKind, hFsid, hHandle⟩ := detached t parent file hList
  rw [hNode] at hKind hFsid hHandle
  have hDeleted : vfsDelete env.toDirEnv (some file) x.state =
      (((x.state.withTree (t'.set file { t'.nodes file with parent := none })).unref file).unref file,
        vfsStatusSuccess) := by
    rw [hList]
    simp only [vfsDelete, hGo, if_false, hParent, hDel, hSuccess, dropDeleted, hCount]
  rw [Files.delete, hDeleted]
  have hLast : (t'.set file { t'.nodes file with parent := none }).nodes file = { t'.nodes file with parent := none } :=
    Function.update_self ..
  refine ⟨rfl, ⟨?_, ?_, ?_, ?_⟩, rfl⟩
  · exact (congrArg VfsNode.type hLast).trans (hKind.trans (by rw [← h.type]))
  · exact (congrArg VfsNode.fsid hLast).trans (hFsid.trans h.fsid)
  · exact (congrArg VfsNode.handle hLast).trans hHandle
  · exact congrArg VfsNode.parent hLast

theorem tmpfsRead_nonneg {entry : Content} (hFile : entry.isDir = false) (offset size : Nat) :
    0 ≤ (tmpfsRead entry offset size).1 := by
  rw [tmpfsRead, hFile, if_neg Bool.false_ne_true]
  split
  · exact Int.le_refl 0
  · exact Int.natCast_nonneg _

theorem OpenFile.vfsRead (hEnv : ServesData tmpfsId env) (h : OpenFile tmpfsId x file e) (offset size : Nat) :
    (Tmpfs.vfsRead env file offset size x).2 = tmpfsRead (x.content e) offset size := by
  have hNode : (x.withTree (tmpfsApply tmpfsId x.state.tree e file)).node file =
      { x.node file with handle := some e, fsid := tmpfsId, type := fileNone } := by
    refine (Function.update_self ..).trans ?_
    rw [h.isFile]
    rfl
  have hType : ¬fileNone = fileDir := by decide
  rw [Tmpfs.vfsRead, h.update hEnv]
  simp only [hNode, hType, if_false, hEnv.data]
  rfl

theorem Gone.vfsRead (hEnv : ServesData tmpfsId env) (h : Gone tmpfsId x file) (offset size : Nat) :
    (Tmpfs.vfsRead env file offset size x).2 = (vfsStatusFailed, []) := by
  rw [Tmpfs.vfsRead, h.update]
  simp only [h.handle, h.fsid, hEnv.data]
  split
  · rfl
  · rfl

/-- Deleting a file that somebody else has open succeeds and keeps its node, but every read of it fails from then
on, which no read did before. -/
theorem vfsDelete_not_usable (hEnv : ServesData tmpfsId env) (h : OpenFile tmpfsId x file e) :
    (x.delete env file).2 = vfsStatusSuccess ∧ (x.delete env file).1.state.freed = x.state.freed ∧
      (∀ offset size, (vfsRead env file offset size (x.delete env file).1).2 = (vfsStatusFailed, []) ∧
        0 ≤ (vfsRead env file offset size x).2.1) ∧ ¬StaysUsable env file x := by
  obtain ⟨hSuccess, hGone, hFreed⟩ := h.delete hEnv
  have hReads : ∀ offset size, (vfsRead env file offset size (x.delete env file).1).2 = (vfsStatusFailed, []) ∧
      0 ≤ (vfsRead env file offset size x).2.1 := by
    intro offset size
    refine ⟨hGone.vfsRead hEnv offset size, ?_⟩
    rw [h.vfsRead hEnv]
    exact tmpfsRead_nonneg h.content offset size
  refine ⟨hSuccess, hFreed, hReads, fun hUsable => ?_⟩
  obtain ⟨hAfter, hBefore⟩ := hReads 0 0
  have hSame : [(vfsRead env file 0 0 (x.delete env file).1).2] = [(vfsRead env file 0 0 x).2] :=
    hUsable.uses [.read 0 0]
  rw [← (List.cons.inj hSame).1, hAfter] at hBefore
  exact absurd hBefore (by decide)

end

def tmpfsEnv : FileEnv where
  callbacks _ := tmpfsCallbacks 1
  vfsAlias _ := none
  memory _ _ := true
  dirs _ := tmpfsDirCallbacks 1
  data _ := tmpfsDataCallbacks

/-- A file `a` with the bytes 7 and 8 in a directory of the root, which has been opened twice. -/
def twoBytes : Files where
  state :=
    { tree :=
        { nodes := fun n =>
            if n = 0 then ⟨none, none, some ['/'], none, fileDir, 0, none, [1]⟩
            else if n = 1 then ⟨some 0, none, some tmpName, none, fileDir, 1, some 0, [2]⟩
            else ⟨some 1, none, some ['a'], none, fileNone, 1, some 1, []⟩
          rootdir := 0
          allocated := 3
          store :=
            { entry := fun e => if e = 0 then ⟨1, none, tmpName, true⟩ else ⟨2, some 0, ['a'], false⟩
              entries := [1, 0]
              allocated := 2 } }
      refcount := fun _ => 3
      freed := fun _ => false }
  content := fun _ => (tmpfsWrite (fun _ => true) newFile 0 [7, 8]).1

theorem tmpfsEnv_serves : ServesData 1 tmpfsEnv where
  callbacks := rfl
  dirs := rfl
  data := rfl

theorem twoBytes_open : OpenFile 1 twoBytes 2 1 where
  type := rfl
  fsid := rfl
  handle := rfl
  found := by decide
  isFile := rfl
  content := by decide
  parent := ⟨1, rfl⟩
  notRoot := by decide
  held := by decide

theorem vfsDelete_not_usable_twoBytes : ¬StaysUsable tmpfsEnv 2 twoBytes :=
  (vfsDelete_not_usable tmpfsEnv_serves twoBytes_open).2.2.2

/-- The bytes can be read before the file is deleted through one reference, and not after it through the other. -/
theorem vfsRead_after_delete :
    (vfsRead tmpfsEnv 2 0 2 twoBytes).2 = (2, [7, 8]) ∧
      (vfsRead tmpfsEnv 2 0 2 (twoBytes.delete tmpfsEnv 2).1).2 = (vfsStatusFailed, []) ∧
        (twoBytes.delete tmpfsEnv 2).1.state.freed 2 = false ∧ ¬StaysUsable tmpfsEnv 2 twoBytes := by
  have hBefore : (vfsRead tmpfsEnv 2 0 2 twoBytes).2 = (2, [7, 8]) := by decide
  have hAfter : (vfsRead tmpfsEnv 2 0 2 (twoBytes.delete tmpfsEnv 2).1).2 = (vfsStatusFailed, []) := by decide
  refine ⟨hBefore, hAfter, by decide, fun hUsable => ?_⟩
  have hSame : [(vfsRead tmpfsEnv 2 0 2 (twoBytes.delete tmpfsEnv 2).1).2] = [(vfsRead tmpfsEnv 2 0 2 twoBytes).2] :=
    hUsable.uses [.read 0 2]
  rw [hBefore, hAfter] at hSame
  exact absurd hSame (by decide)

end OpenXJ380.Tmpfs
