import OpenXJ380.Errno
import OpenXJ380.Lib.Transition
import OpenXJ380.Vfs.Model

/-! # Files in memory (`driver/fs/vfs/tmpfs.cpp`)

One list has the entries of every directory. An entry knows the node it is shown by,
the entry of its directory and its name.
-/

namespace OpenXJ380.Tmpfs

section

open Errno Transition Vfs

abbrev EntryId := Nat

structure Entry where
  node : NodeId
  parent : Option EntryId
  name : Text
  isDir : Bool

/-- `tmpfs_entries`, and a bound on how many entries there have been. -/
structure Store where
  entry : EntryId → Entry
  entries : List EntryId
  allocated : Nat

def Store.set (fs : Store) (e : EntryId) (entry : Entry) : Store :=
  { fs with entry := Function.update fs.entry e entry }

def tmpfsFindByNode (fs : Store) (node : NodeId) : Option EntryId := fs.entries.find? fun e => (fs.entry e).node = node

def tmpfsFindChild (fs : Store) (parent : Option EntryId) (name : Text) : Option EntryId :=
  match parent with
  | none => none
  | some p => fs.entries.find? fun e => (fs.entry e).parent = some p ∧ (fs.entry e).name = name

/-- The new entry is `fs.allocated`, and the first of the list. -/
def tmpfsAllocEntry (fs : Store) (node : NodeId) (parent : Option EntryId) (name : Text) (isDir : Bool) : Store where
  entry := Function.update fs.entry fs.allocated ⟨node, parent, name, isDir⟩
  entries := fs.allocated :: fs.entries
  allocated := fs.allocated + 1

def tmpfsUnlinkEntry (fs : Store) (target : EntryId) : Store := { fs with entries := fs.entries.erase target }

def tmpfsHasChild (fs : Store) (parent : EntryId) : Bool := fs.entries.any fun e => (fs.entry e).parent = some parent

def withStore (t : Vfs.Tree Store) (fs : Store) : Vfs.Tree Store := { t with store := fs }

variable (tmpfsId : Nat)

/-- The handle of the node is set, and `tmpfs_apply_stat`. -/
def tmpfsApply (t : Vfs.Tree Store) (e : EntryId) (node : NodeId) : Vfs.Tree Store :=
  t.set node
    { t.nodes node with
      handle := some e
      fsid := tmpfsId
      type := if (t.store.entry e).isDir then fileDir else fileNone }

def tmpfsStat (t : Vfs.Tree Store) (node : NodeId) : Vfs.Tree Store :=
  match (t.nodes node).handle with
  | none => t
  | some e => tmpfsApply tmpfsId t e node

def tmpfsOpen (t : Vfs.Tree Store) (node : NodeId) : Vfs.Tree Store :=
  match tmpfsFindByNode t.store node with
  | some e => tmpfsApply tmpfsId t e node
  | none =>
    let parent := (t.nodes node).parent.bind fun parent => (t.nodes parent).handle
    match (t.nodes node).name.bind (tmpfsFindChild t.store parent) with
    | none => t
    | some e => tmpfsApply tmpfsId (withStore t (t.store.set e { t.store.entry e with node := node })) e node

/-- `tmpfs_mkdir` and `tmpfs_mkfile`. -/
def tmpfsMake (isDir : Bool) (t : Vfs.Tree Store) (parent : Option EntryId) (name : Text) (node : NodeId) :
    Vfs.Tree Store × Int :=
  match parent with
  | none => (t, vfsStatusFailed)
  | some p =>
    if (t.store.entry p).isDir = false ∨ (tmpfsFindChild t.store parent name).isSome then (t, vfsStatusFailed)
    else
      (tmpfsApply tmpfsId (withStore t (tmpfsAllocEntry t.store node parent name isDir)) t.store.allocated node,
        vfsStatusSuccess)

def tmpfsMkdir := tmpfsMake tmpfsId true

def tmpfsMkfile := tmpfsMake tmpfsId false

def tmpfsDelete (t : Vfs.Tree Store) (node : NodeId) : Vfs.Tree Store × Int :=
  match tmpfsFindByNode t.store node with
  | none => (t, -ENOENT)
  | some e =>
    if (t.store.entry e).isDir ∧ tmpfsHasChild t.store e then (t, -ENOTEMPTY)
    else ((withStore t (tmpfsUnlinkEntry t.store e)).clearHandle node, vfsStatusSuccess)

def tmpfsRename (t : Vfs.Tree Store) (current : Option EntryId) (nw : Text) : Vfs.Tree Store × Int :=
  match current with
  | none => (t, vfsStatusFailed)
  | some e =>
    let newName := baseName nw
    if newName = [] then (t, vfsStatusFailed)
    else if tmpfsFindChild t.store (t.store.entry e).parent newName ∉ [none, some e] then (t, -EEXIST)
    else
      let t := withStore t (t.store.set e { t.store.entry e with name := newName })
      let node := (t.store.entry e).node
      (t.set node { t.nodes node with name := some newName }, vfsStatusSuccess)

def tmpfsCallbacks : VfsCallback Store where
  stat := tmpfsStat tmpfsId
  opening := tmpfsOpen tmpfsId
  close t _ := t
  del t node := (tmpfsDelete t node).1
  readlink _ _ := none

def tmpfsDirCallbacks : DirCallback Store where
  mkdir := tmpfsMkdir tmpfsId
  mkfile := tmpfsMkfile tmpfsId
  del t _ node := tmpfsDelete t node
  rename := tmpfsRename

structure Serves (env : DirEnv Store) : Prop where
  callbacks : env.callbacks tmpfsId = tmpfsCallbacks tmpfsId
  dirs : env.dirs tmpfsId = tmpfsDirCallbacks tmpfsId

end

/-! # A tree of names

What the file system is for: a map from absolute paths to directories and files. Paths are
read from the mount point on, which is a directory of the root.
-/

open Transition Vfs

def tmpName : Text := ['t', 'm', 'p']

end OpenXJ380.Tmpfs
