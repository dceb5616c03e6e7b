import Mathlib.Logic.Function.Basic

/-! # Opening and closing files (`driver/fs/vfs/vfs.cpp`)

The nodes, the state of the file systems below them, the references and what has
been freed. A file system is a table of callbacks over the nodes and its state.
-/

namespace OpenXJ380.Vfs

open Function

section

abbrev NodeId := Nat

abbrev Text := List Char

def fileNone : BitVec 16 := 0x1
def fileDir : BitVec 16 := 0x2
def fileSymlink : BitVec 16 := 0x10
def filePipe : BitVec 16 := 0x100
def fileSocket : BitVec 16 := 0x200
def fileEpoll : BitVec 16 := 0x400
def filePtmx : BitVec 16 := 0x800
def filePts : BitVec 16 := 0x1000
def fileProxy : BitVec 16 := 0x2000
def fileDelete : BitVec 16 := 0x4000

structure VfsNode where
  parent : Option NodeId
  linkto : Option NodeId
  name : Option Text
  linkname : Option Text
  type : BitVec 16
  fsid : Nat
  handle : Option Nat
  child : List NodeId

def VfsNode.is (n : VfsNode) (type : BitVec 16) : Bool := n.type &&& type ≠ 0

variable {φ : Type}

/-- The nodes, the root, a bound on how many there are, and the state of the file systems. -/
structure Tree (φ : Type) where
  nodes : NodeId → VfsNode
  rootdir : NodeId
  allocated : Nat
  store : φ

structure State (φ : Type) where
  tree : Tree φ
  refcount : NodeId → Nat
  freed : NodeId → Bool

structure VfsCallback (φ : Type) where
  stat : Tree φ → NodeId → Tree φ
  opening : Tree φ → NodeId → Tree φ
  close : Tree φ → NodeId → Tree φ
  del : Tree φ → NodeId → Tree φ
  readlink : Tree φ → NodeId → Option Text

/-- What opening a path depends on besides the nodes; `memory` says whether there is memory for a path. -/
structure Env (φ : Type) where
  callbacks : Nat → VfsCallback φ
  vfsAlias : Text → Option Text
  memory : Nat → Text → Bool

def Tree.set (t : Tree φ) (n : NodeId) (node : VfsNode) : Tree φ := { t with nodes := update t.nodes n node }

/-- `pathtok`: the next component, and where the search goes on. -/
def pathtok (sp : Text) : Option (Text × Text) :=
  let s := sp.dropWhile (· = '/')
  if s = [] then none
  else
    let e := s.dropWhile (· ≠ '/')
    some (s.takeWhile (· ≠ '/'), if e.head? = some '/' then e.tail else e)

def tokens : Nat → Text → List (Text × Bool)
  | 0, _ => []
  | rounds + 1, sp =>
    match pathtok sp with
    | none => []
    | some (buf, rest) => (buf, rest = []) :: tokens rounds rest

/-- What `pathtok` returns one after the other, and whether nothing is left of the path. -/
def pathTokens (path : Text) : List (Text × Bool) := tokens path.length path

def dot : Text := ['.']

def dotDot : Text := ['.', '.']

def normalizeStep (result token : Text) : Text :=
  if token = dot then result
  else if token = dotDot then
    let before := (result.reverse.dropWhile (· ≠ '/')).tail.reverse
    if before = [] then ['/'] else before
  else (if result.getLast? = some '/' then result else result ++ ['/']) ++ token

def normalizePath (path : Text) : Text := ((pathTokens path).map Prod.fst).foldl normalizeStep ['/']

def vfsChildFind (t : Tree φ) (parent : NodeId) (name : Text) : Option NodeId :=
  (t.nodes parent).child.find? fun c => !(t.nodes c).is fileDelete && (t.nodes c).name = some name

def callbackof (env : Env φ) (t : Tree φ) (n : NodeId) : VfsCallback φ := env.callbacks (t.nodes n).fsid

/-- The callback of `do_open`, if there is one to call. -/
def openCallback (env : Env φ) (t : Tree φ) (file : NodeId) : Option (Tree φ) :=
  if (t.nodes file).handle.isSome then some ((callbackof env t file).stat t file)
  else
    match (t.nodes file).parent with
    | none => none
    | some parent => if (t.nodes parent).handle.isNone then none else some ((callbackof env t file).opening t file)

def doOpen (env : Env φ) (t : Tree φ) (file : NodeId) : Tree φ :=
  match openCallback env t file with
  | none => t
  | some t' =>
    if (t.nodes file).is fileDelete then t'.set file { t'.nodes file with type := (t'.nodes file).type ||| fileDelete }
    else t'

def doUpdate (env : Env φ) (t : Tree φ) (file : NodeId) : Tree φ :=
  let n := t.nodes file
  if n.is fileSymlink ∧ n.linkname.isSome then t
  else if n.is fileNone ∨ n.handle.isNone ∨ n.is fileDir ∨ n.is fileSymlink ∨ n.is filePipe then doOpen env t file
  else t

def vfsReadlink (env : Env φ) (t : Tree φ) (n : NodeId) (bufsize : Nat) : Option Text :=
  match (t.nodes n).linkname with
  | some linkname => some (linkname.take bufsize)
  | none => (callbackof env t n).readlink t n

def ancestors (t : Tree φ) : Nat → NodeId → List NodeId
  | 0, _ => []
  | rounds + 1, n =>
    n :: match (t.nodes n).parent with
      | none => []
      | some parent => ancestors t rounds parent

def pathName (t : Tree φ) (n : NodeId) : Text := if n = t.rootdir then [] else (t.nodes n).name.getD []

def vfsGetFullpath (t : Tree φ) (n : NodeId) : Option Text :=
  let nodes := ancestors t t.allocated n
  if nodes.any fun m => m ≠ t.rootdir ∧ (t.nodes m).name = none then none
  else
    some ('/' :: (nodes.tail.reverse.flatMap fun m => if m = t.rootdir then [] else pathName t m ++ ['/']) ++ pathName t n)

def State.ref (s : State φ) (n : NodeId) : State φ :=
  { s with refcount := update s.refcount n (s.refcount n + 1) }

/-- `if (node->refcount > 0) node->refcount--`. -/
def State.unref (s : State φ) (n : NodeId) : State φ :=
  { s with refcount := update s.refcount n (s.refcount n - 1) }

def State.free (s : State φ) (n : NodeId) : State φ := { s with freed := update s.freed n true }

def State.withTree (s : State φ) (t : Tree φ) : State φ := { s with tree := t }

def Tree.clearHandle (t : Tree φ) (n : NodeId) : Tree φ := t.set n { t.nodes n with handle := none }

def Tree.unlist (t : Tree φ) (n : NodeId) : Tree φ :=
  match (t.nodes n).parent with
  | none => t
  | some parent => t.set parent { t.nodes parent with child := (t.nodes parent).child.erase n }

def Tree.unlink (t : Tree φ) (n : NodeId) : Tree φ :=
  match (t.nodes n).parent with
  | none => t
  | some _ => (t.unlist n).set n { (t.unlist n).nodes n with parent := none }

def closeHandle (env : Env φ) (t : Tree φ) (n : NodeId) : Tree φ :=
  if (t.nodes n).handle.isSome then (callbackof env t n).close t n else t

/-- The rest of `vfs_close`, where `gone` says that no reference is left: the nodes, and whether the node is freed. -/
def closeNode (env : Env φ) (t : Tree φ) (node : NodeId) (gone : Bool) : Tree φ × Bool :=
  let n := t.nodes node
  if n.is (filePtmx ||| filePts) then
    let t := closeHandle env t node
    if gone then (t.clearHandle node, (t.nodes node).parent = none) else (t, false)
  else if n.is filePipe then
    let t := closeHandle env t node
    if gone then ((t.unlist node).clearHandle node, true) else (t, false)
  else if n.is fileEpoll then
    if gone then (t.clearHandle node, n.parent = none) else (t, false)
  else if n.handle = none then (t, n.is fileDelete && gone)
  else if n.is fileSocket then
    if gone && n.is fileDelete then ((((callbackof env t node).del t node).clearHandle node).unlink node, true)
    else (t, false)
  else if n.is fileProxy then (t, n.is fileDelete && gone)
  else if n.is fileDir && !n.is fileDelete then (t, false)
  else if gone then
    let t := ((callbackof env t node).close t node).clearHandle node
    if n.is fileDelete then (t.unlink node, true) else (t, false)
  else (t, false)

def vfsClose (env : Env φ) (s : State φ) (node : NodeId) : State φ :=
  if node = s.tree.rootdir then s
  else
    let s := s.unref node
    let r := closeNode env s.tree node (s.refcount node = 0)
    if r.2 then (s.withTree r.1).free node else s.withTree r.1

def selfName : Text := ['s', 'e', 'l', 'f']

def Tree.setType (t : Tree φ) (n : NodeId) (type : BitVec 16) : Tree φ := t.set n { t.nodes n with type := type }

def Tree.setLinkto (t : Tree φ) (n : NodeId) (target : Option NodeId) : Tree φ :=
  t.set n { t.nodes n with linkto := target }

def dynamicSymlink (t : Tree φ) (n : NodeId) : Bool :=
  (t.nodes n).name = some selfName &&
    (match (t.nodes n).parent with
      | none => false
      | some parent => (t.nodes parent).parent = none) &&
    (t.nodes n).handle.isSome && (t.nodes n).linkto = none

def targetPath (env : Env φ) (t : Tree φ) (link : NodeId) : Option Text :=
  match vfsReadlink env t link 255 with
  | none => none
  | some target =>
    if target.length = 0 ∨ target.length ≥ 256 then none
    else if target.head? = some '/' then some target
    else
      match (t.nodes link).parent.bind (vfsGetFullpath t) with
      | none => none
      | some parentPath =>
        some (normalizePath (parentPath ++ (if parentPath.getLast? = some '/' then [] else ['/']) ++ target))

/-- The node a link leads to, and whether `linkto` had it. -/
def linkTarget (env : Env φ) (openTarget : Text → State φ → State φ × Option NodeId) (s : State φ) (link : NodeId) :
    State φ × Option NodeId × Bool :=
  let dynamic := dynamicSymlink s.tree link
  let s := if dynamic then s else s.withTree (s.tree.setType link (fileSymlink ||| fileProxy))
  match if dynamic then none else (s.tree.nodes link).linkto with
  | some target => (s, some target, true)
  | none =>
    match targetPath env s.tree link with
    | none => (s, none, false)
    | some path =>
      let r := openTarget path s
      (if dynamic then r.1 else r.1.withTree (r.1.tree.setLinkto link r.2), r.2, false)

inductive Walked where
  | found (node : NodeId)
  | err (acquired : Option NodeId)

def walk (env : Env φ) (openTarget : Text → State φ → State φ × Option NodeId) (follow : Bool) :
    List (Text × Bool) → NodeId → Option NodeId → State φ → State φ × Walked
  | [], current, _, s => (s, .found current)
  | (buf, final) :: rest, current, acquired, s =>
    if buf = dot then walk env openTarget follow rest current acquired s
    else if buf = dotDot then
      walk env openTarget follow rest ((s.tree.nodes current).parent.getD current) acquired s
    else
      match vfsChildFind s.tree current buf with
      | none => (s, .err acquired)
      | some child =>
        let s := if final then s.ref child else s
        let acquired := if final then some child else acquired
        let s := s.withTree (doUpdate env s.tree child)
        if final ∧ ¬ follow then (s, .found child)
        else if (s.tree.nodes child).is fileSymlink then
          if (s.tree.nodes child).parent = none then (s, .err acquired)
          else
            match linkTarget env openTarget s child with
            | (s, none, _) => (s, .err acquired)
            | (s, some target, cached) =>
              if final then
                if cached ∧ (s.tree.nodes target).is fileDelete then (vfsClose env s child, .err none)
                else
                  let s := if cached then s.ref target else s
                  walk env openTarget follow rest target none (vfsClose env s child)
              else walk env openTarget follow rest target acquired s
        else walk env openTarget follow rest child acquired s

/-- `depth` is how many links may still be followed, and one more. -/
def vfsOpenImpl (env : Env φ) : Nat → Bool → Bool → Text → State φ → State φ × Option NodeId
  | 0, _, _, _, s => (s, none)
  | depth + 1, follow, allowAlias, str, s =>
    if str.head? ≠ some '/' then (s, none)
    else if str = ['/'] then (s, some s.tree.rootdir)
    else if env.memory depth str = false then (s, none)
    else
      match walk env (vfsOpenImpl env depth true true) follow (pathTokens str.tail) s.tree.rootdir none s with
      | (s, .found current) => (s, some current)
      | (s, .err acquired) =>
        let s := match acquired with
          | none => s
          | some node => vfsClose env s node
        match if allowAlias then env.vfsAlias str else none with
        | none => (s, none)
        | some target => vfsOpenImpl env depth follow false target s

def vfsMaxLinkDepth : Nat := 40

def vfsOpen (env : Env φ) (str : Text) (s : State φ) : State φ × Option NodeId :=
  vfsOpenImpl env (vfsMaxLinkDepth + 1) true true str s

end

/-! # Making, deleting and renaming (`driver/fs/vfs/vfs.cpp`)

The calls that change directories. They work on the nodes and leave the rest to the
file system, whose callbacks take its own handles.
-/

def vfsStatusFailed : Int := -1

def vfsStatusSuccess : Int := 0

variable {φ : Type}

/-- The callbacks of a file system that change a directory. Those that make take the handle of the directory, the name
and the node. -/
structure DirCallback (φ : Type) where
  mkdir : Tree φ → Option Nat → Text → NodeId → Tree φ × Int
  mkfile : Tree φ → Option Nat → Text → NodeId → Tree φ × Int
  del : Tree φ → Option Nat → NodeId → Tree φ × Int
  rename : Tree φ → Option Nat → Text → Tree φ × Int

structure DirEnv (φ : Type) extends Env φ where
  dirs : Nat → DirCallback φ

/-- `vfs_node_alloc`: a node that is as good as a file, first among the children of its parent. -/
def vfsNodeAlloc (t : Tree φ) (parent : NodeId) (name : Text) : Tree φ :=
  let node : VfsNode :=
    { parent := some parent, linkto := none, name := some name, linkname := none, type := fileNone,
      fsid := (t.nodes parent).fsid, handle := none, child := [] }
  let t' := t.set t.allocated node
  { t'.set parent { t'.nodes parent with child := t.allocated :: (t'.nodes parent).child } with
    allocated := t.allocated + 1 }

def State.alloc (s : State φ) (parent : NodeId) (name : Text) : State φ :=
  { s with
    tree := vfsNodeAlloc s.tree parent name
    refcount := update s.refcount s.tree.allocated 1 }

/-- What `strrchr` finds a path to end in. -/
def baseName (path : Text) : Text := (path.reverse.takeWhile (· ≠ '/')).reverse

def dirName (path : Text) : Text := (path.reverse.dropWhile (· ≠ '/')).tail.reverse

/-- `vfs_node_alloc` and the `mkdir` of the file system. What that answers is not looked at. -/
def makeDirectory (env : DirEnv φ) (s : State φ) (father : NodeId) (buf : Text) : State φ :=
  let node := s.tree.allocated
  let s := s.alloc father buf
  let t := s.tree.setType node fileDir
  let t := ((env.dirs (t.nodes father).fsid).mkdir t (t.nodes father).handle buf node).1
  s.withTree (doUpdate env.toEnv t node)

def mkdirLoop (env : DirEnv φ) : List Text → NodeId → State φ → State φ × Int
  | [], _, s => (s, vfsStatusSuccess)
  | buf :: rest, current, s =>
    if buf = dot then mkdirLoop env rest current s
    else if buf = dotDot ∧ ((s.tree.nodes current).parent = none ∨ (s.tree.nodes current).is fileDir = false) then
      (s, vfsStatusFailed)
    else
      match if buf = dotDot then (s.tree.nodes current).parent else vfsChildFind s.tree current buf with
      | none => mkdirLoop env rest s.tree.allocated (makeDirectory env s current buf)
      | some next =>
        let s := s.withTree (doUpdate env.toEnv s.tree next)
        if (s.tree.nodes next).is fileDir then mkdirLoop env rest next s else (s, vfsStatusFailed)

/-- The rest of `vfs_mkfile`, with the directory open. -/
def makeFile (env : DirEnv φ) (parent : NodeId) (filename : Text) (s : State φ) : State φ × Int :=
  if (s.tree.nodes parent).type ≠ fileDir then (s, vfsStatusFailed)
  else
    let node := s.tree.allocated
    let s := s.alloc parent filename
    let r := (env.dirs (s.tree.nodes parent).fsid).mkfile s.tree (s.tree.nodes parent).handle filename node
    (s.withTree r.1, r.2)

def notLinked (n : VfsNode) : Bool := !(n.is fileSymlink && n.linkname.isSome)

/-- The `del` of the file system for a node that is marked, and what it answers. -/
def delCallback (env : DirEnv φ) (t : Tree φ) (parent node : NodeId) : Tree φ × Int :=
  let t := if (t.nodes node).handle = none then doUpdate env.toEnv t node else t
  let n := t.nodes node
  if notLinked n = false then (t, vfsStatusSuccess)
  else if n.handle = none then (t, vfsStatusFailed)
  else (env.dirs n.fsid).del t (t.nodes parent).handle node

def dropDeleted (env : DirEnv φ) (node : NodeId) (s : State φ) : State φ :=
  let s := (s.unref node).unref node
  if s.refcount node = 0 then
    let t := s.tree
    let t :=
      if (t.nodes node).handle.isSome ∧ (t.nodes node).is fileProxy = false then
        ((callbackof env.toEnv t node).close t node).clearHandle node
      else t
    (s.withTree t).free node
  else s

def vfsDelete (env : DirEnv φ) (node : Option NodeId) (s : State φ) : State φ × Int :=
  match node with
  | none => (s, vfsStatusFailed)
  | some node =>
    let n := s.tree.nodes node
    if node = s.tree.rootdir ∨ n.is fileDelete ∨ (n.is fileDir ∧ n.child ≠ []) then (s, vfsStatusFailed)
    else
      match n.parent with
      | none => (s, vfsStatusFailed)
      | some parent =>
        let r := delCallback env (s.tree.setType node (n.type ||| fileDelete)) parent node
        let t := r.1
        if r.2 < 0 then
          (vfsClose env.toEnv (s.withTree (t.setType node ((t.nodes node).type &&& ~~~fileDelete))) node, r.2)
        else
          let t := t.set parent { t.nodes parent with child := (t.nodes parent).child.erase node }
          let t := t.set node { t.nodes node with parent := none }
          (dropDeleted env node (s.withTree t), vfsStatusSuccess)

end OpenXJ380.Vfs
