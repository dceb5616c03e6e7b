import OpenXJ380.Lib.Transition
import OpenXJ380.Vfs.Model

/-! # References that opening a path takes

In a tree without links the loop finds the same node whether or not references are
counted. It takes one for the last component if that is a name and the tokenizer has
nothing left behind it.
-/

namespace OpenXJ380.Vfs

open Prod (fst)
open Function

open Transition

variable {φ : Type} {env : Env φ} {s : State φ} {t : Tree φ} {n current : NodeId}

structure Directories (t : Tree φ) : Prop where
  plain : ∀ n, (t.nodes n).is fileSymlink = false
  rootless : ∀ n, t.rootdir ∉ (t.nodes n).child

structure Keeps (f : Tree φ → NodeId → Tree φ) : Prop where
  directories : ∀ t n, Directories t → Directories (f t n)
  root : ∀ t n, (f t n).rootdir = t.rootdir

structure Steady (env : Env φ) : Prop where
  stat : ∀ i, Keeps (env.callbacks i).stat
  opening : ∀ i, Keeps (env.callbacks i).opening
  close : ∀ i, Keeps (env.callbacks i).close
  del : ∀ i, Keeps (env.callbacks i).del

theorem is_or_delete (node : VfsNode) :
    VfsNode.is { node with type := node.type ||| fileDelete } fileSymlink = node.is fileSymlink := by
  rw [VfsNode.is, VfsNode.is, BitVec.and_comm, BitVec.and_or_distrib_left]
  have hApart : fileSymlink &&& fileDelete = 0 := by decide
  rw [hApart, BitVec.and_comm]
  simp only [BitVec.ofNat_eq_ofNat, BitVec.or_zero]

theorem Directories.set {node : VfsNode} (h : Directories t) (hType : node.is fileSymlink = false)
    (hChild : node.child ⊆ (t.nodes n).child) : Directories (t.set n node) := by
  constructor
  · intro m
    by_cases hSame : m = n
    · rw [hSame, Tree.set]
      simp only [update_self]
      exact hType
    · rw [Tree.set]
      simp only [update_of_ne hSame]
      exact h.plain m
  · intro m hMem
    by_cases hSame : m = n
    · rw [hSame, Tree.set] at hMem
      simp only [update_self] at hMem
      exact h.rootless n (hChild hMem)
    · rw [Tree.set] at hMem
      simp only [update_of_ne hSame] at hMem
      exact h.rootless m hMem

variable {t' : Tree φ} {toks : List (Text × Bool)}

theorem Steady.openCallback (hEnv : Steady env) (h : openCallback env t n = some t') :
    (Directories t → Directories t') ∧ t'.rootdir = t.rootdir := by
  rw [Vfs.openCallback] at h
  split at h
  · cases h
    exact ⟨(hEnv.stat _).directories t n, (hEnv.stat _).root t n⟩
  · split at h
    · cases h
    · split at h
      · cases h
      · cases h
        exact ⟨(hEnv.opening _).directories t n, (hEnv.opening _).root t n⟩

theorem Steady.doOpen (hEnv : Steady env) : Keeps (doOpen env) := by
  constructor
  · intro t n hTree
    rw [Vfs.doOpen]
    cases hCall : Vfs.openCallback env t n with
    | none => exact hTree
    | some t' =>
      have hTree' := (hEnv.openCallback hCall).1 hTree
      simp only
      split
      · refine hTree'.set ?_ (.refl _)
        rw [is_or_delete]
        exact hTree'.plain n
      · exact hTree'
  · intro t n
    rw [Vfs.doOpen]
    cases hCall : Vfs.openCallback env t n with
    | none => rfl
    | some t' =>
      simp only
      split
      · exact (hEnv.openCallback hCall).2
      · exact (hEnv.openCallback hCall).2

theorem Steady.doUpdate (hEnv : Steady env) : Keeps (doUpdate env) := by
  constructor
  · intro t n hTree
    simp only [Vfs.doUpdate]
    split_ifs
    · exact hTree
    · exact hEnv.doOpen.directories t n hTree
    · exact hTree
  · intro t n
    simp only [Vfs.doUpdate]
    split_ifs
    · rfl
    · exact hEnv.doOpen.root t n
    · rfl

def resolve (env : Env φ) : List Text → NodeId → Tree φ → Tree φ × Option NodeId
  | [], current, t => (t, some current)
  | buf :: rest, current, t =>
    if buf = dot then resolve env rest current t
    else if buf = dotDot then resolve env rest ((t.nodes current).parent.getD current) t
    else
      match vfsChildFind t current buf with
      | none => (t, none)
      | some child => resolve env rest child (doUpdate env t child)

/-- The last component is a name, and the tokenizer has come to the end of the path with it. -/
def endsInName : List (Text × Bool) → Bool
  | [] => false
  | [(buf, final)] => buf ≠ dot ∧ buf ≠ dotDot ∧ final
  | _ :: x :: rest => endsInName (x :: rest)

example : (endsInName (pathTokens ['a', '/', 'b']), endsInName (pathTokens ['a', '/', 'b', '/']),
    endsInName (pathTokens ['a', '/', 'b', '/', '/']), endsInName (pathTokens ['a', '/', 'b', '/', '.'])) =
      (true, true, false, false) := by
  decide

def FinalLast : List (Text × Bool) → Prop
  | [] => True
  | [_] => True
  | x :: y :: rest => x.2 = false ∧ FinalLast (y :: rest)

theorem tokens_nil (rounds : Nat) : tokens rounds [] = [] := by cases rounds <;> rfl

theorem tokens_finalLast (rounds : Nat) (path : Text) : FinalLast (tokens rounds path) := by
  induction rounds generalizing path with
  | zero => trivial
  | succ rounds ih =>
    rw [tokens]
    cases hTok : pathtok path with
    | none => trivial
    | some r =>
      obtain ⟨buf, rest⟩ := r
      simp only
      cases hRest : tokens rounds rest with
      | nil => trivial
      | cons y l =>
        refine ⟨?_, hRest ▸ ih rest⟩
        apply decide_eq_false
        rintro rfl
        rw [tokens_nil] at hRest
        cases hRest

theorem resolve_root (hEnv : Steady env) (path : List Text) :
    (resolve env path current t).1.rootdir = t.rootdir := by
  induction path generalizing current t with
  | nil => rfl
  | cons buf rest ih =>
    rw [resolve]
    split_ifs
    · exact ih
    · exact ih
    · cases vfsChildFind t current buf with
      | none => rfl
      | some child =>
        simp only
        rw [ih, hEnv.doUpdate.root]

theorem resolve_directories (hEnv : Steady env) (path : List Text) (h : Directories t) :
    Directories (resolve env path current t).1 := by
  induction path generalizing current t with
  | nil => exact h
  | cons buf rest ih =>
    rw [resolve]
    split_ifs
    · exact ih h
    · exact ih h
    · cases vfsChildFind t current buf with
      | none => exact h
      | some child => exact ih (hEnv.doUpdate.directories t child h)

theorem vfsChildFind_mem {name : Text} {child : NodeId} (h : vfsChildFind t n name = some child) :
    child ∈ (t.nodes n).child := List.mem_of_find?_eq_some h

theorem resolve_ne_root (hEnv : Steady env) (h : Directories t) (hName : endsInName toks)
    (hFound : (resolve env (toks.map fst) current t).2 = some n) : n ≠ t.rootdir := by
  induction toks generalizing current t with
  | nil => cases hName
  | cons x rest ih =>
    obtain ⟨buf, final⟩ := x
    rw [List.map_cons, resolve] at hFound
    cases rest with
    | nil =>
      obtain ⟨hDot, hDotDot, -⟩ := of_decide_eq_true hName
      rw [if_neg hDot, if_neg hDotDot] at hFound
      cases hFind : vfsChildFind t current buf with
      | none =>
        rw [hFind] at hFound
        cases hFound
      | some child =>
        rw [hFind] at hFound
        cases hFound
        rintro rfl
        exact h.rootless current (vfsChildFind_mem hFind)
    | cons y rest =>
      rw [endsInName] at hName
      split_ifs at hFound
      · exact ih h hName hFound
      · exact ih h hName hFound
      · cases hFind : vfsChildFind t current buf with
        | none =>
          rw [hFind] at hFound
          cases hFound
        | some child =>
          rw [hFind] at hFound
          rw [← hEnv.doUpdate.root t child]
          exact ih (hEnv.doUpdate.directories t child h) hName hFound

/-- The state after the loop over the components has found a node, or none. -/
def looked (s : State φ) (toks : List (Text × Bool)) (r : Tree φ × Option NodeId) : State φ :=
  match r.2 with
  | none => s.withTree r.1
  | some node => if endsInName toks then (s.withTree r.1).ref node else s.withTree r.1

theorem endsInName_dots {buf : Text} {final : Bool} (h : buf = dot ∨ buf = dotDot) (rest : List (Text × Bool)) :
    endsInName ((buf, final) :: rest) = endsInName rest := by
  cases rest with
  | nil =>
    apply decide_eq_false
    rintro ⟨hDot, hDotDot, -⟩
    exact h.elim hDot hDotDot
  | cons y rest => rfl

theorem FinalLast.tail {x : Text × Bool} (h : FinalLast (x :: toks)) : FinalLast toks := by
  cases toks with
  | nil => trivial
  | cons y rest => exact h.2

theorem walk_plain (hEnv : Steady env) {o : Text → State φ → State φ × Option NodeId}
    (h : Directories s.tree) (hToks : FinalLast toks) :
    walk env o true toks current none s = (looked s toks (resolve env (toks.map fst) current s.tree),
        match (resolve env (toks.map fst) current s.tree).2 with
        | none => .err none
        | some node => .found node) := by
  induction toks generalizing current s with
  | nil => rfl
  | cons x rest ih =>
    obtain ⟨buf, final⟩ := x
    rw [walk, List.map_cons, resolve]
    by_cases hDot : buf = dot
    · rw [if_pos hDot, if_pos hDot, ih h hToks.tail, looked, looked, endsInName_dots (.inl hDot)]
    · rw [if_neg hDot, if_neg hDot]
      by_cases hDotDot : buf = dotDot
      · rw [if_pos hDotDot, if_pos hDotDot, ih h hToks.tail, looked, looked, endsInName_dots (.inr hDotDot)]
      · rw [if_neg hDotDot, if_neg hDotDot]
        cases hFind : vfsChildFind s.tree current buf with
        | none => rfl
        | some child =>
          have hChild := hEnv.doUpdate.directories s.tree child h
          have hPlain := hChild.plain child
          cases rest with
          | nil =>
            cases final with
            | false =>
              simp only [Bool.false_eq_true, false_and, if_false, State.withTree, hPlain, walk, List.map_nil, resolve,
                looked, endsInName, and_false, decide_false]
            | true =>
              have hName : endsInName [(buf, true)] := decide_eq_true ⟨hDot, hDotDot, rfl⟩
              simp only [if_true, not_true_eq_false, and_false, if_false, State.withTree, State.ref, hPlain, walk,
                List.map_nil, resolve, looked, hName, Bool.false_eq_true]
          | cons y rest =>
            obtain ⟨hMore, hRest⟩ := hToks
            simp only at hMore
            subst hMore
            have hWalk := @ih (s.withTree (doUpdate env s.tree child)) child hChild hRest
            simp only [Bool.false_eq_true, false_and, if_false, State.withTree, hPlain]
            exact hWalk

/-- The node has one reference more, unless it is the root, and no other count has changed. -/
def OneReference (s : State φ) (r : State φ × Option NodeId) : Prop :=
  match r.2 with
  | none => r.1.refcount = s.refcount
  | some node =>
    r.1.refcount = if node = s.tree.rootdir then s.refcount else update s.refcount node (s.refcount node + 1)

/-- The path that is looked up in the end, which is an alias where the path leads nowhere, ends in a name, or leads to
the root or nowhere. -/
def Spelled (env : Env φ) : Nat → Bool → Text → Tree φ → Prop
  | 0, _, _, _ => True
  | depth + 1, allowAlias, str, t =>
    if str.head? ≠ some '/' ∨ str = ['/'] ∨ env.memory depth str = false then True
    else
      match resolve env ((pathTokens str.tail).map Prod.fst) t.rootdir t with
      | (t', none) =>
        match if allowAlias then env.vfsAlias str else none with
        | none => True
        | some target => Spelled env depth false target t'
      | (_, some node) => endsInName (pathTokens str.tail) = true ∨ node = t.rootdir

theorem vfsOpenImpl_plain (hEnv : Steady env) (h : Directories s.tree) (depth : Nat) (allowAlias : Bool) {str : Text}
    (hSlash : str.head? = some '/') (hMore : str ≠ ['/']) (hMemory : env.memory depth str) :
    vfsOpenImpl env (depth + 1) true allowAlias str s =
      match resolve env ((pathTokens str.tail).map fst) s.tree.rootdir s.tree with
      | (t', none) =>
        match if allowAlias then env.vfsAlias str else none with
        | none => (s.withTree t', none)
        | some target => vfsOpenImpl env depth true false target (s.withTree t')
      | (t', some node) => (looked s (pathTokens str.tail) (t', some node), some node) := by
  have hLast : FinalLast (pathTokens str.tail) := tokens_finalLast _ _
  rw [vfsOpenImpl, if_neg (not_not.mpr hSlash), if_neg hMore, if_neg (by rw [hMemory]; exact Bool.noConfusion),
    walk_plain hEnv h hLast]
  obtain ⟨t', found⟩ := resolve env ((pathTokens str.tail).map fst) s.tree.rootdir s.tree
  cases found with
  | none => rfl
  | some node => rfl

theorem oneReference_withTree (hRoot : t'.rootdir = s.tree.rootdir) (r : State φ × Option NodeId) :
    OneReference (s.withTree t') r ↔ OneReference s r := by
  rw [OneReference, OneReference, State.withTree]
  simp only [hRoot]

theorem looked_oneReference {node : NodeId} (hRoot : endsInName toks → node ≠ s.tree.rootdir) :
    OneReference s (looked s toks (t', some node), some node) ↔ endsInName toks ∨ node = s.tree.rootdir := by
  simp only [OneReference, looked]
  cases hName : endsInName toks with
  | true =>
    rw [if_pos rfl, if_neg (hRoot hName)]
    exact ⟨fun _ => .inl rfl, fun _ => rfl⟩
  | false =>
    rw [if_neg Bool.noConfusion]
    by_cases hSame : node = s.tree.rootdir
    · rw [if_pos hSame]
      exact ⟨fun _ => .inr hSame, fun _ => rfl⟩
    · rw [if_neg hSame]
      refine ⟨fun hEq => ?_, fun h => h.elim nofun (absurd · hSame)⟩
      have hCount : s.refcount node = s.refcount node + 1 := by
        have hAt := congrFun hEq node
        rwa [update_self] at hAt
      omega

theorem vfsOpenImpl_oneReference (hEnv : Steady env) (depth : Nat) (allowAlias : Bool) (str : Text)
    (h : Directories s.tree) :
    OneReference s (vfsOpenImpl env depth true allowAlias str s) ↔ Spelled env depth allowAlias str s.tree := by
  induction depth generalizing allowAlias str s with
  | zero => exact ⟨fun _ => trivial, fun _ => rfl⟩
  | succ depth ih =>
    rw [Spelled]
    by_cases hSlash : str.head? = some '/'
    · by_cases hMore : str = ['/']
      · rw [if_pos (.inr (.inl hMore)), vfsOpenImpl, if_neg (not_not.mpr hSlash), if_pos hMore]
        refine ⟨fun _ => trivial, fun _ => ?_⟩
        rw [OneReference]
        simp only [if_true]
      · cases hMemory : env.memory depth str with
        | false =>
          rw [if_pos (.inr (.inr rfl)), vfsOpenImpl, if_neg (not_not.mpr hSlash), if_neg hMore, if_pos hMemory]
          exact ⟨fun _ => trivial, fun _ => rfl⟩
        | true =>
          have hGo : ¬ (str.head? ≠ some '/' ∨ str = ['/'] ∨ true = false) := by simp [hSlash, hMore]
          rw [vfsOpenImpl_plain hEnv h depth allowAlias hSlash hMore hMemory, if_neg hGo]
          have hRoot := @resolve_root φ env s.tree s.tree.rootdir hEnv ((pathTokens str.tail).map fst)
          have hTree := @resolve_directories φ env s.tree s.tree.rootdir hEnv ((pathTokens str.tail).map fst) h
          have hNotRoot := fun n hName => @resolve_ne_root φ env s.tree n s.tree.rootdir (pathTokens str.tail) hEnv h hName
          generalize resolve env ((pathTokens str.tail).map fst) s.tree.rootdir s.tree = r at *
          obtain ⟨t', found⟩ := r
          cases found with
          | none =>
            simp only
            cases (if allowAlias then env.vfsAlias str else none) with
            | none => exact ⟨fun _ => trivial, fun _ => rfl⟩
            | some target =>
              rw [← oneReference_withTree hRoot]
              exact ih false target hTree
          | some node => exact looked_oneReference fun hName => hNotRoot node hName rfl
    · rw [if_pos (.inl hSlash), vfsOpenImpl, if_pos hSlash]
      exact ⟨fun _ => trivial, fun _ => rfl⟩

theorem vfsOpenImpl_tree (hEnv : Steady env) (depth : Nat) (allowAlias : Bool) (str : Text) (h : Directories s.tree) :
    Directories (vfsOpenImpl env depth true allowAlias str s).1.tree ∧
      (vfsOpenImpl env depth true allowAlias str s).1.tree.rootdir = s.tree.rootdir := by
  induction depth generalizing allowAlias str s with
  | zero => exact ⟨h, rfl⟩
  | succ depth ih =>
    by_cases hGo : str.head? = some '/' ∧ str ≠ ['/'] ∧ env.memory depth str
    · obtain ⟨hSlash, hMore, hMemory⟩ := hGo
      rw [vfsOpenImpl_plain hEnv h depth allowAlias hSlash hMore hMemory]
      have hRoot := @resolve_root φ env s.tree s.tree.rootdir hEnv ((pathTokens str.tail).map fst)
      have hTree := @resolve_directories φ env s.tree s.tree.rootdir hEnv ((pathTokens str.tail).map fst) h
      generalize resolve env ((pathTokens str.tail).map fst) s.tree.rootdir s.tree = r at *
      obtain ⟨t', found⟩ := r
      cases found with
      | none =>
        simp only
        cases (if allowAlias then env.vfsAlias str else none) with
        | none => exact ⟨hTree, hRoot⟩
        | some target =>
          obtain ⟨hAfter, hRootAfter⟩ := @ih (s.withTree t') false target hTree
          exact ⟨hAfter, hRootAfter.trans hRoot⟩
      | some node =>
        have hLooked : (looked s (pathTokens str.tail) (t', some node)).tree = t' := by
          rw [looked]
          simp only
          split <;> rfl
        simp only [hLooked]
        exact ⟨hTree, hRoot⟩
    · rw [vfsOpenImpl]
      by_cases hSlash : str.head? ≠ some '/'
      · rw [if_pos hSlash]
        exact ⟨h, rfl⟩
      · rw [if_neg hSlash]
        by_cases hMore : str = ['/']
        · rw [if_pos hMore]
          exact ⟨h, rfl⟩
        · rw [if_neg hMore]
          by_cases hMemory : env.memory depth str = false
          · rw [if_pos hMemory]
            exact ⟨h, rfl⟩
          · exact absurd ⟨not_not.mp hSlash, hMore, eq_true_of_ne_false hMemory⟩ hGo

theorem keeps_clearHandle : Keeps (Tree.clearHandle (φ := φ)) where
  directories _ n h := h.set (h.plain n) (.refl _)
  root _ _ := rfl

theorem keeps_unlist : Keeps (Tree.unlist (φ := φ)) := by
  constructor
  · intro t n h
    rw [Tree.unlist]
    split
    · exact h
    · exact h.set (h.plain _) List.erase_subset
  · intro t n
    rw [Tree.unlist]
    split <;> rfl

theorem keeps_unlink : Keeps (Tree.unlink (φ := φ)) := by
  constructor
  · intro t n h
    rw [Tree.unlink]
    split
    · exact h
    · have hRest := keeps_unlist.directories t n h
      exact hRest.set (hRest.plain n) (.refl _)
  · intro t n
    rw [Tree.unlink]
    split
    · rfl
    · exact keeps_unlist.root t n

theorem Steady.closeHandle (hEnv : Steady env) : Keeps (closeHandle env) := by
  constructor
  · intro t n h
    rw [Vfs.closeHandle]
    split
    · exact (hEnv.close _).directories t n h
    · exact h
  · intro t n
    rw [Vfs.closeHandle]
    split
    · exact (hEnv.close _).root t n
    · rfl

theorem Keeps.comp {f g : Tree φ → NodeId → Tree φ} (hf : Keeps f) (hg : Keeps g) : Keeps fun t n => g (f t n) n where
  directories t n h := hg.directories _ n (hf.directories t n h)
  root t n := (hg.root _ n).trans (hf.root t n)

theorem vfsClose_refcount (env : Env φ) (s : State φ) (n : NodeId) :
    (vfsClose env s n).refcount =
      if n = s.tree.rootdir then s.refcount else update s.refcount n (s.refcount n - 1) := by
  simp only [vfsClose]
  split
  · rfl
  · split <;> rfl

theorem Steady.closeNode (hEnv : Steady env) (gone : Bool) : Keeps fun t n => (closeNode env t n gone).1 := by
  have hHandle := hEnv.closeHandle
  have hReach : ∀ t n, (Directories t → Directories (Vfs.closeNode env t n gone).1) ∧
      (Vfs.closeNode env t n gone).1.rootdir = t.rootdir := by
    intro t n
    rw [Vfs.closeNode]
    by_cases hPty : (t.nodes n).is (filePtmx ||| filePts)
    · rw [if_pos hPty]
      cases gone with
      | true => exact ⟨(hHandle.comp keeps_clearHandle).directories t n, (hHandle.comp keeps_clearHandle).root t n⟩
      | false => exact ⟨hHandle.directories t n, hHandle.root t n⟩
    · rw [if_neg hPty]
      by_cases hPipe : (t.nodes n).is filePipe
      · rw [if_pos hPipe]
        have hTaken := (hHandle.comp keeps_unlist).comp keeps_clearHandle
        cases gone with
        | true => exact ⟨hTaken.directories t n, hTaken.root t n⟩
        | false => exact ⟨hHandle.directories t n, hHandle.root t n⟩
      · rw [if_neg hPipe]
        by_cases hEpoll : (t.nodes n).is fileEpoll
        · rw [if_pos hEpoll]
          cases gone with
          | true => exact ⟨keeps_clearHandle.directories t n, rfl⟩
          | false => exact ⟨id, rfl⟩
        · rw [if_neg hEpoll]
          have hEnded := (hEnv.close (t.nodes n).fsid).comp keeps_clearHandle
          have hDeleted := ((hEnv.del (t.nodes n).fsid).comp keeps_clearHandle).comp keeps_unlink
          have hEndedGone := hEnded.comp keeps_unlink
          split
          · exact ⟨id, rfl⟩
          · split
            · split
              · exact ⟨hDeleted.directories t n, hDeleted.root t n⟩
              · exact ⟨id, rfl⟩
            · split
              · exact ⟨id, rfl⟩
              · split
                · exact ⟨id, rfl⟩
                · split
                  · dsimp only
                    split
                    · exact ⟨hEndedGone.directories t n, hEndedGone.root t n⟩
                    · exact ⟨hEnded.directories t n, hEnded.root t n⟩
                  · exact ⟨id, rfl⟩
  exact ⟨fun t n => (hReach t n).1, fun t n => (hReach t n).2⟩

theorem Steady.vfsClose (hEnv : Steady env) (s : State φ) (n : NodeId) (h : Directories s.tree) :
    Directories (vfsClose env s n).tree ∧ (vfsClose env s n).tree.rootdir = s.tree.rootdir := by
  rw [Vfs.vfsClose]
  split
  · exact ⟨h, rfl⟩
  · have hKeeps := hEnv.closeNode ((s.unref n).refcount n = 0)
    simp only
    split
    · exact ⟨hKeeps.directories s.tree n h, hKeeps.root s.tree n⟩
    · exact ⟨hKeeps.directories s.tree n h, hKeeps.root s.tree n⟩

structure Session (φ : Type) where
  state : State φ
  held : NodeId → Nat

inductive Call (φ : Type) where
  | opening (env : Env φ) (str : Text)
  | close (env : Env φ) (node : NodeId)

def Session.give (x : Session φ) (r : State φ × Option NodeId) : Session φ where
  state := r.1
  held :=
    match r.2 with
    | none => x.held
    | some node => if node = x.state.tree.rootdir then x.held else update x.held node (x.held node + 1)

inductive SessionStep : Session φ → Call φ → Session φ → Prop
  | opening {x : Session φ} {env : Env φ} (hEnv : Steady env) (str : Text) :
      SessionStep x (.opening env str) (x.give (vfsOpen env str x.state))
  | close {x : Session φ} {env : Env φ} (hEnv : Steady env) {node : NodeId} (hHeld : 0 < x.held node) :
      SessionStep x (.close env node) ⟨vfsClose env x.state node, update x.held node (x.held node - 1)⟩
  | closeRoot {x : Session φ} {env : Env φ} (hEnv : Steady env) :
      SessionStep x (.close env x.state.tree.rootdir) ⟨vfsClose env x.state x.state.tree.rootdir, x.held⟩

def sessions : System (Session φ) (Call φ) where
  step := SessionStep

def SpelledCall (x : Session φ) : Call φ → Prop
  | .opening env str => Spelled env (vfsMaxLinkDepth + 1) true str x.state.tree
  | .close _ _ => True

structure Settled (s : State φ) (x : Session φ) : Prop where
  directories : Directories x.state.tree
  root : x.held x.state.tree.rootdir = 0
  count : ∀ n, x.state.refcount n = s.refcount n + x.held n

theorem Settled.give {x : Session φ} {r : State φ × Option NodeId} (h : Settled s x) (hTree : Directories r.1.tree)
    (hRoot : r.1.tree.rootdir = x.state.tree.rootdir) (hOne : OneReference x.state r) : Settled s (x.give r) := by
  obtain ⟨s', found⟩ := r
  cases found with
  | none =>
    refine ⟨hTree, ?_, ?_⟩
    · change x.held s'.tree.rootdir = 0
      rw [hRoot]
      exact h.root
    · intro n
      change s'.refcount n = s.refcount n + x.held n
      rw [hOne]
      exact h.count n
  | some node =>
    simp only [OneReference] at hOne
    refine ⟨hTree, ?_, ?_⟩
    · change (if node = x.state.tree.rootdir then x.held else update x.held node (x.held node + 1)) s'.tree.rootdir = 0
      rw [hRoot]
      split
      · exact h.root
      · next hNe => rw [update_of_ne (.symm hNe), h.root]
    · intro n
      change s'.refcount n = s.refcount n +
        (if node = x.state.tree.rootdir then x.held else update x.held node (x.held node + 1)) n
      rw [hOne]
      split
      · exact h.count n
      · by_cases hSame : n = node
        · rw [hSame, update_self, update_self, h.count, Nat.add_assoc]
        · rw [update_of_ne hSame, update_of_ne hSame, h.count]

theorem Settled.step {x y : Session φ} {call : Call φ} (h : Settled s x) (hSpelled : SpelledCall x call)
    (hStep : SessionStep x call y) : Settled s y := by
  cases hStep with
  | opening hEnv str =>
    obtain ⟨hTree, hRoot⟩ := vfsOpenImpl_tree hEnv (vfsMaxLinkDepth + 1) true str h.directories
    exact h.give hTree hRoot ((vfsOpenImpl_oneReference hEnv _ _ _ h.directories).mpr hSpelled)
  | @close env hEnv node hHeld =>
    obtain ⟨hTree, hRoot⟩ := hEnv.vfsClose x.state node h.directories
    have hNotRoot : node ≠ x.state.tree.rootdir := by
      rintro rfl
      rw [h.root] at hHeld
      exact lt_irrefl 0 hHeld
    refine ⟨hTree, ?_, ?_⟩
    · change update x.held node (x.held node - 1) (vfsClose env x.state node).tree.rootdir = 0
      rw [hRoot, update_of_ne (.symm hNotRoot), h.root]
    · intro n
      change (vfsClose env x.state node).refcount n = s.refcount n + update x.held node (x.held node - 1) n
      rw [vfsClose_refcount, if_neg hNotRoot]
      have hCount := h.count n
      by_cases hSame : n = node
      · subst hSame
        rw [update_self, update_self]
        omega
      · rw [update_of_ne hSame, update_of_ne hSame, hCount]
  | @closeRoot env hEnv =>
    obtain ⟨hTree, hRoot⟩ := hEnv.vfsClose x.state x.state.tree.rootdir h.directories
    refine ⟨hTree, ?_, ?_⟩
    · change x.held (vfsClose env x.state x.state.tree.rootdir).tree.rootdir = 0
      rw [hRoot, h.root]
    · intro n
      change (vfsClose env x.state x.state.tree.rootdir).refcount n = s.refcount n + x.held n
      rw [vfsClose_refcount, if_pos rfl]
      exact h.count n

/-- Opening takes the reference just for a path that is spelled so; and where all paths are, what has been opened and
closed leaves every count as it was. -/
theorem vfsOpen_one_reference (hEnv : Steady env) (hTree : Directories s.tree) :
    (∀ str, OneReference s (vfsOpen env str s) ↔ Spelled env (vfsMaxLinkDepth + 1) true str s.tree) ∧
      ∀ calls x, Run (sessions.restrict SpelledCall) ⟨s, fun _ => 0⟩ calls x → (∀ n, x.held n = 0) →
        x.state.refcount = s.refcount := by
  refine ⟨fun str => vfsOpenImpl_oneReference hEnv _ _ str hTree, ?_⟩
  intro calls x hRun hClosed
  have hStart : Settled s ⟨s, fun _ => 0⟩ := ⟨hTree, rfl, fun _ => rfl⟩
  have hEnd : Settled s x := hRun.invariant (fun _ _ _ h hStep => h.step hStep.1 hStep.2) hStart
  funext n
  rw [hEnd.count, hClosed, Nat.add_zero]

def nursery : State Unit where
  tree :=
    { nodes := fun n => if n = 0 then ⟨none, none, some ['/'], none, fileDir, 0, none, [1]⟩
        else ⟨some 0, none, some ['a'], none, fileDir, 0, none, []⟩
      rootdir := 0
      allocated := 2
      store := () }
  refcount := fun _ => 1
  freed := fun _ => false

def stillEnv : Env Unit where
  callbacks _ := ⟨fun t _ => t, fun t _ => t, fun t _ => t, fun t _ => t, fun _ _ => none⟩
  vfsAlias _ := none
  memory _ _ := true

theorem keeps_still : Keeps fun (t : Tree Unit) _ => t := ⟨fun _ _ h => h, fun _ _ => rfl⟩

theorem stillEnv_steady : Steady stillEnv :=
  ⟨fun _ => keeps_still, fun _ => keeps_still, fun _ => keeps_still, fun _ => keeps_still⟩

theorem nursery_directories : Directories nursery.tree := by
  constructor
  · intro n
    by_cases hRoot : n = 0
    · subst hRoot
      decide
    · simp only [nursery, if_neg hRoot]
      decide
  · intro n hMem
    by_cases hRoot : n = 0
    · subst hRoot
      revert hMem
      decide
    · simp only [nursery, if_neg hRoot] at hMem
      cases hMem

theorem vfsOpen_one_reference_child : OneReference nursery (vfsOpen stillEnv ['/', 'a'] nursery) :=
  ((vfsOpen_one_reference stillEnv_steady nursery_directories).1 _).mpr (.inl (by decide))

/-- With two slashes at its end a path leads to the child, and no reference is taken. -/
theorem vfsOpen_two_slashes :
    Steady stillEnv ∧ Directories nursery.tree ∧
      ¬ OneReference nursery (vfsOpen stillEnv ['/', 'a', '/', '/'] nursery) := by
  refine ⟨stillEnv_steady, nursery_directories, ?_⟩
  intro hOne
  have hAt := congrFun hOne 1
  revert hAt
  decide

end OpenXJ380.Vfs
