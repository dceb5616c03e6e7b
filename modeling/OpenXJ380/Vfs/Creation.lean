import OpenXJ380.Vfs.Fullpath

/-! # Making files and directories that fails (`vfs_mkdir` and `vfs_mkfile` of `driver/fs/vfs/vfs.cpp`)

A node is linked into its directory before the file system is asked to make it, and nothing takes it out again.
-/

namespace OpenXJ380.Vfs

variable {φ : Type}

/-- What a call has left: whether the file system has reported a failure to it, and how many of its copies of the path
are still allocated. -/
structure Creation (φ : Type) where
  state : State φ
  status : Int
  reported : Bool
  copies : Nat

inductive MkdirStep (φ : Type) where
  | enters (s : State φ) (current : NodeId)
  | makes (s : State φ) (node : NodeId) (answer : Int)
  | stops (s : State φ)

/-- What `mkdir` of the file system answers, which `vfs_mkdir` does not look at. -/
def mkdirAnswer (env : DirEnv φ) (s : State φ) (father : NodeId) (buf : Text) : Int :=
  let node := s.tree.allocated
  let s := s.alloc father buf
  let t := s.tree.setType node fileDir
  ((env.dirs (t.nodes father).fsid).mkdir t (t.nodes father).handle buf node).2

def mkdirStep (env : DirEnv φ) (buf : Text) (current : NodeId) (s : State φ) : MkdirStep φ :=
  if buf = dot then .enters s current
  else if buf = dotDot ∧ ((s.tree.nodes current).parent = none ∨ (s.tree.nodes current).is fileDir = false) then
    .stops s
  else
    match if buf = dotDot then (s.tree.nodes current).parent else vfsChildFind s.tree current buf with
    | none => .makes (makeDirectory env s current buf) s.tree.allocated (mkdirAnswer env s current buf)
    | some next =>
      let s := s.withTree (doUpdate env.toEnv s.tree next)
      if (s.tree.nodes next).is fileDir then .enters s next else .stops s

def mkdirReports (env : DirEnv φ) : List Text → NodeId → State φ → Bool
  | [], _, _ => false
  | buf :: rest, current, s =>
    match mkdirStep env buf current s with
    | .enters s next => mkdirReports env rest next s
    | .makes s node answer => answer < 0 || mkdirReports env rest node s
    | .stops _ => false

/-- `vfs_mkdir`; the copy of the path is freed on both ways out. -/
def mkdirRun (env : DirEnv φ) (name : Text) (s : State φ) : Creation φ :=
  if name.head? ≠ some '/' then ⟨s, vfsStatusFailed, false, 0⟩
  else
    let names := (pathTokens name.tail).map Prod.fst
    let r := mkdirLoop env names s.tree.rootdir s
    ⟨r.1, r.2, mkdirReports env names s.tree.rootdir s, 0⟩

def mkfileParent (env : DirEnv φ) (name : Text) (s : State φ) : State φ × Option NodeId :=
  if dirName name = [] then (s, some s.tree.rootdir) else vfsOpen env.toEnv (dirName name) s

/-- What `mkfile` of the file system answers. -/
def mkfileAnswer (env : DirEnv φ) (parent : NodeId) (filename : Text) (s : State φ) : Int :=
  let node := s.tree.allocated
  let s := s.alloc parent filename
  ((env.dirs (s.tree.nodes parent).fsid).mkfile s.tree (s.tree.nodes parent).handle filename node).2

/-- `vfs_mkfile`; `fullpath` is freed at its end only. -/
def mkfileRun (env : DirEnv φ) (name : Text) (s : State φ) : Creation φ :=
  if name.head? ≠ some '/' then ⟨s, vfsStatusFailed, false, 0⟩
  else
    match mkfileParent env name s with
    | (s, none) => ⟨s, vfsStatusFailed, false, 1⟩
    | (s, some parent) =>
      if (s.tree.nodes parent).type ≠ fileDir then ⟨s, vfsStatusFailed, false, 1⟩
      else
        let made := makeFile env parent (baseName name) s
        ⟨made.1, made.2, mkfileAnswer env parent (baseName name) s < 0, 0⟩

def Creation.Failed (c : Creation φ) : Prop := c.status < 0 ∨ c.reported = true

/-- The same nodes under the root, which are referred to as often, and as many nodes as before in memory. -/
structure SameNodes (s s' : State φ) : Prop where
  reached : ∀ n, Reached s'.tree n ↔ Reached s.tree n
  refcount : ∀ n, Reached s.tree n → s'.refcount n = s.refcount n
  allocated : s'.tree.allocated = s.tree.allocated
  freed : s'.freed = s.freed

theorem SameNodes.refl (s : State φ) : SameNodes s s := ⟨fun _ => .rfl, fun _ _ => rfl, rfl, rfl⟩

def Unchanged (s : State φ) (c : Creation φ) : Prop := SameNodes s c.state ∧ c.copies = 0

def LeavesUnchanged (s : State φ) (c : Creation φ) : Prop := c.Failed → Unchanged s c

def Enters (env : DirEnv φ) : List Text → NodeId → State φ → Prop
  | [], _, _ => True
  | buf :: rest, current, s =>
    match mkdirStep env buf current s with
    | .enters s next => Enters env rest next s
    | .makes s node answer => 0 ≤ answer ∧ Enters env rest node s
    | .stops _ => False

/-- Where no component is missing, what bringing the nodes on the way up to date has left. -/
def updated (env : DirEnv φ) : List Text → NodeId → State φ → Option (State φ)
  | [], _, s => some s
  | buf :: rest, current, s =>
    match mkdirStep env buf current s with
    | .enters s next => updated env rest next s
    | .makes _ _ _ => none
    | .stops s => some s

/-- No file system takes the memory of a node back that it has not allocated. -/
structure Lasting (env : DirEnv φ) : Prop where
  stat : ∀ i t n, t.allocated ≤ ((env.callbacks i).stat t n).allocated
  opening : ∀ i t n, t.allocated ≤ ((env.callbacks i).opening t n).allocated
  close : ∀ i t n, t.allocated ≤ ((env.callbacks i).close t n).allocated
  del : ∀ i t n, t.allocated ≤ ((env.callbacks i).del t n).allocated
  mkdir : ∀ i t handle name n, t.allocated ≤ ((env.dirs i).mkdir t handle name n).1.allocated
  mkfile : ∀ i t handle name n, t.allocated ≤ ((env.dirs i).mkfile t handle name n).1.allocated

section

variable {env : DirEnv φ} {s s' : State φ} {t : Tree φ} {n current : NodeId} {name buf : Text} {names : List Text}

@[simp] theorem Tree.set_allocated (t : Tree φ) (n : NodeId) (node : VfsNode) :
    (t.set n node).allocated = t.allocated := rfl

@[simp] theorem Tree.setType_allocated (t : Tree φ) (n : NodeId) (type : BitVec 16) :
    (t.setType n type).allocated = t.allocated := rfl

@[simp] theorem Tree.clearHandle_allocated (t : Tree φ) (n : NodeId) : (t.clearHandle n).allocated = t.allocated := rfl

@[simp] theorem Tree.unlist_allocated (t : Tree φ) (n : NodeId) : (t.unlist n).allocated = t.allocated := by
  rw [Tree.unlist]
  split <;> rfl

@[simp] theorem Tree.unlink_allocated (t : Tree φ) (n : NodeId) : (t.unlink n).allocated = t.allocated := by
  rw [Tree.unlink]
  split <;> simp

section

variable (hEnv : Lasting env)

include hEnv

theorem Lasting.doOpen (t : Tree φ) (n : NodeId) : t.allocated ≤ (Vfs.doOpen env.toEnv t n).allocated := by
  rw [Vfs.doOpen]
  cases hcall : openCallback env.toEnv t n with
  | none => exact le_rfl
  | some t' =>
    have hgrown : t.allocated ≤ t'.allocated := by
      rw [openCallback] at hcall
      split at hcall
      · exact Option.some.inj hcall ▸ hEnv.stat _ t n
      · split at hcall
        · cases hcall
        · split at hcall
          · cases hcall
          · exact Option.some.inj hcall ▸ hEnv.opening _ t n
    simp only
    split <;> simpa using hgrown

theorem Lasting.doUpdate (t : Tree φ) (n : NodeId) : t.allocated ≤ (Vfs.doUpdate env.toEnv t n).allocated := by
  simp only [Vfs.doUpdate]
  split_ifs
  · exact le_rfl
  · exact hEnv.doOpen t n
  · exact le_rfl

theorem Lasting.closeHandle (t : Tree φ) (n : NodeId) :
    t.allocated ≤ (Vfs.closeHandle env.toEnv t n).allocated := by
  rw [Vfs.closeHandle]
  split
  · exact hEnv.close _ t n
  · exact le_rfl

theorem Lasting.closeNode (t : Tree φ) (n : NodeId) (gone : Bool) :
    t.allocated ≤ (Vfs.closeNode env.toEnv t n gone).1.allocated := by
  have hhandle := hEnv.closeHandle t n
  have hclose : t.allocated ≤ ((callbackof env.toEnv t n).close t n).allocated := hEnv.close _ t n
  have hdel : t.allocated ≤ ((callbackof env.toEnv t n).del t n).allocated := hEnv.del _ t n
  simp only [Vfs.closeNode]
  split_ifs <;> simp [hhandle, hclose, hdel]

theorem Lasting.vfsClose (s : State φ) (n : NodeId) :
    s.tree.allocated ≤ (Vfs.vfsClose env.toEnv s n).tree.allocated := by
  have hnode := hEnv.closeNode s.tree n
  simp only [Vfs.vfsClose]
  split_ifs
  · exact le_rfl
  · exact hnode _
  · exact hnode _

end

def Grows (f : State φ → State φ × Option NodeId) : Prop := ∀ s, s.tree.allocated ≤ (f s).1.tree.allocated

theorem Lasting.linkTarget (s : State φ) (link : NodeId) {o : Text → State φ → State φ × Option NodeId}
    (ho : ∀ path, Grows (o path)) : s.tree.allocated ≤ (Vfs.linkTarget env.toEnv o s link).1.tree.allocated := by
  rw [Vfs.linkTarget]
  simp only
  generalize hs₁ : (if dynamicSymlink s.tree link then s else s.withTree
    (s.tree.setType link (fileSymlink ||| fileProxy))) = s₁
  have hsame : s.tree.allocated = s₁.tree.allocated := by
    rw [← hs₁]
    split <;> rfl
  split
  next => exact hsame.le
  next =>
    split
    next => exact hsame.le
    next path _ =>
      have hopened := ho path s₁
      simp only
      split
      next => exact hsame.le.trans hopened
      next => exact hsame.le.trans hopened

section

variable (hEnv : Lasting env)

include hEnv

theorem Lasting.walk {o : Text → State φ → State φ × Option NodeId} (ho : ∀ path, Grows (o path))
    (follow : Bool) (toks : List (Text × Bool)) (current : NodeId) (acquired : Option NodeId) (s : State φ) :
    s.tree.allocated ≤ (Vfs.walk env.toEnv o follow toks current acquired s).1.tree.allocated := by
  induction toks generalizing current acquired s with
  | nil => exact le_rfl
  | cons tok rest ih =>
    obtain ⟨buf, final⟩ := tok
    rw [Vfs.walk]
    obtain rfl | hdot := eq_or_ne buf dot
    · rw [if_pos rfl]
      exact ih current acquired s
    obtain rfl | hdotDot := eq_or_ne buf dotDot
    · rw [if_neg hdot, if_pos rfl]
      exact ih _ acquired s
    rw [if_neg hdot, if_neg hdotDot]
    cases hfind : vfsChildFind s.tree current buf with
    | none => exact le_rfl
    | some child =>
      simp only
      generalize hs₁ : (if final then s.ref child else s) = s₁
      generalize (if final then some child else acquired) = acquired
      have hsame : s.tree.allocated = s₁.tree.allocated := by
        rw [← hs₁]
        split <;> rfl
      rw [hsame]
      have hupdated : s₁.tree.allocated ≤ (s₁.withTree (Vfs.doUpdate env.toEnv s₁.tree child)).tree.allocated :=
        hEnv.doUpdate s₁.tree child
      generalize s₁.withTree (Vfs.doUpdate env.toEnv s₁.tree child) = s₂ at hupdated ⊢
      refine hupdated.trans ?_
      have htarget := @Lasting.linkTarget _ env s₂ child o ho
      generalize Vfs.linkTarget env.toEnv o s₂ child = r at htarget ⊢
      obtain ⟨s₃, target, cached⟩ := r
      replace htarget : s₂.tree.allocated ≤ s₃.tree.allocated := htarget
      cases target with
      | none =>
        simp only
        split_ifs
        · exact le_rfl
        · exact le_rfl
        · exact htarget
        · exact ih _ _ _
      | some target =>
        simp only
        split_ifs
        · exact le_rfl
        · exact le_rfl
        · exact htarget.trans (hEnv.vfsClose s₃ child)
        · exact htarget.trans ((hEnv.vfsClose (s₃.ref target) child).trans (ih _ _ _))
        · exact htarget.trans ((hEnv.vfsClose s₃ child).trans (ih _ _ _))
        · exact htarget.trans (ih _ _ _)
        · exact ih _ _ _

theorem Lasting.vfsOpenImpl (depth : Nat) (follow allowAlias : Bool) (str : Text) :
    Grows (Vfs.vfsOpenImpl env.toEnv depth follow allowAlias str) := by
  induction depth generalizing follow allowAlias str with
  | zero => exact fun _ => le_rfl
  | succ depth ih =>
    intro s
    have hwalk := hEnv.walk (ih true true) follow (pathTokens str.tail) s.tree.rootdir none s
    rw [Vfs.vfsOpenImpl]
    generalize Vfs.walk env.toEnv (Vfs.vfsOpenImpl env.toEnv depth true true) follow (pathTokens str.tail)
      s.tree.rootdir none s = r at hwalk ⊢
    obtain ⟨s₁, found⟩ := r
    replace hwalk : s.tree.allocated ≤ s₁.tree.allocated := hwalk
    generalize (if allowAlias then env.vfsAlias str else none) = again
    split_ifs
    · exact le_rfl
    · exact le_rfl
    · exact le_rfl
    · cases found with
      | found current => exact hwalk
      | err acquired =>
        have hclosed : s₁.tree.allocated ≤ (match acquired with
            | none => s₁
            | some node => Vfs.vfsClose env.toEnv s₁ node).tree.allocated := by
          cases acquired with
          | none => exact le_rfl
          | some node => exact hEnv.vfsClose s₁ node
        cases again with
        | none => exact hwalk.trans hclosed
        | some target => exact (hwalk.trans hclosed).trans (ih follow false target _)

theorem Lasting.mkfileParent (name : Text) (s : State φ) :
    s.tree.allocated ≤ (Vfs.mkfileParent env name s).1.tree.allocated := by
  rw [Vfs.mkfileParent]
  split
  · exact le_rfl
  · exact hEnv.vfsOpenImpl _ true true _ s

theorem Lasting.makeFile {parent : NodeId} (hType : (s.tree.nodes parent).type = fileDir)
    (filename : Text) : s.tree.allocated < (Vfs.makeFile env parent filename s).1.tree.allocated ∧
      (Vfs.makeFile env parent filename s).2 = mkfileAnswer env parent filename s := by
  rw [Vfs.makeFile, if_neg (not_not.mpr hType)]
  exact ⟨hEnv.mkfile _ (s.alloc parent filename).tree _ filename _, rfl⟩

theorem Lasting.makeDirectory (s : State φ) (father : NodeId) (buf : Text) :
    s.tree.allocated < (Vfs.makeDirectory env s father buf).tree.allocated := by
  have hmade := hEnv.mkdir (((s.alloc father buf).tree.setType s.tree.allocated fileDir).nodes father).fsid
    ((s.alloc father buf).tree.setType s.tree.allocated fileDir)
    (((s.alloc father buf).tree.setType s.tree.allocated fileDir).nodes father).handle buf s.tree.allocated
  exact (Nat.lt_succ_self _).trans_le (hmade.trans (hEnv.doUpdate _ _))

end

theorem mkdirLoop_cons (env : DirEnv φ) (buf : Text) (rest : List Text) (current : NodeId) (s : State φ) :
    mkdirLoop env (buf :: rest) current s =
      match mkdirStep env buf current s with
      | .enters s next => mkdirLoop env rest next s
      | .makes s node _ => mkdirLoop env rest node s
      | .stops s => (s, vfsStatusFailed) := by
  rw [mkdirLoop, mkdirStep]
  generalize (if buf = dotDot then (s.tree.nodes current).parent else vfsChildFind s.tree current buf) = entry
  split_ifs
  · rfl
  · rfl
  · cases entry with
    | none => rfl
    | some next =>
      simp only
      split <;> rfl

theorem mkdirStep_spec (hEnv : Lasting env) (buf : Text) (current : NodeId) (s : State φ) :
    match mkdirStep env buf current s with
    | .enters s' _ => s.tree.allocated ≤ s'.tree.allocated
    | .makes s' _ _ => s.tree.allocated < s'.tree.allocated
    | .stops s' => s.tree.allocated ≤ s'.tree.allocated := by
  rw [mkdirStep]
  generalize (if buf = dotDot then (s.tree.nodes current).parent else vfsChildFind s.tree current buf) = entry
  split_ifs
  · exact le_rfl
  · exact le_rfl
  · cases entry with
    | none => exact hEnv.makeDirectory s current buf
    | some next =>
      have hgrown := hEnv.doUpdate s.tree next
      simp only
      generalize ((s.withTree (doUpdate env.toEnv s.tree next)).tree.nodes next).is fileDir = directory
      cases directory <;> exact hgrown

theorem mkdirLoop_allocated (hEnv : Lasting env) (names : List Text) (current : NodeId) (s : State φ) :
    s.tree.allocated ≤ (mkdirLoop env names current s).1.tree.allocated := by
  induction names generalizing current s with
  | nil => exact le_rfl
  | cons buf rest ih =>
    have hstep := mkdirStep_spec hEnv buf current s
    rw [mkdirLoop_cons]
    cases hround : mkdirStep env buf current s with
    | enters s₁ next =>
      rw [hround] at hstep
      exact hstep.trans (ih next s₁)
    | makes s₁ node answer =>
      rw [hround] at hstep
      exact hstep.le.trans (ih node s₁)
    | stops s₁ =>
      rw [hround] at hstep
      exact hstep

theorem mkdirLoop_fails (env : DirEnv φ) (names : List Text) (current : NodeId) (s : State φ) :
    (mkdirLoop env names current s).2 < 0 ∨ mkdirReports env names current s ↔ ¬Enters env names current s := by
  induction names generalizing current s with
  | nil => simp [mkdirLoop, mkdirReports, Enters, vfsStatusSuccess]
  | cons buf rest ih =>
    rw [mkdirLoop_cons, mkdirReports, Enters]
    cases mkdirStep env buf current s with
    | enters s₁ next => exact ih next s₁
    | makes s₁ node answer =>
      have hrest := ih node s₁
      simp only [Bool.or_eq_true, decide_eq_true_eq, not_and] at hrest ⊢
      rw [or_left_comm, hrest, ← not_lt, imp_iff_not_or, not_not]
    | stops s₁ => simp [vfsStatusFailed]

theorem mkdirLoop_updated (hEnv : Lasting env) (names : List Text) (current : NodeId) (s : State φ) :
    match updated env names current s with
    | some s' => (mkdirLoop env names current s).1 = s'
    | none => s.tree.allocated < (mkdirLoop env names current s).1.tree.allocated := by
  induction names generalizing current s with
  | nil => rfl
  | cons buf rest ih =>
    have hstep := mkdirStep_spec hEnv buf current s
    rw [mkdirLoop_cons, updated]
    cases hround : mkdirStep env buf current s with
    | enters s₁ next =>
      have hrest := ih next s₁
      rw [hround] at hstep
      simp only
      cases hupdated : updated env rest next s₁ with
      | some s' =>
        rw [hupdated] at hrest
        exact hrest
      | none =>
        rw [hupdated] at hrest
        exact hstep.trans_lt hrest
    | makes s₁ node answer =>
      rw [hround] at hstep
      exact hstep.trans_le (mkdirLoop_allocated hEnv rest node s₁)
    | stops s₁ => rfl

def MkdirClean (env : DirEnv φ) (name : Text) (s : State φ) : Prop :=
  let names := (pathTokens name.tail).map Prod.fst
  name.head? ≠ some '/' ∨ Enters env names s.tree.rootdir s ∨
    ∃ s', updated env names s.tree.rootdir s = some s' ∧ SameNodes s s'

/-- There is the directory, which is nothing else, and its file system makes the file. -/
def MkfileClean (env : DirEnv φ) (name : Text) (s : State φ) : Prop :=
  name.head? ≠ some '/' ∨
    ∃ parent, (mkfileParent env name s).2 = some parent ∧
      ((mkfileParent env name s).1.tree.nodes parent).type = fileDir ∧
      0 ≤ mkfileAnswer env parent (baseName name) (mkfileParent env name s).1

theorem leavesUnchanged_of_relative (h : name.head? ≠ some '/') (s : State φ) :
    LeavesUnchanged s (mkdirRun env name s) ∧ LeavesUnchanged s (mkfileRun env name s) := by
  rw [mkdirRun, if_pos h, mkfileRun, if_pos h]
  exact ⟨fun _ => ⟨.refl s, rfl⟩, fun _ => ⟨.refl s, rfl⟩⟩

theorem mkdirRun_unchanged_iff (hEnv : Lasting env) (name : Text) (s : State φ) :
    LeavesUnchanged s (mkdirRun env name s) ↔ MkdirClean env name s := by
  obtain hrelative | habsolute := ne_or_eq name.head? (some '/')
  · exact iff_of_true (leavesUnchanged_of_relative hrelative s).1 (.inl hrelative)
  · have hfails := mkdirLoop_fails env ((pathTokens name.tail).map Prod.fst) s.tree.rootdir s
    have hupdated := mkdirLoop_updated hEnv ((pathTokens name.tail).map Prod.fst) s.tree.rootdir s
    rw [LeavesUnchanged, mkdirRun, if_neg (not_not.mpr habsolute), MkdirClean]
    simp only [Creation.Failed, Unchanged, hfails, and_true]
    constructor
    · intro h
      right
      obtain henters | hstops := Classical.em (Enters env ((pathTokens name.tail).map Prod.fst) s.tree.rootdir s)
      · exact .inl henters
      · right
        have hsame := h hstops
        cases hwhere : updated env ((pathTokens name.tail).map Prod.fst) s.tree.rootdir s with
        | some s' =>
          rw [hwhere] at hupdated
          exact ⟨s', rfl, hupdated ▸ hsame⟩
        | none =>
          rw [hwhere] at hupdated
          exact absurd hsame.allocated hupdated.ne'
    · rintro (hrelative | henters | ⟨s', hwhere, hsame⟩) hstops
      · exact absurd habsolute hrelative
      · exact absurd henters hstops
      · rw [hwhere] at hupdated
        exact hupdated ▸ hsame

theorem mkfileRun_unchanged_iff (hEnv : Lasting env) (name : Text) (s : State φ) :
    LeavesUnchanged s (mkfileRun env name s) ↔ MkfileClean env name s := by
  obtain hrelative | habsolute := ne_or_eq name.head? (some '/')
  · exact iff_of_true (leavesUnchanged_of_relative hrelative s).2 (.inl hrelative)
  · have hgrown := hEnv.mkfileParent name s
    rw [LeavesUnchanged, mkfileRun, if_neg (not_not.mpr habsolute), MkfileClean]
    simp only [habsolute, ne_eq, not_true_eq_false, false_or]
    have hstatus : vfsStatusFailed < 0 := by decide
    generalize mkfileParent env name s = r at hgrown ⊢
    obtain ⟨s₁, found⟩ := r
    cases found with
    | none => exact iff_of_false (fun h => absurd (h (.inl hstatus)).2 one_ne_zero) (by simp)
    | some parent =>
      simp only
      split
      next hType =>
        exact iff_of_false (fun h => absurd (h (.inl hstatus)).2 one_ne_zero) (by simp [hType])
      next hType =>
        obtain ⟨hmore, hanswer⟩ := hEnv.makeFile (not_not.mp hType) (baseName name)
        constructor
        · intro h
          refine ⟨parent, rfl, not_not.mp hType, not_lt.mp fun hnegative => ?_⟩
          have hsame := (h (.inr (decide_eq_true hnegative))).1.allocated
          exact absurd hsame (hgrown.trans_lt hmore).ne'
        · rintro ⟨_, hfound, -, hanswered⟩ hfailed
          cases hfound
          obtain hnegative | hreported := hfailed
          · exact absurd (hanswer ▸ hnegative) (not_lt.mpr hanswered)
          · exact absurd (of_decide_eq_true hreported) (not_lt.mpr hanswered)

/-- When a failure to make a directory, and one to make a file, leaves everything as it was. -/
theorem creation_unchanged_iff (hEnv : Lasting env) (name : Text) (s : State φ) :
    (LeavesUnchanged s (mkdirRun env name s) ↔ MkdirClean env name s) ∧
      (LeavesUnchanged s (mkfileRun env name s) ↔ MkfileClean env name s) :=
  ⟨mkdirRun_unchanged_iff hEnv name s, mkfileRun_unchanged_iff hEnv name s⟩

end

def besideFile : State Unit where
  tree :=
    { nodes := fun n =>
        { parent := if n = 1 then some 0 else none, linkto := none, name := if n = 1 then some ['f'] else none,
          linkname := none, type := if n = 1 then fileNone else fileDir, fsid := 0, handle := none,
          child := if n = 0 then [1] else [] }
      rootdir := 0
      allocated := 2
      store := () }
  refcount := fun _ => 1
  freed := fun _ => false

def willing : DirEnv Unit where
  toEnv := idle
  dirs _ :=
    { mkdir := fun t _ _ _ => (t, 0), mkfile := fun t _ _ _ => (t, 0), del := fun t _ _ => (t, 0),
      rename := fun t _ _ => (t, 0) }

theorem willing_lasting : Lasting willing where
  stat _ _ _ := le_rfl
  opening _ _ _ := le_rfl
  close _ _ _ := le_rfl
  del _ _ _ := le_rfl
  mkdir _ _ _ _ _ := le_rfl
  mkfile _ _ _ _ _ := le_rfl

def newBeforeFile : Text := ['/', 'n', '/', '.', '.', '/', 'f', '/', 'x']

theorem creation_unchanged_iff_beside :
    (LeavesUnchanged besideFile (mkdirRun willing newBeforeFile besideFile) ↔
        MkdirClean willing newBeforeFile besideFile) ∧
      (LeavesUnchanged besideFile (mkfileRun willing newBeforeFile besideFile) ↔
        MkfileClean willing newBeforeFile besideFile) :=
  creation_unchanged_iff willing_lasting newBeforeFile besideFile

/-- `/n/../f/x` leaves the directory `n`, and the file `/f/x` leaves a copy of its path. -/
theorem creation_leaves :
    ¬LeavesUnchanged besideFile (mkdirRun willing newBeforeFile besideFile) ∧
      ¬LeavesUnchanged besideFile (mkfileRun willing ['/', 'f', '/', 'x'] besideFile) := by
  constructor
  · intro h
    have hsame := (h (.inl (by decide))).1.allocated
    revert hsame
    decide
  · intro h
    have hfreed := (h (.inl (by decide))).2
    revert hfreed
    decide

end OpenXJ380.Vfs
