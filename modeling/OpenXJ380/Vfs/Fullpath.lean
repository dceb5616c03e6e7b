import OpenXJ380.Vfs.Normalize

/-! # The path of a node (`vfs_get_fullpath` of `driver/fs/vfs/vfs.cpp`)

The nodes from a node up to the root are collected in an array that grows. A first pass
over them adds up how long the path is, and a second pass writes it.
-/

namespace OpenXJ380.Vfs

open List (length_append length_singleton map_cons tail_cons)


variable {φ : Type}

def sizeMax : Nat := 2 ^ 64 - 1

def nodesBytes (capacity : Nat) : Nat := 8 * capacity

/-- The nodes from one on upwards, behind those that have been collected; `memory` says whether there is memory of a
size, `some none` is a return of `NULL`, and no result stands for too few rounds. -/
def collect (memory : Nat → Bool) (t : Tree φ) : Nat → Option NodeId → List NodeId → Nat → Option (Option (List NodeId))
  | _, none, nodes, _ => some (some nodes)
  | 0, some _, _, _ => none
  | rounds + 1, some current, nodes, capacity =>
    if nodes.length = capacity then
      if capacity > sizeMax / 2 / 8 then some none
      else if !memory (nodesBytes (capacity * 2)) then some none
      else collect memory t rounds (t.nodes current).parent (nodes ++ [current]) (capacity * 2)
    else collect memory t rounds (t.nodes current).parent (nodes ++ [current]) capacity

def pathLength (t : Tree φ) : List NodeId → Nat → Option Nat
  | [], length => some length
  | current :: rest, length =>
    if current = t.rootdir then pathLength t rest length
    else
      match (t.nodes current).name with
      | none => none
      | some name =>
        let separator := if rest = [] then 0 else 1
        if name.length > sizeMax - length - separator - 1 then none
        else pathLength t rest (length + (name.length + separator))

def writePath (capacity : Nat) (t : Tree φ) : List NodeId → Text → Option Text
  | [], path => store capacity path
  | current :: rest, path =>
    if current = t.rootdir then writePath capacity t rest path
    else do
      let path ← store capacity (path ++ (t.nodes current).name.getD [])
      let path ← if rest = [] then some path else store capacity (path ++ ['/'])
      writePath capacity t rest path

/-- `vfs_get_fullpath`; `some none` is the `NULL` it returns, and no result stands for a fault or for too few rounds. -/
def fullpath (memory : Nat → Bool) (t : Tree φ) (rounds : Nat) (node : NodeId) : Option (Option Text) :=
  if !memory (nodesBytes 32) then some none
  else do
    match ← collect memory t rounds (some node) [] 32 with
    | none => some none
    | some nodes =>
      match pathLength t nodes.reverse 1 with
      | none => some none
      | some length =>
        if !memory (length + 1) then some none
        else (writePath (length + 1) t nodes.reverse ['/']).map some

inductive Reached (t : Tree φ) : NodeId → Prop
  | root : Reached t t.rootdir
  | child {p c : NodeId} : Reached t p → c ∈ (t.nodes p).child → Reached t c

/-- Every node has a name of its own among the children of its parent, which stands for itself in a path. -/
structure Orderly (t : Tree φ) : Prop where
  top : (t.nodes t.rootdir).parent = none
  parent : ∀ p c, Reached t p → c ∈ (t.nodes p).child → (t.nodes c).parent = some p
  plain : ∀ p c, Reached t p → c ∈ (t.nodes p).child → ∃ name, (t.nodes c).name = some name ∧ Plain name
  live : ∀ p c, Reached t p → c ∈ (t.nodes p).child →
    (t.nodes c).is fileSymlink = false ∧ (t.nodes c).is fileDelete = false
  distinct : ∀ p c d, Reached t p → c ∈ (t.nodes p).child → d ∈ (t.nodes p).child →
    (t.nodes c).name = (t.nodes d).name → c = d

/-- What a file system leaves of a tree: its nodes stay where they are, and what comes new is as orderly. -/
structure Stays (t t' : Tree φ) : Prop where
  orderly : Orderly t'
  root : t'.rootdir = t.rootdir
  child : ∀ p c, Reached t p → c ∈ (t.nodes p).child → c ∈ (t'.nodes p).child ∧ (t'.nodes c).name = (t.nodes c).name

structure Quiet (env : Env φ) : Prop where
  stat : ∀ i t n, Orderly t → Stays t ((env.callbacks i).stat t n)
  opening : ∀ i t n, Orderly t → Stays t ((env.callbacks i).opening t n)

variable {t t' : Tree φ} {env : Env φ} {p c n : NodeId} {name : Text} {names : List Text}

/-- The nodes from the root, which is not one of them, down to a node, with their names. -/
inductive Line (t : Tree φ) : NodeId → List NodeId → List Text → Prop
  | root : Line t t.rootdir [] []
  | child {p c : NodeId} {nodes : List NodeId} {names : List Text} {name : Text} : Line t p nodes names → Reached t p →
      c ∈ (t.nodes p).child → (t.nodes c).name = some name → Plain name → Line t c (nodes ++ [c]) (names ++ [name])

theorem Reached.line (ht : Orderly t) (h : Reached t n) : ∃ nodes names, Line t n nodes names := by
  induction h with
  | root => exact ⟨[], [], .root⟩
  | child hp hc ih =>
    obtain ⟨nodes, names, hline⟩ := ih
    obtain ⟨name, hname, hplain⟩ := ht.plain _ _ hp hc
    exact ⟨_, _, .child hline hp hc hname hplain⟩

theorem Line.plain {nodes : List NodeId} (h : Line t n nodes names) : ∀ name ∈ names, Plain name := by
  induction h with
  | root => simp
  | child _ _ _ _ hplain ih =>
    intro name hname
    obtain hname | hname := List.mem_append.mp hname
    · exact ih name hname
    · exact List.mem_singleton.mp hname ▸ hplain

theorem Orderly.child_ne_root (ht : Orderly t) (hp : Reached t p) (hc : c ∈ (t.nodes p).child) : c ≠ t.rootdir := by
  rintro rfl
  have hparent := ht.parent _ _ hp hc
  rw [ht.top] at hparent
  cases hparent

theorem Line.named {nodes : List NodeId} (ht : Orderly t) (h : Line t n nodes names) :
    nodes.map (fun m => (t.nodes m).name) = names.map some ∧ ∀ m ∈ nodes, m ≠ t.rootdir := by
  induction h with
  | root => simp
  | child _ hp hc hname _ ih =>
    refine ⟨by simp [ih.1, hname], fun m hm => ?_⟩
    obtain hm | hm := List.mem_append.mp hm
    · exact ih.2 m hm
    · exact List.mem_singleton.mp hm ▸ ht.child_ne_root hp hc

/-- Why there is no path: there is no memory, or the nodes or the path are too many for a size. -/
def Short (memory : Nat → Bool) (nodes length : Nat) : Prop :=
  (∃ size, memory size = false) ∨ 2 ^ 60 ≤ nodes ∨ sizeMax < length + 1

variable {memory : Nat → Bool} {nodes : List NodeId}

theorem collect_step (memory : Nat → Bool) (n : NodeId) (rounds : Nat) {capacity : Nat} (hcapacity : 0 < capacity)
    (hfits : nodes.length ≤ capacity) :
    collect memory t (rounds + 1) (some n) nodes capacity = some none ∧
        ((∃ size, memory size = false) ∨ 2 ^ 60 ≤ nodes.length) ∨
      ∃ capacity', 0 < capacity' ∧ nodes.length + 1 ≤ capacity' ∧
        collect memory t (rounds + 1) (some n) nodes capacity =
          collect memory t rounds (t.nodes n).parent (nodes ++ [n]) capacity' := by
  rw [collect]
  split_ifs with hfull hlarge hmemory
  · left
    have hsize : sizeMax / 2 / 8 = 2 ^ 60 - 1 := by decide
    exact ⟨rfl, .inr (by omega)⟩
  · left
    exact ⟨rfl, .inl ⟨_, by simpa using hmemory⟩⟩
  · exact .inr ⟨capacity * 2, by omega, by omega, rfl⟩
  · exact .inr ⟨capacity, hcapacity, by omega, rfl⟩

theorem Line.collect (memory : Nat → Bool) (ht : Orderly t) (h : Line t n nodes names) (rounds : Nat)
    (hrounds : nodes.length + 1 ≤ rounds)
    (above : List NodeId) {capacity : Nat} (hcapacity : 0 < capacity) (hfits : above.length ≤ capacity) :
    Vfs.collect memory t rounds (some n) above capacity = some (some (above ++ nodes.reverse ++ [t.rootdir])) ∨
      Vfs.collect memory t rounds (some n) above capacity = some none ∧
        ((∃ size, memory size = false) ∨ 2 ^ 60 ≤ above.length + nodes.length + 1) := by
  induction h generalizing rounds above capacity with
  | root =>
    obtain ⟨rounds, rfl⟩ : ∃ k, rounds = k + 1 := ⟨rounds - 1, by omega⟩
    obtain ⟨hnone, hwhy⟩ | ⟨capacity', -, -, hnext⟩ := collect_step memory t.rootdir rounds hcapacity hfits
    · exact .inr ⟨hnone, hwhy.imp_right fun hmany => by omega⟩
    · left
      rw [hnext, ht.top]
      simp [Vfs.collect]
  | @child p c nodes names name hline hp hc hname hplain ih =>
    obtain ⟨rounds, rfl⟩ : ∃ k, rounds = k + 1 := ⟨rounds - 1, by omega⟩
    rw [length_append, length_singleton] at hrounds
    obtain ⟨hnone, hwhy⟩ | ⟨capacity', hpositive, hroom, hnext⟩ := collect_step memory c rounds hcapacity hfits
    · exact .inr ⟨hnone, hwhy.imp_right fun hmany => by omega⟩
    · rw [hnext, ht.parent p c hp hc]
      have hlater := ih rounds (by omega) (above ++ [c]) hpositive (by simpa using hroom)
      simpa [add_assoc, add_comm 1] using hlater

theorem rendered_eq (names : List Text) : rendered names = '/' :: (joined names).tail := by
  cases names with
  | nil => rfl
  | cons name names => rw [rendered, if_neg (List.cons_ne_nil _ _), joined_cons, tail_cons]

theorem tail_joined_cons (name : Text) (names : List Text) :
    (joined (name :: names)).tail = name ++ if names = [] then [] else '/' :: (joined names).tail := by
  cases names with
  | nil => simp
  | cons d names => simp

theorem names_cons {m : NodeId} (h : (m :: nodes).map (fun n => (t.nodes n).name) = names.map some) :
    ∃ name rest, names = name :: rest ∧
      ((t.nodes m).name = some name ∧ nodes.map (fun n => (t.nodes n).name) = rest.map some) ∧
      (nodes = [] ↔ rest = []) := by
  cases names with
  | nil => simp at h
  | cons name rest =>
    rw [map_cons, map_cons, List.cons.injEq] at h
    refine ⟨name, rest, rfl, h, ?_⟩
    rw [← List.map_eq_nil_iff, h.2, List.map_eq_nil_iff]

theorem pathLength_eq {length : Nat} (hnames : nodes.map (fun m => (t.nodes m).name) = names.map some)
    (hroot : ∀ m ∈ nodes, m ≠ t.rootdir) :
    pathLength t nodes length = some (length + (joined names).tail.length) ∨
      pathLength t nodes length = none ∧ sizeMax < length + (joined names).tail.length + 1 := by
  induction nodes generalizing names length with
  | nil =>
    obtain rfl : names = [] := by simpa using hnames.symm
    exact .inl rfl
  | cons m nodes ih =>
    obtain ⟨name, names, rfl, hnames, hempty⟩ := names_cons hnames
    rw [pathLength, if_neg (hroot m (.head _)), hnames.1]
    simp only [hempty]
    have hlater (length : Nat) := @ih names length hnames.2 fun x hx => hroot x (.tail m hx)
    obtain ⟨separator, hseparator, htail⟩ : ∃ separator, (if names = [] then 0 else 1) = separator ∧
        (joined (name :: names)).tail.length = name.length + (separator + (joined names).tail.length) := by
      refine ⟨_, rfl, ?_⟩
      rw [tail_joined_cons, length_append]
      split
      next hnil => simp [hnil]
      next => simp [add_comm]
    rw [hseparator, htail]
    split
    next hlarge => exact .inr ⟨rfl, by omega⟩
    next =>
      have hsum : length + (name.length + (separator + (joined names).tail.length)) =
          length + (name.length + separator) + (joined names).tail.length := by omega
      rw [hsum]
      exact hlater _

theorem writePath_eq {capacity : Nat} {path : Text} (hnames : nodes.map (fun m => (t.nodes m).name) = names.map some)
    (hroot : ∀ m ∈ nodes, m ≠ t.rootdir) (hfits : path.length + (joined names).tail.length + 1 ≤ capacity) :
    writePath capacity t nodes path = some (path ++ (joined names).tail) := by
  induction nodes generalizing names path with
  | nil =>
    obtain rfl : names = [] := by simpa using hnames.symm
    rw [writePath, store, if_pos (by simpa using hfits)]
    simp
  | cons m nodes ih =>
    obtain ⟨name, names, rfl, hnames, hempty⟩ := names_cons hnames
    have hname : (t.nodes m).name.getD [] = name := by rw [hnames.1, Option.getD_some]
    rw [tail_joined_cons, length_append] at hfits
    rw [writePath, if_neg (hroot m (.head _)), hname, tail_joined_cons]
    have hfirst : store capacity (path ++ name) = some (path ++ name) := if_pos (by rw [length_append]; omega)
    simp only [hfirst, hempty, Option.bind_eq_bind, Option.bind_some]
    have hlater (path : Text) := @ih names path hnames.2 fun x hx => hroot x (.tail m hx)
    by_cases hnil : names = []
    · rw [if_pos hnil, if_pos hnil, List.append_nil]
      rw [if_pos hnil] at hfits
      have hrest := hlater (path ++ name)
        (by simp only [hnil, joined_nil, List.tail_nil, length_append]; simpa [add_assoc] using hfits)
      simpa [hnil] using hrest
    · rw [if_neg hnil, if_neg hnil]
      rw [if_neg hnil, List.length_cons] at hfits
      have hslash : store capacity (path ++ name ++ ['/']) = some (path ++ name ++ ['/']) :=
        if_pos (by simp only [length_append, length_singleton]; omega)
      rw [hslash, Option.bind_some, hlater (path ++ name ++ ['/'])
        (by simp only [length_append, length_singleton]; omega)]
      simp

theorem Line.fullpath (memory : Nat → Bool) (ht : Orderly t) (h : Line t n nodes names) (rounds : Nat)
    (hrounds : nodes.length + 1 ≤ rounds) :
    Vfs.fullpath memory t rounds n = some (some (rendered names)) ∧
        Vfs.collect memory t rounds (some n) [] 32 = some (some (t.rootdir :: nodes).reverse) ∧
        pathLength t (t.rootdir :: nodes) 1 = some (rendered names).length ∨
      Vfs.fullpath memory t rounds n = some none ∧ Short memory (nodes.length + 1) (rendered names).length := by
  obtain ⟨hnames, hroot⟩ := h.named ht
  have hrendered := rendered_eq names
  have hlength : (rendered names).length = 1 + (joined names).tail.length := by
    rw [hrendered, List.length_cons, add_comm]
  rw [Vfs.fullpath]
  split
  next hmemory => exact .inr ⟨rfl, .inl ⟨_, by simpa using hmemory⟩⟩
  next =>
    obtain hall | ⟨hnone, hwhy⟩ := h.collect memory ht rounds hrounds [] (show 0 < 32 by decide) (Nat.zero_le 32)
    · have hreverse : ([] ++ nodes.reverse ++ [t.rootdir]).reverse = t.rootdir :: nodes := by simp
      have hpass : pathLength t (t.rootdir :: nodes) 1 = pathLength t nodes 1 := if_pos rfl
      have hall' : Vfs.collect memory t rounds (some n) [] 32 = some (some (t.rootdir :: nodes).reverse) := by
        rw [hall, ← hreverse, List.reverse_reverse]
      simp only [hall, Option.bind_eq_bind, Option.bind_some, hreverse, hpass]
      obtain hlen | ⟨hnone, hlarge⟩ := pathLength_eq hnames hroot
      · rw [hlen, ← hlength]
        simp only
        split
        next hmemory => exact .inr ⟨rfl, .inl ⟨_, by simpa using hmemory⟩⟩
        next =>
          have hwrite : writePath ((rendered names).length + 1) t (t.rootdir :: nodes) ['/'] =
              writePath ((rendered names).length + 1) t nodes ['/'] := if_pos rfl
          rw [hwrite, writePath_eq hnames hroot (by rw [length_singleton]; omega), List.singleton_append, ← hrendered]
          exact .inl ⟨rfl, hall ▸ hall', trivial⟩
      · rw [hnone]
        exact .inr ⟨rfl, .inr (.inr (by omega))⟩
    · rw [hnone]
      exact .inr ⟨rfl, hwhy.imp_right fun hmany => .inl (by simpa using hmany)⟩

/-- The names with what `pathtok` says of each: whether it is the last one. -/
def marked : List Text → List (Text × Bool)
  | [] => []
  | name :: names => (name, names = []) :: marked names

theorem pathtok_joined (hname : Plain name) (names : List Text) :
    pathtok (name ++ joined names) = some (name, (joined names).tail) := by
  obtain ⟨c, rest, rfl⟩ := List.exists_cons_of_ne_nil hname.ne_nil
  have hc : c ≠ '/' := fun he => hname.noSlash (he ▸ (.head _))
  have hword : ∀ d ∈ c :: rest, decide (d ≠ '/') := fun d hd => decide_eq_true fun he => hname.noSlash (he ▸ hd)
  have hstop : (joined names).dropWhile (· ≠ '/') = joined names ∧ (joined names).takeWhile (· ≠ '/') = [] := by
    cases names <;> simp
  have hskip : (c :: rest ++ joined names).dropWhile (· = '/') = c :: rest ++ joined names :=
    List.dropWhile_cons_of_neg (by simpa using hc)
  rw [pathtok]
  simp only [hskip, List.takeWhile_append_of_pos hword, List.dropWhile_append_of_pos hword, hstop.1, hstop.2,
    List.append_nil]
  rw [if_neg (by simp)]
  cases names <;> simp

theorem tokens_joined (h : ∀ d ∈ name :: names, Plain d) (rounds : Nat) (hrounds : names.length + 1 ≤ rounds) :
    tokens rounds (name ++ joined names) = marked (name :: names) := by
  induction names generalizing name rounds with
  | nil =>
    obtain ⟨rounds, rfl⟩ : ∃ k, rounds = k + 1 := ⟨rounds - 1, by omega⟩
    have htok := pathtok_joined (h name (.head _)) []
    rw [tokens, htok]
    cases rounds <;> simp [marked, tokens, pathtok]
  | cons d names ih =>
    obtain ⟨rounds, rfl⟩ : ∃ k, rounds = k + 1 := ⟨rounds - 1, by omega⟩
    have hlater := ih (fun x hx => h x (.tail name hx)) rounds (by simpa using hrounds)
    rw [tokens, pathtok_joined (h name (.head _))]
    simp only [joined_cons, tail_cons, hlater]
    have hne : d ++ joined names ≠ [] := by simp [(h d (by simp)).ne_nil]
    simp [marked, hne]

def Down (t : Tree φ) : NodeId → List NodeId → List Text → Prop
  | _, [], [] => True
  | p, c :: nodes, name :: names => c ∈ (t.nodes p).child ∧ (t.nodes c).name = some name ∧ Down t c nodes names
  | _, _, _ => False

theorem Down.concat {p : NodeId} (h : Down t p nodes names) (hc : c ∈ (t.nodes (nodes.getLastD p)).child)
    (hname : (t.nodes c).name = some name) : Down t p (nodes ++ [c]) (names ++ [name]) := by
  induction nodes generalizing p names with
  | nil =>
    cases names with
    | nil => exact ⟨hc, hname, trivial⟩
    | cons d names => cases h
  | cons m nodes ih =>
    cases names with
    | nil => cases h
    | cons d names =>
      obtain ⟨hm, hd, hrest⟩ := h
      rw [List.getLastD_cons] at hc
      exact ⟨hm, hd, ih hrest hc⟩

theorem Line.down (h : Line t n nodes names) : Down t t.rootdir nodes names ∧ nodes.getLastD t.rootdir = n := by
  induction h with
  | root => exact ⟨trivial, rfl⟩
  | child _ _ hc hname _ ih => exact ⟨ih.1.concat (ih.2.symm ▸ hc) hname, List.getLastD_concat⟩

theorem Stays.refl (ht : Orderly t) : Stays t t := ⟨ht, rfl, fun _ _ _ hc => ⟨hc, rfl⟩⟩

theorem Stays.reached (h : Stays t t') (hn : Reached t n) : Reached t' n := by
  induction hn with
  | root => exact h.root ▸ .root
  | child hp hc ih => exact .child ih (h.child _ _ hp hc).1

theorem Stays.down (h : Stays t t') (hp : Reached t p) (hdown : Down t p nodes names) : Down t' p nodes names := by
  induction nodes generalizing p names with
  | nil =>
    cases names with
    | nil => trivial
    | cons d names => cases hdown
  | cons c nodes ih =>
    cases names with
    | nil => cases hdown
    | cons d names =>
      obtain ⟨hc, hd, hrest⟩ := hdown
      obtain ⟨hc', hsame⟩ := h.child p c hp hc
      exact ⟨hc', hsame.trans hd, ih (.child hp hc) hrest⟩

theorem Quiet.doUpdate (hEnv : Quiet env) (ht : Orderly t) (hp : Reached t p) (hc : c ∈ (t.nodes p).child) :
    Stays t (Vfs.doUpdate env t c) := by
  have hopen : Stays t (doOpen env t c) := by
    rw [doOpen]
    cases hcall : openCallback env t c with
    | none => exact .refl ht
    | some t' =>
      have hstays : Stays t t' := by
        rw [openCallback] at hcall
        split at hcall
        · exact Option.some.inj hcall ▸ hEnv.stat _ t c ht
        · split at hcall
          · cases hcall
          · split at hcall
            · cases hcall
            · exact Option.some.inj hcall ▸ hEnv.opening _ t c ht
      simpa [(ht.live p c hp hc).2] using hstays
  simp only [Vfs.doUpdate]
  split_ifs
  · exact .refl ht
  · exact hopen
  · exact .refl ht

theorem Orderly.vfsChildFind (ht : Orderly t) (hp : Reached t p) (hc : c ∈ (t.nodes p).child)
    (hname : (t.nodes c).name = some name) : Vfs.vfsChildFind t p name = some c := by
  have hlive := (ht.live p c hp hc).2
  cases hfind : Vfs.vfsChildFind t p name with
  | none =>
    have hnone := List.find?_eq_none.mp hfind c hc
    simp [hlive, hname] at hnone
  | some d =>
    have hd : d ∈ (t.nodes p).child := List.mem_of_find?_eq_some hfind
    have hmatch := List.find?_some hfind
    simp only [Bool.and_eq_true, decide_eq_true_eq] at hmatch
    exact congrArg some (ht.distinct p d c hp hd hc (hmatch.2.trans hname.symm))

theorem walk_down (hEnv : Quiet env) (o : Text → State φ → State φ × Option NodeId) {s : State φ} (ht : Orderly s.tree)
    (hp : Reached s.tree p) (hdown : Down s.tree p nodes names) (hplain : ∀ d ∈ names, Plain d)
    (acquired : Option NodeId) :
    (walk env o false (marked names) p acquired s).2 = .found (nodes.getLastD p) := by
  induction names generalizing p nodes s acquired with
  | nil =>
    cases nodes with
    | nil => rfl
    | cons c nodes => cases hdown
  | cons d names ih =>
    cases nodes with
    | nil => cases hdown
    | cons c nodes =>
      obtain ⟨hc, hd, hrest⟩ := hdown
      have hname := hplain d (.head _)
      have hstays := hEnv.doUpdate ht hp hc
      have hlink := (hstays.orderly.live p c (hstays.reached hp) (hstays.child p c hp hc).1).1
      rw [marked, walk, if_neg hname.ne_dot, if_neg hname.ne_dotDot, ht.vfsChildFind hp hc hd, List.getLastD_cons]
      by_cases hnil : names = []
      · obtain rfl : nodes = [] := by
          cases nodes with
          | nil => rfl
          | cons m nodes => rw [hnil] at hrest; cases hrest
        simp [hnil]
      · have hlater := @ih c nodes (s.withTree (Vfs.doUpdate env s.tree c)) hstays.orderly
          (hstays.reached (.child hp hc))
          (hstays.down (.child hp hc) hrest) (fun x hx => hplain x (.tail d hx)) acquired
        simpa [hnil, State.withTree, hlink] using hlater

/-- `vfs_open_no_follow`. -/
def vfsOpenNoFollow (env : Env φ) (str : Text) (s : State φ) : State φ × Option NodeId :=
  vfsOpenImpl env (vfsMaxLinkDepth + 1) false true str s

theorem Line.opened (hEnv : Quiet env) {s : State φ} (ht : Orderly s.tree) (h : Line s.tree n nodes names)
    (hmemory : env.memory vfsMaxLinkDepth (rendered names)) :
    (vfsOpenNoFollow env (rendered names) s).2 = some n := by
  obtain ⟨hdown, hlast⟩ := h.down
  have hplain := h.plain
  rw [vfsOpenNoFollow, vfsOpenImpl, if_neg (by rw [rendered_eq]; simp)]
  cases names with
  | nil =>
    cases nodes with
    | nil => exact congrArg some hlast
    | cons m nodes => cases hdown
  | cons name names =>
    have hname := hplain name (.head _)
    have htail : (rendered (name :: names)).tail = name ++ joined names := by
      rw [rendered, if_neg (List.cons_ne_nil _ _), joined_cons, tail_cons]
    have hroot : rendered (name :: names) ≠ ['/'] := fun he => by
      rw [he] at htail
      exact hname.ne_nil (List.append_eq_nil_iff.mp htail.symm).1
    have htokens : pathTokens (rendered (name :: names)).tail = marked (name :: names) := by
      rw [pathTokens, htail]
      refine tokens_joined hplain _ ?_
      have hlength := length_le_joined names
      have hpositive := List.length_pos_of_ne_nil hname.ne_nil
      rw [length_append]
      omega
    have hwalk := walk_down hEnv (vfsOpenImpl env vfsMaxLinkDepth true true) ht .root hdown hplain none
    obtain ⟨s', hs'⟩ : ∃ s', walk env (vfsOpenImpl env vfsMaxLinkDepth true true) false (marked (name :: names))
        s.tree.rootdir none s = (s', .found n) := ⟨_, Prod.ext rfl (hwalk.trans (congrArg Walked.found hlast))⟩
    rw [if_neg hroot, if_neg (by rw [hmemory]; decide), htokens, hs']

/-- The path of a node is canonical, as long as the first pass says, and opens the node, unless memory or a size is
too small. -/
theorem fullpath_opens (hEnv : Quiet env) (s : State φ) (ht : Orderly s.tree) (hn : Reached s.tree n)
    (memory : Nat → Bool) :
    ∃ enough, ∀ rounds, enough ≤ rounds → ∃ answer, fullpath memory s.tree rounds n = some answer ∧
      match answer with
      | none => ∃ nodes names, Line s.tree n nodes names ∧ Short memory (nodes.length + 1) (rendered names).length
      | some path => Canonical path ∧
          (∃ nodes, collect memory s.tree rounds (some n) [] 32 = some (some nodes) ∧
            pathLength s.tree nodes.reverse 1 = some path.length) ∧
          (env.memory vfsMaxLinkDepth path = true → (vfsOpenNoFollow env path s).2 = some n) := by
  obtain ⟨nodes, names, hline⟩ := hn.line ht
  refine ⟨nodes.length + 1, fun rounds hrounds => ?_⟩
  obtain ⟨hpath, hcollect, hlength⟩ | ⟨hnone, hshort⟩ := hline.fullpath memory ht rounds hrounds
  · exact ⟨_, hpath, canonical_rendered hline.plain, ⟨_, hcollect, by rw [List.reverse_reverse]; exact hlength⟩,
      hline.opened hEnv ht⟩
  · exact ⟨_, hnone, nodes, names, hline, hshort⟩

/-- A directory in the root with a file in it, on a file system that does nothing. -/
def nested : State Unit where
  tree :=
    { nodes := fun n =>
        { parent := if n = 1 then some 0 else if n = 2 then some 1 else none, linkto := none,
          name := if n = 1 then some ['a'] else if n = 2 then some ['b'] else none, linkname := none,
          type := fileDir, fsid := 0, handle := none, child := if n = 0 then [1] else if n = 1 then [2] else [] }
      rootdir := 0
      allocated := 3
      store := () }
  refcount := fun _ => 1
  freed := fun _ => false

def idle : Env Unit where
  callbacks _ :=
    { stat := fun t _ => t
      opening := fun t _ => t
      close := fun t _ => t
      del := fun t _ => t
      readlink := fun _ _ => none }
  vfsAlias _ := none
  memory _ _ := true

theorem idle_quiet : Quiet idle := ⟨fun _ _ _ ht => .refl ht, fun _ _ _ ht => .refl ht⟩

theorem nested_child {p c : NodeId} (hc : c ∈ (nested.tree.nodes p).child) : p = 0 ∧ c = 1 ∨ p = 1 ∧ c = 2 := by
  simp only [nested] at hc
  split_ifs at hc with h0 h1
  · exact .inl ⟨h0, List.mem_singleton.mp hc⟩
  · exact .inr ⟨h1, List.mem_singleton.mp hc⟩
  · cases hc

theorem nested_orderly : Orderly nested.tree where
  top := rfl
  parent p c _ hc := by obtain ⟨rfl, rfl⟩ | ⟨rfl, rfl⟩ := nested_child hc <;> rfl
  plain p c _ hc := by
    obtain ⟨rfl, rfl⟩ | ⟨rfl, rfl⟩ := nested_child hc
    · exact ⟨['a'], rfl, by decide, by decide, by decide, by decide⟩
    · exact ⟨['b'], rfl, by decide, by decide, by decide, by decide⟩
  live p c _ hc := by obtain ⟨rfl, rfl⟩ | ⟨rfl, rfl⟩ := nested_child hc <;> decide
  distinct p c d _ hc hd _ := by
    obtain ⟨rfl, rfl⟩ | ⟨rfl, rfl⟩ := nested_child hc
    · obtain ⟨-, rfl⟩ | ⟨hp, -⟩ := nested_child hd
      · rfl
      · cases hp
    · obtain ⟨hp, -⟩ | ⟨-, rfl⟩ := nested_child hd
      · cases hp
      · rfl

theorem fullpath_opens_nested :
    ∃ enough, ∀ rounds, enough ≤ rounds → ∃ answer, fullpath (fun _ => true) nested.tree rounds 2 = some answer ∧
      match answer with
      | none => ∃ nodes names, Line nested.tree 2 nodes names ∧
          Short (fun _ => true) (nodes.length + 1) (rendered names).length
      | some path => Canonical path ∧
          (∃ nodes, collect (fun _ => true) nested.tree rounds (some 2) [] 32 = some (some nodes) ∧
            pathLength nested.tree nodes.reverse 1 = some path.length) ∧
          (idle.memory vfsMaxLinkDepth path = true → (vfsOpenNoFollow idle path nested).2 = some 2) :=
  fullpath_opens idle_quiet nested nested_orderly
    (@Reached.child _ _ 1 _ (@Reached.child _ _ 0 _ .root (by decide)) (by decide)) _

end OpenXJ380.Vfs
