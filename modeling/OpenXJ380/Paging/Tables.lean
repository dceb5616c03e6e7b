import OpenXJ380.Lib.TableTree
import OpenXJ380.Paging.Funds

/-! # The tables of a directory

They form a tree, none of whose tables is free. What mapping and unmapping one
page does to the others is followed through it.
-/

namespace OpenXJ380.Paging

open Function

open Frames TableTree

def nextTable (entry : U64) : Option U64 := if isTable entry then some (entry &&& pteAddrMask) else none

def wayTo (addr : U64) : List (BitVec 9) := [l4Index addr, l3Index addr, l2Index addr]

variable {site : Site} {m m' : Machine} {free held new : Set U64} {memory : Memory} {directory : PageDirectory}
  {root t t' addr frame flags value : U64} {i j : BitVec 9} {p q path : List (BitVec 9)} {user : Bool}

structure Tree (memory : Memory) (root : U64) (free : Set U64) : Prop where
  distinct : Distinct nextTable memory root 3
  used : ∀ q t, q.length ≤ 3 → tableAt nextTable memory root q = some t → t ∉ free

def Sane (memory : Memory) (root : U64) (path : List (BitVec 9)) : Prop :=
  ∀ q i t, q ++ [i] <+: path → tableAt nextTable memory root q = some t → memory t i = 0 ∨ isTable (memory t i) = true

theorem nextTable_some (h : isTable value) : nextTable value = some (value &&& pteAddrMask) := if_pos h

theorem nextTable_none (h : ¬ isTable value) : nextTable value = none := if_neg h

theorem pageEntryValue_eq (memory : Memory) (directory : PageDirectory) (addr : U64) :
    pageEntryValue memory directory addr =
      entryAt nextTable memory directory.table (l4Index addr) [l3Index addr, l2Index addr, l1Index addr] := by
  simp only [pageEntryValue, entryAt, nextTable]
  by_cases h4 : isTable (memory directory.table (l4Index addr))
  · simp only [h4, Bool.not_true, Bool.false_eq_true, if_false, if_true]
    by_cases h3 : isTable (memory (memory directory.table (l4Index addr) &&& pteAddrMask) (l3Index addr))
    · simp only [h3, Bool.not_true, Bool.false_eq_true, if_false, if_true]
      by_cases h2 : isTable (memory (memory (memory directory.table (l4Index addr) &&& pteAddrMask) (l3Index addr) &&&
          pteAddrMask) (l2Index addr))
      · simp only [h2, Bool.not_true, Bool.false_eq_true, if_false, if_true]
      · simp [h2]
    · simp [h3]
  · simp [h4]

def userBit (user : Bool) : U64 := if user then pteUser else 0

theorem userBit_masks (user : Bool) : userBit user &&& pteAddrMask = 0 ∧ userBit user &&& ptePresent = 0 ∧
    userBit user &&& pteHuge = 0 := by
  cases user with
  | false => decide
  | true => decide

theorem isTable_user (user : Bool) (entry : U64) : isTable (entry ||| userBit user) = isTable entry := by
  obtain ⟨-, hPresent, hHuge⟩ := userBit_masks user
  rw [isTable, isTable, isPresent, isPresent, BitVec.and_or_distrib_right, BitVec.and_or_distrib_right, hPresent, hHuge]
  simp

theorem nextTable_user (user : Bool) (entry : U64) : nextTable (entry ||| userBit user) = nextTable entry := by
  obtain ⟨hMask, -, -⟩ := userBit_masks user
  have hAddr : (entry ||| userBit user) &&& pteAddrMask = entry &&& pteAddrMask := by
    rw [BitVec.and_or_distrib_right, hMask]
    simp
  rw [nextTable, nextTable, isTable_user, hAddr]

/-- What `page_table_create` writes for a new table. -/
def newEntry (frame : U64) (user : Bool) : U64 := frame ||| ptePresent ||| pteWriteable ||| userBit user

theorem masked_and (h : t &&& pteAddrMask = t) {bits : U64} (hBits : bits &&& pteAddrMask = 0) : t &&& bits = 0 := by
  rw [← h, BitVec.and_assoc, BitVec.and_comm pteAddrMask, hBits]
  exact BitVec.and_zero

theorem isTable_newEntry (h : FrameAddress frame) (user : Bool) : isTable (newEntry frame user) := by
  have hPresent : frame &&& ptePresent = 0 := masked_and h.masked (by decide)
  have hHuge : frame &&& pteHuge = 0 := masked_and h.masked (by decide)
  obtain ⟨-, hUserPresent, hUserHuge⟩ := userBit_masks user
  rw [isTable, isPresent, newEntry]
  simp only [BitVec.and_or_distrib_right, hPresent, hHuge, hUserPresent, hUserHuge]
  decide

theorem newEntry_addr (h : FrameAddress frame) (user : Bool) : newEntry frame user &&& pteAddrMask = frame := by
  obtain ⟨hMask, -, -⟩ := userBit_masks user
  rw [newEntry, BitVec.and_or_distrib_right, BitVec.and_or_distrib_right, BitVec.and_or_distrib_right, h.masked, hMask,
    show ptePresent &&& pteAddrMask = 0 by decide, show pteWriteable &&& pteAddrMask = 0 by decide]
  simp

theorem not_isTable_zero : ¬ isTable 0 := by decide

/-- The tables of `new` were added to the tree, and nothing else has changed. -/
structure Grown (site : Site) (root : U64) (m : Machine) (free held : Set U64) (m' : Machine) (new : Set U64) :
    Prop where
  fresh : new ⊆ free
  tree : Tree m'.memory root (free \ new)
  funded : Funded site m' (free \ new) (held ∪ new)
  kept : ∀ q t, q.length ≤ 3 → tableAt nextTable m.memory root q = some t → tableAt nextTable m'.memory root q = some t
  tables : ∀ q t, q.length ≤ 3 → tableAt nextTable m'.memory root q = some t →
    tableAt nextTable m.memory root q = some t ∨ t ∈ new
  placed : ∀ t ∈ new, ∃ q, q.length ≤ 3 ∧ tableAt nextTable m'.memory root q = some t
  entries : ∀ j q, q.length = 3 → entryAt nextTable m'.memory root j q = entryAt nextTable m.memory root j q
  sane : ∀ path, path.length ≤ 3 → Sane m.memory root path → Sane m'.memory root path
  others : ∀ x, (∀ q, q.length ≤ 3 → tableAt nextTable m'.memory root q ≠ some x) → m'.memory x = m.memory x
  exhausted : m'.exhausted = m.exhausted

theorem Grown.trans {m'' : Machine} {new' : Set U64} (h : Grown site root m free held m' new)
    (h' : Grown site root m' (free \ new) (held ∪ new) m'' new') : Grown site root m free held m'' (new ∪ new') where
  fresh := Set.union_subset h.fresh fun t ht => (h'.fresh ht).1
  tree := by
    rw [← Set.sdiff_sdiff]
    exact h'.tree
  funded := by
    rw [← Set.sdiff_sdiff, ← Set.union_assoc]
    exact h'.funded
  kept := fun q t hq hAt => h'.kept q t hq (h.kept q t hq hAt)
  tables := by
    intro q t hq hAt
    obtain hOld | hNew := h'.tables q t hq hAt
    · exact (h.tables q t hq hOld).imp id .inl
    · exact .inr (.inr hNew)
  placed := by
    rintro t (ht | ht)
    · obtain ⟨q, hq, hAt⟩ := h.placed t ht
      exact ⟨q, hq, h'.kept q t hq hAt⟩
    · exact h'.placed t ht
  entries := fun j q hq => (h'.entries j q hq).trans (h.entries j q hq)
  sane := fun path hPath hSane => h'.sane path hPath (h.sane path hPath hSane)
  others := by
    intro x hx
    rw [h'.others x hx, h.others x fun q hq hAt => hx q hq (h'.kept q x hq hAt)]
  exhausted := h'.exhausted.trans h.exhausted

theorem grown_link (hFunded : Funded site m free held) (hTree : Tree m.memory root free)
    (hAt : tableAt nextTable m.memory root p = some t) (hShort : p.length < 3) (hTable : isTable (m.memory t i))
    (user : Bool) : Grown site root m free held (setEntry m t i (m.memory t i ||| userBit user)) ∅ := by
  have hNext : nextTable (m.memory t i ||| userBit user) = nextTable (m.memory t i) := nextTable_user user _
  have hCells := setCell_next (M := m.memory) (t := t) (i := i) hNext
  have hTables : ∀ q, tableAt nextTable (setCell m.memory t i (m.memory t i ||| userBit user)) root q =
      tableAt nextTable m.memory root q := fun q => tableAt_congr hCells
  refine { fresh := Set.empty_subset free, tree := ?_, funded := ?_, kept := ?_, tables := ?_, placed := ?_,
           entries := ?_, sane := ?_, others := ?_, exhausted := rfl }
  · rw [Set.sdiff_empty]
    refine ⟨hTree.distinct.congr hCells, ?_⟩
    intro q t' hq hAt'
    exact hTree.used q t' hq ((hTables q).symm.trans hAt')
  · rw [Set.sdiff_empty, Set.union_empty]
    exact hFunded.congr rfl
  · exact fun q t' _ hAt' => (hTables q).trans hAt'
  · exact fun q t' _ hAt' => .inl ((hTables q).symm.trans hAt')
  · exact fun t' ht' => absurd ht' (Set.notMem_empty t')
  · intro j q hq
    have hOld := nextTable_some hTable
    exact entryAt_setLink hTree.distinct hAt hShort hOld (hNext.trans hOld) hq
  · intro path _ hSane q j s hPrefix hAt'
    have hOld := hSane q j s hPrefix ((hTables q).symm.trans hAt')
    change setCell m.memory t i _ s j = 0 ∨ isTable (setCell m.memory t i _ s j)
    rw [setCell_apply]
    split_ifs with hCell
    · exact .inr (by rw [isTable_user]; exact hTable)
    · exact hOld
  · intro x hx
    have hNe : x ≠ t := by
      rintro rfl
      exact hx p (by omega) ((hTables p).trans hAt)
    exact update_of_ne hNe _ _

theorem grown_table (hFunded : Funded site m free held) (hTree : Tree m.memory root free)
    (hAt : tableAt nextTable m.memory root p = some t) (hShort : p.length < 3) (hZero : m.memory t i = 0)
    (hTaken : Taken site m free held frame m') (user : Bool) :
    Grown site root m free held (pageTableClear (setEntry m' t i (newEntry frame user)) frame) {frame} ∧
      tableAt nextTable (pageTableClear (setEntry m' t i (newEntry frame user)) frame).memory root (p ++ [i]) =
        some frame := by
  have hAddress := hFunded.free_address hTaken.wasFree
  have hFresh : Fresh nextTable m.memory root 3 p t i (newEntry frame user) frame 0 :=
    { table := hAt
      short := hShort
      before := by
        rw [hZero]
        exact nextTable_none not_isTable_zero
      after := by rw [nextTable_some (isTable_newEntry hAddress user), newEntry_addr hAddress]
      empty := nextTable_none not_isTable_zero
      unreached := fun q hq hReached => hTree.used q frame hq hReached hTaken.wasFree }
  have hMemory : (pageTableClear (setEntry m' t i (newEntry frame user)) frame).memory =
      addTable m.memory t i (newEntry frame user) frame 0 := by
    rw [pageTableClear, setEntry, addTable, setCell, hTaken.memory]
  have hTables : ∀ q, q.length ≤ 3 →
      tableAt nextTable (pageTableClear (setEntry m' t i (newEntry frame user)) frame).memory
      root q = if q = p ++ [i] then some frame else tableAt nextTable m.memory root q := by
    intro q hq
    rw [hMemory]
    exact tableAt_addTable hTree.distinct hFresh hq
  have hEnd : (p ++ [i]).length ≤ 3 := by
    rw [List.length_append, List.length_singleton]
    omega
  have hNothing : tableAt nextTable m.memory root (p ++ [i]) = none := tableAt_stop hAt hFresh.before []
  refine ⟨{ fresh := Set.singleton_subset_iff.mpr hTaken.wasFree, tree := ⟨?_, ?_⟩, funded := ?_, kept := ?_,
            tables := ?_, placed := ?_, entries := ?_, sane := ?_, others := ?_, exhausted := hTaken.exhausted }, ?_⟩
  · rw [hMemory]
    exact hTree.distinct.addTable hFresh
  · intro q s hq hReached
    rw [hTables q hq] at hReached
    split_ifs at hReached with hSame
    · cases hReached
      exact fun hIn => hIn.2 rfl
    · exact fun hIn => hTree.used q s hq hReached hIn.1
  · rw [Set.union_singleton]
    exact hTaken.funded.congr rfl
  · intro q s hq hReached
    rw [hTables q hq, if_neg]
    · exact hReached
    · rintro rfl
      rw [hNothing] at hReached
      cases hReached
  · intro q s hq hReached
    rw [hTables q hq] at hReached
    split_ifs at hReached with hSame
    · cases hReached
      exact .inr rfl
    · exact .inl hReached
  · rintro s rfl
    exact ⟨p ++ [i], hEnd, by rw [hTables _ hEnd, if_pos rfl]⟩
  · intro j q hq
    rw [hMemory]
    exact entryAt_addTable hTree.distinct hFresh hZero hq
  · intro path hLength hSane q j s hPrefix hReached
    have hShorter : q.length ≤ 3 := by
      have hLe := hPrefix.length_le
      rw [List.length_append, List.length_singleton] at hLe
      omega
    rw [hTables q hShorter] at hReached
    rw [hMemory]
    split_ifs at hReached with hSame
    · cases hReached
      exact .inl addTable_new
    · have hNe : s ≠ frame := by
        rintro rfl
        exact hFresh.unreached q hShorter hReached
      rw [addTable_old hNe]
      split_ifs with hCell
      · exact .inr (isTable_newEntry hAddress user)
      · exact hSane q j s hPrefix hReached
  · intro x hx
    have hNe : x ≠ frame := by
      rintro rfl
      exact hx (p ++ [i]) hEnd (by rw [hTables _ hEnd, if_pos rfl])
    have hOther : x ≠ t := by
      rintro rfl
      have hOld : p ≠ p ++ [i] := fun hSame => by
        have hCount := congrArg List.length hSame
        simp at hCount
      exact hx p (by omega) (by rw [hTables p (by omega), if_neg hOld]; exact hAt)
    rw [hMemory, addTable, update_of_ne hNe, setCell, update_of_ne hOther]
  · rw [hTables _ hEnd, if_pos rfl]

theorem pageTableCreate_exhausted (h : (pageTableCreate m t i user).1.exhausted = false) : m.exhausted = false := by
  rw [pageTableCreate] at h
  by_cases hZero : m.memory t i = 0
  · rw [if_pos hZero] at h
    exact (Bool.or_eq_false_iff.mp h).1
  · rw [if_neg hZero] at h
    exact h

theorem pageTableCreate_grown (hFunded : Funded site m free held) (hTree : Tree m.memory root free)
    (hAt : tableAt nextTable m.memory root p = some t) (hShort : p.length < 3)
    (hEntry : m.memory t i = 0 ∨ isTable (m.memory t i)) (hEnough : (pageTableCreate m t i user).1.exhausted = false) :
    ∃ new, Grown site root m free held (pageTableCreate m t i user).1 new ∧
      tableAt nextTable (pageTableCreate m t i user).1.memory root (p ++ [i]) = some
          (pageTableCreate m t i user).2 := by
  by_cases hZero : m.memory t i = 0
  · simp only [pageTableCreate, if_pos hZero] at hEnough ⊢
    obtain ⟨-, hNone⟩ | hTaken := hFunded.alloc
    · rw [hNone] at hEnough
      cases hEnough
    · have hAddress := hFunded.free_address hTaken.wasFree
      have hGrown := grown_table hFunded hTree hAt hShort hZero hTaken user
      have hAddr := newEntry_addr hAddress user
      rw [newEntry, userBit] at hAddr hGrown
      rw [hAddr]
      exact ⟨_, hGrown⟩
  · have hTable := hEntry.resolve_left hZero
    simp only [pageTableCreate, if_neg hZero]
    have hGrown := grown_link hFunded hTree hAt hShort hTable user
    refine ⟨∅, hGrown, ?_⟩
    have hNext := tableAt_step hAt (nextTable_some hTable)
    have hAddr : (m.memory t i ||| userBit user) &&& pteAddrMask = m.memory t i &&& pteAddrMask := by
      have hSame := nextTable_user user (m.memory t i)
      rw [nextTable_some hTable, nextTable_some (by rw [isTable_user]; exact hTable)] at hSame
      exact Option.some.inj hSame
    rw [userBit] at hAddr
    rw [hAddr]
    exact hGrown.kept _ _ (by rw [List.length_append, List.length_singleton]; omega) hNext

structure Mapped (site : Site) (m : Machine) (directory : PageDirectory) (free held : Set U64) (addr value : U64)
    (m' : Machine) (new : Set U64) : Prop where
  made : ∃ middle table, Grown site directory.table m free held middle new ∧
    tableAt nextTable middle.memory directory.table (wayTo addr) = some table ∧
    m' = setEntry middle table (l1Index addr) value

theorem pageMapTo_exhausted (h : (pageMapTo m directory addr frame flags).exhausted = false) : m.exhausted = false := by
  simp only [pageMapTo] at h
  exact pageTableCreate_exhausted (pageTableCreate_exhausted (pageTableCreate_exhausted h))

theorem pageMapTo_mapped (hFunded : Funded site m free held) (hTree : Tree m.memory directory.table free)
    (hSane : Sane m.memory directory.table (wayTo addr))
    (hEnough : (pageMapTo m directory addr frame flags).exhausted = false) :
    ∃ new, Mapped site m directory free held addr ((frame &&& pteAddrMask) ||| flags)
      (pageMapTo m directory addr frame flags) new := by
  simp only [pageMapTo] at hEnough ⊢
  have hEnough₂ := pageTableCreate_exhausted hEnough
  have hEnough₁ := pageTableCreate_exhausted hEnough₂
  have hFirst : m.memory directory.table (l4Index addr) = 0 ∨ isTable (m.memory directory.table (l4Index addr)) :=
    hSane [] (l4Index addr) directory.table ⟨[l3Index addr, l2Index addr], rfl⟩ rfl
  obtain ⟨new₁, hGrown₁, hAt₁⟩ := pageTableCreate_grown (p := []) hFunded hTree rfl (by simp) hFirst hEnough₁
  generalize pageTableCreate m directory.table (l4Index addr) (isUser flags) = r₁ at *
  have hSane₁ := hGrown₁.sane (wayTo addr) (Nat.le_refl 3) hSane
  have hSecond := hSane₁ [l4Index addr] (l3Index addr) r₁.2 ⟨[l2Index addr], rfl⟩ hAt₁
  obtain ⟨new₂, hGrown₂, hAt₂⟩ := pageTableCreate_grown hGrown₁.funded hGrown₁.tree hAt₁ (by simp) hSecond hEnough₂
  generalize pageTableCreate r₁.1 r₁.2 (l3Index addr) (isUser flags) = r₂ at *
  have hSane₂ := hGrown₂.sane (wayTo addr) (Nat.le_refl 3) hSane₁
  have hThird := hSane₂ [l4Index addr, l3Index addr] (l2Index addr) r₂.2 ⟨[], rfl⟩ hAt₂
  obtain ⟨new₃, hGrown₃, hAt₃⟩ := pageTableCreate_grown hGrown₂.funded hGrown₂.tree hAt₂ (by simp) hThird hEnough
  generalize pageTableCreate r₂.1 r₂.2 (l2Index addr) (isUser flags) = r₃ at *
  exact ⟨new₁ ∪ new₂ ∪ new₃, r₃.1, r₃.2, (hGrown₁.trans hGrown₂).trans
    (by rw [← Set.sdiff_sdiff, ← Set.union_assoc]; exact hGrown₃), hAt₃, rfl⟩

def SamePage (addr other : U64) : Prop := wayTo other = wayTo addr ∧ l1Index other = l1Index addr

instance (addr other : U64) : Decidable (SamePage addr other) := inferInstanceAs (Decidable (_ ∧ _))

theorem samePage_iff (addr other : U64) : l4Index other :: [l3Index other, l2Index other,
        l1Index other] = wayTo addr ++ [l1Index addr] ↔ SamePage addr other := by
  simp only [wayTo, SamePage, List.cons_append, List.nil_append, List.cons.injEq, and_true]
  tauto

theorem setEntry_tree (hTree : Tree m.memory root free) (hAt : tableAt nextTable m.memory root p = some t)
    (hLength : p.length = 3) (value : U64) : Tree (setEntry m t i value).memory root free ∧ ∀ q, q.length ≤ 3 →
      tableAt nextTable (setEntry m t i value).memory root q = tableAt nextTable m.memory root q := by
  have hTables : ∀ q, q.length ≤ 3 → tableAt nextTable (setEntry m t i value).memory root q =
      tableAt nextTable m.memory root q := fun q hq => tableAt_setLeaf hTree.distinct hAt hLength hq
  refine ⟨⟨?_, ?_⟩, hTables⟩
  · intro q r s hq hr hAt₁ hAt₂
    rw [hTables q hq] at hAt₁
    rw [hTables r hr] at hAt₂
    exact hTree.distinct q r s hq hr hAt₁ hAt₂
  · intro q s hq hReached
    rw [hTables q hq] at hReached
    exact hTree.used q s hq hReached

theorem setEntry_sane (hTree : Tree m.memory root free) (hAt : tableAt nextTable m.memory root p = some t)
    (hLength : p.length = 3) (hPath : path.length ≤ 3) (hSane : Sane m.memory root path) :
    Sane (setEntry m t i value).memory root path := by
  have hTables := (setEntry_tree (i := i) hTree hAt hLength value).2
  intro q j s hPrefix hReached
  have hLess : q.length < 3 := by
    have hLe := hPrefix.length_le
    rw [List.length_append, List.length_singleton] at hLe
    omega
  rw [hTables q (by omega)] at hReached
  have hNe : s ≠ t := by
    rintro rfl
    have hSame := hTree.distinct q p s (by omega) (by omega) hReached hAt
    rw [hSame] at hLess
    omega
  have hCell : (setEntry m t i value).memory s = m.memory s := update_of_ne hNe _ _
  rw [hCell]
  exact hSane q j s hPrefix hReached

theorem setEntry_value (hTree : Tree m.memory directory.table free)
    (hAt : tableAt nextTable m.memory directory.table (wayTo addr) = some t) (value other : U64) :
    pageEntryValue (setEntry m t (l1Index addr) value).memory directory other =
      if SamePage addr other then value else pageEntryValue m.memory directory other := by
  rw [pageEntryValue_eq, pageEntryValue_eq]
  have hLeaf := entryAt_setLeaf (v := value) (i := l1Index addr) (j := l4Index other)
    (q := [l3Index other, l2Index other, l1Index other]) hTree.distinct hAt rfl rfl
  simp only [samePage_iff] at hLeaf
  exact hLeaf

theorem pageEntryValue_at (hAt : tableAt nextTable memory directory.table (wayTo addr) = some t) :
    pageEntryValue memory directory addr = memory t (l1Index addr) := by
  rw [pageEntryValue_eq]
  simp only [wayTo, tableAt] at hAt
  obtain ⟨l3, hFirst, hAt⟩ := Option.bind_eq_some_iff.mp hAt
  obtain ⟨l2, hSecond, hAt⟩ := Option.bind_eq_some_iff.mp hAt
  obtain ⟨l1, hThird, hLast⟩ := Option.bind_eq_some_iff.mp hAt
  cases hLast
  simp only [entryAt, hFirst, hSecond, hThird]

namespace Mapped

variable (h : Mapped site m directory free held addr value m' new)

include h

theorem fresh : new ⊆ free := by
  obtain ⟨middle, table, hGrown, -, -⟩ := h.made
  exact hGrown.fresh

theorem tree : Tree m'.memory directory.table (free \ new) := by
  obtain ⟨middle, table, hGrown, hAt, rfl⟩ := h.made
  exact (setEntry_tree hGrown.tree hAt rfl value).1

theorem funded : Funded site m' (free \ new) (held ∪ new) := by
  obtain ⟨middle, table, hGrown, -, rfl⟩ := h.made
  exact hGrown.funded.congr rfl

theorem table : ∃ t, tableAt nextTable m'.memory directory.table (wayTo addr) = some t ∧
    m'.memory t (l1Index addr) = value := by
  obtain ⟨middle, table, hGrown, hAt, rfl⟩ := h.made
  refine ⟨table, ?_, ?_⟩
  · rw [(setEntry_tree hGrown.tree hAt rfl value).2 (wayTo addr) (Nat.le_refl 3)]
    exact hAt
  · change setCell middle.memory table (l1Index addr) value table (l1Index addr) = value
    rw [setCell_apply, if_pos ⟨rfl, rfl⟩]

theorem entries (other : U64) : pageEntryValue m'.memory directory other =
    if SamePage addr other then value else pageEntryValue m.memory directory other := by
  obtain ⟨middle, table, hGrown, hAt, rfl⟩ := h.made
  rw [setEntry_value hGrown.tree hAt, pageEntryValue_eq middle.memory, pageEntryValue_eq m.memory,
    hGrown.entries _ _ rfl]

theorem placed (ht : t ∈ new) : ∃ q, q.length ≤ 3 ∧ tableAt nextTable m'.memory directory.table q = some t := by
  obtain ⟨middle, table, hGrown, hAt, rfl⟩ := h.made
  obtain ⟨q, hq, hReached⟩ := hGrown.placed t ht
  exact ⟨q, hq, ((setEntry_tree hGrown.tree hAt rfl value).2 q hq).trans hReached⟩

theorem tables (hq : q.length ≤ 3) (hReached : tableAt nextTable m'.memory directory.table q = some t) :
    tableAt nextTable m.memory directory.table q = some t ∨ t ∈ new := by
  obtain ⟨middle, table, hGrown, hAt, rfl⟩ := h.made
  rw [(setEntry_tree hGrown.tree hAt rfl value).2 q hq] at hReached
  exact hGrown.tables q t hq hReached

theorem sane (hPath : path.length ≤ 3) (hSane : Sane m.memory directory.table path) :
    Sane m'.memory directory.table path := by
  obtain ⟨middle, table, hGrown, hAt, rfl⟩ := h.made
  exact setEntry_sane hGrown.tree hAt rfl hPath (hGrown.sane path hPath hSane)

theorem kept (hq : q.length ≤ 3) (hAt : tableAt nextTable m.memory directory.table q = some t) :
    tableAt nextTable m'.memory directory.table q = some t := by
  obtain ⟨middle, table, hGrown, hTable, rfl⟩ := h.made
  rw [(setEntry_tree hGrown.tree hTable rfl value).2 q hq]
  exact hGrown.kept q t hq hAt

end Mapped

theorem empty_tree (hRoot : root ∉ free) : Tree (fun _ _ => 0) root free := by
  have hOnly : ∀ (q : List (BitVec 9)) t, tableAt nextTable (fun _ _ => 0) root q = some t → q = [] ∧ t = root := by
    intro q t hAt
    cases q with
    | nil => exact ⟨rfl, (Option.some.inj hAt).symm⟩
    | cons i q =>
      rw [tableAt, nextTable_none not_isTable_zero] at hAt
      cases hAt
  constructor
  · intro p q t _ _ hp hq
    rw [(hOnly p t hp).1, (hOnly q t hq).1]
  · intro q t _ hAt
    rw [(hOnly q t hAt).2]
    exact hRoot

theorem clear_tree {x : U64} (hTree : Tree memory root free)
    (hx : ∀ q, q.length ≤ 3 → tableAt nextTable memory root q ≠ some x) (page : BitVec 9 → U64) :
    Tree (update memory x page) root free ∧
      (∀ q, q.length ≤ 3 → tableAt nextTable (update memory x page) root q = tableAt nextTable memory root q) ∧
      ∀ j q, q.length = 3 → entryAt nextTable (update memory x page) root j q = entryAt nextTable memory root j q := by
  have hAgree : ∀ q s, q.length ≤ 3 → tableAt nextTable memory root q = some s → update memory x page s = memory s := by
    intro q s hq hAt
    apply update_of_ne
    rintro rfl
    exact hx q hq hAt
  have hTables : ∀ q, q.length ≤ 3 → tableAt nextTable (update memory x page) root q =
      tableAt nextTable memory root q := fun q hq => tableAt_agree_from (r := []) hAgree rfl (by simpa using hq)
  refine ⟨⟨?_, ?_⟩, hTables, ?_⟩
  · intro q r s hq hr hAt hAt'
    rw [hTables q hq] at hAt
    rw [hTables r hr] at hAt'
    exact hTree.distinct q r s hq hr hAt hAt'
  · intro q s hq hAt
    rw [hTables q hq] at hAt
    exact hTree.used q s hq hAt
  · intro j q hq
    exact entryAt_agree_from (r := []) hAgree rfl (by simp [hq])

/-- The last entry is cleared, and its frame given back where it was allocated for it. -/
def unmapEntry (m : Machine) (table : U64) (index : BitVec 9) : Option Machine :=
  if !isPresent (m.memory table index) then some m
  else do
    let m' ← if m.memory table index &&& pteFrameAllocated ≠ 0 then freeFrame m (m.memory table index &&& pteAddrMask)
      else some m
    some (setEntry m' table index 0)

theorem unmapPage_eq (m : Machine) (directory : PageDirectory) (addr : U64) :
    unmapPage m directory addr = match tableAt nextTable m.memory directory.table (wayTo addr) with
      | none => some m
      | some table => unmapEntry m table (l1Index addr) := by
  simp only [unmapPage, wayTo, tableAt, nextTable]
  by_cases h4 : isTable (m.memory directory.table (l4Index addr))
  · simp only [h4, Bool.not_true, Bool.false_eq_true, if_false, if_true, Option.bind_some]
    by_cases h3 : isTable (m.memory (m.memory directory.table (l4Index addr) &&& pteAddrMask) (l3Index addr))
    · simp only [h3, Bool.not_true, Bool.false_eq_true, if_false, if_true, Option.bind_some]
      by_cases h2 : isTable
          (m.memory (m.memory (m.memory directory.table (l4Index addr) &&& pteAddrMask) (l3Index addr) &&&
          pteAddrMask) (l2Index addr))
      · simp only [h2, Bool.not_true, Bool.false_eq_true, if_false, if_true, Option.bind_some]
        rfl
      · simp [h2]
    · simp [h3]
  · simp [h4]

theorem unmapPage_releases (hFunded : Funded site m free held)
    (hAt : tableAt nextTable m.memory directory.table (wayTo addr) = some t)
    (hPresent : isPresent (m.memory t (l1Index addr)))
    (hAllocated : m.memory t (l1Index addr) &&& pteFrameAllocated ≠ 0)
    (hHeld : m.memory t (l1Index addr) &&& pteAddrMask ∈ held) :
    ∃ frames, unmapPage m directory addr = some (setEntry { m with frames := frames } t (l1Index addr) 0) ∧
      Funded site (setEntry { m with frames := frames } t (l1Index addr) 0)
        (insert (m.memory t (l1Index addr) &&& pteAddrMask) free)
            (held \ {m.memory t (l1Index addr) &&& pteAddrMask}) := by
  obtain ⟨frames, hFree, hAfter⟩ := hFunded.release hHeld
  refine ⟨frames, ?_, hAfter.congr rfl⟩
  rw [unmapPage_eq, hAt]
  simp only [unmapEntry, hPresent, Bool.not_true, Bool.false_eq_true, if_false, if_pos hAllocated, hFree]
  rfl

end OpenXJ380.Paging
