import OpenXJ380.Paging.Cloned
import OpenXJ380.Paging.Isolation

/-! # Forked address spaces

The copy shows a program what the directory shows it, in frames of its own, and
freeing it gives back those frames.
-/

namespace OpenXJ380.Paging

open Function

open Frames TableTree

variable {site : Site} {M M₀ : Memory} {m m' m'' m₂ : Machine} {dir clone : PageDirectory} {free free₀ held : Set U64}
  {level n : Nat} {s t c x addr value : U64} {i k : BitVec 9} {step : Machine → BitVec 9 → Machine}

theorem Mirrors.entry (h : Mirrors M₀ M (level + 1) s t) (hi : i.toNat < userEntries (level + 1))
    (hPresent : isPresent (M t i)) : isPresent (M₀ s i) ∧ flagsOf (M t i) = flagsOf (M₀ s i) ||| ownBit level ∧
      Mirrors M₀ M level (M₀ s i &&& pteAddrMask) (M t i &&& pteAddrMask) := by
  obtain ⟨hAbsent, hThere⟩ := h i hi
  rcases hSource : isPresent (M₀ s i) with _ | _
  · rw [hAbsent hSource] at hPresent
    exact absurd hPresent (by decide)
  · exact ⟨rfl, hThere hSource⟩

theorem Mirrors.allocated (h : Mirrors M₀ M level s t) : OnlyAllocated M level t := by
  induction level generalizing s t with
  | zero => trivial
  | succ level ih =>
    intro i hi hPresent
    obtain ⟨-, hFlags, hChild⟩ := h.entry hi hPresent
    refine ⟨?_, ih hChild⟩
    rintro rfl hZero
    rw [← flagsOf_and (by decide), hFlags] at hZero
    have hBit := congrArg (·.getLsbD 62) hZero
    simp [ownBit, pteFrameAllocated] at hBit

theorem Mirrors.small (h : Mirrors M₀ M level s t) (hSmall : OnlySmall M₀ level s) : OnlySmall M level t := by
  induction level generalizing s t with
  | zero => trivial
  | succ level ih =>
    intro i hi hPresent
    obtain ⟨hThere, hFlags, hChild⟩ := h.entry hi hPresent
    obtain ⟨hHuge, hBelow⟩ := hSmall i hi hThere
    rw [huge_of_flags hFlags]
    exact ⟨hHuge, ih hChild hBelow⟩

/-- The entries show the same page, in the copy as a frame that was allocated for it. -/
def Shows (M₀ M : Memory) (entry₀ entry : U64) : Prop :=
  isPresent entry = isPresent entry₀ ∧ (isPresent entry₀ = true →
    flagsOf entry = flagsOf entry₀ ||| pteFrameAllocated ∧ M (entry &&& pteAddrMask) = M₀ (entry₀ &&& pteAddrMask))

theorem Mirrors.shows (path : List (BitVec 9)) (h : Mirrors M₀ M (path.length + 1) s t)
    (hSmall : OnlySmall M₀ (path.length + 1) s)
    (hUser : i.toNat < userEntries (path.length + 1)) (hLength : path.length ≤ 3) :
    Shows M₀ M (entryAt nextTable M₀ s i path) (entryAt nextTable M t i path) := by
  induction path generalizing s t i with
  | nil =>
    obtain ⟨hAbsent, hThere⟩ := h i hUser
    rw [entryAt, entryAt]
    rcases hPresent : isPresent (M₀ s i) with _ | _
    · rw [hAbsent hPresent]
      exact ⟨hPresent.symm, fun hNot => absurd (hPresent.symm.trans hNot) Bool.false_ne_true⟩
    · obtain ⟨hFlags, hPage⟩ := hThere hPresent
      exact ⟨isPresent_of_flags hFlags, fun _ => ⟨hFlags, hPage⟩⟩
  | cons j path ih =>
    rw [List.length_cons] at h hSmall hUser hLength
    obtain ⟨hAbsent, hThere⟩ := h i hUser
    rw [entryAt, entryAt]
    rcases hPresent : isPresent (M₀ s i) with _ | _
    · have hNoTable : ¬ isTable (M₀ s i) := by
        rw [isTable, hPresent]
        rintro ⟨⟩
      rw [nextTable_none hNoTable, hAbsent hPresent, nextTable_none not_isTable_zero]
      change Shows M₀ M (M₀ s i) 0
      exact ⟨hPresent.symm, fun hNot => absurd (hPresent.symm.trans hNot) Bool.false_ne_true⟩
    · obtain ⟨hFlags, hChild⟩ := hThere hPresent
      obtain ⟨hHuge, hBelow⟩ := hSmall i hUser hPresent
      have hTable₀ : isTable (M₀ s i) := by
        rw [isTable, hPresent, hHuge]
        rfl
      have hTable : isTable (M t i) := by
        rw [isTable, isPresent_of_flags hFlags, huge_of_flags hFlags, hPresent, hHuge]
        rfl
      rw [nextTable_some hTable₀, nextTable_some hTable]
      exact ih hChild hBelow (userEntries_below hLength j) (by omega)

theorem Cloned.copyKernelHalf (h : Cloned site M₀ 4 s m free held m' t) (source : U64) :
    Cloned site M₀ 4 s m free held (copyKernelHalf m' t source) t := by
  have hOff : ∀ x, x ≠ t → (Paging.copyKernelHalf m' t source).memory x = m'.memory x := fun x hx => update_of_ne hx _ _
  have hEntries : ∀ i :
      BitVec 9, i.toNat < userEntries 4 → (Paging.copyKernelHalf m' t source).memory t i = m'.memory t i := by
    intro i hi
    change update m'.memory t _ t i = _
    rw [update_self]
    exact if_pos hi
  have hNodup := h.nodup
  rw [userFrames_succ, List.nodup_append] at hNodup
  have hBelow : ∀ x ∈ framesBelow m'.memory 3 t
      (userEntries 4), (Paging.copyKernelHalf m' t source).memory x = m'.memory x := by
    intro x hx
    apply hOff
    rintro rfl
    exact hNodup.2.2 x hx x (List.mem_singleton_self x) rfl
  have hFrames : userFrames (Paging.copyKernelHalf m' t source).memory 4 t = userFrames m'.memory 4 t := by
    rw [userFrames_succ, userFrames_succ, framesBelow_congr (userEntries_le 4) hEntries hBelow]
  refine ⟨?_, ?_, ?_, ?_, ?_⟩
  · rw [hFrames]
    exact h.nodup
  · rw [hFrames]
    exact h.fresh
  · rw [hFrames]
    exact h.funded.congr rfl
  · intro i hi
    rw [hEntries i hi]
    refine ⟨(h.mirrors i hi).1, fun hPresent => ?_⟩
    obtain ⟨hFlags, hChild⟩ := (h.mirrors i hi).2 hPresent
    refine ⟨hFlags, mirrors_congr hChild fun x hx => hBelow x ?_⟩
    exact (mem_framesBelow (userEntries_le 4)).mpr ⟨i, hi, by rw [isPresent_of_flags hFlags]; exact hPresent, hx⟩
  · intro x hx
    rw [hFrames] at hx
    rw [← h.others x hx]
    apply hOff
    rintro rfl
    exact hx self_mem_userFrames

/-- A directory with small pages in its user half, none of whose tables and pages is free. -/
structure Forkable (site : Site) (m : Machine) (dir : PageDirectory) (free held : Set U64) : Prop where
  funded : Funded site m free held
  sound : Sound m.memory dir
  used : ∀ x, InUse m.memory dir x → x ∉ free

structure Forked (site : Site) (m : Machine) (dir : PageDirectory) (free held : Set U64) (m' : Machine)
    (clone : PageDirectory) :
    Prop where
  shows : ∀ addr, IsUserAddress addr →
    Shows m.memory m'.memory (pageEntryValue m.memory dir addr) (pageEntryValue m'.memory clone addr)
  kernel : ∀ i : BitVec 9, 256 ≤ i.toNat → m'.memory clone.table i = m.memory dir.table i
  unchanged : ∀ x, x ∉ free → m'.memory x = m.memory x
  isolated : Isolated m'.memory dir clone
  fresh : ∀ x, InUse m'.memory clone x → x ∈ free
  funded : Funded site m' (free \ {x | InUse m'.memory clone x}) (held ∪ {x | InUse m'.memory clone x})

theorem Forkable.cloned (h : Forkable site m dir free held) (self : Nat)
    (hEnough : (clonePageDirectory m (some self) dir false).1.exhausted = false) :
    ∃ m' clone, clonePageDirectory m (some self) dir false = (m', some clone) ∧
      Cloned site m.memory 4 dir.table m free held m' clone.table ∧
      ∀ i : BitVec 9, 256 ≤ i.toNat → m'.memory clone.table i = m.memory dir.table i := by
  have hSource : Source m.memory free 4 dir.table :=
    ⟨h.sound.small, fun x hx => h.used x (.inl hx), fun x hx => h.used x (.inr hx)⟩
  have hCloned := copyPageTableRecursive_copies (Nat.le_refl 3) m free held dir.table h.funded (.refl free)
    (fun _ _ => rfl) hSource hEnough
  simp only [clonePageDirectory, Bool.false_eq_true, if_false]
  generalize copyPageTableRecursive false (3 + 1) false m dir.table = result at hCloned ⊢
  refine ⟨_, _, rfl, hCloned.copyKernelHalf dir.table, fun i hi => ?_⟩
  change update result.1.memory result.2 _ result.2 i = _
  rw [update_self]
  have hRoot : result.1.memory dir.table = m.memory dir.table :=
    hCloned.others _ fun hIn => hSource.tables _ (.inl rfl) (hCloned.fresh _ hIn)
  rw [if_neg (by omega), hRoot]

theorem Cloned.forked (h : Cloned site m.memory 4 dir.table m free held m' clone.table)
    (hForkable : Forkable site m dir free held)
    (hKernel : ∀ i : BitVec 9, 256 ≤ i.toNat → m'.memory clone.table i = m.memory dir.table i) :
    Forked site m dir free held m' clone := by
  have hSet : {x | x ∈ userFrames m'.memory 4 clone.table} = {x | InUse m'.memory clone x} := by
    ext x
    exact mem_userFrames
  have hFresh : ∀ x, InUse m'.memory clone x → x ∈ free := fun x hx => h.fresh x (mem_userFrames.mpr hx)
  have hUnchanged : ∀ x, x ∉ free → m'.memory x = m.memory x := fun x hx => h.others x fun hIn => hx (h.fresh x hIn)
  have hTables : ∀ x ∈ userTables m.memory 4 dir.table, m'.memory x = m.memory x :=
    fun x hx => hUnchanged x (hForkable.used x (.inl hx))
  refine ⟨?_, hKernel, hUnchanged, ⟨hForkable.sound.congr hTables, ⟨?_, ?_⟩, ?_⟩, hFresh, ?_⟩
  · intro addr hUser
    rw [pageEntryValue_eq, pageEntryValue_eq]
    exact Mirrors.shows [l3Index addr, l2Index addr, l1Index addr] h.mirrors hForkable.sound.small (l4Index_user hUser)
      (Nat.le_refl 3)
  · exact h.mirrors.small hForkable.sound.small
  · exact fun x hx => tables_apart_pages h.nodup hx
  · intro x hDir hClone
    rw [inUse_congr hTables] at hDir
    exact hForkable.used x hDir (hFresh x hClone)
  · rw [← hSet]
    exact h.funded

theorem Cloned.freed (h : Cloned site m.memory 4 dir.table m free held m' clone.table)
    (hForkable : Forkable site m dir free held) (hFrames : m''.frames = m'.frames)
    (hTables : ∀ x ∈ userTables m'.memory 4 clone.table, m''.memory x = m'.memory x) :
    ∃ m₃, freePageDirectory m'' clone = some m₃ ∧ Funded site m₃ free held ∧
      ∀ x, ¬ InUse m'.memory clone x → m₃.memory x = m''.memory x := by
  have hSame := userFrames_congr hTables
  have hFreeable : Freeable m''.memory 4 clone.table (held ∪ {x | x ∈ userFrames m'.memory 4 clone.table}) := by
    refine ⟨?_, ?_, onlyAllocated_congr hTables h.mirrors.allocated,
      onlySmall_congr hTables (h.mirrors.small hForkable.sound.small)⟩
    · rw [hSame]
      exact h.nodup
    · rw [hSame]
      exact fun x hx => .inr hx
  obtain ⟨m₃, hCall, hFreed⟩ := freePageTableRecursive_frees 3 m'' _ _ clone.table (h.funded.congr hFrames) hFreeable
  rw [hSame] at hFreed
  have hNotHeld : ∀ x ∈ held, x ∉ userFrames m'.memory 4 clone.table :=
    fun x hx hIn => hForkable.funded.apart hx (h.fresh x hIn)
  refine ⟨m₃, hCall, ?_, fun x hx => hFreed.others x fun hIn => hx (mem_userFrames.mp hIn)⟩
  have hFree : (free \ {x | x ∈ userFrames m'.memory 4 clone.table}) ∪ {x | x ∈ userFrames m'.memory 4 clone.table} =
      free :=
    Set.sdiff_union_of_subset h.fresh
  have hHeld : (held ∪ {x | x ∈ userFrames m'.memory 4 clone.table}) \ {x | x ∈ userFrames m'.memory 4 clone.table} =
      held := by
    rw [Set.union_sdiff_right]
    exact (Set.disjoint_left.mpr hNotHeld).sdiff_eq_left
  have hFunded := hFreed.funded
  rw [hFree, hHeld] at hFunded
  exact hFunded

theorem clonePageDirectory_isolates (h : Forkable site m dir free held) (self : Nat)
    (hEnough : (clonePageDirectory m (some self) dir false).1.exhausted = false) :
    ∃ m' clone, clonePageDirectory m (some self) dir false = (m', some clone) ∧
      Forked site m dir free held m' clone ∧
      ∀ ws : List (Bool × Write), (∀ w ∈ ws, IsUserAddress w.2.addr) →
        (∀ addr word, IsUserAddress addr →
          load (writes dir clone m'.memory ws) dir addr word =
            load (writes dir clone m'.memory (ws.filter fun w => !w.1)) dir addr word ∧
          load (writes dir clone m'.memory ws) clone addr word =
            load (writes dir clone m'.memory (ws.filter fun w => w.1)) clone addr word) ∧
        ∃ m'', freePageDirectory { m' with memory := writes dir clone m'.memory ws } clone = some m'' ∧
          Funded site m'' free held ∧
          ∀ x, ¬ InUse m'.memory clone x → m''.memory x = writes dir clone m'.memory ws x := by
  obtain ⟨m', clone, hCall, hCloned, hKernel⟩ := h.cloned self hEnough
  have hForked := hCloned.forked h hKernel
  refine ⟨m', clone, hCall, hForked, fun ws hUser => ⟨fun addr word hAddr => ?_, ?_⟩⟩
  · exact ⟨hForked.isolated.reads hUser hAddr, hForked.isolated.reads_other hUser hAddr⟩
  · exact hCloned.freed h rfl fun x hx => hForked.isolated.writes hUser x (.inr hx)

/-- Only one entry of the source is present, and the others of the table are 0. -/
def Lone (m : Machine) (s t : U64) (k : BitVec 9) : Prop :=
    ∀ i, i ≠ k → isPresent (m.memory s i) = false ∧ m.memory t i = 0

theorem setEntry_self (m : Machine) (t : U64) (i : BitVec 9) : setEntry m t i (m.memory t i) = m := by
  rw [setEntry, update_eq_self, update_eq_self]

theorem foldl_lone (hStep : ∀ m i, isPresent (m.memory s i) = false → step m i = setEntry m t i 0) (hn : n ≤ 512)
    (hk : k.toNat < n) (hBefore : Lone m s t k) (hAfter : Lone (step m k) s t k) :
        (entries n).foldl step m = step m k := by
  have hStill : ∀ (m : Machine) (l : List (BitVec 9)), k ∉ l → Lone m s t k → l.foldl step m = m := by
    intro m l hl hLone
    induction l with
    | nil => rfl
    | cons i l ih =>
      rw [List.mem_cons, not_or] at hl
      obtain ⟨hNe, hRest⟩ := hl
      obtain ⟨hAbsent, hZero⟩ := hLone i fun hSame => hNe hSame.symm
      have hSelf := setEntry_self m t i
      rw [hZero] at hSelf
      rw [List.foldl_cons, hStep m i hAbsent, hSelf]
      exact ih hRest
  have hNodup : (entries n).Nodup := by
    refine .map_on ?_ List.nodup_range
    intro a ha b hb hSame
    have hNat := congrArg BitVec.toNat hSame
    rw [List.mem_range] at ha hb
    rwa [index_toNat (by omega), index_toNat (by omega)] at hNat
  obtain ⟨before, after, hSplit⟩ := List.append_of_mem ((mem_entries hn).mpr hk)
  rw [hSplit, List.nodup_append] at hNodup
  obtain ⟨-, hTail, hApart⟩ := hNodup
  rw [hSplit, List.foldl_append, List.foldl_cons,
    hStill m before (fun hIn => hApart k hIn k List.mem_cons_self rfl) hBefore,
    hStill (step m k) after (List.nodup_cons.mp hTail).1 hAfter]

def newTable (m : Machine) : Machine := pageTableClear (allocFrame m).1 (allocFrame m).2

structure Reads (site : Site) (M₀ : Memory) (free₀ : Set U64) (m : Machine) (free held : Set U64) : Prop where
  funded : Funded site m free held
  inside : free ⊆ free₀
  agree : ∀ x, x ∉ free₀ → m.memory x = M₀ x

theorem Reads.taken (h : Reads site M₀ free₀ m free held) (hNonzero : (allocFrame m).2 ≠ 0) :
    Taken site m free held (allocFrame m).2 (allocFrame m).1 ∧
      Reads site M₀ free₀ (newTable m) (free \ {(allocFrame m).2}) (insert (allocFrame m).2 held) := by
  have hTaken := h.funded.alloc.resolve_left fun hNone => hNonzero hNone.1
  refine ⟨hTaken, hTaken.funded.congr rfl, fun x hx => h.inside hx.1, fun x hx => ?_⟩
  rw [← h.agree x hx, ← hTaken.memory]
  refine update_of_ne ?_ _ _
  rintro rfl
  exact hx (h.inside hTaken.wasFree)

theorem foldl_one (h : Reads site M₀ free₀ m free held) (hNonzero : (allocFrame m).2 ≠ 0) (hs : s ∉ free₀)
    (hStep : ∀ c i, isPresent (c.memory s i) = false → step c i = setEntry c (allocFrame m).2 i 0) (hn : n ≤ 512)
    (hk : k.toNat < n) (hLone : ∀ i, i ≠ k → isPresent (M₀ s i) = false)
    (hEntry : step (newTable m) k = setEntry m₂ (allocFrame m).2 k value)
    (hSame : m₂.memory s = (newTable m).memory s ∧ m₂.memory (allocFrame m).2 = (newTable m).memory (allocFrame m).2) :
    (entries n).foldl step (newTable m) = setEntry m₂ (allocFrame m).2 k value := by
  obtain ⟨hTaken, hReads⟩ := h.taken hNonzero
  have hNe : s ≠ (allocFrame m).2 := by
    rintro hSame'
    exact hs (hSame' ▸ h.inside hTaken.wasFree)
  have hZero : ∀ i, (newTable m).memory (allocFrame m).2 i = 0 := by
    intro i
    change update (allocFrame m).1.memory (allocFrame m).2 (fun _ => 0) (allocFrame m).2 i = 0
    rw [update_self]
  rw [foldl_lone hStep hn hk, hEntry]
  · intro i hi
    rw [hReads.agree s hs]
    exact ⟨hLone i hi, hZero i⟩
  · intro i hi
    rw [hEntry]
    constructor
    · change isPresent (setCell m₂.memory (allocFrame m).2 k value s i) = false
      rw [setCell_apply, if_neg fun hCell => hNe hCell.1, hSame.1, hReads.agree s hs]
      exact hLone i hi
    · change setCell m₂.memory (allocFrame m).2 k value (allocFrame m).2 i = 0
      rw [setCell_apply, if_neg fun hCell => hi hCell.2, hSame.2]
      exact hZero i

def Suffices (level : Nat) (m : Machine) (s : U64) : Prop :=
    (copyPageTableRecursive false level false m s).1.exhausted = false

theorem Suffices.whole (h : Suffices 4 m dir.table) (self : Nat) :
    (clonePageDirectory m (some self) dir false).1.exhausted = false := h

theorem copyLast_one (h : Reads site M₀ free₀ m free held) (hSource : Source M₀ free₀ (0 + 1) s)
    (hPresent : isPresent (M₀ s k)) (hLone : ∀ i, i ≠ k → isPresent (M₀ s i) = false) (hStart : m.exhausted = false)
    (hNonzero : (allocFrame m).2 ≠ 0) (hPage : (allocFrame (newTable m)).2 ≠ 0) : Suffices (0 + 1) m s := by
  obtain ⟨hTaken, hReads⟩ := h.taken hNonzero
  obtain ⟨hTaken', -⟩ := hReads.taken hPage
  have hs : s ∉ free₀ := hSource.tables s (.inl rfl)
  have hRead : (newTable m).memory s = M₀ s := hReads.agree s hs
  have hSmall := (hSource.child k.isLt hPresent).1
  have hEntry : copyLastEntry s (allocFrame m).2 (newTable m) k = setEntry { (allocFrame (newTable m)).1 with
      memory := update (allocFrame (newTable m)).1.memory (allocFrame (newTable m)).2
        ((allocFrame (newTable m)).1.memory (M₀ s k &&& pteAddrMask)) } (allocFrame m).2 k
      (M₀ s k &&& ~~~pteAddrMask ||| (allocFrame (newTable m)).2 ||| pteFrameAllocated) := by
    simp only [copyLastEntry, hRead, hPresent, hSmall, Bool.not_true, Bool.false_eq_true, if_false, ne_eq,
        not_true_eq_false]
    rw [if_neg hPage]
  have hOff : ∀ x, x ≠ (allocFrame (newTable m)).2 → update (allocFrame (newTable m)).1.memory
      (allocFrame (newTable m)).2 ((allocFrame (newTable m)).1.memory (M₀ s k &&& pteAddrMask)) x =
          (newTable m).memory x := by
    intro x hx
    rw [update_of_ne hx, hTaken'.memory]
  simp only [Suffices, copyPageTableRecursive, copyLastTable, Bool.false_eq_true, if_false]
  change ((entries 512).foldl (copyLastEntry s (allocFrame m).2) (newTable m)).exhausted = false
  rw [foldl_one h hNonzero hs ?_ (Nat.le_refl 512) k.isLt hLone hEntry ⟨hOff s ?_, hOff _ ?_⟩]
  · exact hTaken'.exhausted.trans (hTaken.exhausted.trans hStart)
  · intro m i hAbsent
    simp only [copyLastEntry, hAbsent, Bool.not_false, if_true]
  · rintro rfl
    exact hs (h.inside hTaken'.wasFree.1)
  · exact fun hSame => hTaken'.wasFree.2 hSame.symm

theorem copyTable_one (h : Reads site M₀ free₀ m free held) (hSource : Source M₀ free₀ (level + 1 + 1) s)
    (hLevel : level + 1 ≤ 3) (hUser : k.toNat < userEntries (level + 1 + 1))
    (hPresent : isPresent (M₀ s k)) (hLone : ∀ i, i ≠ k → isPresent (M₀ s i) = false)
    (hAddr : M₀ s k &&& pteAddrMask = c) (hNonzero : (allocFrame m).2 ≠ 0)
    (hChild : Suffices (level + 1) (newTable m) c) : Suffices (level + 1 + 1) m s := by
  obtain ⟨-, hReads⟩ := h.taken hNonzero
  have hs : s ∉ free₀ := hSource.tables s (.inl rfl)
  have hRead : (newTable m).memory s = M₀ s := hReads.agree s hs
  obtain ⟨hSmall, hBelow⟩ := hSource.child hUser hPresent
  rw [hAddr] at hBelow
  have hCloned := copyPageTableRecursive_copies
      (by omega) _ _ _ _ hReads.funded hReads.inside hReads.agree hBelow hChild
  rw [Suffices, copyPageTableRecursive]
  simp only [Bool.false_eq_true, if_false]
  generalize hCopy : (fun i : BitVec 9 => copyPageTableRecursive false (level + 1)
    (if level + 2 ≠ 4 then false else decide (256 ≤ i.toNat))) = copy
  have hAt : copy k = copyPageTableRecursive false (level + 1) false := by
    rw [← hCopy]
    simp only [not_kernel_of_user hUser]
  change ((entries (userEntries (level + 2))).foldl (copyTableEntry copy s (allocFrame m).2)
      (newTable m)).exhausted = false
  have hEntry : copyTableEntry copy s (allocFrame m).2 (newTable m) k = setEntry
      (copyPageTableRecursive false (level + 1) false (newTable m) c).1 (allocFrame m).2 k
      ((copyPageTableRecursive false (level + 1) false (newTable m) c).2 |||
        (copyPageTableRecursive false (level + 1) false (newTable m) c).1.memory s k &&& ~~~pteAddrMask) := by
    simp only [copyTableEntry, hRead, hPresent, hSmall, hAt, hAddr, Bool.not_true, Bool.false_eq_true, if_false, ne_eq,
      not_true_eq_false]
  rw [foldl_one h hNonzero hs ?_ (userEntries_le _) hUser hLone hEntry ⟨hCloned.others s ?_, hCloned.others _ ?_⟩]
  · exact hChild
  · intro c i hAbsent
    simp only [copyTableEntry, hAbsent, Bool.not_false, if_true]
  · exact fun hIn => hs (h.inside (hCloned.fresh s hIn).1)
  · exact fun hIn => (hCloned.fresh _ hIn).2 rfl

structure Thread (M : Memory) (level : Nat) (t : U64) (tables : List U64) (page : U64) : Prop where
  small : OnlySmall M level t
  tables : ∀ x ∈ userTables M level t, x ∈ tables
  pages : ∀ x ∈ userPages M level t, x = page

theorem thread_page (M : Memory) (page : U64) : Thread M 0 page [] page :=
  ⟨trivial, fun x hx => absurd hx (Set.notMem_empty x), fun _ hx => hx⟩

theorem Thread.table {page : U64} {tables : List U64} (h : Thread M level c tables page)
    (hLone : ∀ i, i ≠ k → isPresent (M t i) = false) (hHuge : M t k &&& pteHuge = 0)
    (hAddr : M t k &&& pteAddrMask = c) : Thread M (level + 1) t (t :: tables) page := by
  have hOnly : ∀ i, isPresent (M t i) → i = k :=
    fun i hPresent => by_contra fun hNe => absurd ((hLone i hNe).symm.trans hPresent) nofun
  refine ⟨?_, ?_, ?_⟩
  · intro i _ hPresent
    rw [hOnly i hPresent, hAddr]
    exact ⟨hHuge, h.small⟩
  · rintro x (rfl | ⟨i, -, hPresent, hx⟩)
    · exact .head _
    · rw [hOnly i hPresent, hAddr] at hx
      exact .tail _ (h.tables x hx)
  · rintro x ⟨i, -, hPresent, hx⟩
    rw [hOnly i hPresent, hAddr] at hx
    exact h.pages x hx

def forkTables : Memory := fun t i =>
  if t = 0x1000 ∧ i = 0 then 0x2007 else if t = 0x2000 ∧ i = 0 then 0x3007 else if t = 0x3000 ∧ i = 2 then 0x4007
  else if t = 0x4000 ∧ i = 0 then 0x5007 else if t = 0x5000 ∧ i = 0 then 42 else 0

def forkMachine : Machine := { memory := forkTables, frames := sampleBoot, exhausted := false }

def forkDirectory : PageDirectory := { self := 0, table := 0x1000 }

theorem forkTables_lone (hTable : (t, k) ∈ [((0x1000 : U64), (0 : BitVec 9)), (0x2000, 0), (0x3000, 2), (0x4000, 0)])
    (i : BitVec 9) (hi : i ≠ k) : isPresent (forkTables t i) = false := by
  have hZero : forkTables t i = 0 := by
    simp only [List.mem_cons, Prod.mk.injEq, List.not_mem_nil, or_false] at hTable
    obtain ⟨rfl, rfl⟩ | ⟨rfl, rfl⟩ | ⟨rfl, rfl⟩ | ⟨rfl, rfl⟩ := hTable
    · simpa [forkTables] using hi
    · simpa [forkTables] using hi
    · simpa [forkTables] using hi
    · simpa [forkTables] using hi
  rw [hZero]
  rfl

theorem forkTables_thread : Thread forkTables 4 0x1000 [0x1000, 0x2000, 0x3000, 0x4000] 0x5000 :=
  ((((thread_page forkTables 0x5000).table (forkTables_lone (t := 0x4000) (k := 0) (by simp)) (by decide)
      (by decide)).table
    (forkTables_lone (t := 0x3000) (k := 2) (by simp)) (by decide) (by decide)).table
    (forkTables_lone (t := 0x2000) (k := 0) (by simp)) (by decide) (by decide)).table
    (forkTables_lone (t := 0x1000) (k := 0) (by simp)) (by decide) (by decide)

theorem forkMachine_forkable : ∃ free, Forkable sampleSite forkMachine forkDirectory free ∅ := by
  obtain ⟨free, hFunded, hManaged⟩ := @boot_funded sampleSite forkMachine (fun _ => 0) (by decide) sampleBoot_eq
  have hHigh : ∀ x ∈ free, 0x100000 ≤ x.toNat := by
    intro x hx
    obtain ⟨r, hMem, hLow, -⟩ := hManaged x hx
    obtain rfl := List.mem_singleton.mp hMem
    simp only at hLow
    omega
  have hThread := forkTables_thread
  refine ⟨free, hFunded, ⟨hThread.small, ?_⟩, ?_⟩
  · intro x hx hPage
    have hTable := hThread.tables x hx
    rw [hThread.pages x hPage] at hTable
    exact absurd hTable (by decide)
  · rintro x (hx | hx) hFree
    · have hLow : ∀ y ∈ [(0x1000 : U64), 0x2000, 0x3000, 0x4000], y.toNat < 0x100000 := by simp
      exact absurd (hHigh x hFree) (not_le.mpr (hLow x (hThread.tables x hx)))
    · rw [hThread.pages x hx] at hFree
      exact absurd (hHigh _ hFree) (by simp)

theorem forkMachine_enough : (clonePageDirectory forkMachine (some 1) forkDirectory false).1.exhausted = false := by
  obtain ⟨free, hForkable⟩ := forkMachine_forkable
  have hSource : Source forkTables free (0 + 1 + 1 + 1 + 1) 0x1000 :=
    ⟨hForkable.sound.small, fun x hx => hForkable.used x (.inl hx), fun x hx => hForkable.used x (.inr hx)⟩
  have hSource₃ : Source forkTables free (0 + 1 + 1 + 1) 0x2000 := (hSource.child (i := 0) (by decide) (by decide)).2
  have hSource₂ : Source forkTables free (0 + 1 + 1) 0x3000 := (hSource₃.child (i := 0) (by decide) (by decide)).2
  have hSource₁ : Source forkTables free (0 + 1) 0x4000 := (hSource₂.child (i := 2) (by decide) (by decide)).2
  have hReads : Reads sampleSite forkTables free forkMachine free ∅ :=
    ⟨hForkable.funded, Set.Subset.refl free, fun _ _ => rfl⟩
  have hNonzero : (allocFrame forkMachine).2 ≠ 0 := by decide +kernel
  have hNonzero₁ : (allocFrame (newTable forkMachine)).2 ≠ 0 := by decide +kernel
  have hNonzero₂ : (allocFrame (newTable (newTable forkMachine))).2 ≠ 0 := by decide +kernel
  have hNonzero₃ : (allocFrame (newTable (newTable (newTable forkMachine)))).2 ≠ 0 := by decide +kernel
  have hNonzero₄ : (allocFrame (newTable (newTable (newTable (newTable forkMachine))))).2 ≠ 0 := by decide +kernel
  have hReads₁ := (hReads.taken hNonzero).2
  have hReads₂ := (hReads₁.taken hNonzero₁).2
  have hReads₃ := (hReads₂.taken hNonzero₂).2
  have hLast : Suffices (0 + 1) (newTable (newTable (newTable forkMachine))) 0x4000 :=
    copyLast_one hReads₃ hSource₁ (k := 0) (by decide) (forkTables_lone (by simp))
        (by decide +kernel) hNonzero₃ hNonzero₄
  have hTwo : Suffices (0 + 1 + 1) (newTable (newTable forkMachine)) 0x3000 :=
    copyTable_one hReads₂ hSource₂ (by decide) (k := 2) (by decide) (by decide) (forkTables_lone (by simp)) (by decide)
      hNonzero₂ hLast
  have hThree : Suffices (0 + 1 + 1 + 1) (newTable forkMachine) 0x2000 :=
    copyTable_one hReads₁ hSource₃ (by decide) (k := 0) (by decide) (by decide) (forkTables_lone (by simp)) (by decide)
      hNonzero₁ hTwo
  have hFour : Suffices (0 + 1 + 1 + 1 + 1) forkMachine 0x1000 :=
    copyTable_one hReads hSource (by decide) (k := 0) (by decide) (by decide) (forkTables_lone (by simp)) (by decide)
      hNonzero hThree
  have hRoot : Suffices 4 forkMachine forkDirectory.table := hFour
  exact hRoot.whole 1

/-- One page, five frames. -/
theorem clonePageDirectory_isolates_page : ∃ free m' clone,
    clonePageDirectory forkMachine (some 1) forkDirectory false = (m', some clone) ∧
      Forked sampleSite forkMachine forkDirectory free ∅ m' clone := by
  obtain ⟨free, hForkable⟩ := forkMachine_forkable
  obtain ⟨m', clone, hCall, hForked, -⟩ := clonePageDirectory_isolates hForkable 1 forkMachine_enough
  exact ⟨free, m', clone, hCall, hForked⟩

end OpenXJ380.Paging
