import OpenXJ380.Paging.Tables

/-! # What the user half of a directory consists of

Its tables and pages, level by level. They depend on the tables alone.
-/

namespace OpenXJ380.Paging

open Frames TableTree

variable {M M' : Memory} {level n : Nat} {t x entry : U64} {i : BitVec 9} {free : Set U64}

theorem mem_entries (hn : n ≤ 512) : i ∈ entries n ↔ i.toNat < n := by
  rw [entries, List.mem_map]
  constructor
  · rintro ⟨k, hk, rfl⟩
    rw [List.mem_range] at hk
    rw [BitVec.toNat_ofNat, Nat.mod_eq_of_lt (by omega)]
    exact hk
  · intro hLess
    exact ⟨i.toNat, List.mem_range.mpr hLess, BitVec.ofNat_toNat 9 i⟩

theorem entries_succ (n : Nat) : entries (n + 1) = entries n ++ [BitVec.ofNat 9 n] := by
  rw [entries, List.range_succ, List.map_append]
  rfl

theorem index_toNat (hn : n < 512) : (BitVec.ofNat 9 n).toNat = n := by
  rw [BitVec.toNat_ofNat, Nat.mod_eq_of_lt (by omega)]

theorem userEntries_le (level : Nat) : userEntries level ≤ 512 := by
  rw [userEntries]
  split
  · decide
  · exact Nat.le_refl 512

theorem not_kernel_of_user (hi : i.toNat < userEntries (level + 2)) :
    (if level + 2 ≠ 4 then false else decide (256 ≤ i.toNat)) = false := by
  rw [userEntries] at hi
  split
  · rfl
  · next hTop =>
    rw [if_pos (not_not.mp hTop)] at hi
    exact decide_eq_false (not_le.mpr hi)

theorem mem_userEntries : i ∈ entries (userEntries level) ↔ i.toNat < userEntries level :=
    mem_entries (userEntries_le level)

def userTables (M : Memory) : Nat → U64 → Set U64
  | 0, _ => ∅
  | level + 1, t => {x | x = t ∨ ∃ i : BitVec 9, i.toNat < userEntries (level + 1) ∧ isPresent (M t i) = true ∧
      x ∈ userTables M level (M t i &&& pteAddrMask)}

def userPages (M : Memory) : Nat → U64 → Set U64
  | 0, t => {t}
  | level + 1, t => {x | ∃ i : BitVec 9, i.toNat < userEntries (level + 1) ∧ isPresent (M t i) = true ∧
      x ∈ userPages M level (M t i &&& pteAddrMask)}

def userFrames (M : Memory) : Nat → U64 → List U64
  | 0, t => [t]
  | level + 1, t => (entries (userEntries (level + 1))).flatMap (fun i =>
      if isPresent (M t i) then userFrames M level (M t i &&& pteAddrMask) else []) ++ [t]

def OnlySmall (M : Memory) : Nat → U64 → Prop
  | 0, _ => True
  | level + 1, t => ∀ i : BitVec 9, i.toNat < userEntries (level + 1) → isPresent (M t i) = true →
      M t i &&& pteHuge = 0 ∧ OnlySmall M level (M t i &&& pteAddrMask)

def OnlyAllocated (M : Memory) : Nat → U64 → Prop
  | 0, _ => True
  | level + 1, t => ∀ i : BitVec 9, i.toNat < userEntries (level + 1) → isPresent (M t i) = true →
      (level = 0 → M t i &&& pteFrameAllocated ≠ 0) ∧ OnlyAllocated M level (M t i &&& pteAddrMask)

def entryFrames (M : Memory) (level : Nat) (entry : U64) : List U64 :=
  if isPresent entry then userFrames M level (entry &&& pteAddrMask) else []

def framesBelow (M : Memory) (level : Nat) (t : U64) (n : Nat) : List U64 :=
  (entries n).flatMap fun i => entryFrames M level (M t i)

theorem userFrames_succ (M : Memory) (level : Nat) (t : U64) :
    userFrames M (level + 1) t = framesBelow M level t (userEntries (level + 1)) ++ [t] := rfl

theorem framesBelow_succ (M : Memory) (level : Nat) (t : U64) (n : Nat) :
    framesBelow M level t (n + 1) = framesBelow M level t n ++ entryFrames M level (M t (BitVec.ofNat 9 n)) := by
  rw [framesBelow, framesBelow, entries_succ, List.flatMap_append, List.flatMap_singleton]

theorem self_mem_userFrames : t ∈ userFrames M level t := by
  cases level with
  | zero => exact List.mem_singleton_self t
  | succ level => exact List.mem_append_right _ (List.mem_singleton_self t)

theorem mem_framesBelow (hn : n ≤ 512) : x ∈ framesBelow M level t n ↔
    ∃ i : BitVec 9, i.toNat < n ∧ isPresent (M t i) ∧ x ∈ userFrames M level (M t i &&& pteAddrMask) := by
  rw [framesBelow, List.mem_flatMap]
  constructor
  · rintro ⟨i, hi, hx⟩
    rw [entryFrames] at hx
    split at hx
    · next hPresent => exact ⟨i, (mem_entries hn).mp hi, hPresent, hx⟩
    · cases hx
  · rintro ⟨i, hi, hPresent, hx⟩
    refine ⟨i, (mem_entries hn).mpr hi, ?_⟩
    rw [entryFrames, if_pos hPresent]
    exact hx

theorem mem_userFrames : x ∈ userFrames M level t ↔ x ∈ userTables M level t ∨ x ∈ userPages M level t := by
  induction level generalizing t with
  | zero => simp [userFrames, userTables, userPages]
  | succ level ih =>
    rw [userFrames_succ, List.mem_append, List.mem_singleton, mem_framesBelow (userEntries_le _)]
    constructor
    · rintro (⟨i, hi, hPresent, hx⟩ | rfl)
      · obtain hTable | hPage := ih.mp hx
        · exact .inl (.inr ⟨i, hi, hPresent, hTable⟩)
        · exact .inr ⟨i, hi, hPresent, hPage⟩
      · exact .inl (.inl rfl)
    · rintro ((rfl | ⟨i, hi, hPresent, hx⟩) | ⟨i, hi, hPresent, hx⟩)
      · exact .inr rfl
      · exact .inl ⟨i, hi, hPresent, ih.mpr (.inl hx)⟩
      · exact .inl ⟨i, hi, hPresent, ih.mpr (.inr hx)⟩

theorem userTables_child (hi : i.toNat < userEntries (level + 1)) (hPresent : isPresent (M t i))
    (h : ∀ x ∈ userTables M (level + 1) t, M' x = M x) : ∀ x ∈ userTables M level (M t i &&& pteAddrMask), M' x = M x :=
  fun x hx => h x (.inr ⟨i, hi, hPresent, hx⟩)

section

variable (h : ∀ x ∈ userTables M level t, M' x = M x)

include h

theorem userTables_congr : userTables M' level t = userTables M level t := by
  induction level generalizing t with
  | zero => rfl
  | succ level ih =>
    have hSelf : M' t = M t := h t (.inl rfl)
    ext x
    simp only [userTables, hSelf, Set.mem_ofPred_eq]
    refine or_congr Iff.rfl (exists_congr fun i => and_congr_right fun hi => and_congr_right fun hPresent => ?_)
    rw [ih (userTables_child hi hPresent h)]

theorem userPages_congr : userPages M' level t = userPages M level t := by
  induction level generalizing t with
  | zero => rfl
  | succ level ih =>
    have hSelf : M' t = M t := h t (.inl rfl)
    ext x
    simp only [userPages, hSelf, Set.mem_ofPred_eq]
    refine exists_congr fun i => and_congr_right fun hi => and_congr_right fun hPresent => ?_
    rw [ih (userTables_child hi hPresent h)]

theorem userFrames_congr : userFrames M' level t = userFrames M level t := by
  induction level generalizing t with
  | zero => rfl
  | succ level ih =>
    have hSelf : M' t = M t := h t (.inl rfl)
    rw [userFrames_succ, userFrames_succ, framesBelow, framesBelow, hSelf]
    congr 1
    refine List.flatMap_congr fun i hi => ?_
    rw [entryFrames, entryFrames]
    split
    · next hPresent => exact ih (userTables_child (mem_userEntries.mp hi) hPresent h)
    · rfl

theorem onlyAllocated_congr (hAll : OnlyAllocated M level t) : OnlyAllocated M' level t := by
  induction level generalizing t with
  | zero => trivial
  | succ level ih =>
    have hSelf : M' t = M t := h t (.inl rfl)
    intro i hi hPresent
    rw [hSelf] at hPresent ⊢
    exact ⟨(hAll i hi hPresent).1, ih (userTables_child hi hPresent h) (hAll i hi hPresent).2⟩

theorem onlySmall_congr (hAll : OnlySmall M level t) : OnlySmall M' level t := by
  induction level generalizing t with
  | zero => trivial
  | succ level ih =>
    have hSelf : M' t = M t := h t (.inl rfl)
    intro i hi hPresent
    rw [hSelf] at hPresent ⊢
    exact ⟨(hAll i hi hPresent).1, ih (userTables_child hi hPresent h) (hAll i hi hPresent).2⟩

end

theorem framesBelow_congr (hn : n ≤ 512) (hEntries : ∀ i : BitVec 9, i.toNat < n → M' t i = M t i)
    (h : ∀ x ∈ framesBelow M level t n, M' x = M x) : framesBelow M' level t n = framesBelow M level t n := by
  rw [framesBelow, framesBelow]
  refine List.flatMap_congr fun i hi => ?_
  rw [mem_entries hn] at hi
  rw [hEntries i hi, entryFrames, entryFrames]
  split
  · next hPresent =>
    refine userFrames_congr fun x hx => h x ((mem_framesBelow hn).mpr ⟨i, hi, hPresent, ?_⟩)
    exact mem_userFrames.mpr (.inl hx)
  · rfl

theorem tables_apart_pages (h : (userFrames M level t).Nodup) (hTable : x ∈ userTables M level t) :
    x ∉ userPages M level t := by
  induction level generalizing t with
  | zero => exact absurd hTable (Set.notMem_empty x)
  | succ level ih =>
    rw [userFrames_succ, List.nodup_append] at h
    obtain ⟨hBelow, -, hSelf⟩ := h
    rintro ⟨j, hj, hThere, hPage⟩
    have hPageIn := (mem_framesBelow (userEntries_le _)).mpr ⟨j, hj, hThere, mem_userFrames.mpr (.inr hPage)⟩
    obtain rfl | ⟨i, hi, hPresent, hIn⟩ := hTable
    · exact hSelf x hPageIn x (List.mem_singleton_self x) rfl
    · rw [framesBelow, List.nodup_flatMap] at hBelow
      by_cases hSame : i = j
      · subst hSame
        have hChild := hBelow.1 i (mem_userEntries.mpr hi)
        rw [entryFrames, if_pos hPresent] at hChild
        exact ih hChild hIn hPage
      · have : Std.Symm (Function.onFun List.Disjoint fun i => entryFrames M level (M t i)) := ⟨fun _ _ h => h.symm⟩
        have hApart := hBelow.2.forall (mem_userEntries.mpr hi) (mem_userEntries.mpr hj) hSame
        rw [Function.onFun, entryFrames, entryFrames, if_pos hPresent, if_pos hThere] at hApart
        exact hApart (mem_userFrames.mpr (.inl hIn)) (mem_userFrames.mpr (.inr hPage))

end OpenXJ380.Paging

/-! # What is freed with a directory

The tables and pages of the user half, each once. A table that still is to be
visited stands as it did.
-/

namespace OpenXJ380.Paging

open BitVec (ofNat)

open Frames TableTree

variable {site : Site} {M : Memory} {m m' m₂ : Machine} {free held : Set U64} {level n N : Nat} {t x : U64}
  {step : Machine → BitVec 9 → Option Machine}

/-- What can be freed: each frame is held, is met once and belongs to its entry. -/
structure Freeable (M : Memory) (level : Nat) (t : U64) (held : Set U64) : Prop where
  nodup : (userFrames M level t).Nodup
  held : ∀ x ∈ userFrames M level t, x ∈ held
  allocated : OnlyAllocated M level t
  small : OnlySmall M level t

structure Freed (site : Site) (m : Machine) (free held : Set U64) (frames : List U64) (m' : Machine) : Prop where
  funded : Funded site m' (free ∪ {x | x ∈ frames}) (held \ {x | x ∈ frames})
  others : ∀ x, x ∉ frames → m'.memory x = m.memory x

structure Freeing (site : Site) (M : Memory) (level : Nat) (t : U64) (free held : Set U64) (n : Nat) (m' : Machine) :
    Prop where
  funded : Funded site m' (free ∪ {x | x ∈ framesBelow M level t n}) (held \ {x | x ∈ framesBelow M level t n})
  rest : ∀ i : BitVec 9, n ≤ i.toNat → m'.memory t i = M t i
  others : ∀ x, x ∉ framesBelow M level t n → x ≠ t → m'.memory x = M x

theorem freeing_start (h : Funded site m free held) : Freeing site m.memory level t free held 0 m := by
  have hBelow : framesBelow m.memory level t 0 = [] := rfl
  refine ⟨?_, fun _ _ => rfl, fun _ _ _ => rfl⟩
  rw [hBelow]
  simpa using h

theorem Freeing.extend (h : Freeing site M level t free held n m')
    (hFreed : Freed site m' (free ∪ {x | x ∈ framesBelow M level t n}) (held \ {x | x ∈ framesBelow M level t n})
      (entryFrames M level (M t (ofNat 9 n))) m₂) (hTable : t ∉ entryFrames M level (M t (ofNat 9 n))) :
    Freeing site M level t free held (n + 1) m₂ := by
  have hSet : {x | x ∈ framesBelow M level t (n + 1)} =
      {x | x ∈ framesBelow M level t n} ∪ {x | x ∈ entryFrames M level (M t (ofNat 9 n))} := by
    ext x
    rw [framesBelow_succ]
    exact List.mem_append
  refine ⟨?_, ?_, ?_⟩
  · rw [hSet, ← Set.union_assoc, ← Set.sdiff_sdiff]
    exact hFreed.funded
  · intro i hi
    rw [hFreed.others t hTable]
    exact h.rest i (Nat.le_of_succ_le hi)
  · intro x hx hNe
    rw [framesBelow_succ, List.mem_append, not_or] at hx
    rw [hFreed.others x hx.2, h.others x hx.1 hNe]

theorem Freeing.loop (hStep : ∀ n m', n < N → Freeing site M level t free held n m' →
      ∃ m₂, step m' (ofNat 9 n) = some m₂ ∧ Freeing site M level t free held (n + 1) m₂)
    (hStart : Freeing site M level t free held 0 m) (hn : n ≤ N) :
    ∃ m', (entries n).foldlM step m = some m' ∧ Freeing site M level t free held n m' := by
  induction n with
  | zero => exact ⟨m, rfl, hStart⟩
  | succ n ih =>
    obtain ⟨m', hLoop, hBefore⟩ := ih (Nat.le_of_succ_le hn)
    obtain ⟨m₂, hLast, hAfter⟩ := hStep n m' hn hBefore
    refine ⟨m₂, ?_, hAfter⟩
    rw [entries_succ, List.foldlM_append, hLoop, Option.bind_eq_bind, Option.bind_some]
    simp [hLast]

theorem Freeable.entry (h : Freeable M (level + 1) t held) (hn : n < userEntries (level + 1)) :
    t ∉ entryFrames M level (M t (ofNat 9 n)) ∧ (entryFrames M level (M t (ofNat 9 n))).Nodup ∧
      ∀ x ∈ entryFrames M level (M t (ofNat 9 n)), x ∈ held ∧ x ∉ framesBelow M level t n := by
  have hSplit : ∃ later, framesBelow M level t (userEntries (level + 1)) = framesBelow M level t (n + 1) ++ later := by
    obtain ⟨k, hk⟩ := Nat.exists_eq_add_of_le hn
    rw [hk]
    refine ⟨((List.range k).map fun j => ofNat 9 (n + 1 + j)).flatMap fun i => entryFrames M level (M t i), ?_⟩
    rw [framesBelow, framesBelow, entries, entries, ← List.flatMap_append, List.range_add, List.map_append,
        List.map_map]
    rfl
  obtain ⟨later, hAll⟩ := hSplit
  have hNodup := h.nodup
  have hHeld := h.held
  rw [userFrames_succ, hAll, framesBelow_succ] at hNodup hHeld
  rw [List.append_assoc, List.append_assoc] at hNodup
  rw [List.nodup_append] at hNodup
  obtain ⟨-, hTail, hApart⟩ := hNodup
  rw [List.nodup_append] at hTail
  refine ⟨?_, hTail.1, fun x hx => ⟨?_, ?_⟩⟩
  · intro hIn
    exact hTail.2.2 t hIn t (List.mem_append_right _ (List.mem_singleton_self t)) rfl
  · apply hHeld
    simp only [List.mem_append]
    exact .inl (.inl (.inr hx))
  · intro hIn
    exact hApart x hIn x (List.mem_append_left _ hx) rfl

theorem freed_nothing (h : Funded site m free held) : Freed site m free held [] m := by
  refine ⟨?_, fun _ _ => rfl⟩
  simpa using h

theorem freeLastEntry_step (hFreeable : Freeable M 1 t held) (hn : n < 512) (h : Freeing site M 0 t free held n m') :
    ∃ m₂, freeLastEntry t m' (ofNat 9 n) = some m₂ ∧ Freeing site M 0 t free held (n + 1) m₂ := by
  obtain ⟨hTable, -, hIn⟩ := hFreeable.entry hn
  have hRead : m'.memory t (ofNat 9 n) = M t (ofNat 9 n) := h.rest _ (by rw [index_toNat hn])
  have hIndex : (ofNat 9 n).toNat < userEntries (0 + 1) := by
    rw [index_toNat hn]
    exact hn
  simp only [freeLastEntry, hRead]
  by_cases hPresent : isPresent (M t (ofNat 9 n))
  · have hAllocated := (hFreeable.allocated _ hIndex hPresent).1 rfl
    have hFrames : entryFrames M 0 (M t (ofNat 9 n)) = [M t (ofNat 9 n) &&& pteAddrMask] := if_pos hPresent
    rw [hFrames] at hIn hTable
    obtain ⟨hHeld, hNew⟩ := hIn _ (List.mem_singleton_self _)
    obtain ⟨frames, hFree, hFunded⟩ := h.funded.release (a := M t (ofNat 9 n) &&& pteAddrMask) ⟨hHeld, hNew⟩
    simp only [hPresent, hAllocated, ne_eq, not_false_eq_true, decide_true, Bool.and_self, if_true, hFree,
        Option.map_some]
    refine ⟨_, rfl, ?_, ?_, ?_⟩
    · have hSet : {x | x ∈ framesBelow M 0 t (n + 1)} =
          {x | x ∈ framesBelow M 0 t n} ∪ {M t (ofNat 9 n) &&& pteAddrMask} := by
        ext x
        rw [framesBelow_succ, hFrames]
        exact List.mem_append.trans (or_congr Iff.rfl List.mem_singleton)
      rw [hSet, ← Set.union_assoc, ← Set.sdiff_sdiff, Set.union_singleton]
      exact hFunded.congr rfl
    · intro i hi
      change setCell m'.memory t (ofNat 9 n) 0 t i = M t i
      rw [setCell_apply, if_neg, h.rest i (Nat.le_of_succ_le hi)]
      rintro ⟨-, rfl⟩
      rw [index_toNat hn] at hi
      exact lt_irrefl n hi
    · intro x hx hNe
      rw [framesBelow_succ, List.mem_append, not_or] at hx
      rw [← h.others x hx.1 hNe]
      exact Function.update_of_ne hNe _ _
  · rw [Bool.not_eq_true] at hPresent
    simp only [hPresent, Bool.false_and, Bool.false_eq_true, if_false]
    refine ⟨m', rfl, h.extend ?_ hTable⟩
    rw [entryFrames, if_neg (by rw [hPresent]; exact nofun)]
    exact freed_nothing h.funded

def Frees (site : Site) (level : Nat) (release : Machine → U64 → Option Machine) : Prop :=
  ∀ m free held t, Funded site m free held → Freeable m.memory level t held →
    ∃ m', release m t = some m' ∧ Freed site m free held (userFrames m.memory level t) m'

theorem freeTableEntry_step {release : Machine → U64 → Option Machine} (hRelease : Frees site (level + 1) release)
    (hFreeable : Freeable M (level + 1 + 1) t held) (hn : n < userEntries (level + 1 + 1))
    (h : Freeing site M (level + 1) t free held n m') : ∃ m₂, freeTableEntry release t m' (ofNat 9 n) = some m₂ ∧
        Freeing site M (level + 1) t free held (n + 1) m₂ := by
  have hn' : n < 512 := hn.trans_le (userEntries_le _)
  obtain ⟨hTable, hNodup, hIn⟩ := hFreeable.entry hn
  have hRead : m'.memory t (ofNat 9 n) = M t (ofNat 9 n) := h.rest _ (by rw [index_toNat hn'])
  have hIndex : (ofNat 9 n).toNat < userEntries (level + 1 + 1) := by
    rw [index_toNat hn']
    exact hn
  simp only [freeTableEntry, hRead]
  by_cases hPresent : isPresent (M t (ofNat 9 n))
  · obtain ⟨hSmall, hChildSmall⟩ := hFreeable.small _ hIndex hPresent
    simp only [hPresent, Bool.not_true, Bool.false_eq_true, if_false, hSmall, ne_eq, not_true_eq_false]
    have hFrames : entryFrames M (level + 1) (M t (ofNat 9 n)) =
        userFrames M (level + 1) (M t (ofNat 9 n) &&& pteAddrMask) := if_pos hPresent
    have hAgree : ∀ x ∈ userTables M (level + 1) (M t (ofNat 9 n) &&& pteAddrMask), m'.memory x = M x := by
      intro x hx
      have hMem : x ∈ entryFrames M (level + 1) (M t (ofNat 9 n)) := by
        rw [hFrames]
        exact mem_userFrames.mpr (.inl hx)
      refine h.others x (hIn x hMem).2 ?_
      rintro rfl
      exact hTable hMem
    have hSame := userFrames_congr hAgree
    obtain ⟨m₂, hCall, hFreed⟩ := hRelease m' _ _ (M t (ofNat 9 n) &&& pteAddrMask) h.funded (by
      refine ⟨?_, ?_, onlyAllocated_congr hAgree
          (hFreeable.allocated _ hIndex hPresent).2, onlySmall_congr hAgree hChildSmall⟩
      · rw [hSame, ← hFrames]
        exact hNodup
      · rw [hSame, ← hFrames]
        exact hIn)
    rw [hSame, ← hFrames] at hFreed
    exact ⟨m₂, hCall, h.extend hFreed hTable⟩
  · rw [Bool.not_eq_true] at hPresent
    simp only [hPresent, Bool.not_false, if_true]
    refine ⟨m', rfl, h.extend ?_ hTable⟩
    rw [entryFrames, if_neg (by rw [hPresent]; exact nofun)]
    exact freed_nothing h.funded

theorem Freeing.table (hFreeable : Freeable m.memory (level + 1) t held)
    (h : Freeing site m.memory level t free held (userEntries (level + 1)) m') :
    ∃ m₂, freeFrame m' t = some m₂ ∧ Freed site m free held (userFrames m.memory (level + 1) t) m₂ := by
  have hNodup := hFreeable.nodup
  rw [userFrames_succ, List.nodup_append] at hNodup
  have hHeld : t ∈ held \ {x | x ∈ framesBelow m.memory level t (userEntries (level + 1))} :=
    ⟨hFreeable.held t self_mem_userFrames, fun hIn => hNodup.2.2 t hIn t (List.mem_singleton_self t) rfl⟩
  obtain ⟨frames, hFree, hFunded⟩ := h.funded.release hHeld
  have hSet : {x | x ∈ userFrames m.memory (level + 1) t} =
      {x | x ∈ framesBelow m.memory level t (userEntries (level + 1))} ∪ {t} := by
    ext x
    rw [userFrames_succ]
    exact List.mem_append.trans (or_congr Iff.rfl List.mem_singleton)
  refine ⟨_, hFree, ?_, ?_⟩
  · rw [hSet, ← Set.union_assoc, ← Set.sdiff_sdiff, Set.union_singleton]
    exact hFunded
  · intro x hx
    rw [userFrames_succ, List.mem_append, List.mem_singleton, not_or] at hx
    exact h.others x hx.1 hx.2

theorem freePageTableRecursive_frees (level : Nat) : Frees site (level + 1) (freePageTableRecursive (level + 1)) := by
  induction level with
  | zero =>
    intro m free held t hFunded hFreeable
    obtain ⟨m', hLoop, hAll⟩ :=
      Freeing.loop (fun n m' hn h => freeLastEntry_step hFreeable hn h) (freeing_start hFunded)
      (Nat.le_refl 512)
    obtain ⟨m₂, hCall, hFreed⟩ := hAll.table hFreeable
    refine ⟨m₂, ?_, hFreed⟩
    rw [freePageTableRecursive, freeLastTable, hLoop]
    exact hCall
  | succ level ih =>
    intro m free held t hFunded hFreeable
    obtain ⟨m', hLoop, hAll⟩ :=
      Freeing.loop (fun n m' hn h => freeTableEntry_step ih hFreeable hn h) (freeing_start hFunded)
      le_rfl
    obtain ⟨m₂, hCall, hFreed⟩ := hAll.table hFreeable
    refine ⟨m₂, ?_, hFreed⟩
    rw [freePageTableRecursive, hLoop]
    exact hCall

end OpenXJ380.Paging
