import OpenXJ380.Paging.Owned

/-! # What a copy is made of

While a table is copied its first entries are those of the source, each with a
frame of its own below it. All that is written are the frames of the copy.
-/

namespace OpenXJ380.Paging

section

open Frames TableTree

variable {site : Site} {M M' M₀ : Memory} {m m' m₁ m₂ : Machine} {free free₀ held : Set U64} {level n : Nat}
  {s t c x entry entry₀ bits : U64} {i : BitVec 9}

def flagsOf (entry : U64) : U64 := entry &&& ~~~pteAddrMask

def ownBit (level : Nat) : U64 := if level = 0 then pteFrameAllocated else 0

theorem flagsOf_and (hBits : bits &&& pteAddrMask = 0) : flagsOf entry &&& bits = entry &&& bits := by
  have hFlags : ~~~pteAddrMask &&& bits = bits := by
    have hSplit : bits &&& (pteAddrMask ||| ~~~pteAddrMask) = bits := by
      rw [BitVec.or_not_self, BitVec.and_allOnes]
    rw [BitVec.and_or_distrib_left, hBits] at hSplit
    rw [BitVec.and_comm]
    exact BitVec.zero_or.symm.trans hSplit
  rw [flagsOf, BitVec.and_assoc, hFlags]

theorem ownBit_and (level : Nat) : ownBit level &&& pteAddrMask = 0 ∧ ownBit level &&& ptePresent = 0 ∧
    ownBit level &&& pteHuge = 0 ∧ flagsOf (ownBit level) = ownBit level := by
  rw [ownBit]
  split
  · decide
  · decide

theorem linked_addr (hc : c &&& pteAddrMask = c) (hBits : bits &&& pteAddrMask = 0) :
    (flagsOf entry ||| c ||| bits) &&& pteAddrMask = c := by
  rw [BitVec.and_or_distrib_right, BitVec.and_or_distrib_right, hc, hBits, flagsOf, BitVec.and_assoc,
      BitVec.and_comm (~~~_), BitVec.and_not_self]
  simp

theorem linked_flags (hc : c &&& pteAddrMask = c) (level : Nat) :
    flagsOf (flagsOf entry ||| c ||| ownBit level) = flagsOf entry ||| ownBit level := by
  have hZero : flagsOf c = 0 := by
    rw [flagsOf, ← hc, BitVec.and_assoc, BitVec.and_not_self]
    simp
  have hSelf : flagsOf (flagsOf entry) = flagsOf entry := by
    rw [flagsOf, flagsOf, BitVec.and_assoc, BitVec.and_self]
  have hOr : ∀ a b : U64, flagsOf (a ||| b) = flagsOf a ||| flagsOf b := fun a b => BitVec.and_or_distrib_right
  rw [hOr, hOr, hZero, hSelf, (ownBit_and level).2.2.2]
  simp

section

variable (hFlags : flagsOf entry = flagsOf entry₀ ||| ownBit level)

include hFlags

theorem and_of_flags (hBits : bits &&& pteAddrMask = 0) (hOwn : ownBit level &&& bits = 0) :
    entry &&& bits = entry₀ &&& bits := by
  rw [← flagsOf_and hBits, hFlags, BitVec.and_or_distrib_right, hOwn, flagsOf_and hBits]
  simp

theorem isPresent_of_flags : isPresent entry = isPresent entry₀ := by
  rw [isPresent, isPresent, and_of_flags hFlags (by decide) (ownBit_and level).2.1]

theorem huge_of_flags : entry &&& pteHuge = entry₀ &&& pteHuge :=
  and_of_flags hFlags (by decide) (ownBit_and level).2.2.1

end

/-- The same pages at the same places, in frames that were allocated for them. -/
def Mirrors (M₀ M : Memory) : Nat → U64 → U64 → Prop
  | 0, s, t => M t = M₀ s
  | level + 1, s, t => ∀ i : BitVec 9, i.toNat < userEntries (level + 1) →
      (isPresent (M₀ s i) = false → M t i = 0) ∧
      (isPresent (M₀ s i) = true → flagsOf (M t i) = flagsOf (M₀ s i) ||| ownBit level ∧
        Mirrors M₀ M level (M₀ s i &&& pteAddrMask) (M t i &&& pteAddrMask))

def MirrorsEntry (M₀ M : Memory) (level : Nat) (entry₀ entry : U64) : Prop :=
  (isPresent entry₀ = false → entry = 0) ∧
    (isPresent entry₀ = true → flagsOf entry = flagsOf entry₀ ||| ownBit level ∧
      Mirrors M₀ M level (entry₀ &&& pteAddrMask) (entry &&& pteAddrMask))

theorem mirrors_congr (hMirrors : Mirrors M₀ M level s t) (h : ∀ x ∈ userFrames M level t, M' x = M x) :
    Mirrors M₀ M' level s t := by
  induction level generalizing s t with
  | zero =>
    rw [Mirrors, h t self_mem_userFrames]
    exact hMirrors
  | succ level ih =>
    have hSelf : M' t = M t := h t self_mem_userFrames
    intro i hi
    rw [hSelf]
    refine ⟨(hMirrors i hi).1, fun hPresent => ?_⟩
    obtain ⟨hFlags, hChild⟩ := (hMirrors i hi).2 hPresent
    refine ⟨hFlags, ih hChild fun x hx => h x ?_⟩
    rw [userFrames_succ, List.mem_append, mem_framesBelow (userEntries_le _)]
    exact .inl ⟨i, hi, by rw [isPresent_of_flags hFlags]; exact hPresent, hx⟩

structure Source (M₀ : Memory) (free₀ : Set U64) (level : Nat) (s : U64) : Prop where
  small : OnlySmall M₀ level s
  tables : ∀ x ∈ userTables M₀ level s, x ∉ free₀
  pages : ∀ x ∈ userPages M₀ level s, x ∉ free₀

theorem Source.child (h : Source M₀ free₀ (level + 1) s) (hi : i.toNat < userEntries (level + 1))
    (hPresent : isPresent (M₀ s i)) : M₀ s i &&& pteHuge = 0 ∧ Source M₀ free₀ level (M₀ s i &&& pteAddrMask) :=
  ⟨(h.small i hi hPresent).1, (h.small i hi hPresent).2, fun x hx => h.tables x (.inr ⟨i, hi, hPresent, hx⟩),
    fun x hx => h.pages x ⟨i, hi, hPresent, hx⟩⟩

structure Cloned (site : Site) (M₀ : Memory) (level : Nat) (s : U64) (m : Machine) (free held : Set U64) (m' : Machine)
    (t : U64) : Prop where
  nodup : (userFrames m'.memory level t).Nodup
  fresh : ∀ x ∈ userFrames m'.memory level t, x ∈ free
  funded : Funded site m' (free \ {x | x ∈ userFrames m'.memory level t})
      (held ∪ {x | x ∈ userFrames m'.memory level t})
  mirrors : Mirrors M₀ m'.memory level s t
  others : ∀ x, x ∉ userFrames m'.memory level t → m'.memory x = m.memory x

structure Copying (site : Site) (M₀ : Memory) (level : Nat) (s : U64) (m : Machine) (free held : Set U64) (t : U64)
    (n : Nat)
    (m' : Machine) : Prop where
  nodup : (framesBelow m'.memory level t n ++ [t]).Nodup
  fresh : ∀ x ∈ framesBelow m'.memory level t n ++ [t], x ∈ free
  funded : Funded site m' (free \ {x | x ∈ framesBelow m'.memory level t n ++ [t]})
    (held ∪ {x | x ∈ framesBelow m'.memory level t n ++ [t]})
  mirrors : ∀ i : BitVec 9, i.toNat < n → MirrorsEntry M₀ m'.memory level (M₀ s i) (m'.memory t i)
  others : ∀ x, x ∉ framesBelow m'.memory level t n ++ [t] → m'.memory x = m.memory x

theorem Copying.cloned (h : Copying site M₀ level s m free held t (userEntries (level + 1)) m') :
    Cloned site M₀ (level + 1) s m free held m' t := { h with }

theorem copying_start (hTaken : Taken site m free held t m₁) :
    Copying site M₀ level s m free held t 0 (pageTableClear m₁ t) := by
  have hBelow : framesBelow (pageTableClear m₁ t).memory level t 0 ++ [t] = [t] := rfl
  refine ⟨?_, ?_, ?_, ?_, ?_⟩
  · rw [hBelow]
    exact List.nodup_singleton t
  · intro x hx
    rw [hBelow, List.mem_singleton] at hx
    rw [hx]
    exact hTaken.wasFree
  · rw [hBelow]
    simp only [List.mem_singleton, Set.ofPred_eq_eq_singleton, Set.union_singleton]
    exact hTaken.funded.congr rfl
  · exact fun i hi => nomatch hi
  · intro x hx
    rw [hBelow, List.mem_singleton] at hx
    rw [← hTaken.memory]
    exact Function.update_of_ne hx _ _

theorem Copying.extend (h : Copying site M₀ level s m free held t n m') (hn : n < 512) (new : List U64)
    (hNew : entryFrames m₂.memory level (m₂.memory t (BitVec.ofNat 9 n)) = new) (hNodup : new.Nodup)
    (hFresh : ∀ x ∈ new, x ∈ free ∧ x ∉ framesBelow m'.memory level t n ++ [t])
    (hFunded : Funded site m₂ ((free \ {x | x ∈ framesBelow m'.memory level t n ++ [t]}) \ {x | x ∈ new})
      ((held ∪ {x | x ∈ framesBelow m'.memory level t n ++ [t]}) ∪ {x | x ∈ new}))
    (hEntries : ∀ j : BitVec 9, j.toNat < n → m₂.memory t j = m'.memory t j)
    (hOthers : ∀ x, x ∉ new → x ≠ t → m₂.memory x = m'.memory x)
    (hMirrors : MirrorsEntry M₀ m₂.memory level (M₀ s (BitVec.ofNat 9 n)) (m₂.memory t (BitVec.ofNat 9 n))) :
    Copying site M₀ level s m free held t (n + 1) m₂ := by
  have hSame : ∀ x ∈ framesBelow m'.memory level t n, m₂.memory x = m'.memory x := by
    intro x hx
    apply hOthers x
    · exact fun hIn => (hFresh x hIn).2 (List.mem_append_left _ hx)
    · rintro rfl
      exact (List.nodup_append.mp h.nodup).2.2 x hx x (List.mem_singleton_self x) rfl
  have hBelow : framesBelow m₂.memory level t n = framesBelow m'.memory level t n :=
    framesBelow_congr hn.le hEntries hSame
  have hPerm : (framesBelow m₂.memory level t (n + 1) ++ [t]).Perm
      ((framesBelow m'.memory level t n ++ [t]) ++ new) := by
    rw [framesBelow_succ, hBelow, hNew, List.append_assoc, List.append_assoc]
    exact .append_left _ List.perm_append_comm
  have hSet : {x | x ∈ framesBelow m₂.memory level t (n + 1) ++ [t]} =
      {x | x ∈ framesBelow m'.memory level t n ++ [t]} ∪ {x | x ∈ new} := by
    ext x
    exact hPerm.mem_iff.trans List.mem_append
  refine ⟨?_, ?_, ?_, ?_, ?_⟩
  · rw [hPerm.nodup_iff, List.nodup_append]
    refine ⟨h.nodup, hNodup, ?_⟩
    rintro x hx y hy rfl
    exact (hFresh x hy).2 hx
  · intro x hx
    obtain hOld | hIn := List.mem_append.mp (hPerm.subset hx)
    · exact h.fresh x hOld
    · exact (hFresh x hIn).1
  · rw [hSet, ← Set.sdiff_sdiff, ← Set.union_assoc]
    exact hFunded
  · intro j hj
    obtain hLess | hLast := Nat.lt_or_eq_of_le (Nat.le_of_lt_succ hj)
    · obtain ⟨hAbsent, hPresent⟩ := h.mirrors j hLess
      rw [MirrorsEntry, hEntries j hLess]
      refine ⟨hAbsent, fun hThere => ?_⟩
      obtain ⟨hFlags, hChild⟩ := hPresent hThere
      refine ⟨hFlags, mirrors_congr hChild fun x hx => hSame x ?_⟩
      exact (mem_framesBelow (by omega)).mpr ⟨j, hLess, by rw [isPresent_of_flags hFlags]; exact hThere, hx⟩
    · have hIndex : j = BitVec.ofNat 9 n := by
        rw [← hLast, BitVec.ofNat_toNat]
        rfl
      rw [hIndex]
      exact hMirrors
  · intro x hx
    rw [hPerm.mem_iff, List.mem_append, not_or] at hx
    rw [← h.others x hx.1]
    exact hOthers x hx.2 fun hSelf => hx.1 (List.mem_append_right _ (List.mem_singleton.mpr hSelf))

end

/-! # The copy of the user half

Each step copies one entry, and the loops and the recursion follow. A frame that
cannot be had is remembered by the machine.
-/

open Frames TableTree

variable {site : Site} {M M₀ : Memory} {m m' m₁ m₂ : Machine} {free free₀ held : Set U64} {level n N : Nat}
  {s t c x value : U64} {i : BitVec 9} {step : Machine → BitVec 9 → Machine}

def Remembers (step : Machine → BitVec 9 → Machine) : Prop := ∀ m i, (step m i).exhausted = false → m.exhausted = false

theorem allocFrame_exhausted (h : (allocFrame m).1.exhausted = false) : m.exhausted = false := by
  rw [allocFrame, Bool.or_eq_false_iff] at h
  exact h.1

theorem foldl_exhausted (hStep : Remembers step) {l : List (BitVec 9)} (h : (l.foldl step m).exhausted = false) :
    m.exhausted = false := by
  induction l generalizing m with
  | nil => exact h
  | cons i l ih => exact hStep m i (ih h)

theorem copyLastEntry_exhausted (s t : U64) : Remembers (copyLastEntry s t) := by
  intro m i h
  simp only [copyLastEntry] at h
  split at h
  · exact h
  · split at h
    · exact h
    · split at h
      · exact allocFrame_exhausted h
      · exact allocFrame_exhausted h

theorem copyTableEntry_exhausted {copy : BitVec 9 → Machine → U64 → Machine × U64}
    (hCopy : ∀ i m s, (copy i m s).1.exhausted = false → m.exhausted = false) (s t : U64) :
    Remembers (copyTableEntry copy s t) := by
  intro m i h
  simp only [copyTableEntry] at h
  split at h
  · exact h
  · split at h
    · exact h
    · exact hCopy _ _ _ h

theorem copyPageTableRecursive_exhausted (allCopy : Bool) (level : Nat) (kernelSpace : Bool)
    (h : (copyPageTableRecursive allCopy level kernelSpace m s).1.exhausted = false) : m.exhausted = false := by
  have hLast : ∀ m s kernelSpace, (copyLastTable kernelSpace m s).1.exhausted = false → m.exhausted = false := by
    intro m s kernelSpace h
    rw [copyLastTable] at h
    split at h
    · exact h
    · have hCleared := foldl_exhausted (copyLastEntry_exhausted _ _) h
      exact allocFrame_exhausted hCleared
  induction level using Nat.strong_induction_on generalizing m s kernelSpace with
  | _ level ih =>
    match level with
    | 0 => exact hLast m s kernelSpace h
    | 1 => exact hLast m s kernelSpace h
    | level + 2 =>
      rw [copyPageTableRecursive] at h
      have hCleared := foldl_exhausted
          (copyTableEntry_exhausted (fun _ _ _ h => ih (level + 1) (lt_add_one _) _ h) _ _) h
      exact allocFrame_exhausted hCleared

theorem Copying.absent (h : Copying site M₀ level s m free held t n m') (hn : n < 512)
    (hPresent : isPresent (M₀ s (BitVec.ofNat 9 n)) = false) :
    Copying site M₀ level s m free held t (n + 1) (setEntry m' t (BitVec.ofNat 9 n) 0) := by
  have hAt : (setEntry m' t (BitVec.ofNat 9 n) 0).memory t (BitVec.ofNat 9 n) = 0 := by
    change setCell m'.memory t (BitVec.ofNat 9 n) 0 t (BitVec.ofNat 9 n) = 0
    rw [setCell_apply, if_pos ⟨rfl, rfl⟩]
  refine h.extend hn [] ?_ List.nodup_nil (fun x hx => nomatch hx) ?_ ?_ ?_ ?_
  · rw [hAt]
    rfl
  · simp only [List.not_mem_nil, Set.ofPred_false, Set.sdiff_empty, Set.union_empty]
    exact h.funded.congr rfl
  · intro j hj
    change setCell m'.memory t (BitVec.ofNat 9 n) 0 t j = m'.memory t j
    rw [setCell_apply, if_neg]
    rintro ⟨-, rfl⟩
    rw [index_toNat hn] at hj
    exact lt_irrefl n hj
  · exact fun x _ hx => Function.update_of_ne hx _ _
  · rw [hAt]
    exact ⟨fun _ => rfl, fun hThere => absurd (hPresent.symm.trans hThere) nofun⟩

theorem Copying.link (h : Copying site M₀ level s m free held t n m') (hn : n < 512)
    (hPresent : isPresent (M₀ s (BitVec.ofNat 9 n)))
    (hCloned : Cloned site M₀ level (M₀ s (BitVec.ofNat 9 n) &&& pteAddrMask) m'
      (free \ {x | x ∈ framesBelow m'.memory level t n ++ [t]})
          (held ∪ {x | x ∈ framesBelow m'.memory level t n ++ [t]}) m₂ c) (hAddr : value &&& pteAddrMask = c)
    (hFlags : flagsOf value = flagsOf (M₀ s (BitVec.ofNat 9 n)) ||| ownBit level) :
    Copying site M₀ level s m free held t (n + 1) (setEntry m₂ t (BitVec.ofNat 9 n) value) := by
  have hTable : t ∉ userFrames m₂.memory level c :=
    fun hIn => (hCloned.fresh t hIn).2 (List.mem_append_right _ (List.mem_singleton_self t))
  have hAt : (setEntry m₂ t (BitVec.ofNat 9 n) value).memory t (BitVec.ofNat 9 n) = value := by
    change setCell m₂.memory t (BitVec.ofNat 9 n) value t (BitVec.ofNat 9 n) = value
    rw [setCell_apply, if_pos ⟨rfl, rfl⟩]
  have hOff : ∀ x ∈ userFrames m₂.memory level c, (setEntry m₂ t (BitVec.ofNat 9 n) value).memory x = m₂.memory x := by
    intro x hx
    apply Function.update_of_ne
    rintro rfl
    exact hTable hx
  refine h.extend hn (userFrames m₂.memory level c) ?_ hCloned.nodup (fun x hx => hCloned.fresh x hx) ?_ ?_ ?_ ?_
  · rw [hAt, entryFrames, isPresent_of_flags hFlags, if_pos hPresent, hAddr]
    exact userFrames_congr fun x hx => hOff x (mem_userFrames.mpr (.inl hx))
  · exact hCloned.funded.congr rfl
  · intro j hj
    change setCell m₂.memory t (BitVec.ofNat 9 n) value t j = m'.memory t j
    rw [setCell_apply, if_neg, hCloned.others t hTable]
    rintro ⟨-, rfl⟩
    rw [index_toNat hn] at hj
    exact lt_irrefl n hj
  · intro x hx hNe
    rw [← hCloned.others x hx]
    exact Function.update_of_ne hNe _ _
  · rw [hAt]
    refine ⟨fun hAbsent => absurd (hAbsent.symm.trans hPresent) Bool.false_ne_true, fun _ => ⟨hFlags, ?_⟩⟩
    rw [hAddr]
    exact mirrors_congr hCloned.mirrors hOff

theorem Copying.loop (hStep : ∀ n m', n < N → Copying site M₀ level s m free held t n m' →
      (step m' (BitVec.ofNat 9 n)).exhausted = false →
      Copying site M₀ level s m free held t (n + 1) (step m' (BitVec.ofNat 9 n)))
    (hMono : Remembers step) (hStart : Copying site M₀ level s m free held t 0 m₁) (hn : n ≤ N)
    (hEnough : ((entries n).foldl step m₁).exhausted = false) :
    Copying site M₀ level s m free held t n ((entries n).foldl step m₁) := by
  induction n with
  | zero => exact hStart
  | succ n ih =>
    rw [entries_succ, List.foldl_append] at hEnough ⊢
    exact hStep n _ hn (ih (Nat.le_of_succ_le hn) (hMono _ _ hEnough)) hEnough

theorem Copying.source (h : Copying site M₀ level s m free held t n m') (hFree : free ⊆ free₀)
    (hAgree : ∀ x, x ∉ free₀ → m.memory x = M₀ x) {x : U64} (hx : x ∉ free₀) : m'.memory x = M₀ x := by
  rw [h.others x fun hIn => hx (hFree (h.fresh x hIn)), hAgree x hx]

theorem copyLastEntry_step (hFree : free ⊆ free₀) (hAgree : ∀ x, x ∉ free₀ → m.memory x = M₀ x)
    (hSource : Source M₀ free₀ 1 s) (hn : n < 512) (h : Copying site M₀ 0 s m free held t n m')
    (hEnough : (copyLastEntry s t m' (BitVec.ofNat 9 n)).exhausted = false) :
    Copying site M₀ 0 s m free held t (n + 1) (copyLastEntry s t m' (BitVec.ofNat 9 n)) := by
  have hIndex : (BitVec.ofNat 9 n).toNat < userEntries (0 + 1) := by
    rw [index_toNat hn]
    exact hn
  have hRead : m'.memory s = M₀ s := h.source hFree hAgree (hSource.tables s (.inl rfl))
  simp only [copyLastEntry, hRead] at hEnough ⊢
  by_cases hPresent : isPresent (M₀ s (BitVec.ofNat 9 n))
  · obtain ⟨hSmall, hChild⟩ := hSource.child hIndex hPresent
    simp only [hPresent, Bool.not_true, Bool.false_eq_true, if_false, hSmall, ne_eq, not_true_eq_false] at hEnough ⊢
    obtain ⟨-, hMachine⟩ | hTaken := h.funded.alloc
    · rw [hMachine] at hEnough
      split at hEnough
      · cases hEnough
      · cases hEnough
    · have hAddress := h.funded.free_address hTaken.wasFree
      rw [if_neg hAddress.nonzero]
      generalize (allocFrame m').1 = m₁ at hTaken ⊢
      generalize (allocFrame m').2 = c at hTaken hAddress ⊢
      have hPage : m₁.memory (M₀ s (BitVec.ofNat 9 n) &&& pteAddrMask) = M₀
          (M₀ s (BitVec.ofNat 9 n) &&& pteAddrMask) := by
        rw [hTaken.memory]
        exact h.source hFree hAgree (hChild.pages _ rfl)
      refine h.link hn hPresent (c := c) ⟨List.nodup_singleton c, ?_, ?_, ?_, ?_⟩
          (linked_addr hAddress.masked (by decide))
        (linked_flags hAddress.masked 0)
      · intro x hx
        rw [List.mem_singleton.mp hx]
        exact hTaken.wasFree
      · simp only [userFrames, List.mem_singleton, Set.ofPred_eq_eq_singleton, Set.union_singleton]
        exact hTaken.funded.congr rfl
      · change Function.update m₁.memory c _ c = _
        rw [Function.update_self, hPage]
      · intro x hx
        rw [← hTaken.memory]
        exact Function.update_of_ne (fun hSame => hx (List.mem_singleton.mpr hSame)) _ _
  · rw [Bool.not_eq_true] at hPresent
    simp only [hPresent, Bool.not_false, if_true]
    exact h.absent hn hPresent

def Copies (site : Site) (M₀ : Memory) (free₀ : Set U64) (level : Nat) (copy : Machine → U64 → Machine × U64) : Prop :=
  ∀ m free held s, Funded site m free held → free ⊆ free₀ → (∀ x, x ∉ free₀ → m.memory x = M₀ x) →
    Source M₀ free₀ level s → (copy m s).1.exhausted = false →
        Cloned site M₀ level s m free held (copy m s).1 (copy m s).2

theorem copyTableEntry_step {copy : BitVec 9 → Machine → U64 → Machine × U64} (hFree : free ⊆ free₀)
    (hAgree : ∀ x, x ∉ free₀ → m.memory x = M₀ x) (hSource : Source M₀ free₀ (level + 1 + 1) s)
    (hn : n < userEntries (level + 1 + 1)) (hCopy : Copies site M₀ free₀ (level + 1) (copy (BitVec.ofNat 9 n)))
    (h : Copying site M₀ (level + 1) s m free held t n m')
    (hEnough : (copyTableEntry copy s t m' (BitVec.ofNat 9 n)).exhausted = false) :
    Copying site M₀ (level + 1) s m free held t (n + 1) (copyTableEntry copy s t m' (BitVec.ofNat 9 n)) := by
  have hn' : n < 512 := hn.trans_le (userEntries_le _)
  have hIndex : (BitVec.ofNat 9 n).toNat < userEntries (level + 1 + 1) := by
    rw [index_toNat hn']
    exact hn
  have hNotFree : s ∉ free₀ := hSource.tables s (.inl rfl)
  have hRead : m'.memory s = M₀ s := h.source hFree hAgree hNotFree
  simp only [copyTableEntry, hRead] at hEnough ⊢
  by_cases hPresent : isPresent (M₀ s (BitVec.ofNat 9 n))
  · obtain ⟨hSmall, hChild⟩ := hSource.child hIndex hPresent
    simp only [hPresent, Bool.not_true, Bool.false_eq_true, if_false, hSmall, ne_eq, not_true_eq_false] at hEnough ⊢
    have hCloned := hCopy m' _ _ _ h.funded (fun x hx => hFree hx.1)
      (fun x hx => h.source hFree hAgree hx) hChild hEnough
    generalize copy (BitVec.ofNat 9 n) m' (M₀ s (BitVec.ofNat 9 n) &&& pteAddrMask) = result at hCloned ⊢
    have hAddress := h.funded.free_address (hCloned.fresh _ self_mem_userFrames)
    have hAgain : result.1.memory s = M₀ s := by
      rw [hCloned.others s fun hIn => hNotFree (hFree (hCloned.fresh s hIn).1), hRead]
    have hValue : result.2 ||| M₀ s (BitVec.ofNat 9 n) &&& ~~~pteAddrMask =
        flagsOf (M₀ s (BitVec.ofNat 9 n)) ||| result.2 ||| ownBit (level + 1) := by
      change _ = _ ||| 0#64
      rw [BitVec.or_zero, BitVec.or_comm]
      rfl
    rw [hAgain, hValue]
    exact h.link hn' hPresent hCloned (linked_addr hAddress.masked (ownBit_and _).1) (linked_flags hAddress.masked _)
  · rw [Bool.not_eq_true] at hPresent
    simp only [hPresent, Bool.not_false, if_true]
    exact h.absent hn' hPresent

theorem copyPageTableRecursive_copies (hLevel : level ≤ 3) :
    Copies site M₀ free₀ (level + 1) (copyPageTableRecursive false (level + 1) false) := by
  induction level with
  | zero =>
    intro m free held s hFunded hFree hAgree hSource hEnough
    simp only [copyPageTableRecursive, copyLastTable, Bool.false_eq_true, if_false] at hEnough ⊢
    obtain ⟨-, hMachine⟩ | hTaken := hFunded.alloc
    · have hCleared := foldl_exhausted (copyLastEntry_exhausted _ _) hEnough
      rw [hMachine] at hCleared
      cases hCleared
    · exact (Copying.loop (fun n m' hn h hLast => copyLastEntry_step hFree hAgree hSource hn h hLast)
        (copyLastEntry_exhausted _ _) (copying_start hTaken) (Nat.le_refl 512) hEnough).cloned
  | succ level ih =>
    intro m free held s hFunded hFree hAgree hSource hEnough
    simp only [copyPageTableRecursive, Bool.false_eq_true, if_false] at hEnough ⊢
    have hMono : Remembers (copyTableEntry (fun i => copyPageTableRecursive false (level + 1)
        (if level + 2 ≠ 4 then false else 256 ≤ i.toNat)) s (allocFrame m).2) :=
      copyTableEntry_exhausted (fun _ _ _ h => copyPageTableRecursive_exhausted false (level + 1) _ h) s _
    obtain ⟨-, hMachine⟩ | hTaken := hFunded.alloc
    · have hCleared := foldl_exhausted hMono hEnough
      rw [hMachine] at hCleared
      cases hCleared
    · refine (Copying.loop (N := userEntries (level + 1 + 1)) (fun n m' hn h hLast => ?_) hMono (copying_start hTaken)
        (Nat.le_refl _) hEnough).cloned
      refine copyTableEntry_step hFree hAgree hSource hn ?_ h hLast
      have hUser : (BitVec.ofNat 9 n).toNat < userEntries (level + 2) := by
        rw [index_toNat (hn.trans_le (userEntries_le _))]
        exact hn
      simp only [not_kernel_of_user hUser]
      exact ih (by omega)

end OpenXJ380.Paging
