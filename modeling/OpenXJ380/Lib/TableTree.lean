import Mathlib.Data.List.Basic

/-! # Trees of tables

Tables of entries in a memory. An entry leads to another table, or to none. What
a walk of so many steps finds is followed through the writing of one entry.
-/

namespace TableTree

open Option (bind_none bind_some)
open Function
open List (length_append length_cons length_singleton)

variable {A I V : Type} (next : V → Option A)

def tableAt (M : A → I → V) (t : A) : List I → Option A
  | [] => some t
  | i :: path => (next (M t i)).bind fun t' => tableAt M t' path

/-- The entry at the end of a path, or the first one on the way that leads to no table. -/
def entryAt (M : A → I → V) (t : A) (i : I) : List I → V
  | [] => M t i
  | j :: path =>
    match next (M t i) with
    | none => M t i
    | some t' => entryAt M t' j path

/-- No table is reached on two ways of at most `n` steps. -/
def Distinct (M : A → I → V) (root : A) (n : Nat) : Prop :=
  ∀ p q t, p.length ≤ n → q.length ≤ n → tableAt next M root p = some t → tableAt next M root q = some t → p = q

variable {next} {M M' : A → I → V} {root s t t' : A} {i j : I} {v z : V} {n : Nat} {p q r : List I}

theorem tableAt_append : tableAt next M s (p ++ q) = (tableAt next M s p).bind fun t => tableAt next M t q := by
  induction p generalizing s with
  | nil => rfl
  | cons i p ih =>
    rw [List.cons_append, tableAt, tableAt]
    cases next (M s i) with
    | none => rfl
    | some t => exact ih

theorem tableAt_step (h : tableAt next M root r = some s) (hNext : next (M s i) = some t) :
    tableAt next M root (r ++ [i]) = some t := by
  rw [tableAt_append, h, bind_some, tableAt, hNext]
  rfl

theorem tableAt_stop (h : tableAt next M root r = some s) (hNext : next (M s i) = none) (p : List I) :
    tableAt next M root (r ++ i :: p) = none := by
  rw [tableAt_append, h, bind_some, tableAt, hNext]
  rfl

theorem ne_of_stop (hStart : tableAt next M root r = some s) (hNext : next (M s j) = none)
    (hAt : tableAt next M root p = some t) (k : I) (q : List I) : r ++ j :: k :: q ≠ p ++ [i] := by
  intro hPath
  have hDrop := congrArg List.dropLast hPath
  rw [List.dropLast_concat, List.dropLast_append_of_ne_nil (List.cons_ne_nil _ _)] at hDrop
  rw [← hDrop, List.dropLast_cons_of_ne_nil (List.cons_ne_nil _ _), tableAt_stop hStart hNext] at hAt
  cases hAt

theorem tableAt_congr (h : ∀ s j, next (M' s j) = next (M s j)) : tableAt next M' t p = tableAt next M t p := by
  induction p generalizing t with
  | nil => rfl
  | cons i p ih =>
    rw [tableAt, tableAt, h]
    cases next (M t i) with
    | none => rfl
    | some t' => exact ih

theorem Distinct.congr (hDistinct : Distinct next M root n) (h : ∀ s j, next (M' s j) = next (M s j)) :
    Distinct next M' root n := by
  intro p q t hp hq hAt hAt'
  rw [tableAt_congr h] at hAt hAt'
  exact hDistinct p q t hp hq hAt hAt'

theorem entryAt_agree_from (h : ∀ q s, q.length ≤ n → tableAt next M root q = some s → M' s = M s)
    (hStart : tableAt next M root r = some s) (hShort : r.length + q.length ≤ n) :
    entryAt next M' s j q = entryAt next M s j q := by
  induction q generalizing r s j with
  | nil => rw [entryAt, entryAt, h r s (by simpa using hShort) hStart]
  | cons k q ih =>
    rw [length_cons] at hShort
    rw [entryAt, entryAt, h r s (by omega) hStart]
    rcases hNext : next (M s j) with _ | s'
    · rfl
    · exact ih (tableAt_step hStart hNext) (by rw [length_append, length_singleton]; omega)

theorem tableAt_agree_from (h : ∀ q s, q.length ≤ n → tableAt next M root q = some s → M' s = M s)
    (hStart : tableAt next M root r = some s) (hShort : r.length + q.length ≤ n) :
    tableAt next M' s q = tableAt next M s q := by
  induction q generalizing r s with
  | nil => rfl
  | cons j q ih =>
    rw [length_cons] at hShort
    rw [tableAt, tableAt, h r s (by omega) hStart]
    rcases hNext : next (M s j) with _ | s'
    · rfl
    · exact ih (tableAt_step hStart hNext) (by rw [length_append, length_singleton]; omega)

variable [DecidableEq A] [DecidableEq I]

def setCell (M : A → I → V) (t : A) (i : I) (v : V) : A → I → V := update M t (update (M t) i v)

theorem setCell_apply : setCell M t i v s j = if s = t ∧ j = i then v else M s j := by
  rw [setCell]
  by_cases hTable : s = t
  · rw [hTable, update_self]
    by_cases hIndex : j = i
    · rw [hIndex, update_self, if_pos ⟨rfl, rfl⟩]
    · rw [update_of_ne hIndex, if_neg fun h => hIndex h.2]
  · rw [update_of_ne hTable, if_neg fun h => hTable h.1]

theorem setCell_next (h : next v = next (M t i)) (s : A) (j : I) : next (setCell M t i v s j) = next (M s j) := by
  rw [setCell_apply]
  split
  · rename_i hCell
    rw [hCell.1, hCell.2, h]
  · rfl

section

variable (hDistinct : Distinct next M root n)

include hDistinct

variable (hAt : tableAt next M root p = some t)

include hAt

section

variable (hLength : p.length = n)

include hLength

theorem entryAt_setLeaf_from (hStart : tableAt next M root r = some s) (hWhole : r.length + q.length = n) :
    entryAt next (setCell M t i v) s j q = if r ++ j :: q = p ++ [i] then v else entryAt next M s j q := by
  induction q generalizing r s j with
  | nil =>
    rw [entryAt, entryAt, setCell_apply]
    have hSame : s = t ∧ j = i ↔ r ++ [j] = p ++ [i] := by
      constructor
      · rintro ⟨rfl, rfl⟩
        rw [hDistinct r p s (by omega) (by omega) hStart hAt]
      · intro hPath
        obtain ⟨rfl, hIndex⟩ := List.append_inj' hPath rfl
        exact ⟨Option.some.inj (hStart.symm.trans hAt), List.head_eq_of_cons_eq hIndex⟩
    simp only [hSame]
  | cons k q ih =>
    rw [length_cons] at hWhole
    have hOther : ¬ (s = t ∧ j = i) := by
      rintro ⟨rfl, -⟩
      have hSame := hDistinct r p s (by omega) (by omega) hStart hAt
      rw [hSame] at hWhole
      omega
    have hCell : setCell M t i v s j = M s j := by
      rw [setCell_apply, if_neg hOther]
    rw [entryAt, entryAt, hCell]
    rcases hNext : next (M s j) with _ | s'
    · simp only
      rw [if_neg (ne_of_stop hStart hNext hAt k q)]
    · simp only
      rw [ih (tableAt_step hStart hNext) (by rw [length_append, length_singleton]; omega), List.append_assoc,
        List.singleton_append]

theorem entryAt_setLeaf (hWhole : q.length = n) :
    entryAt next (setCell M t i v) root j q = if j :: q = p ++ [i] then v else entryAt next M root j q :=
  entryAt_setLeaf_from (r := []) hDistinct hAt hLength rfl (by simpa using hWhole)

theorem tableAt_setLeaf_from (hStart : tableAt next M root r = some s) (hShort : r.length + q.length ≤ n) :
    tableAt next (setCell M t i v) s q = tableAt next M s q := by
  induction q generalizing r s with
  | nil => rfl
  | cons j q ih =>
    rw [length_cons] at hShort
    have hOther : ¬ (s = t ∧ j = i) := by
      rintro ⟨rfl, -⟩
      have hSame := hDistinct r p s (by omega) (by omega) hStart hAt
      rw [hSame] at hShort
      omega
    rw [tableAt, tableAt, setCell_apply, if_neg hOther]
    rcases hNext : next (M s j) with _ | s'
    · rfl
    · exact ih (tableAt_step hStart hNext) (by rw [length_append, length_singleton]; omega)

theorem tableAt_setLeaf (hShort : q.length ≤ n) : tableAt next (setCell M t i v) root q = tableAt next M root q :=
  tableAt_setLeaf_from (r := []) hDistinct hAt hLength rfl (by simpa using hShort)

end

theorem entryAt_setLink_from (hLength : p.length < n) (hOld : next (M t i) = some t') (hNew : next v = some t')
    (hStart : tableAt next M root r = some s) (hWhole : r.length + q.length = n) :
    entryAt next (setCell M t i v) s j q = entryAt next M s j q := by
  have hNext := setCell_next (M := M) (t := t) (i := i) (hNew.trans hOld.symm)
  induction q generalizing r s j with
  | nil =>
    rw [entryAt, entryAt, setCell_apply, if_neg]
    rintro ⟨rfl, -⟩
    rw [List.length_nil] at hWhole
    have hSame := hDistinct r p s (by omega) (by omega) hStart hAt
    rw [hSame] at hWhole
    omega
  | cons k q ih =>
    rw [length_cons] at hWhole
    rw [entryAt, entryAt, hNext]
    rcases hStop : next (M s j) with _ | s'
    · simp only
      rw [setCell_apply, if_neg]
      rintro ⟨rfl, rfl⟩
      rw [hOld] at hStop
      cases hStop
    · simp only
      exact ih (tableAt_step hStart hStop) (by rw [length_append, length_singleton]; omega)

theorem entryAt_setLink
    (hLength : p.length < n) (hOld : next (M t i) = some t') (hNew : next v = some t') (hWhole : q.length = n) :
    entryAt next (setCell M t i v) root j q = entryAt next M root j q :=
  entryAt_setLink_from (r := []) hDistinct hAt hLength hOld hNew rfl (by simpa using hWhole)

end

/-- The entry leads to a new table, all of whose entries are `z`. -/
def addTable (M : A → I → V) (t : A) (i : I) (v : V) (t' : A) (z : V) : A → I → V :=
  update (setCell M t i v) t' fun _ => z

/-- The new table hangs below an entry that led nowhere, and was not reached before. -/
structure Fresh (next : V → Option A) (M : A → I → V) (root : A) (n : Nat) (p : List I) (t : A) (i : I) (v : V) (t' : A)
    (z : V) : Prop where
  table : tableAt next M root p = some t
  short : p.length < n
  before : next (M t i) = none
  after : next v = some t'
  empty : next z = none
  unreached : ∀ q, q.length ≤ n → tableAt next M root q ≠ some t'

theorem addTable_old (hNe : s ≠ t') : addTable M t i v t' z s j = if s = t ∧ j = i then v else M s j := by
  rw [addTable, update_of_ne hNe, setCell_apply]

theorem addTable_new : addTable M t i v t' z t' j = z := by
  rw [addTable, update_self]

variable (hDistinct : Distinct next M root n)

include hDistinct

variable (h : Fresh next M root n p t i v t' z)

include h

theorem tableAt_addTable_from (hStart : tableAt next M root r = some s) (hWhole : r.length + q.length ≤ n) :
    tableAt next (addTable M t i v t' z) s q = if r ++ q = p ++ [i] then some t' else tableAt next M s q := by
  have hShort := h.short
  induction q generalizing r s with
  | nil =>
    rw [tableAt, tableAt, List.append_nil, if_neg]
    rintro rfl
    rw [tableAt_append, h.table, bind_some, tableAt, h.before] at hStart
    cases hStart
  | cons j q ih =>
    rw [length_cons] at hWhole
    have hNe : s ≠ t' := by
      rintro rfl
      exact h.unreached r (by omega) hStart
    rw [tableAt, tableAt, addTable_old hNe]
    by_cases hCell : s = t ∧ j = i
    · obtain ⟨rfl, rfl⟩ := hCell
      have hSame := hDistinct r p s (by omega) (by omega) hStart h.table
      rw [if_pos ⟨rfl, rfl⟩, h.after, h.before, bind_some, bind_none, hSame]
      cases q with
      | nil => rw [if_pos rfl, tableAt]
      | cons k q =>
        rw [tableAt, addTable_new, h.empty, if_neg]
        · rfl
        · intro hPath
          have hCount := congrArg List.length hPath
          simp at hCount
    · rw [if_neg hCell]
      rcases hNext : next (M s j) with _ | s'
      · rw [bind_none, bind_none, if_neg]
        intro hPath
        cases q with
        | nil =>
          obtain ⟨rfl, hIndex⟩ := List.append_inj' hPath rfl
          exact hCell ⟨Option.some.inj (hStart.symm.trans h.table), List.head_eq_of_cons_eq hIndex⟩
        | cons k q => exact ne_of_stop hStart hNext h.table k q hPath
      · rw [bind_some, bind_some, ih (tableAt_step hStart hNext) (by rw [length_append, length_singleton]; omega),
          List.append_assoc, List.singleton_append]

theorem tableAt_addTable (hShort : q.length ≤ n) :
    tableAt next (addTable M t i v t' z) root q = if q = p ++ [i] then some t' else tableAt next M root q :=
  tableAt_addTable_from (r := []) hDistinct h rfl (by simpa using hShort)

theorem Distinct.addTable : Distinct next (addTable M t i v t' z) root n := by
  intro q r s hq hr hAt hAt'
  rw [tableAt_addTable hDistinct h hq] at hAt
  rw [tableAt_addTable hDistinct h hr] at hAt'
  split_ifs at hAt hAt' with hFirst hSecond hSecond
  · rw [hFirst, hSecond]
  · cases hAt
    exact absurd hAt' (h.unreached r hr)
  · cases hAt'
    exact absurd hAt (h.unreached q hq)
  · exact hDistinct q r s hq hr hAt hAt'

theorem entryAt_addTable_from
    (hZero : M t i = z) (hStart : tableAt next M root r = some s) (hWhole : r.length + q.length = n) :
    entryAt next (addTable M t i v t' z) s j q = entryAt next M s j q := by
  have hShort := h.short
  induction q generalizing r s j with
  | nil =>
    rw [List.length_nil] at hWhole
    have hNe : s ≠ t' := by
      rintro rfl
      exact h.unreached r (by omega) hStart
    rw [entryAt, entryAt, addTable_old hNe, if_neg]
    rintro ⟨rfl, -⟩
    have hSame := hDistinct r p s (by omega) (by omega) hStart h.table
    rw [hSame] at hWhole
    omega
  | cons k q ih =>
    rw [length_cons] at hWhole
    have hNe : s ≠ t' := by
      rintro rfl
      exact h.unreached r (by omega) hStart
    rw [entryAt, entryAt, addTable_old hNe]
    by_cases hCell : s = t ∧ j = i
    · obtain ⟨rfl, rfl⟩ := hCell
      rw [if_pos ⟨rfl, rfl⟩, h.after, h.before]
      simp only
      cases q with
      | nil => rw [entryAt, addTable_new, hZero]
      | cons l q =>
        rw [entryAt, addTable_new, h.empty]
        exact hZero.symm
    · rw [if_neg hCell]
      rcases hNext : next (M s j) with _ | s'
      · rfl
      · simp only
        exact ih (tableAt_step hStart hNext) (by rw [length_append, length_singleton]; omega)

theorem entryAt_addTable (hZero : M t i = z)
    (hWhole : q.length = n) : entryAt next (addTable M t i v t' z) root j q = entryAt next M root j q :=
  entryAt_addTable_from (r := []) hDistinct h hZero rfl (by simpa using hWhole)

end TableTree
