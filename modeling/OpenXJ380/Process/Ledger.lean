import Mathlib.Data.List.Nodup
import OpenXJ380.Process.Model

/-! # Every handle is in one table or was closed once

The account of the handles, for any set of tables that are in use.
-/

namespace OpenXJ380.Process

open Function

def Files.held (f : Files) (t : TableId) : List HandleId := (f.table t).map Descriptor.data

/-- The account, where `used` are the tables that some process has. -/
structure Filed (f : Files) (used : TableId → Prop) : Prop where
  once : ∀ h, h < f.handles → f.closed h ≤ 1
  held : ∀ h, h < f.handles → (f.closed h = 0 ↔ ∃ t, used t ∧ h ∈ f.held t)
  known : ∀ t h, used t → h ∈ f.held t → h < f.handles
  nodup : ∀ t, used t → (f.held t).Nodup
  apart : ∀ t u h, used t → used u → h ∈ f.held t → h ∈ f.held u → t = u
  fresh : ∀ h, f.handles ≤ h → f.closed h = 0
  alive : ∀ t, used t → t < f.tables ∧ f.destroyed t = 0
  unborn : ∀ t, f.tables ≤ t → f.destroyed t = 0

variable {f f' : Files} {used : TableId → Prop} {t : TableId} {index : Nat} {node : Nat → Bool}

theorem Filed.congr {used' : TableId → Prop} (hFiled : Filed f used) (h : ∀ t, used t ↔ used' t) : Filed f used' := by
  have hUsed : used = used' := funext fun t => propext (h t)
  rwa [← hUsed]

theorem setTable_self (f : Files) (t : TableId) (queue : List Descriptor) : (f.setTable t queue).table t = queue :=
  update_self ..

theorem setTable_of_ne (f : Files) {u : TableId} (h : u ≠ t) (queue : List Descriptor) :
    (f.setTable t queue).table u = f.table u :=
  update_of_ne h ..

theorem held_setTable (f : Files) (t u : TableId) (queue : List Descriptor) :
    (f.setTable t queue).held u = if u = t then queue.map Descriptor.data else f.held u := by
  unfold Files.held
  split_ifs with h
  · rw [h, setTable_self]
  · rw [setTable_of_ne f h]

theorem Filed.newTable (hFiled : Filed f used) : Filed f.newTable (fun t => used t ∨ t = f.tables) := by
  have hHeld : ∀ t, f.newTable.held t = if t = f.tables then [] else f.held t := fun t => held_setTable f f.tables t []
  have hOld : ∀ t, used t → t ≠ f.tables := fun t ht => (hFiled.alive t ht).1.ne
  have hIn : ∀ t h, (used t ∨ t = f.tables) → h ∈ f.newTable.held t → used t ∧ h ∈ f.held t := by
    intro t h ht hMem
    rw [hHeld] at hMem
    split_ifs at hMem with hNew
    · cases hMem
    · exact ⟨ht.resolve_right hNew, hMem⟩
  constructor
  · exact hFiled.once
  · intro h hLt
    rw [show f.newTable.closed h = f.closed h from rfl, hFiled.held h hLt]
    constructor
    · rintro ⟨t, ht, hMem⟩
      refine ⟨t, .inl ht, ?_⟩
      rwa [hHeld, if_neg (hOld t ht)]
    · rintro ⟨t, ht, hMem⟩
      exact ⟨t, hIn t h ht hMem⟩
  · intro t h ht hMem
    exact hFiled.known t h (hIn t h ht hMem).1 (hIn t h ht hMem).2
  · rintro t ht
    rw [hHeld]
    split_ifs with hNew
    · exact List.nodup_nil
    · exact hFiled.nodup t (ht.resolve_right hNew)
  · intro t u h ht hu hMem hMem'
    exact hFiled.apart t u h (hIn t h ht hMem).1 (hIn u h hu hMem').1 (hIn t h ht hMem).2 (hIn u h hu hMem').2
  · exact hFiled.fresh
  · rintro t (ht | rfl)
    · exact ⟨Nat.lt_succ_of_lt (hFiled.alive t ht).1, (hFiled.alive t ht).2⟩
    · exact ⟨Nat.lt_succ_self _, hFiled.unborn _ le_rfl⟩
  · intro t ht
    exact hFiled.unborn t (Nat.le_of_succ_le ht)

theorem Filed.abandon (hFiled : Filed f fun u => used u ∨ u = t) (hEmpty : f.held t = []) : Filed f used := by
  refine { hFiled with held := ?_, known := ?_, nodup := ?_, apart := ?_, alive := ?_ }
  · intro h hLt
    rw [hFiled.held h hLt]
    constructor
    · rintro ⟨u, hu | rfl, hMem⟩
      · exact ⟨u, hu, hMem⟩
      · rw [hEmpty] at hMem
        cases hMem
    · rintro ⟨u, hu, hMem⟩
      exact ⟨u, .inl hu, hMem⟩
  · exact fun u h hu => hFiled.known u h (.inl hu)
  · exact fun u hu => hFiled.nodup u (.inl hu)
  · exact fun u v h hu hv => hFiled.apart u v h (.inl hu) (.inl hv)
  · exact fun u hu => hFiled.alive u (.inl hu)

theorem Filed.destroy (hFiled : Filed f used) (ht : ¬used t) (hLt : t < f.tables) : Filed (f.destroyTable t) used := by
  have hne : ∀ u, used u → u ≠ t := by
    rintro u hu rfl
    exact ht hu
  have hHeld : ∀ u, used u → (f.destroyTable t).held u = f.held u := by
    intro u hu
    exact (held_setTable f t u []).trans (if_neg (hne u hu))
  have hDestroyed : ∀ u, u ≠ t → (f.destroyTable t).destroyed u = f.destroyed u := fun u hu => update_of_ne hu ..
  constructor
  · exact hFiled.once
  · intro h hh
    rw [show (f.destroyTable t).closed h = f.closed h from rfl, hFiled.held h hh]
    constructor
    · rintro ⟨u, hu, hMem⟩
      exact ⟨u, hu, (hHeld u hu).symm ▸ hMem⟩
    · rintro ⟨u, hu, hMem⟩
      exact ⟨u, hu, hHeld u hu ▸ hMem⟩
  · intro u h hu hMem
    exact hFiled.known u h hu (hHeld u hu ▸ hMem)
  · intro u hu
    rw [hHeld u hu]
    exact hFiled.nodup u hu
  · intro u v h hu hv hMem hMem'
    exact hFiled.apart u v h hu hv (hHeld u hu ▸ hMem) (hHeld v hv ▸ hMem')
  · exact hFiled.fresh
  · intro u hu
    rw [hDestroyed u (hne u hu)]
    exact hFiled.alive u hu
  · intro u hu
    rw [hDestroyed u (Nat.lt_of_lt_of_le hLt hu).ne']
    exact hFiled.unborn u hu

theorem Filed.closeOne (hFiled : Filed f used) (ht : used t)
    {l r : List Descriptor} {d : Descriptor} (hTable : f.table t = l ++ d :: r) :
    Filed ((f.setTable t (l ++ r)).closeHandle d.data) used := by
  have hHeldT : f.held t = l.map Descriptor.data ++ d.data :: r.map Descriptor.data := by
    rw [Files.held, hTable, List.map_append, List.map_cons]
  have hNodup := hFiled.nodup t ht
  rw [hHeldT, List.nodup_middle, List.nodup_cons, ← List.map_append] at hNodup
  have hMemT : ∀ h, h ∈ f.held t ↔ h = d.data ∨ h ∈ (l ++ r).map Descriptor.data := by
    intro h
    rw [hHeldT, List.map_append, List.mem_append, List.mem_cons, List.mem_append]
    exact or_left_comm
  have hHeld : ∀ u, ((f.setTable t (l ++ r)).closeHandle d.data).held u =
      if u = t then (l ++ r).map Descriptor.data else f.held u := fun u => held_setTable f t u (l ++ r)
  have hIn : ∀ u h, used u → (h ∈ ((f.setTable t (l ++ r)).closeHandle d.data).held u ↔ h ∈ f.held u ∧ h ≠ d.data) := by
    intro u h hu
    rw [hHeld]
    split_ifs with hEq
    · subst hEq
      rw [hMemT]
      constructor
      · intro hMem
        refine ⟨.inr hMem, ?_⟩
        rintro rfl
        exact hNodup.1 hMem
      · rintro ⟨hMem, hne⟩
        exact hMem.resolve_left hne
    · constructor
      · intro hMem
        refine ⟨hMem, ?_⟩
        rintro rfl
        exact hEq (hFiled.apart u t d.data hu ht hMem ((hMemT _).2 (.inl rfl)))
      · exact And.left
  have hOpen : f.closed d.data = 0 :=
    (hFiled.held d.data (hFiled.known t _ ht ((hMemT _).2 (.inl rfl)))).2 ⟨t, ht, (hMemT _).2 (.inl rfl)⟩
  have hClosed : ∀ h, ((f.setTable t (l ++ r)).closeHandle d.data).closed h = if h = d.data then 1 else f.closed h := by
    intro h
    refine (update_apply f.closed d.data (f.closed d.data + 1) h).trans ?_
    rw [hOpen]
  constructor
  · intro h hLt
    rw [hClosed]
    split_ifs
    · exact Nat.le_refl 1
    · exact hFiled.once h hLt
  · intro h hLt
    rw [hClosed]
    split_ifs with hEq
    · constructor
      · intro hOne
        cases hOne
      · rintro ⟨u, hu, hMem⟩
        exact absurd hEq ((hIn u h hu).1 hMem).2
    · rw [hFiled.held h hLt]
      constructor
      · rintro ⟨u, hu, hMem⟩
        exact ⟨u, hu, (hIn u h hu).2 ⟨hMem, hEq⟩⟩
      · rintro ⟨u, hu, hMem⟩
        exact ⟨u, hu, ((hIn u h hu).1 hMem).1⟩
  · intro u h hu hMem
    exact hFiled.known u h hu ((hIn u h hu).1 hMem).1
  · intro u hu
    rw [hHeld]
    split_ifs
    · exact hNodup.2
    · exact hFiled.nodup u hu
  · intro u v h hu hv hMem hMem'
    exact hFiled.apart u v h hu hv ((hIn u h hu).1 hMem).1 ((hIn v h hv).1 hMem').1
  · intro h hLe
    rw [hClosed, if_neg ?_]
    · exact hFiled.fresh h hLe
    · rintro rfl
      exact absurd (hFiled.known t _ ht ((hMemT _).2 (.inl rfl))) (not_lt.2 hLe)
  · exact hFiled.alive
  · exact hFiled.unborn

theorem queueRemoveAt_spec {h : HandleId} (hRemove : queueRemoveAt f t index = (f', some h)) :
    ∃ l d r, f.table t = l ++ d :: r ∧ f' = f.setTable t (l ++ r) ∧ d.data = h := by
  unfold queueRemoveAt at hRemove
  split at hRemove
  · cases hRemove
  · rename_i d hFind
    obtain ⟨hIndex, l, r, hTable, hBefore⟩ := List.find?_eq_some_iff_append.1 hFind
    cases hRemove
    refine ⟨l, d, r, hTable, ?_, rfl⟩
    have hErase : (f.table t).eraseP (·.index = index) = l ++ r := by
      rw [hTable, List.eraseP_append_right _ (fun b hb => by simpa using hBefore b hb),
        List.eraseP_cons_of_pos (by simpa using hIndex)]
    rw [hErase]

theorem Filed.remove (hFiled : Filed f used) (ht : used t) {h : HandleId}
    (hRemove : queueRemoveAt f t index = (f', some h)) : Filed (f'.closeHandle h) used := by
  obtain ⟨l, d, r, hTable, rfl, rfl⟩ := queueRemoveAt_spec hRemove
  exact hFiled.closeOne ht hTable

theorem queueRemoveAt_none (h : queueRemoveAt f t index = (f', none)) : f' = f := by
  unfold queueRemoveAt at h
  split at h
  · cases h
    rfl
  · cases h

theorem Filed.closeExec (ht : used t) (rounds : Nat)
    (hFiled : Filed f used) : Filed (closeExecLoop t rounds f) used := by
  induction rounds generalizing f with
  | zero => exact hFiled
  | succ rounds ih =>
    unfold closeExecLoop
    split
    · exact hFiled
    · split
      · rename_i hRemove
        rw [queueRemoveAt_none hRemove]
        exact ih hFiled
      · rename_i hRemove
        exact ih (hFiled.remove ht hRemove)

theorem closed_foldl (handles : List HandleId) (f : Files) (h : HandleId) :
    (handles.foldl Files.closeHandle f).closed h = f.closed h + handles.count h := by
  induction handles generalizing f with
  | nil => rfl
  | cons d rest ih =>
    rw [List.foldl_cons, ih, List.count_cons]
    have hClose : (f.closeHandle d).closed h = if h = d then f.closed d + 1 else f.closed h := update_apply ..
    rw [hClose]
    obtain rfl | hne := eq_or_ne h d
    · rw [if_pos rfl, if_pos (beq_self_eq_true h)]
      omega
    · rw [if_neg hne, if_neg (by simpa using Ne.symm hne)]
      rfl

theorem foldl_closeHandle (handles : List HandleId) (f : Files) :
    ∃ closed, handles.foldl Files.closeHandle f = { f with closed } := by
  induction handles generalizing f with
  | nil => exact ⟨f.closed, rfl⟩
  | cons d rest ih =>
    obtain ⟨closed, h⟩ := ih (f.closeHandle d)
    exact ⟨closed, h⟩

theorem Filed.free (hFiled : Filed f used) (ht : used t) : Filed (freeFdHandleQueue f t) (fun u => used u ∧ u ≠ t) := by
  obtain ⟨closed, hFold⟩ := foldl_closeHandle (f.held t) f
  have hClosed : ∀ h, closed h = f.closed h + (f.held t).count h := by
    intro h
    rw [← closed_foldl, hFold]
  have hOut : ∀ h, h ∉ f.held t → closed h = f.closed h := by
    intro h hMem
    rw [hClosed, List.count_eq_zero.2 hMem, add_zero]
  have hIn : ∀ h, h ∈ f.held t → closed h = 1 := by
    intro h hMem
    have hOpen := (hFiled.held h (hFiled.known t h ht hMem)).2 ⟨t, ht, hMem⟩
    rw [hClosed, hOpen, List.count_eq_one_of_mem (hFiled.nodup t ht) hMem]
  have hFiled' : Filed { f with closed } (fun u => used u ∧ u ≠ t) := by
    constructor
    · intro h hLt
      obtain hMem | hMem := Decidable.em (h ∈ f.held t)
      · exact (hIn h hMem).le
      · exact (Nat.le_of_eq (hOut h hMem)).trans (hFiled.once h hLt)
    · intro h hLt
      obtain hMem | hMem := Decidable.em (h ∈ f.held t)
      · constructor
        · intro hOpen
          have hOne := hIn h hMem
          exact absurd (hOne.symm.trans hOpen) Nat.one_ne_zero
        · rintro ⟨u, ⟨hu, hne⟩, hMem'⟩
          exact absurd (hFiled.apart u t h hu ht hMem' hMem) hne
      · rw [show ({ f with closed } : Files).closed h = f.closed h from hOut h hMem, hFiled.held h hLt]
        constructor
        · rintro ⟨u, hu, hMem'⟩
          refine ⟨u, ⟨hu, ?_⟩, hMem'⟩
          rintro rfl
          exact hMem hMem'
        · rintro ⟨u, hu, hMem'⟩
          exact ⟨u, hu.1, hMem'⟩
    · exact fun u h hu => hFiled.known u h hu.1
    · exact fun u hu => hFiled.nodup u hu.1
    · exact fun u v h hu hv => hFiled.apart u v h hu.1 hv.1
    · intro h hLe
      rw [show ({ f with closed } : Files).closed h = f.closed h from hOut h ?_]
      · exact hFiled.fresh h hLe
      · intro hMem
        exact absurd (hFiled.known t h ht hMem) (not_lt.2 hLe)
    · exact fun u hu => hFiled.alive u hu.1
    · exact hFiled.unborn
  unfold freeFdHandleQueue
  rw [show (f.table t).map Descriptor.data = f.held t from rfl, hFold]
  exact hFiled'.destroy (fun h => h.2 rfl) (hFiled.alive t ht).1

theorem Filed.add (hFiled : Filed f used) (ht : used t)
    (x : FdFileHandle) (index : Nat) : Filed ((f.newHandle x).enqueue t ⟨index, f.handles⟩) used := by
  have hHeld : ∀ u, ((f.newHandle x).enqueue t ⟨index, f.handles⟩).held u =
      if u = t then f.held t ++ [f.handles] else f.held u := by
    intro u
    refine (held_setTable (f.newHandle x) t u _).trans ?_
    rw [List.map_append]
    rfl
  have hIn : ∀ u h, used u → (h ∈ ((f.newHandle x).enqueue t ⟨index, f.handles⟩).held u ↔
      h ∈ f.held u ∨ u = t ∧ h = f.handles) := by
    intro u h _
    rw [hHeld]
    split_ifs with hEq
    · subst hEq
      rw [List.mem_append, List.mem_singleton]
      constructor
      · exact .imp_right fun hNew => ⟨rfl, hNew⟩
      · exact .imp_right And.right
    · constructor
      · exact .inl
      · rintro (hMem | ⟨hEq', -⟩)
        · exact hMem
        · exact absurd hEq' hEq
  have hNot : ∀ u, used u → f.handles ∉ f.held u := by
    intro u hu hMem
    exact lt_irrefl _ (hFiled.known u _ hu hMem)
  constructor
  · intro h hLt
    obtain hOld | rfl := Nat.lt_or_eq_of_le (Nat.le_of_lt_succ hLt)
    · exact hFiled.once h hOld
    · exact Nat.le_trans (Nat.le_of_eq (hFiled.fresh _ (Nat.le_refl _))) (Nat.zero_le 1)
  · intro h hLt
    rw [show ((f.newHandle x).enqueue t ⟨index, f.handles⟩).closed h = f.closed h from rfl]
    obtain hOld | rfl := Nat.lt_or_eq_of_le (Nat.le_of_lt_succ hLt)
    · rw [hFiled.held h hOld]
      constructor
      · rintro ⟨u, hu, hMem⟩
        exact ⟨u, hu, (hIn u h hu).2 (.inl hMem)⟩
      · rintro ⟨u, hu, hMem⟩
        exact ⟨u, hu, ((hIn u h hu).1 hMem).resolve_right fun hNew => hOld.ne hNew.2⟩
    · constructor
      · intro _
        exact ⟨t, ht, (hIn t _ ht).2 (.inr ⟨rfl, rfl⟩)⟩
      · intro _
        exact hFiled.fresh _ le_rfl
  · intro u h hu hMem
    obtain hMem | ⟨-, rfl⟩ := (hIn u h hu).1 hMem
    · exact Nat.lt_succ_of_lt (hFiled.known u h hu hMem)
    · exact Nat.lt_succ_self _
  · intro u hu
    rw [hHeld]
    split_ifs with hEq
    · subst hEq
      refine .append (hFiled.nodup u hu) (List.nodup_singleton _) ?_
      rw [List.disjoint_singleton]
      exact hNot u hu
    · exact hFiled.nodup u hu
  · intro u v h hu hv hMem hMem'
    obtain hMem | ⟨rfl, rfl⟩ := (hIn u h hu).1 hMem
    · obtain hMem' | ⟨-, rfl⟩ := (hIn v h hv).1 hMem'
      · exact hFiled.apart u v h hu hv hMem hMem'
      · exact absurd hMem (hNot u hu)
    · obtain hMem' | ⟨rfl, -⟩ := (hIn v _ hv).1 hMem'
      · exact absurd hMem' (hNot v hv)
      · rfl
  · intro h hLe
    exact hFiled.fresh h (Nat.le_of_succ_le hLe)
  · exact hFiled.alive
  · exact hFiled.unborn

theorem Filed.copy (ht : used t) (queue : List Descriptor)
    (k : Nat) (hFiled : Filed f used) (hCopy : copyNodes node t queue k f = (f', true)) : Filed f' used := by
  induction queue generalizing k f with
  | nil =>
    cases hCopy
    exact hFiled
  | cons d rest ih =>
    unfold copyNodes at hCopy
    split at hCopy
    · exact ih (k + 1) (hFiled.add ht _ d.index) hCopy
    · cases hCopy

def CopiesAll (node : Nat → Bool) (queue : List Descriptor) : Prop :=
  node 0 = true → ∀ k, k < queue.length → node k = true

theorem copyNodes_false (queue : List Descriptor) (k : Nat)
    (hCopy : copyNodes node t queue k f = (f', false)) : ∃ i, k ≤ i ∧ i < k + queue.length ∧ node i = false := by
  induction queue generalizing k f with
  | nil => cases hCopy
  | cons d rest ih =>
    unfold copyNodes at hCopy
    split at hCopy
    · obtain ⟨i, hLe, hLt, hNode⟩ := ih (k + 1) hCopy
      refine ⟨i, Nat.le_of_succ_le hLe, ?_, hNode⟩
      rw [List.length_cons]
      omega
    · rename_i hNode
      refine ⟨k, le_rfl, ?_, by simpa using hNode⟩
      rw [List.length_cons]
      omega

theorem copyNodes_first {queue : List Descriptor}
    (hAll : CopiesAll node queue) (hCopy : copyNodes node t queue 0 f = (f', false)) : f' = f := by
  obtain ⟨i, -, hLt, hNode⟩ := copyNodes_false queue 0 hCopy
  rw [zero_add] at hLt
  have hZero : node 0 = false := by
    rcases hn : node 0 with _ | _
    · rfl
    · rw [hAll hn i hLt] at hNode
      cases hNode
  cases queue with
  | nil => cases hCopy
  | cons d rest =>
    unfold copyNodes at hCopy
    rw [if_neg (by rw [hZero]; decide)] at hCopy
    cases hCopy
    rfl

theorem Filed.queueCopy (hFiled : Filed f used) {src : TableId} {queue : Bool} {copy : Option TableId}
    (hAll : queue → CopiesAll node (f.table src)) (hCopy : queueCopy f src queue node = (f', copy)) :
    (copy = none → Filed f' used) ∧ (∀ t ∈ copy, t = f.tables ∧ Filed f' (fun u => used u ∨ u = t)) := by
  unfold Process.queueCopy at hCopy
  split at hCopy
  · cases hCopy
    exact ⟨fun _ => hFiled, nofun⟩
  · rename_i hQueue
    split at hCopy
    · rename_i hNodes
      cases hCopy
      refine ⟨nofun, ?_⟩
      rintro t ⟨⟩
      exact ⟨rfl, hFiled.newTable.copy (.inr rfl) _ 0 hNodes⟩
    · rename_i hNodes
      cases hCopy
      refine ⟨fun _ => ?_, nofun⟩
      have hSame := copyNodes_first (hAll (by simpa using hQueue)) hNodes
      subst hSame
      have hOld : Filed f.newTable used := hFiled.newTable.abandon ((held_setTable f _ _ []).trans (if_pos rfl))
      exact hOld.destroy (fun h => lt_irrefl _ (hFiled.alive _ h).1) (Nat.lt_succ_self _)

end OpenXJ380.Process
