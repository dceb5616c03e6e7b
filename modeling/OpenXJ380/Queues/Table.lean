import OpenXJ380.Queues.Links

/-! # The table of a queue

A queue stands for data under indices, in the order in which they were put in. Each call does to this
table what it is meant for, and keeps the nodes in order.
-/

namespace OpenXJ380.Queues

open Option (bind_eq_bind bind_some none_or some_ne_none)
open List (length_append length_map map_append mem_append_left mem_append_right mem_cons_self)

structure Table where
  items : List (Index × Data)
  next : Index

def Table.indices (t : Table) : List Index := t.items.map Prod.fst

def Table.put (t : Table) (i : Index) (d : Data) : Table where
  items := t.items ++ [(i, d)]
  next := if t.next ≤ i then i + 1 else t.next

def Table.first (t : Table) (p : Index × Data → Bool) : Data := ((t.items.find? p).map Prod.snd).getD 0

def Table.without (t : Table) (p : Index × Data → Bool) : Table := { t with items := t.items.eraseP p }

def Table.empty : Table where
  items := []
  next := 0

def atIndex (i : Index) (x : Index × Data) : Bool := x.1 = i

def ofData (d : Data) (x : Index × Data) : Bool := x.2 = d

/-- The nodes `l` of a queue are in order and stand for a table. -/
structure Holds (s : State) (l : List Addr) (t : Table) : Prop where
  chain : Chain s.nodes s.q.head s.q.tail l t.items
  size : s.q.size.toNat = t.items.length
  next : s.q.nextIndex = t.next
  distinct : t.indices.Nodup
  below : ∀ i ∈ t.indices, i < t.next
  cursor : ∀ c, s.q.rrCursor = some c → c ∈ l

/-- Only the nodes of the queue have changed, and those it has got were free. -/
structure Local (s s' : State) (l l' : List Addr) : Prop where
  only : Only (l ++ l') s.nodes s'.nodes
  fresh : ∀ a ∈ l', a ∈ l ∨ s.nodes a = none

def Ends {ρ : Type} (s : State) (l : List Addr) (run : Option (State × ρ)) (post : State → Table → ρ → Prop) : Prop :=
  ∃ s' r l' t', run = some (s', r) ∧ Holds s' l' t' ∧ Local s s' l l' ∧ post s' t' r

def Fresh (malloc : Malloc) : Prop := ∀ nodes a, malloc nodes = some a → nodes a = none

variable {s s' : State} {l l₁ l₂ : List Addr} {t : Table} {xs₁ xs₂ : List (Index × Data)} {x : Index × Data}
  {a new : Addr} {i : Index} {d : Data} {p : Index × Data → Bool} {malloc : Malloc} {ρ : Type}

theorem Holds.ends {r : ρ} {post : State → Table → ρ → Prop} (h : Holds s l t) (hPost : post s t r) :
    Ends s l (some (s, r)) post := by
  refine ⟨s, r, l, t, rfl, h, ⟨?_, fun a ha => .inl ha⟩, hPost⟩
  exact .refl

theorem length_le_next (hDistinct : t.indices.Nodup) (hBelow : ∀ i ∈ t.indices, i < t.next) :
    t.items.length ≤ t.next.toNat := by
  have hNodup : (t.indices.map BitVec.toNat).Nodup := hDistinct.map fun _ _ => BitVec.eq_of_toNat_eq
  have hSub : t.indices.map BitVec.toNat ⊆ List.range t.next.toNat := by
    intro n hn
    obtain ⟨i, hi, rfl⟩ := List.mem_map.mp hn
    exact List.mem_range.mpr (BitVec.lt_def.mp (hBelow i hi))
  have hLength := (List.subperm_of_subset hNodup hSub).length_le
  rwa [length_map, Table.indices, length_map, List.length_range] at hLength

theorem Holds.rounds (h : Holds s l t) : l.length < s.rounds := by
  rw [State.rounds, h.size, h.chain.length]
  exact Nat.lt_succ_self _

theorem Holds.items (h : Holds s l t) : s.items = some t.items := by
  rw [State.items, h.chain.head]
  exact foreachNode_spec h.chain.links h.chain.items h.rounds

theorem find?_of_firstAt {xs : List (Index × Data)} (h : FirstAt (fun y => p y) l₁ a l₂ xs₁ x xs₂ l xs) :
    xs.find? p = some x := by
  rw [h.items, List.find?_append, List.find?_eq_none.mpr h.before, none_or, List.find?_cons_of_pos h.here]

theorem eraseP_of_firstAt {xs : List (Index × Data)} (h : FirstAt (fun y => p y) l₁ a l₂ xs₁ x xs₂ l xs) :
    xs.eraseP p = xs₁ ++ xs₂ := by
  rw [h.items, List.eraseP_append_right _ h.before, List.eraseP_cons_of_pos h.here]

theorem Holds.find (h : Holds s l t) (kind : LockNode → Bool) (p : Index × Data → Bool)
    (hKind : ∀ node, kind node = p (node.index, node.data)) : s.find kind = some none ∧ t.items.find? p = none ∨
      ∃ l₁ a l₂ xs₁ x xs₂, FirstAt (fun y => p y) l₁ a l₂ xs₁ x xs₂ l t.items ∧ s.find kind = some (some a) := by
  have hIff : ∀ node, kind node ↔ p (node.index, node.data) := fun node => by rw [hKind]
  rw [State.find, h.chain.head]
  obtain ⟨hNone, hAll⟩ | hFound := findNode_spec (p := fun y => p y = true) hIff h.chain.links h.chain.items h.rounds
  · exact .inl ⟨hNone, List.find?_eq_none.mpr hAll⟩
  · exact .inr hFound

theorem find?_atIndex_eq_none_iff : t.items.find? (atIndex i) = none ↔ i ∉ t.indices := by
  rw [List.find?_eq_none, Table.indices, List.mem_map]
  constructor
  · rintro hAll ⟨x, hx, rfl⟩
    exact hAll x hx (decide_eq_true rfl)
  · intro hNot x hx hAt
    exact hNot ⟨x, hx, of_decide_eq_true hAt⟩

theorem Holds.findIndex (h : Holds s l t) (i : Index) :
    ∃ found, (s.find fun node => node.index = i) = some found ∧ (found = none ↔ i ∉ t.indices) := by
  rcases h.find (fun node => node.index = i) (atIndex i) (fun _ => rfl) with
    ⟨hNone, hAll⟩ | ⟨l₁, a, l₂, xs₁, x, xs₂, hFirst, hFound⟩
  · exact ⟨none, hNone, fun _ => find?_atIndex_eq_none_iff.mp hAll, fun _ => rfl⟩
  · refine ⟨some a, hFound, nofun, fun hNot => ?_⟩
    have hSome := find?_of_firstAt hFirst
    rw [find?_atIndex_eq_none_iff.mpr hNot] at hSome
    exact nomatch hSome

theorem queueGet_spec (h : Holds s l t) (i : Index) : queueGet i s = some (t.first (atIndex i)) := by
  rcases h.find (fun node => node.index = i) (atIndex i) (fun _ => rfl) with
    ⟨hNone, hAll⟩ | ⟨l₁, a, l₂, xs₁, x, xs₂, hFirst, hFound⟩
  · rw [Table.first, hAll]
    simp only [queueGet, bind_eq_bind, hNone, bind_some]
    rfl
  · have hChain := h.chain
    rw [hFirst.nodes, hFirst.items] at hChain
    obtain ⟨node, hNode, rfl, -⟩ := hChain.nodeAt hFirst.length
    rw [Table.first, find?_of_firstAt hFirst]
    simp only [queueGet, bind_eq_bind, hFound, bind_some, hNode]
    rfl

theorem first_of_mem (hDistinct : t.indices.Nodup) (hMem : (i, d) ∈ t.items) : t.first (atIndex i) = d := by
  obtain ⟨xs₁, xs₂, hItems⟩ := List.append_of_mem hMem
  have hBefore : ∀ y ∈ xs₁, ¬atIndex i y := by
    intro y hy hAt
    rw [Table.indices, hItems, map_append, List.nodup_append] at hDistinct
    exact hDistinct.2.2 y.1 (List.mem_map_of_mem hy) i mem_cons_self (of_decide_eq_true hAt)
  have hHere : atIndex i (i, d) := decide_eq_true rfl
  rw [Table.first, hItems, List.find?_append, List.find?_eq_none.mpr hBefore, none_or, List.find?_cons_of_pos hHere]
  rfl

theorem toNat_add_one (h : i ≠ noIndex) : (i + 1).toNat = i.toNat + 1 := by
  have hNe : i.toNat ≠ 2 ^ 64 - 1 := by
    intro hEq
    refine h (BitVec.eq_of_toNat_eq (hEq.trans ?_))
    rw [noIndex, BitVec.toNat_allOnes]
  have hLt := i.isLt
  have hOne : (1 : Index).toNat = 1 := rfl
  rw [BitVec.toNat_add, hOne]
  omega

theorem ne_noIndex_of_lt {j : Index} (h : i < j) : i ≠ noIndex := by
  rintro rfl
  have hLt := BitVec.lt_def.mp h
  rw [noIndex, BitVec.toNat_allOnes] at hLt
  exact absurd j.isLt (by omega)

theorem put_below (hBelow : ∀ j ∈ t.indices, j < t.next) (hIndex : i ≠ noIndex) :
    ∀ j ∈ (t.put i d).indices, j < (t.put i d).next := by
  have hNext : i < (t.put i d).next ∧ ∀ j, j < t.next → j < (t.put i d).next := by
    have hAdd := toNat_add_one hIndex
    simp only [Table.put, BitVec.lt_def]
    split
    · next hLe =>
      rw [BitVec.le_def] at hLe
      rw [hAdd]
      exact ⟨Nat.lt_succ_self _, fun j hj => by omega⟩
    · next hLt =>
      rw [BitVec.le_def] at hLt
      exact ⟨not_le.mp hLt, fun j hj => hj⟩
  intro j hj
  rw [Table.indices, Table.put, map_append, List.mem_append] at hj
  obtain hj | hj := hj
  · exact hNext.2 j (hBelow j hj)
  · obtain rfl : j = i := List.mem_singleton.mp hj
    exact hNext.1

theorem queueAppendNode_put (h : Holds s l t) (hNew : s.nodes new = none) (hUnused : i ∉ t.indices)
    (hIndex : i ≠ noIndex) (d : Data) (n : Index) :
    ∃ s', queueAppendNode { s.store new (lockNode d i) with q := { s.q with nextIndex := n } } new = some s' ∧
      s'.q.nextIndex = n ∧ Local s s' l (l ++ [new]) ∧ itemOf s'.nodes new = some (i, d) ∧
      Holds { s' with q := { s'.q with nextIndex := (t.put i d).next } } (l ++ [new]) (t.put i d) := by
  have hNotIn := h.chain.notMem_of_free hNew
  have hStored : (s.store new (lockNode d i)).nodes new = some (lockNode d i) := Function.update_self ..
  have hOthers : ∀ a ∈ l, (s.store new (lockNode d i)).nodes a = s.nodes a := by
    intro a ha
    refine Function.update_of_ne ?_ _ _
    rintro rfl
    exact hNotIn ha
  obtain ⟨s', hAppend, hChain, hGrown, hOnly⟩ := queueAppendNode_spec
    (s := { s.store new (lockNode d i) with q := { s.q with nextIndex := n } }) (h.chain.frame hOthers) hNotIn hStored
  have hDistinct : (t.put i d).indices.Nodup := by
    rw [Table.indices, Table.put, map_append]
    refine List.nodup_append.mpr ⟨h.distinct, List.nodup_singleton i, ?_⟩
    rintro j hj k hk rfl
    obtain rfl : j = i := List.mem_singleton.mp hk
    exact hUnused hj
  have hBelow := put_below (d := d) h.below hIndex
  refine ⟨s', hAppend, hGrown.nextIndex, ⟨?_, ?_⟩, ?_, hChain, ?_, rfl, hDistinct, hBelow, ?_⟩
  · intro a ha
    have hNe : a ≠ new := by
      rintro rfl
      exact ha (mem_append_right _ (mem_append_right _ (.head _)))
    refine (hOnly a fun hIn => ha (mem_append_right _ hIn)).trans ?_
    exact Function.update_of_ne hNe _ _
  · intro a ha
    obtain ha | ha := List.mem_append.mp ha
    · exact .inl ha
    · exact .inr (List.mem_singleton.mp ha ▸ hNew)
  · have hItems := hChain.items
    rw [map_append, map_append] at hItems
    have hLength : (l.map (itemOf s'.nodes)).length = (t.items.map some).length := by
      rw [length_map, length_map, h.chain.length]
    exact (List.cons.inj (List.append_inj hItems hLength).2).1
  · -- the indices differ and are below the next one, so that the size does not wrap
    have hLength := length_le_next hDistinct hBelow
    change (t.items ++ [(i, d)]).length ≤ _ at hLength
    change s'.q.size.toNat = (t.items ++ [(i, d)]).length
    rw [length_append, List.length_singleton, ← h.size] at *
    have hSize : s.q.size ≠ noIndex := by
      refine ne_noIndex_of_lt (j := (t.put i d).next) ?_
      exact BitVec.lt_def.mpr (Nat.lt_of_succ_le hLength)
    rw [hGrown.size]
    exact toNat_add_one hSize
  · intro c hc
    change s'.q.rrCursor = some c at hc
    rw [hGrown.cursor] at hc
    split at hc
    · exact List.mem_of_head? (hChain.head.symm.trans hc)
    · exact mem_append_left _ (h.cursor c hc)

theorem enqueueNext_spec (h : Holds s l t) (hFresh : Fresh malloc) (d : Data) :
    Ends s l (enqueueNext malloc d s) fun s' t' r =>
      if malloc s.nodes = none ∨ t.next = noIndex then t' = t ∧ r = (noIndex, none)
      else t' = t.put t.next d ∧ ∃ a, r = (t.next, some a) ∧ itemOf s'.nodes a = some (t.next, d) := by
  rw [enqueueNext]
  cases hMalloc : malloc s.nodes with
  | none => exact h.ends (by rw [if_pos (.inl rfl)]; exact ⟨rfl, rfl⟩)
  | some new =>
    by_cases hFull : t.next = noIndex
    · simp only [h.next, hFull, if_true]
      exact h.ends (by rw [if_pos (.inr trivial)]; exact ⟨rfl, rfl⟩)
    · have hUnused : t.next ∉ t.indices := fun hIn => absurd (h.below _ hIn) (BitVec.lt_irrefl _)
      obtain ⟨s', hAppend, hNext, hLocal, hItem, hHolds⟩ :=
        queueAppendNode_put h (hFresh _ _ hMalloc) hUnused hFull d (t.next + 1)
      have hPut : (t.put t.next d).next = s'.q.nextIndex := by
        rw [hNext]
        exact if_pos (BitVec.le_refl _)
      rw [hPut] at hHolds
      refine ⟨s', (t.next, some new), l ++ [new], t.put t.next d, ?_, hHolds, hLocal, ?_⟩
      · simp only [h.next, if_neg hFull, bind_eq_bind]
        exact congrArg (fun o : Option State => o.bind fun s => some (s, t.next, some new)) hAppend
      · beta_reduce
        rw [if_neg (not_or.mpr ⟨some_ne_none new, hFull⟩)]
        exact ⟨rfl, new, rfl, hItem⟩

theorem enqueueAt_spec (h : Holds s l t) (hNew : s.nodes new = none) (hUnused : i ∉ t.indices) (hIndex : i ≠ noIndex)
    (d : Data) : Ends s l (enqueueAt new d i s) fun _ t' r => t' = t.put i d ∧ r = i := by
  obtain ⟨s', hAppend, hNext, hLocal, -, hHolds⟩ := queueAppendNode_put h hNew hUnused hIndex d s.q.nextIndex
  have hAppend : queueAppendNode (s.store new (lockNode d i)) new = some s' := hAppend
  have hLast : (if s'.q.nextIndex ≤ i ∧ i ≠ noIndex then { s' with q := { s'.q with nextIndex := i + 1 } } else s') =
      { s' with q := { s'.q with nextIndex := (t.put i d).next } } := by
    rw [Table.put, ← h.next, ← hNext]
    by_cases hLe : s'.q.nextIndex ≤ i
    · rw [if_pos ⟨hLe, hIndex⟩, if_pos hLe]
    · rw [if_neg fun hBoth => hLe hBoth.1, if_neg hLe]
  refine ⟨{ s' with q := { s'.q with nextIndex := (t.put i d).next } }, i, l ++ [new], t.put i d, ?_, hHolds,
    { hLocal with }, rfl, rfl⟩
  simp only [enqueueAt, bind_eq_bind, hAppend, bind_some, hLast]

theorem toNat_le_length (hUsed : ∀ j < i, j ∈ t.indices) : i.toNat ≤ t.items.length := by
  have hNodup : ((List.range i.toNat).map (BitVec.ofNat 64)).Nodup := by
    refine List.nodup_range.map_on ?_
    intro m hm n hn hEq
    have hm := (List.mem_range.mp hm).trans i.isLt
    have hn := (List.mem_range.mp hn).trans i.isLt
    have hNat := congrArg BitVec.toNat hEq
    rwa [BitVec.toNat_ofNat, BitVec.toNat_ofNat, Nat.mod_eq_of_lt hm, Nat.mod_eq_of_lt hn] at hNat
  have hSub : (List.range i.toNat).map (BitVec.ofNat 64) ⊆ t.indices := by
    intro j hj
    obtain ⟨n, hn, rfl⟩ := List.mem_map.mp hj
    have hn := List.mem_range.mp hn
    refine hUsed _ (BitVec.lt_def.mpr ?_)
    rwa [BitVec.toNat_ofNat, Nat.mod_eq_of_lt (hn.trans i.isLt)]
  have hLength := (List.subperm_of_subset hNodup hSub).length_le
  rwa [length_map, List.length_range, Table.indices, length_map] at hLength

theorem lowestUnused_spec (h : Holds s l t) (rounds : Nat) (i : Index) (hUsed : ∀ j < i, j ∈ t.indices)
    (hRounds : t.items.length < rounds + i.toNat) :
    ∃ k, lowestUnused s rounds i = some k ∧ IsLeast {j | j ∉ t.indices} k := by
  induction rounds generalizing i with
  | zero =>
    rw [zero_add] at hRounds
    exact absurd (toNat_le_length hUsed) (not_le.mpr hRounds)
  | succ rounds ih =>
    obtain ⟨found, hFound, hNone⟩ := h.findIndex i
    cases found with
    | none =>
      refine ⟨i, ?_, hNone.mp rfl, ?_⟩
      · simp only [lowestUnused, bind_eq_bind, hFound, bind_some]
      · intro j hj
        exact BitVec.not_lt.mp fun hLt => hj (hUsed j hLt)
    | some a =>
      have hIn : i ∈ t.indices := not_not.mp (mt hNone.mpr nofun)
      have hAdd := toNat_add_one (ne_noIndex_of_lt (h.below i hIn))
      have hUsedNext : ∀ j < i + 1, j ∈ t.indices := by
        intro j hj
        rw [BitVec.lt_def, hAdd] at hj
        obtain hj | hj := Nat.lt_succ_iff_lt_or_eq.mp hj
        · exact hUsed j (BitVec.lt_def.mpr hj)
        · exact BitVec.eq_of_toNat_eq hj ▸ hIn
      obtain ⟨k, hLowest, hLeast⟩ := ih (i + 1) hUsedNext (by rw [hAdd]; omega)
      refine ⟨k, ?_, hLeast⟩
      simp only [lowestUnused, bind_eq_bind, hFound, bind_some, hLowest]

theorem queueEnqueueLowest_spec (h : Holds s l t) (hFresh : Fresh malloc) (d : Data) :
    Ends s l (queueEnqueueLowest malloc d s) fun _ t' r => ∃ i, IsLeast {j | j ∉ t.indices} i ∧
      if malloc s.nodes = none ∨ i = noIndex then t' = t ∧ r = noIndex else t' = t.put i d ∧ r = i := by
  obtain ⟨i, hLowest, hLeast⟩ := lowestUnused_spec h s.rounds 0
    (fun j hj => absurd hj BitVec.not_lt_zero) (Nat.lt_add_right _ (h.chain.length ▸ h.rounds))
  rw [queueEnqueueLowest]
  cases hMalloc : malloc s.nodes with
  | none =>
    refine h.ends ⟨i, hLeast, ?_⟩
    rw [if_pos (.inl rfl)]
    exact ⟨rfl, rfl⟩
  | some new =>
    simp only [bind_eq_bind, hLowest, bind_some]
    by_cases hFull : i = noIndex
    · rw [if_pos hFull]
      refine h.ends ⟨i, hLeast, ?_⟩
      rw [if_pos (.inr hFull)]
      exact ⟨rfl, rfl⟩
    · rw [if_neg hFull]
      obtain ⟨s', r, l', t', hRun, hHolds, hLocal, hPost⟩ := enqueueAt_spec h (hFresh _ _ hMalloc) hLeast.1 hFull d
      refine ⟨s', r, l', t', hRun, hHolds, hLocal, i, hLeast, ?_⟩
      rw [if_neg (not_or.mpr ⟨some_ne_none new, hFull⟩)]
      exact hPost

theorem queueEnqueueId_spec (h : Holds s l t) (hFresh : Fresh malloc) (d : Data) (i : Index) :
    Ends s l (queueEnqueueId malloc d i s) fun _ t' r =>
      if malloc s.nodes = none ∨ i = noIndex ∨ i ∈ t.indices then t' = t ∧ r = noIndex else t' = t.put i d ∧ r = i := by
  rw [queueEnqueueId]
  by_cases hFull : i = noIndex
  · rw [if_pos hFull]
    refine h.ends ?_
    rw [if_pos (.inr (.inl hFull))]
    exact ⟨rfl, rfl⟩
  · rw [if_neg hFull]
    cases hMalloc : malloc s.nodes with
    | none =>
      refine h.ends ?_
      rw [if_pos (.inl rfl)]
      exact ⟨rfl, rfl⟩
    | some new =>
      obtain ⟨found, hFound, hNone⟩ := h.findIndex i
      simp only [bind_eq_bind, hFound, bind_some]
      cases found with
      | some a =>
        have hIn : i ∈ t.indices := not_not.mp (mt hNone.mpr nofun)
        refine h.ends ?_
        rw [if_pos (.inr (.inr hIn))]
        exact ⟨rfl, rfl⟩
      | none =>
        obtain ⟨s', r, l', t', hRun, hHolds, hLocal, hPost⟩ :=
          enqueueAt_spec h (hFresh _ _ hMalloc) (hNone.mp rfl) hFull d
        refine ⟨s', r, l', t', hRun, hHolds, hLocal, ?_⟩
        beta_reduce
        rw [if_neg (not_or.mpr ⟨some_ne_none new, not_or.mpr ⟨hFull, hNone.mp rfl⟩⟩)]
        exact hPost

theorem Holds.shrink (h : Holds s (l₁ ++ a :: l₂) t) (hItems : t.items = xs₁ ++ x :: xs₂)
    (hChain : Chain s'.nodes s'.q.head s'.q.tail (l₁ ++ l₂) (xs₁ ++ xs₂))
    (hShrunk : Shrunk (l₁ ++ a :: l₂) (l₁ ++ l₂) s.q s'.q) : Holds s' (l₁ ++ l₂) { t with items := xs₁ ++ xs₂ } := by
  have hSub : List.Sublist (({ t with items := xs₁ ++ xs₂ } : Table).indices) t.indices := by
    rw [Table.indices, Table.indices, hItems]
    exact ((List.Sublist.refl xs₁).append (List.sublist_cons_self x xs₂)).map Prod.fst
  refine ⟨hChain, ?_, hShrunk.nextIndex.trans h.next, h.distinct.sublist hSub,
    fun i hi => h.below i (hSub.subset hi), hShrunk.cursor h.cursor⟩
  have hSize := h.size
  rw [hItems, length_append, List.length_cons] at hSize
  have hOne : (1 : Index).toNat = 1 := rfl
  rw [hShrunk.size, BitVec.toNat_sub, hOne, length_append]
  omega

theorem queueRemoveLocked_ends (h : Holds s l t) (hFirst : FirstAt (fun y => p y) l₁ a l₂ xs₁ x xs₂ l t.items) :
    Ends s l (queueRemoveLocked s a) fun _ t' r => t' = t.without p ∧ r = t.first p := by
  obtain rfl := hFirst.nodes
  have hChain := h.chain
  rw [hFirst.items] at hChain
  obtain ⟨s', hRun, hChain', hShrunk, hOnly⟩ := queueRemoveLocked_spec hChain hFirst.length
  refine ⟨s', x.2, l₁ ++ l₂, _, hRun, h.shrink hFirst.items hChain' hShrunk, ⟨?_, ?_⟩, ?_, ?_⟩
  · intro b hb
    exact hOnly b fun hIn => hb (mem_append_left _ hIn)
  · intro b hb
    left
    obtain hb | hb := List.mem_append.mp hb
    · exact mem_append_left _ hb
    · exact mem_append_right _ (.tail a hb)
  · rw [Table.without, eraseP_of_firstAt hFirst]
  · rw [Table.first, find?_of_firstAt hFirst]
    rfl

theorem removeFound_ends (h : Holds s l t) (kind : LockNode → Bool) (p : Index × Data → Bool)
    (hKind : ∀ node, kind node = p (node.index, node.data)) :
    Ends s l ((s.find kind).bind fun found => removeFound found s) fun _ t' r => t' = t.without p ∧ r = t.first p := by
  obtain ⟨hNone, hAll⟩ | ⟨l₁, a, l₂, xs₁, x, xs₂, hFirst, hFound⟩ := h.find kind p hKind
  · rw [hNone, bind_some, removeFound]
    refine h.ends ⟨?_, ?_⟩
    · rw [Table.without, List.eraseP_of_forall_not (List.find?_eq_none.mp hAll)]
    · rw [Table.first, hAll]
      rfl
  · rw [hFound, bind_some, removeFound]
    exact queueRemoveLocked_ends h hFirst

theorem queueRemoveNode_spec (h : Holds s l t) (ha : a ∈ l) : ∃ i d, itemOf s.nodes a = some (i, d) ∧ (i, d) ∈ t.items ∧
      Ends s l (queueRemoveNode a s) fun _ t' r => t' = t.without (atIndex i) ∧ r = d := by
  obtain ⟨l₁, l₂, rfl⟩ := List.append_of_mem ha
  have hItems := h.chain.items.symm
  rw [map_append, List.map_cons] at hItems
  obtain ⟨xs₁, ys, hSplit, hItems₁, hItems₂⟩ := List.map_eq_append_iff.mp hItems
  obtain ⟨⟨i, d⟩, xs₂, rfl, hItem, -⟩ := List.map_eq_cons_iff.mp hItems₂
  have hLength := congrArg List.length hItems₁
  rw [length_map, length_map] at hLength
  have hMem : (i, d) ∈ t.items := hSplit ▸ mem_append_right _ (.head _)
  have hBefore : ∀ y ∈ xs₁, ¬atIndex i y := by
    intro y hy hAt
    have hDistinct := h.distinct
    rw [Table.indices, hSplit, map_append, List.nodup_append] at hDistinct
    exact hDistinct.2.2 y.1 (List.mem_map_of_mem hy) i mem_cons_self (of_decide_eq_true hAt)
  have hEnds := queueRemoveLocked_ends (p := atIndex i) h ⟨rfl, hSplit, hLength.symm, decide_eq_true rfl, hBefore⟩
  rw [first_of_mem h.distinct hMem] at hEnds
  exact ⟨i, d, hItem.symm, hMem, hEnds⟩

theorem queueDequeue_ends (h : Holds s l t) : Ends s l (queueDequeue s) fun _ t' r =>
      t' = { t with items := t.items.tail } ∧ r = (t.items.head?.map Prod.snd).getD 0 := by
  have hLength := h.chain.length
  cases hItems : t.items with
  | nil =>
    rw [hItems] at hLength
    obtain rfl := List.length_eq_zero_iff.mp hLength
    rw [queueDequeue, h.chain.head]
    refine h.ends ⟨?_, rfl⟩
    rw [List.tail_nil, ← hItems]
  | cons x xs =>
    rw [hItems] at hLength
    obtain ⟨a, l, rfl⟩ := List.exists_cons_of_length_eq_add_one hLength
    have hChain := h.chain
    rw [hItems] at hChain
    obtain ⟨s', hRun, hChain', hShrunk, hOnly⟩ := queueDequeue_spec hChain
    refine ⟨s', x.2, l, { t with items := xs }, hRun, ?_, ⟨?_, ?_⟩, rfl, rfl⟩
    · have hOld : Holds s ([] ++ a :: l) t := h
      have hItems : t.items = [] ++ x :: xs := hItems
      exact hOld.shrink hItems hChain' hShrunk
    · intro b hb
      exact hOnly b fun hIn => hb (mem_append_left _ hIn)
    · intro b hb
      exact .inl (.tail a hb)

end OpenXJ380.Queues
