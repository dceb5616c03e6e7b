import OpenXJ380.Queues.Table

/-! # Queues over whole runs

Queues are made, used and copied in any order. They share the memory for their nodes, and each of them
stays the table that the calls have made of it.
-/

namespace OpenXJ380.Queues

open Option (bind_eq_bind bind_some or_none some_ne_none)
open Function
open List (append_assoc append_nil nodup_nil not_mem_nil)

open LinkedList

def Table.copied (t : Table) (dataCopy : Option (Data → Data)) : Table where
  items := t.items.map fun x => (x.1, (dataCopy.getD id) x.2)
  next := t.next

section

variable {nodes nodes' : Nodes} {s s' src : State} {l l' m : List Addr} {xs ys : List (Index × Data)} {t t' : Table}
  {a new : Addr} {i : Index} {d : Data} {malloc : Malloc} {dataCopy : Option (Data → Data)} {rounds : Nat}

theorem appendCopy_spec (h : Chain s.nodes s.q.head s.q.tail l xs) (hFree : s.nodes new = none) (d : Data) (i : Index) :
    ∃ s', appendCopy s new d i = some s' ∧ s'.q = { s.q with head := s'.q.head, tail := s'.q.tail } ∧
      Chain s'.nodes s'.q.head s'.q.tail (l ++ [new]) (xs ++ [(i, d)]) ∧ Only (l ++ [new]) s.nodes s'.nodes := by
  have hNew := h.notMem_of_free hFree
  have hNe : ∀ a ∈ l, a ≠ new := by
    rintro a ha rfl
    exact hNew ha
  have hIn : new ∈ l ++ [new] := List.mem_append_right _ (.head _)
  let node : LockNode := { data := d, next := none, prev := s.q.tail, index := i }
  have hNode : (s.store new node).nodes new = some node := update_self ..
  have hOnly : Only (l ++ [new]) s.nodes (s.store new node).nodes := Only.refl.update hIn _
  have hStored : Chain (s.store new node).nodes s.q.head s.q.tail l xs :=
    h.frame fun a ha => update_of_ne (hNe a ha) _ _
  obtain rfl | ⟨l, last, rfl⟩ := List.eq_nil_or_concat l
  · have hHead : (s.store new node).q.head = none := h.head
    obtain ⟨s₁, hPrev₁, hq₁, hNextOf₁, hPrevOf₁, hRe₁⟩ := setPrev_spec hNode hIn none
    refine ⟨(s₁.setHead (some new)).setTail (some new), ?_, ?_, ?_, ?_⟩
    · rw [appendCopy, hHead]
      exact congrArg (fun o : Option State => o.bind fun s => some ((s.setHead (some new)).setTail (some new))) hPrev₁
    · change _ = ({ s.q with head := some new, tail := some new } : LockQueue)
      exact congrArg (fun q : LockQueue => { q with head := some new, tail := some new }) hq₁
    · refine hStored.append hNew rfl ?_ (fun a ha => absurd ha not_mem_nil) ?_ ?_
        (fun a ha => absurd ha not_mem_nil) (fun a ha => absurd ha not_mem_nil)
      · exact (congrFun hRe₁.item new).trans (itemOf_eq hNode)
      · exact (congrFun hNextOf₁ new).trans (nextOf_eq hNode)
      · exact (congrFun hPrevOf₁ new).trans (update_self ..)
    · exact hOnly.trans hRe₁.only
  · rw [List.concat_eq_append] at *
    have hTail : s.q.tail = some last := h.tail.trans List.getLast?_concat
    have hLast : last ∈ l ++ [last] := List.mem_append_right _ (.head _)
    obtain ⟨first, hHead⟩ := h.head_of_mem hLast
    obtain ⟨nodeLast, hNodeLast⟩ := hStored.present hLast
    obtain ⟨s₁, hNext₁, hq₁, hNextOf₁, hPrevOf₁, hRe₁⟩ :=
      setNext_spec hNodeLast (List.mem_append_left [new] hLast) (some new)
    refine ⟨s₁.setTail (some new), ?_, ?_, ?_, ?_⟩
    · rw [appendCopy, show (s.store new node).q.head = some first from hHead]
      refine (congrArg (fun o : Option Addr => o.bind fun tail =>
        ((s.store new node).setNext tail (some new)).bind fun s => some (s.setTail (some new))) hTail).trans ?_
      exact congrArg (fun o : Option State => o.bind fun s => some (s.setTail (some new))) hNext₁
    · change ({ s₁.q with tail := some new } : LockQueue) = { s.q with head := s₁.q.head, tail := some new }
      rw [hq₁]
      rfl
    · refine hStored.append hNew ?_ ?_ (fun a _ => congrFun hRe₁.item a) ?_ ?_ ?_ ?_
      · change s₁.q.head = _
        rw [hq₁, List.head?_append_of_ne_nil _ (List.ne_nil_of_mem hLast)]
        exact h.head
      · exact (congrFun hRe₁.item new).trans (itemOf_eq hNode)
      · change nextOf s₁.nodes new = none
        rw [hNextOf₁, update_of_ne (hNe last hLast).symm]
        exact nextOf_eq hNode
      · change prevOf s₁.nodes new = _
        rw [hPrevOf₁, prevOf_eq hNode]
        exact h.tail
      · intro a _
        change nextOf s₁.nodes a = _
        rw [hNextOf₁, update_apply, List.getLast?_concat]
        simp only [Option.some_inj, eq_comm]
      · intro a _
        exact congrFun hPrevOf₁ a
    · exact hOnly.trans hRe₁.only

structure Copied (malloc : Malloc) (dataCopy : Option (Data → Data)) (s s' : State) (l' : List Addr)
    (ys zs : List (Index × Data)) (complete : Bool) : Prop where
  fresh : ∀ a ∈ l', s.nodes a = none
  queue : s'.q = { s.q with head := s'.q.head, tail := s'.q.tail }
  length : l'.length ≤ ys.length
  items : complete = true → zs = ys.map fun x => (x.1, (dataCopy.getD id) x.2)
  failed : complete = false → ∃ nodes, malloc nodes = none

theorem copyLoop_spec (hFresh : Fresh malloc) (dataCopy : Option (Data → Data)) {before : Option Addr}
    (hLinks : Segment (nextOf s.nodes) (prevOf s.nodes) before m none)
    (hItems : m.map (itemOf s.nodes) = ys.map some) (hChain : Chain s.nodes s.q.head s.q.tail l xs)
    (hApart : ∀ a ∈ m, a ∉ l) (hRounds : m.length < rounds) :
    ∃ s' complete l' zs, copyLoop malloc dataCopy rounds m.head? s = some (s', complete) ∧
      Chain s'.nodes s'.q.head s'.q.tail (l ++ l') (xs ++ zs) ∧ Only (l ++ l') s.nodes s'.nodes ∧
      Copied malloc dataCopy s s' l' ys zs complete := by
  induction m generalizing s l xs ys rounds before with
  | nil =>
    obtain ⟨rounds, rfl⟩ := Nat.exists_eq_succ_of_ne_zero hRounds.ne'
    obtain rfl : ys = [] := List.map_eq_nil_iff.mp hItems.symm
    refine ⟨s, true, [], [], rfl, ?_, Only.refl, ?_⟩
    · rw [append_nil, append_nil]
      exact hChain
    · exact ⟨fun a ha => absurd ha not_mem_nil, rfl, Nat.le_refl _, fun _ => rfl, by rintro ⟨⟩⟩
  | cons a m ih =>
    obtain ⟨rounds, rfl⟩ := Nat.exists_eq_succ_of_ne_zero (Nat.zero_lt_of_lt hRounds).ne'
    obtain ⟨y, ys, rfl, hItem, hOthers⟩ := List.map_eq_cons_iff.mp hItems.symm
    obtain ⟨node, hNode, rfl⟩ := node_of_item hItem.symm
    obtain ⟨-, hNext, hRest⟩ := hLinks
    rw [nextOf_eq hNode, or_none] at hNext
    rw [List.head?_cons, copyLoop]
    cases hMalloc : malloc s.nodes with
    | none =>
      refine ⟨s, false, [], [], rfl, ?_, Only.refl, ?_⟩
      · rw [append_nil, append_nil]
        exact hChain
      · exact ⟨fun a ha => absurd ha not_mem_nil, rfl, Nat.zero_le _, by rintro ⟨⟩, fun _ => ⟨_, hMalloc⟩⟩
    | some new =>
      have hFree := hFresh _ _ hMalloc
      obtain ⟨s₁, hAppend, hq₁, hChain₁, hOnly₁⟩ :=
        appendCopy_spec hChain hFree ((dataCopy.getD id) node.data) node.index
      -- the nodes that are still to be copied are neither the new one nor copies
      have hKept : ∀ b ∈ a :: m, b ∉ l ++ [new] ∧ s₁.nodes b = s.nodes b := by
        intro b hb
        have hNot : b ∉ l ++ [new] := by
          intro hIn
          obtain hIn | hIn := List.mem_append.mp hIn
          · exact hApart b hb hIn
          · obtain rfl : b = new := List.mem_singleton.mp hIn
            obtain ⟨x, -, hx⟩ := List.mem_map.mp (hItems ▸ List.mem_map_of_mem (f := itemOf s.nodes) hb)
            rw [itemOf, hFree] at hx
            cases hx
        exact ⟨hNot, hOnly₁ b hNot⟩
      have hKeptRest : ∀ b ∈ m, b ∉ l ++ [new] ∧ s₁.nodes b = s.nodes b := fun b hb => hKept b (.tail a hb)
      have hLinks₁ : Segment (nextOf s₁.nodes) (prevOf s₁.nodes) (some a) m none := by
        refine hRest.congr fun b hb => ⟨?_, ?_⟩
        · rw [nextOf, nextOf, (hKeptRest b hb).2]
        · rw [prevOf, prevOf, (hKeptRest b hb).2]
      have hItems₁ : m.map (itemOf s₁.nodes) = ys.map some := by
        rw [hOthers]
        exact List.map_congr_left fun b hb => by rw [itemOf, itemOf, (hKeptRest b hb).2]
      obtain ⟨s', complete, l', zs, hLoop, hChain', hOnly', hCopied⟩ :=
        ih hLinks₁ hItems₁ hChain₁ (fun b hb => (hKeptRest b hb).1) (Nat.lt_of_succ_lt_succ hRounds)
      refine ⟨s', complete, new :: l', (node.index, (dataCopy.getD id) node.data) :: zs, ?_, ?_, ?_, ?_, ?_, ?_, ?_, ?_⟩
      · have hNode₁ : s₁.nodes a = some node := (hKept a (.head _)).2.trans hNode
        simp only [bind_eq_bind, hNode, bind_some, hAppend, hNode₁, hNext, hLoop]
      · rw [append_assoc, append_assoc] at hChain'
        exact hChain'
      · rw [append_assoc] at hOnly'
        refine .trans ?_ hOnly'
        intro b hb
        refine hOnly₁ b fun hIn => hb ?_
        obtain hIn | hIn := List.mem_append.mp hIn
        · exact List.mem_append_left _ hIn
        · exact List.mem_append_right _ (List.mem_singleton.mp hIn ▸ (.head _))
      · intro b hb
        obtain rfl | hb := List.mem_cons.mp hb
        · exact hFree
        · have hNone := hCopied.fresh b hb
          exact (hOnly₁ b (hChain₁.notMem_of_free hNone)).symm.trans hNone
      · rw [hCopied.queue, hq₁]
      · exact Nat.succ_le_succ hCopied.length
      · intro hComplete
        rw [hCopied.items hComplete, List.map_cons]
      · exact hCopied.failed

theorem destroyLoop_spec {before : Option Addr} (hLinks : Segment (nextOf nodes) (prevOf nodes) before l none)
    (hNodup : l.Nodup) (hPresent : ∀ a ∈ l, ∃ node, nodes a = some node) (hRounds : l.length < rounds) :
    ∃ nodes', destroyLoop rounds l.head? nodes = some nodes' ∧ ∀ b, nodes' b = if b ∈ l then none else nodes b := by
  induction l generalizing nodes rounds before with
  | nil =>
    obtain ⟨rounds, rfl⟩ := Nat.exists_eq_succ_of_ne_zero hRounds.ne'
    exact ⟨nodes, rfl, fun b => (if_neg not_mem_nil).symm⟩
  | cons a l ih =>
    obtain ⟨rounds, rfl⟩ := Nat.exists_eq_succ_of_ne_zero (Nat.zero_lt_of_lt hRounds).ne'
    obtain ⟨node, hNode⟩ := hPresent a (.head _)
    obtain ⟨-, hNext, hRest⟩ := hLinks
    rw [nextOf_eq hNode, or_none] at hNext
    obtain ⟨hNotIn, hNodup⟩ := List.nodup_cons.mp hNodup
    have hOthers : ∀ b ∈ l, update nodes a none b = nodes b := by
      intro b hb
      refine update_of_ne ?_ _ _
      rintro rfl
      exact hNotIn hb
    have hRest : Segment (nextOf (update nodes a none)) (prevOf (update nodes a none)) (some a) l none :=
      hRest.congr fun b hb => ⟨by rw [nextOf, nextOf, hOthers b hb], by rw [prevOf, prevOf, hOthers b hb]⟩
    obtain ⟨nodes', hLoop, hNodes⟩ := ih hRest hNodup
      (fun b hb => by rw [hOthers b hb]; exact hPresent b (.tail a hb)) (Nat.lt_of_succ_lt_succ hRounds)
    refine ⟨nodes', ?_, ?_⟩
    · simp only [List.head?_cons, destroyLoop, bind_eq_bind, hNode, bind_some, hNext, hLoop]
    · intro b
      rw [hNodes b, update_apply]
      by_cases hb : b ∈ l
      · rw [if_pos hb, if_pos (.tail a hb)]
      · rw [if_neg hb]
        simp only [List.mem_cons, hb, or_false]

theorem queueCopy_spec (h : Holds src l t) (hFresh : Fresh malloc) (dataCopy : Option (Data → Data)) :
    (queueCopy malloc dataCopy src = some (src.nodes, none) ∧ ∃ nodes, malloc nodes = none) ∨
      ∃ nodes' q l', queueCopy malloc dataCopy src = some (nodes', some q) ∧
        Holds { nodes := nodes', q } l' (t.copied dataCopy) ∧ Only l' src.nodes nodes' ∧
        ∀ a ∈ l', src.nodes a = none := by
  have hEmpty : Chain src.nodes none none [] [] := ⟨nodup_nil, rfl, rfl, trivial, rfl⟩
  obtain ⟨s', complete, l', zs, hLoop, hChain, hOnly, hCopied⟩ :=
    copyLoop_spec (s := { src with q := queueInit }) hFresh dataCopy h.chain.links h.chain.items hEmpty
      (fun a _ => not_mem_nil) h.rounds
  rw [← h.chain.head] at hLoop
  have hChain : Chain s'.nodes s'.q.head s'.q.tail l' zs := hChain
  have hOnly : Only l' src.nodes s'.nodes := hOnly
  cases complete with
  | false =>
    left
    have hRounds : l'.length < src.rounds := by
      rw [State.rounds, h.size]
      exact Nat.lt_succ_of_le hCopied.length
    obtain ⟨nodes', hDestroy, hNodes⟩ :=
      destroyLoop_spec hChain.links hChain.nodup (fun a ha => hChain.present ha) hRounds
    rw [← hChain.head] at hDestroy
    have hSame : nodes' = src.nodes := by
      funext b
      rw [hNodes b]
      by_cases hb : b ∈ l'
      · rw [if_pos hb, hCopied.fresh b hb]
      · rw [if_neg hb, hOnly b hb]
    refine ⟨?_, hCopied.failed rfl⟩
    rw [hSame] at hDestroy
    simp only [queueCopy, bind_eq_bind, hLoop, bind_some, hDestroy, Bool.false_eq_true, if_false]
  | true =>
    right
    obtain rfl := hCopied.items rfl
    refine ⟨s'.nodes, { s'.q with size := src.q.size, nextIndex := src.q.nextIndex }, l', ?_, ?_, hOnly, hCopied.fresh⟩
    · simp only [queueCopy, bind_eq_bind, hLoop, bind_some, if_true]
    · have hIndices : (t.copied dataCopy).indices = t.indices := by
        rw [Table.indices, Table.copied, List.map_map]
        rfl
      refine ⟨hChain, ?_, h.next, hIndices ▸ h.distinct, hIndices ▸ h.below, ?_⟩
      · exact h.size.trans (List.length_map ..).symm
      · intro c hc
        have hCursor : s'.q.rrCursor = none := by
          rw [hCopied.queue]
          rfl
        cases hCursor.symm.trans hc

end

structure World where
  nodes : Nodes
  queues : Addr → Option LockQueue

/-- What `malloc` answers during one call. -/
structure Supply where
  node : Malloc
  queue : (Addr → Option LockQueue) → Option Addr

inductive Call
  | enqueue (data : Data)
  | enqueueLowest (data : Data)
  | enqueueId (data : Data) (id : Index)
  | enqueueRef (data : Data)
  | removeAt (index : Index)
  | removeData (data : Data)
  | removeNode (node : Addr)
  | dequeue

inductive Op
  | init
  | use (q : Addr) (call : Call)
  | copy (src : Addr) (dataCopy : Option (Data → Data))

inductive Ret
  | index (index : Index)
  | ref (index : Index) (node : Option Addr)
  | data (data : Data)
  | queue (q : Option Addr)

def Call.run (malloc : Malloc) (s : State) : Call → Option (State × Ret)
  | .enqueue data => (queueEnqueue malloc data s).map fun r => (r.1, .index r.2)
  | .enqueueLowest data => (queueEnqueueLowest malloc data s).map fun r => (r.1, .index r.2)
  | .enqueueId data id => (queueEnqueueId malloc data id s).map fun r => (r.1, .index r.2)
  | .enqueueRef data => (queueEnqueueRef malloc data s).map fun r => (r.1, .ref r.2.1 r.2.2)
  | .removeAt index => (queueRemoveAt index s).map fun r => (r.1, .data r.2)
  | .removeData data => (queueRemoveData data s).map fun r => (r.1, .data r.2)
  | .removeNode node => (queueRemoveNode node s).map fun r => (r.1, .data r.2)
  | .dequeue => (queueDequeue s).map fun r => (r.1, .data r.2)

def World.set (w : World) (q : Addr) (s : State) : World where
  nodes := s.nodes
  queues := update w.queues q (some s.q)

def World.step (w : World) (supply : Supply) : Op → Option (World × Ret)
  | .init =>
    match supply.queue w.queues with
    | none => some (w, .queue none)
    | some q => some (w.set q { nodes := w.nodes, q := queueInit }, .queue (some q))
  | .use q call => do
    let queue ← w.queues q
    let (s, r) ← call.run supply.node { nodes := w.nodes, q := queue }
    some (w.set q s, r)
  | .copy src dataCopy => do
    let queue ← w.queues src
    match supply.queue w.queues with
    | none => some (w, .queue none)
    | some q => do
      match ← queueCopy supply.node dataCopy { nodes := w.nodes, q := queue } with
      | (nodes, some copy) => some (w.set q { nodes, q := copy }, .queue (some q))
      | (nodes, none) => some ({ w with nodes }, .queue none)

inductive Member (nodes : Nodes) : Option Addr → Addr → Prop
  | here {a : Addr} : Member nodes (some a) a
  | later {a b : Addr} {node : LockNode} : nodes b = some node → Member nodes node.next a → Member nodes (some b) a

/-- What callers keep to: the queue is there, and a node to take out is a member of it. -/
def Op.Ok (w : World) : Op → Prop
  | .init => True
  | .use q call => ∃ queue, w.queues q = some queue ∧ ∀ a, call = .removeNode a → Member w.nodes queue.head a
  | .copy src _ => ∃ queue, w.queues src = some queue

structure Supply.Ok (supply : Supply) : Prop where
  node : Fresh supply.node
  queue : ∀ queues q, supply.queue queues = some q → queues q = none

inductive Reachable : World → Prop
  | start (nodes : Nodes) : Reachable { nodes, queues := fun _ => none }
  | step {w w' : World} {r : Ret} (supply : Supply) (op : Op) :
      Reachable w → supply.Ok → op.Ok w → w.step supply op = some (w', r) → Reachable w'

def World.table (w : World) (q : Addr) : Option Table := do
  let queue ← w.queues q
  let items ← State.items { nodes := w.nodes, q := queue }
  some { items, next := queue.nextIndex }

/-- What a call is meant to do to the table `t` of its queue. -/
def Call.Does (malloc : Malloc) (nodes nodes' : Nodes) (t t' : Table) (r : Ret) : Call → Prop
  | .enqueue d =>
    if malloc nodes = none ∨ t.next = noIndex then t' = t ∧ r = .index noIndex
    else t' = t.put t.next d ∧ r = .index t.next
  | .enqueueLowest d => ∃ i, IsLeast {j | j ∉ t.indices} i ∧
    if malloc nodes = none ∨ i = noIndex then t' = t ∧ r = .index noIndex else t' = t.put i d ∧ r = .index i
  | .enqueueId d i =>
    if malloc nodes = none ∨ i = noIndex ∨ i ∈ t.indices then t' = t ∧ r = .index noIndex
    else t' = t.put i d ∧ r = .index i
  | .enqueueRef d =>
    if malloc nodes = none ∨ t.next = noIndex then t' = t ∧ r = .ref noIndex none
    else t' = t.put t.next d ∧ ∃ a, r = .ref t.next (some a) ∧ itemOf nodes' a = some (t.next, d)
  | .removeAt i => t' = t.without (atIndex i) ∧ r = .data (t.first (atIndex i))
  | .removeData d =>
    if d = 0 then t' = t ∧ r = .data 0 else t' = t.without (ofData d) ∧ r = .data (t.first (ofData d))
  | .removeNode a => ∃ i d, itemOf nodes a = some (i, d) ∧ (i, d) ∈ t.items ∧ t' = t.without (atIndex i) ∧ r = .data d
  | .dequeue => t' = { t with items := t.items.tail } ∧ r = .data ((t.items.head?.map Prod.snd).getD 0)

def World.Others (w w' : World) (q : Addr) : Prop := ∀ q', q' ≠ q → w'.table q' = w.table q'

def Op.Does (supply : Supply) (w w' : World) (r : Ret) : Op → Prop
  | .init =>
    (supply.queue w.queues = none ∧ w' = w ∧ r = .queue none) ∨
      ∃ q, r = .queue (some q) ∧ w.queues q = none ∧ w'.table q = some Table.empty ∧ w.Others w' q
  | .use q call => ∃ t t', w.table q = some t ∧ w'.table q = some t' ∧
    call.Does supply.node w.nodes w'.nodes t t' r ∧ w.Others w' q
  | .copy src dataCopy =>
    ((supply.queue w.queues = none ∨ ∃ nodes, supply.node nodes = none) ∧ w' = w ∧ r = .queue none) ∨
      ∃ q t, r = .queue (some q) ∧ w.queues q = none ∧ w.table src = some t ∧
        w'.table q = some (t.copied dataCopy) ∧ w.Others w' q

structure World.Sound (w : World) (nodesOf : Addr → List Addr) (tableOf : Addr → Table) : Prop where
  holds : ∀ q queue, w.queues q = some queue → Holds { nodes := w.nodes, q := queue } (nodesOf q) (tableOf q)
  apart : ∀ q q', q ≠ q' → w.queues q ≠ none → w.queues q' ≠ none → (nodesOf q).Disjoint (nodesOf q')

section

variable {w w' : World} {s s' : State} {nodesOf : Addr → List Addr} {tableOf : Addr → Table} {l l' : List Addr}
  {t t' : Table} {q a : Addr} {queue : LockQueue} {supply : Supply} {r : Ret} {nodes : Nodes} {head : Option Addr}

theorem Holds.frame (h : Holds s l t) (hq : s'.q = s.q) (hSame : ∀ a ∈ l, s'.nodes a = s.nodes a) : Holds s' l t := by
  refine ⟨?_, hq ▸ h.size, hq ▸ h.next, h.distinct, h.below, hq ▸ h.cursor⟩
  rw [hq]
  exact h.chain.frame hSame

theorem Holds.present (h : Holds s l t) (ha : a ∈ l) : s.nodes a ≠ none := by
  obtain ⟨node, hNode⟩ := h.chain.present ha
  rw [hNode]
  exact some_ne_none node

theorem World.Sound.table (h : w.Sound nodesOf tableOf) (hq : w.queues q = some queue) :
    w.table q = some (tableOf q) := by
  have hHolds := h.holds q queue hq
  have hNext : queue.nextIndex = (tableOf q).next := hHolds.next
  simp only [World.table, bind_eq_bind, hq, bind_some, hHolds.items, hNext]

theorem World.Sound.set (h : w.Sound nodesOf tableOf) (hHolds : Holds s l' t')
    (hLocal : Local { s with nodes := w.nodes } s l l')
    (hOwn : ∀ q', q' ≠ q → w.queues q' ≠ none → l.Disjoint (nodesOf q')) :
    (w.set q s).Sound (update nodesOf q l') (update tableOf q t') ∧
      (w.set q s).table q = some t' ∧ w.Others (w.set q s) q := by
  have hHere : (w.set q s).queues q = some s.q := update_self ..
  have hThere : ∀ q', q' ≠ q → (w.set q s).queues q' = w.queues q' := fun q' hq' => update_of_ne hq' _ _
  have hApart : ∀ q', q' ≠ q → w.queues q' ≠ none → l'.Disjoint (nodesOf q') := by
    intro q' hq' hSome a ha haOther
    obtain ⟨queue, hQueue⟩ := Option.ne_none_iff_exists'.mp hSome
    obtain hOld | hFree := hLocal.fresh a ha
    · exact hOwn q' hq' hSome hOld haOther
    · exact (h.holds q' queue hQueue).present haOther hFree
  have hFrame : ∀ q', q' ≠ q → ∀ queue, w.queues q' = some queue →
      Holds { nodes := (w.set q s).nodes, q := queue } (nodesOf q') (tableOf q') := by
    intro q' hq' queue hQueue
    have hSome : w.queues q' ≠ none := by
      rw [hQueue]
      exact some_ne_none queue
    refine (h.holds q' queue hQueue).frame rfl fun a ha => hLocal.only a fun hIn => ?_
    obtain hIn | hIn := List.mem_append.mp hIn
    · exact hOwn q' hq' hSome hIn ha
    · exact hApart q' hq' hSome hIn ha
  have hSound : (w.set q s).Sound (update nodesOf q l') (update tableOf q t') := by
    constructor
    · intro q' queue hQueue
      by_cases hq' : q' = q
      · subst hq'
        cases hHere.symm.trans hQueue
        rw [update_self, update_self]
        exact hHolds
      · rw [update_of_ne hq', update_of_ne hq']
        rw [hThere q' hq'] at hQueue
        exact hFrame q' hq' queue hQueue
    · intro q₁ q₂ hNe h₁ h₂
      by_cases hq₁ : q₁ = q
      · subst hq₁
        rw [update_self, update_of_ne hNe.symm]
        rw [hThere q₂ hNe.symm] at h₂
        exact hApart q₂ hNe.symm h₂
      · rw [update_of_ne hq₁]
        rw [hThere q₁ hq₁] at h₁
        by_cases hq₂ : q₂ = q
        · subst hq₂
          rw [update_self]
          exact (hApart q₁ hq₁ h₁).symm
        · rw [update_of_ne hq₂]
          rw [hThere q₂ hq₂] at h₂
          exact h.apart q₁ q₂ hNe h₁ h₂
  refine ⟨hSound, ?_, ?_⟩
  · rw [hSound.table hHere, update_self]
  · intro q' hq'
    cases hQueue : w.queues q' with
    | none =>
      simp only [World.table, hThere q' hq', hQueue]
      rfl
    | some queue =>
      rw [hSound.table ((hThere q' hq').trans hQueue), update_of_ne hq', h.table hQueue]

theorem mem_of_member {before : Option Addr} (hLinks : Segment (nextOf nodes) (prevOf nodes) before l none)
    (hMember : Member nodes head a) (hHead : head = l.head?) : a ∈ l := by
  induction hMember generalizing l before with
  | here => exact List.mem_of_head? hHead.symm
  | later hNode _ ih =>
    cases l with
    | nil => exact nomatch hHead
    | cons b l =>
      obtain ⟨-, hNext, hRest⟩ := hLinks
      cases hHead
      rw [nextOf_eq hNode, or_none] at hNext
      exact .tail _ (ih hRest hNext)

theorem Ends.map {ρ : Type} {run : Option (State × ρ)} {post : State → Table → ρ → Prop} {f : ρ → Ret}
    {post' : State → Table → Ret → Prop} (h : Ends s l run post) (hPost : ∀ s' t' r, post s' t' r → post' s' t' (f r)) :
    Ends s l (run.map fun r => (r.1, f r.2)) post' := by
  obtain ⟨s', r, l', t', rfl, hHolds, hLocal, hDone⟩ := h
  exact ⟨s', f r, l', t', rfl, hHolds, hLocal, hPost s' t' r hDone⟩

theorem done_map {ρ : Type} {full : Prop} [Decidable full] {t₀ t' : Table} {r r₀ r' : ρ} (f : ρ → Ret)
    (h : if full then t' = t ∧ r = r₀ else t' = t₀ ∧ r = r') :
    if full then t' = t ∧ f r = f r₀ else t' = t₀ ∧ f r = f r' := by
  split at h
  · next hFull =>
    rw [if_pos hFull]
    exact ⟨h.1, congrArg f h.2⟩
  · next hRoom =>
    rw [if_neg hRoom]
    exact ⟨h.1, congrArg f h.2⟩

theorem Call.run_ends {malloc : Malloc} (h : Holds s l t) (hFresh : Fresh malloc) (call : Call)
    (hMember : ∀ a, call = .removeNode a → a ∈ l) :
    Ends s l (call.run malloc s) fun s' t' r => call.Does malloc s.nodes s'.nodes t t' r := by
  cases call with
  | enqueue d =>
    have hRun : Call.run malloc s (.enqueue d) = (enqueueNext malloc d s).map fun r => (r.1, .index r.2.1) := by
      rw [Call.run, queueEnqueue]
      cases enqueueNext malloc d s with
      | none => rfl
      | some r => rfl
    rw [hRun]
    refine (enqueueNext_spec h hFresh d).map (f := fun r => Ret.index r.1) ?_
    intro s' t' r hDone
    simp only [Call.Does]
    split at hDone
    · next hFull =>
      obtain ⟨rfl, rfl⟩ := hDone
      rw [if_pos hFull]
      exact ⟨rfl, rfl⟩
    · next hRoom =>
      obtain ⟨rfl, a, rfl, -⟩ := hDone
      rw [if_neg hRoom]
      exact ⟨rfl, rfl⟩
  | enqueueLowest d =>
    refine (queueEnqueueLowest_spec h hFresh d).map ?_
    rintro - t' r ⟨i, hLeast, hDone⟩
    exact ⟨i, hLeast, done_map Ret.index hDone⟩
  | enqueueId d i =>
    exact (queueEnqueueId_spec h hFresh d i).map fun s' t' r hDone => done_map Ret.index hDone
  | enqueueRef d =>
    refine (enqueueNext_spec h hFresh d).map (f := fun r => Ret.ref r.1 r.2) ?_
    intro s' t' r hDone
    simp only [Call.Does]
    split at hDone
    · next hFull =>
      obtain ⟨rfl, rfl⟩ := hDone
      rw [if_pos hFull]
      exact ⟨rfl, rfl⟩
    · next hRoom =>
      obtain ⟨rfl, a, rfl, hItem⟩ := hDone
      rw [if_neg hRoom]
      exact ⟨rfl, a, rfl, hItem⟩
  | removeAt i =>
    refine (removeFound_ends h (fun node => node.index = i) (atIndex i) fun _ => rfl).map ?_
    rintro s' t' r ⟨rfl, rfl⟩
    exact ⟨rfl, rfl⟩
  | removeData d =>
    rw [Call.run, queueRemoveData]
    simp only [Call.Does]
    by_cases hNull : d = 0
    · simp only [if_pos hNull]
      exact h.ends ⟨rfl, rfl⟩
    · simp only [if_neg hNull]
      refine (removeFound_ends h (fun node => node.data = d) (ofData d) fun _ => rfl).map ?_
      rintro - t' r ⟨rfl, rfl⟩
      exact ⟨rfl, rfl⟩
  | removeNode a =>
    obtain ⟨i, d, hItem, hMem, hEnds⟩ := queueRemoveNode_spec h (hMember a rfl)
    refine hEnds.map ?_
    rintro s' t' r ⟨rfl, rfl⟩
    exact ⟨i, r, hItem, hMem, rfl, rfl⟩
  | dequeue =>
    refine (queueDequeue_ends h).map ?_
    rintro s' t' r ⟨rfl, rfl⟩
    exact ⟨rfl, rfl⟩

theorem World.Sound.step (h : w.Sound nodesOf tableOf) (hSupply : supply.Ok) {op : Op} (hOk : op.Ok w) :
    ∃ w' r, w.step supply op = some (w', r) ∧ op.Does supply w w' r ∧
      ∃ nodesOf' tableOf', w'.Sound nodesOf' tableOf' := by
  cases op with
  | init =>
    cases hNew : supply.queue w.queues with
    | none =>
      refine ⟨w, .queue none, ?_, Or.inl ⟨hNew, rfl, rfl⟩, nodesOf, tableOf, h⟩
      simp only [World.step, hNew]
    | some q =>
      have hEmpty : Holds { nodes := w.nodes, q := queueInit } [] Table.empty :=
        ⟨⟨nodup_nil, rfl, rfl, trivial, rfl⟩, rfl, rfl, nodup_nil, fun i hi => absurd hi not_mem_nil, nofun⟩
      obtain ⟨hSound, hTable, hOthers⟩ := h.set (q := q) (l := []) hEmpty
        ⟨Only.refl, fun a ha => absurd ha not_mem_nil⟩ (fun q' _ _ => List.disjoint_nil_left _)
      refine ⟨_, .queue (some q), ?_, Or.inr ⟨q, rfl, hSupply.queue _ _ hNew, hTable, hOthers⟩, _, _, hSound⟩
      simp only [World.step, hNew]
  | use q call =>
    obtain ⟨queue, hQueue, hMember⟩ := hOk
    have hHolds := h.holds q queue hQueue
    obtain ⟨s', r, l', t', hRun, hHolds', hLocal, hDone⟩ := call.run_ends hHolds hSupply.node fun a ha =>
      mem_of_member hHolds.chain.links (hMember a ha) hHolds.chain.head
    have hSome : w.queues q ≠ none := by
      rw [hQueue]
      exact some_ne_none queue
    obtain ⟨hSound, hTable, hOthers⟩ := h.set hHolds' { hLocal with }
      (fun q' hq' hSome' => h.apart q q' hq'.symm hSome hSome')
    refine ⟨w.set q s', r, ?_, ⟨tableOf q, t', h.table hQueue, hTable, hDone, hOthers⟩, _, _, hSound⟩
    simp only [World.step, bind_eq_bind, hQueue, bind_some, hRun]
  | copy src dataCopy =>
    obtain ⟨queue, hQueue⟩ := hOk
    cases hNew : supply.queue w.queues with
    | none =>
      refine ⟨w, .queue none, ?_, Or.inl ⟨Or.inl hNew, rfl, rfl⟩, nodesOf, tableOf, h⟩
      simp only [World.step, bind_eq_bind, hQueue, bind_some, hNew]
    | some q =>
      rcases queueCopy_spec (h.holds src queue hQueue) hSupply.node dataCopy with
        ⟨hCopy, hFailed⟩ | ⟨nodes', copy, l', hCopy, hHolds', hOnly, hFree⟩
      · refine ⟨w, .queue none, ?_, Or.inl ⟨Or.inr hFailed, rfl, rfl⟩, nodesOf, tableOf, h⟩
        simp only [World.step, bind_eq_bind, hQueue, bind_some, hNew, hCopy]
      · obtain ⟨hSound, hTable, hOthers⟩ := h.set (q := q) (l := []) hHolds'
          ⟨hOnly, fun a ha => Or.inr (hFree a ha)⟩ (fun q' _ _ => List.disjoint_nil_left _)
        refine ⟨_, .queue (some q), ?_, Or.inr ⟨q, tableOf src, rfl, hSupply.queue _ _ hNew, h.table hQueue, hTable,
          hOthers⟩, _, _, hSound⟩
        simp only [World.step, bind_eq_bind, hQueue, bind_some, hNew, hCopy]

theorem Reachable.sound (h : Reachable w) : ∃ nodesOf tableOf, w.Sound nodesOf tableOf := by
  induction h with
  | start nodes => exact ⟨fun _ => [], fun _ => Table.empty, nofun, fun q q' _ hSome _ => absurd rfl hSome⟩
  | step supply op _ hSupply hOk hStep ih =>
    obtain ⟨nodesOf, tableOf, hSound⟩ := ih
    obtain ⟨w', r, hStep', -, hSound'⟩ := hSound.step hSupply hOk
    obtain ⟨rfl, rfl⟩ := Prod.mk.inj (Option.some.inj (hStep'.symm.trans hStep))
    exact hSound'

/-- In every run the nodes of each queue are in order and stand for its table, the calls look up and change
the table as they are meant to, and no call goes wrong. -/
theorem queues_are_maps (h : Reachable w) :
    (∃ nodesOf tableOf, w.Sound nodesOf tableOf ∧ ∀ q queue, w.queues q = some queue →
      w.table q = some (tableOf q) ∧
        (∀ i d, (i, d) ∈ (tableOf q).items → queueGet i { nodes := w.nodes, q := queue } = some d) ∧
        ∀ i, i ∉ (tableOf q).indices → queueGet i { nodes := w.nodes, q := queue } = some 0) ∧
      ∀ supply op, supply.Ok → op.Ok w → ∃ w' r, w.step supply op = some (w', r) ∧ op.Does supply w w' r := by
  obtain ⟨nodesOf, tableOf, hSound⟩ := h.sound
  refine ⟨⟨nodesOf, tableOf, hSound, fun q queue hQueue => ?_⟩, fun supply op hSupply hOk => ?_⟩
  · have hHolds := hSound.holds q queue hQueue
    refine ⟨hSound.table hQueue, ?_, ?_⟩
    · intro i d hMem
      rw [queueGet_spec hHolds, first_of_mem hHolds.distinct hMem]
    · intro i hUnused
      rw [queueGet_spec hHolds, Table.first, find?_atIndex_eq_none_iff.mpr hUnused]
      rfl
  · obtain ⟨w', r, hStep, hDone, -⟩ := hSound.step hSupply hOk
    exact ⟨w', r, hStep, hDone⟩

end

def smallSupply : Supply where
  node nodes := if (nodes 1).isNone then some 1 else if (nodes 2).isNone then some 2 else none
  queue queues := if (queues 5).isNone then some 5 else none

theorem smallSupply_ok : smallSupply.Ok := by
  constructor
  · intro nodes a ha
    simp only [smallSupply] at ha
    split at ha
    · next hFree =>
      cases ha
      exact Option.isNone_iff_eq_none.mp hFree
    · split at ha
      · next hFree =>
        cases ha
        exact Option.isNone_iff_eq_none.mp hFree
      · exact nomatch ha
  · intro queues q hq
    simp only [smallSupply] at hq
    split at hq
    · next hFree =>
      cases hq
      exact Option.isNone_iff_eq_none.mp hFree
    · exact nomatch hq

theorem reachable_small : ∃ w queue, Reachable w ∧ w.queues 5 = some queue ∧
    w.table 5 = some { items := [(0, 7)], next := 1 } := by
  have hStart := Reachable.start fun _ => none
  have hInit := hStart.step smallSupply .init smallSupply_ok trivial rfl
  have hPut := hInit.step smallSupply (.use 5 (.enqueueLowest 7)) smallSupply_ok ⟨_, rfl, nofun⟩ rfl
  exact ⟨_, _, hPut, rfl, rfl⟩

theorem queues_are_maps_small : ∃ (w : World) (queue : LockQueue), w.table 5 = some { items := [(0, 7)], next := 1 } ∧
    w.queues 5 = some queue ∧ queueGet 0 { nodes := w.nodes, q := queue } = some 7 := by
  obtain ⟨w, queue, hReach, hQueue, hTable⟩ := reachable_small
  obtain ⟨nodesOf, tableOf, -, hHolds⟩ := (queues_are_maps hReach).1
  obtain ⟨hSame, hGet, -⟩ := hHolds 5 queue hQueue
  refine ⟨w, queue, hTable, hQueue, hGet 0 7 ?_⟩
  rw [← Option.some.inj (hTable.symm.trans hSame)]
  exact .head _

end OpenXJ380.Queues
