import OpenXJ380.Lib.Segments
import OpenXJ380.Queues.Model

/-! # The nodes of a queue

The nodes in order with the indices and the data they stand for. Putting in and taking out
change the links of neighbours, and searches go through the nodes in order.
-/

namespace OpenXJ380.Queues

open Option (bind_eq_bind bind_some or_none some_inj)
open Function
open List (length_map map_append mem_append_right)

open LinkedList

def nextOf (nodes : Nodes) (a : Addr) : Option Addr := (nodes a).bind LockNode.next

def prevOf (nodes : Nodes) (a : Addr) : Option Addr := (nodes a).bind LockNode.prev

def itemOf (nodes : Nodes) (a : Addr) : Option (Index × Data) := (nodes a).map fun node => (node.index, node.data)

/-- The nodes `l` between head and tail stand for `xs`. -/
structure Chain (nodes : Nodes) (head tail : Option Addr) (l : List Addr) (xs : List (Index × Data)) : Prop where
  nodup : l.Nodup
  head : head = l.head?
  tail : tail = l.getLast?
  links : Segment (nextOf nodes) (prevOf nodes) none l none
  items : l.map (itemOf nodes) = xs.map some

def Only (l : List Addr) (nodes nodes' : Nodes) : Prop := ∀ b, b ∉ l → nodes' b = nodes b

variable {nodes nodes' : Nodes} {s s' : State} {head tail : Option Addr} {l l₁ l₂ : List Addr}
  {xs xs₁ xs₂ : List (Index × Data)} {x : Index × Data} {a b new : Addr} {node : LockNode} {rounds : Nat}

theorem nextOf_eq (h : nodes a = some node) : nextOf nodes a = node.next := by rw [nextOf, h]; rfl

theorem prevOf_eq (h : nodes a = some node) : prevOf nodes a = node.prev := by rw [prevOf, h]; rfl

theorem itemOf_eq (h : nodes a = some node) : itemOf nodes a = some (node.index, node.data) := by rw [itemOf, h]; rfl

theorem node_of_item (h : itemOf nodes a = some x) : ∃ node, nodes a = some node ∧ (node.index, node.data) = x :=
  Option.map_eq_some_iff.mp h

theorem Only.trans (h : Only l nodes nodes') {nodes'' : Nodes} (h' : Only l nodes' nodes'') : Only l nodes nodes'' :=
  fun b hb => (h' b hb).trans (h b hb)

theorem Only.update (h : Only l nodes nodes') (ha : a ∈ l) (node : Option LockNode) :
    Only l nodes (update nodes' a node) := by
  intro b hb
  have hNe : b ≠ a := by
    rintro rfl
    exact hb ha
  exact (update_of_ne hNe _ _).trans (h b hb)

theorem Only.refl : Only l nodes nodes := fun _ _ => rfl

structure Relinked (l : List Addr) (nodes nodes' : Nodes) : Prop where
  item : itemOf nodes' = itemOf nodes
  only : Only l nodes nodes'

theorem Relinked.trans (h : Relinked l nodes nodes') {nodes'' : Nodes} (h' : Relinked l nodes' nodes'') :
    Relinked l nodes nodes'' := ⟨h'.item.trans h.item, h.only.trans h'.only⟩

theorem relinked_store (h : s.nodes a = some node) (ha : a ∈ l) {new : LockNode} (hIndex : new.index = node.index)
    (hData : new.data = node.data) : Relinked l s.nodes (s.store a new).nodes := by
  refine ⟨?_, Only.refl.update ha _⟩
  funext b
  by_cases hb : b = a
  · have hNew : (s.store a new).nodes a = some new := update_self ..
    rw [hb, itemOf_eq h, itemOf_eq hNew, hIndex, hData]
  · rw [itemOf, itemOf]
    exact congrArg _ (update_of_ne hb _ _)

theorem setNext_spec (h : s.nodes a = some node) (ha : a ∈ l) (n : Option Addr) :
    ∃ s', s.setNext a n = some s' ∧ s'.q = s.q ∧ nextOf s'.nodes = update (nextOf s.nodes) a n ∧
      prevOf s'.nodes = prevOf s.nodes ∧ Relinked l s.nodes s'.nodes := by
  refine ⟨s.store a { node with next := n }, ?_, rfl, ?_, ?_, relinked_store h ha rfl rfl⟩
  · rw [State.setNext, h]
    rfl
  · exact comp_update (fun v : Option LockNode => v.bind LockNode.next) s.nodes a _
  · refine (comp_update (fun v : Option LockNode => v.bind LockNode.prev) s.nodes a _).trans ?_
    exact Function.update_eq_self_iff.mpr (prevOf_eq h).symm

theorem setPrev_spec (h : s.nodes a = some node) (ha : a ∈ l) (n : Option Addr) :
    ∃ s', s.setPrev a n = some s' ∧ s'.q = s.q ∧ nextOf s'.nodes = nextOf s.nodes ∧
      prevOf s'.nodes = update (prevOf s.nodes) a n ∧ Relinked l s.nodes s'.nodes := by
  refine ⟨s.store a { node with prev := n }, ?_, rfl, ?_, ?_, relinked_store h ha rfl rfl⟩
  · rw [State.setPrev, h]
    rfl
  · refine (comp_update (fun v : Option LockNode => v.bind LockNode.next) s.nodes a _).trans ?_
    exact Function.update_eq_self_iff.mpr (nextOf_eq h).symm
  · exact comp_update (fun v : Option LockNode => v.bind LockNode.prev) s.nodes a _

section

variable (h : Chain nodes head tail l xs)

include h

theorem Chain.present (ha : a ∈ l) : ∃ node, nodes a = some node := by
  have hMem := List.mem_map_of_mem (f := itemOf nodes) ha
  rw [h.items] at hMem
  obtain ⟨x, -, hx⟩ := List.mem_map.mp hMem
  obtain ⟨node, hNode, -⟩ := node_of_item hx.symm
  exact ⟨node, hNode⟩

theorem Chain.notMem_of_free (hFree : nodes new = none) : new ∉ l := by
  intro hIn
  obtain ⟨node, hNode⟩ := h.present hIn
  rw [hFree] at hNode
  exact nomatch hNode

theorem Chain.head_of_mem (ha : a ∈ l) : ∃ first, head = some first := by
  rw [h.head]
  exact Option.isSome_iff_exists.mp (List.isSome_head?.mpr (List.ne_nil_of_mem ha))

theorem Chain.length : l.length = xs.length := by
  have hLength := congrArg List.length h.items
  rwa [length_map, length_map] at hLength

theorem Chain.frame (hSame : ∀ a ∈ l, nodes' a = nodes a) :
    Chain nodes' head tail l xs where
  __ := h
  links := h.links.congr fun a ha => ⟨by rw [nextOf, nextOf, hSame a ha], by rw [prevOf, prevOf, hSame a ha]⟩
  items := by
    rw [← h.items]
    exact List.map_congr_left fun a ha => by rw [itemOf, itemOf, hSame a ha]

end

theorem present_of_relinked (h : Relinked l nodes nodes') (hNode : ∃ node, nodes a = some node) :
    ∃ node, nodes' a = some node := by
  obtain ⟨node, hNode⟩ := hNode
  have hItem := itemOf_eq hNode
  rw [← h.item] at hItem
  obtain ⟨node', hNode', -⟩ := node_of_item hItem
  exact ⟨node', hNode'⟩

theorem Chain.nodeAt (h : Chain nodes head tail (l₁ ++ a :: l₂) (xs₁ ++ x :: xs₂)) (hLength : l₁.length = xs₁.length) :
    ∃ node, nodes a = some node ∧ (node.index, node.data) = x ∧ node.prev = l₁.getLast? ∧ node.next = l₂.head? := by
  have hItems := h.items
  rw [map_append, map_append] at hItems
  obtain ⟨-, hRest⟩ := List.append_inj hItems (by rw [length_map, length_map, hLength])
  obtain ⟨node, hNode, hItem⟩ := node_of_item (List.cons.inj hRest).1
  obtain ⟨hPrev, hNext⟩ := h.links.middle
  rw [prevOf_eq hNode] at hPrev
  rw [nextOf_eq hNode] at hNext
  exact ⟨node, hNode, hItem, hPrev, hNext⟩

theorem Chain.append (h : Chain nodes head tail l xs) (hNew : new ∉ l) {head' : Option Addr}
    (hHead : head' = (l ++ [new]).head?) (hItem : itemOf nodes' new = some x)
    (hItems : ∀ a ∈ l, itemOf nodes' a = itemOf nodes a) (hNextNew : nextOf nodes' new = none)
    (hPrevNew : prevOf nodes' new = l.getLast?)
    (hNext : ∀ a ∈ l, nextOf nodes' a = if l.getLast? = some a then some new else nextOf nodes a)
    (hPrev : ∀ a ∈ l, prevOf nodes' a = prevOf nodes a) :
    Chain nodes' head' (some new) (l ++ [new]) (xs ++ [x]) where
  nodup := List.nodup_append.mpr ⟨h.nodup, List.nodup_singleton new, fun a ha b hb => by
    rintro rfl
    exact hNew (List.mem_singleton.mp hb ▸ ha)⟩
  head := hHead
  tail := List.getLast?_concat.symm
  links := by
    rw [segment_append]
    refine ⟨h.links.setAfter h.nodup ?_ ?_ hPrev, ?_, hNextNew, trivial⟩
    · intro a ha
      rw [hNext a (List.mem_of_getLast? ha), if_pos ha]
      rfl
    · intro a ha hNotLast
      rw [hNext a ha, if_neg hNotLast]
    · rw [hPrevNew, or_none]
  items := by
    rw [map_append, map_append, List.map_singleton, hItem, ← h.items, List.map_congr_left hItems]
    rfl

@[simp] theorem counted_nodes (s : State) : s.counted.nodes = s.nodes := by
  rw [State.counted]
  split
  · rfl
  · rfl

structure Counted (q q' : LockQueue) : Prop where
  head : q'.head = q.head
  tail : q'.tail = q.tail
  nextIndex : q'.nextIndex = q.nextIndex
  size : q'.size = q.size + 1
  cursor : q'.rrCursor = if q.rrCursor = none then q.head else q.rrCursor

theorem counted_q (s : State) : Counted s.q s.counted.q := by
  rw [State.counted]
  split
  · next h => exact ⟨rfl, rfl, rfl, rfl, (if_pos h).symm⟩
  · next h => exact ⟨rfl, rfl, rfl, rfl, (if_neg h).symm⟩

structure Grown (q q' : LockQueue) : Prop where
  size : q'.size = q.size + 1
  nextIndex : q'.nextIndex = q.nextIndex
  cursor : q'.rrCursor = if q.rrCursor = none then q'.head else q.rrCursor

theorem Counted.grown {q q₁ q' : LockQueue} {head tail : Option Addr} (h : Counted q₁ q')
    (hRest : q₁ = { q with head := head, tail := tail }) : Grown q q' := by
  subst hRest
  exact { h with cursor := by rw [h.cursor, h.head] }

theorem queueAppendNode_spec (h : Chain s.nodes s.q.head s.q.tail l xs) (hNew : new ∉ l)
    (hNode : s.nodes new = some node) :
    ∃ s', queueAppendNode s new = some s' ∧
      Chain s'.nodes s'.q.head s'.q.tail (l ++ [new]) (xs ++ [(node.index, node.data)]) ∧
      Grown s.q s'.q ∧ Only (l ++ [new]) s.nodes s'.nodes := by
  have hIn : new ∈ l ++ [new] := mem_append_right _ (.head _)
  have hNe : ∀ a ∈ l, a ≠ new := by
    rintro a ha rfl
    exact hNew ha
  obtain ⟨s₁, hNext₁, hq₁, hNextOf₁, hPrevOf₁, hRe₁⟩ := setNext_spec hNode hIn none
  obtain ⟨node₁, hNode₁⟩ := present_of_relinked hRe₁ ⟨node, hNode⟩
  obtain rfl | ⟨l, last, rfl⟩ := List.eq_nil_or_concat l
  · have hHead : s₁.q.head = none := by
      rw [hq₁, h.head]
      rfl
    obtain ⟨s₂, hPrev₂, hq₂, hNextOf₂, hPrevOf₂, hRe₂⟩ := setPrev_spec hNode₁ hIn none
    have hRe := hRe₁.trans hRe₂
    have hCount := counted_q ((s₂.setHead (some new)).setTail (some new))
    refine ⟨((s₂.setHead (some new)).setTail (some new)).counted, ?_, ?_, ?_, ?_⟩
    · simp only [queueAppendNode, bind_eq_bind, hNext₁, bind_some, hHead, hPrev₂]
    · rw [hCount.tail, hCount.head, counted_nodes]
      refine h.append hNew rfl ?_ (fun a ha => nomatch ha) ?_ ?_ (fun a ha => nomatch ha) (fun a ha => nomatch ha)
      · exact (congrFun hRe.item new).trans (itemOf_eq hNode)
      · change nextOf s₂.nodes new = none
        rw [hNextOf₂, hNextOf₁, update_self]
      · change prevOf s₂.nodes new = none
        rw [hPrevOf₂, update_self]
    · have hq : s₂.q = s.q := hq₂.trans hq₁
      exact hCount.grown (by rw [← hq]; rfl)
    · rw [counted_nodes]
      exact hRe.only
  · rw [List.concat_eq_append] at *
    have hTail : s.q.tail = some last := h.tail.trans List.getLast?_concat
    have hLast : last ∈ l ++ [last] := mem_append_right _ (.head _)
    obtain ⟨first, hHead⟩ := h.head_of_mem hLast
    obtain ⟨s₂, hPrev₂, hq₂, hNextOf₂, hPrevOf₂, hRe₂⟩ := setPrev_spec hNode₁ hIn s₁.q.tail
    obtain ⟨nodeLast, hNodeLast⟩ := present_of_relinked (hRe₁.trans hRe₂) (h.present hLast)
    obtain ⟨s₃, hNext₃, hq₃, hNextOf₃, hPrevOf₃, hRe₃⟩ :=
      setNext_spec hNodeLast (List.mem_append_left [new] hLast) (some new)
    have hRe := (hRe₁.trans hRe₂).trans hRe₃
    have hq : s₃.q = s.q := hq₃.trans (hq₂.trans hq₁)
    have hCount := counted_q (s₃.setTail (some new))
    refine ⟨(s₃.setTail (some new)).counted, ?_, ?_, ?_, ?_⟩
    · simp only [queueAppendNode, bind_eq_bind, hNext₁, bind_some, hq₁, hHead]
      rw [hq₁] at hPrev₂
      rw [hPrev₂, bind_some, hq₂, hq₁, hTail, bind_some, hNext₃, bind_some]
    · rw [hCount.tail, hCount.head, counted_nodes]
      change Chain s₃.nodes s₃.q.head (some new) _ _
      have hNext : ∀ a ∈ l ++ [last], nextOf s₃.nodes a = if a = last then some new else nextOf s.nodes a := by
        intro a ha
        rw [hNextOf₃, hNextOf₂, hNextOf₁, update_apply, update_of_ne (hNe a ha)]
      have hPrev : prevOf s₃.nodes = update (prevOf s.nodes) new (some last) := by
        rw [hPrevOf₃, hPrevOf₂, hPrevOf₁, hq₁, hTail]
      refine h.append hNew ?_ ?_ (fun a _ => congrFun hRe.item a) ?_ ?_ ?_ ?_
      · rw [hq, h.head, List.head?_append_of_ne_nil _ (List.ne_nil_of_mem hLast)]
      · exact (congrFun hRe.item new).trans (itemOf_eq hNode)
      · rw [hNextOf₃, update_of_ne (hNe last hLast).symm, hNextOf₂, hNextOf₁, update_self]
      · rw [hPrev, update_self, List.getLast?_concat]
      · intro a ha
        rw [hNext a ha, List.getLast?_concat]
        simp only [some_inj, eq_comm]
      · intro a ha
        rw [hPrev, update_of_ne (hNe a ha)]
    · exact hCount.grown (by rw [← hq]; rfl)
    · rw [counted_nodes]
      exact hRe.only

theorem linkNext_spec {prev : Option Addr} (h : ∀ p, prev = some p → p ∈ l ∧ ∃ node, s.nodes p = some node)
    (next : Option Addr) :
    ∃ s', s.linkNext prev next = some s' ∧
      s'.q = { s.q with head := if prev = none then next else s.q.head } ∧
      (∀ b, nextOf s'.nodes b = if prev = some b then next else nextOf s.nodes b) ∧
      prevOf s'.nodes = prevOf s.nodes ∧ Relinked l s.nodes s'.nodes := by
  cases prev with
  | none => exact ⟨s.setHead next, rfl, rfl, fun b => (if_neg nofun).symm, rfl, rfl, Only.refl⟩
  | some p =>
    obtain ⟨hMem, node, hNode⟩ := h p rfl
    obtain ⟨s', hSet, hq, hNext, hPrev, hRe⟩ := setNext_spec hNode hMem next
    refine ⟨s', hSet, hq, ?_, hPrev, hRe⟩
    intro b
    rw [hNext, update_apply]
    simp only [some_inj, eq_comm]

theorem linkPrev_spec {next : Option Addr} (h : ∀ n, next = some n → n ∈ l ∧ ∃ node, s.nodes n = some node)
    (prev : Option Addr) :
    ∃ s', s.linkPrev next prev = some s' ∧
      s'.q = { s.q with tail := if next = none then prev else s.q.tail } ∧
      nextOf s'.nodes = nextOf s.nodes ∧
      (∀ b, prevOf s'.nodes b = if next = some b then prev else prevOf s.nodes b) ∧ Relinked l s.nodes s'.nodes := by
  cases next with
  | none => exact ⟨s.setTail prev, rfl, rfl, rfl, fun b => (if_neg nofun).symm, rfl, Only.refl⟩
  | some n =>
    obtain ⟨hMem, node, hNode⟩ := h n rfl
    obtain ⟨s', hSet, hq, hNext, hPrev, hRe⟩ := setPrev_spec hNode hMem prev
    refine ⟨s', hSet, hq, hNext, ?_, hRe⟩
    intro b
    rw [hPrev, update_apply]
    simp only [some_inj, eq_comm]

theorem Chain.unlink (h : Chain s.nodes s.q.head s.q.tail (l₁ ++ a :: l₂) (xs₁ ++ x :: xs₂))
    (hLength : l₁.length = xs₁.length) (hNode : s.nodes a = some node) :
    ∃ s₁ s₂, s.linkNext node.prev node.next = some s₁ ∧ s₁.linkPrev node.next node.prev = some s₂ ∧
      s₂.q = { s.q with head := s₂.q.head, tail := s₂.q.tail } ∧
      Chain (s₂.free a).nodes s₂.q.head s₂.q.tail (l₁ ++ l₂) (xs₁ ++ xs₂) ∧
      Only (l₁ ++ a :: l₂) s.nodes (s₂.free a).nodes := by
  obtain ⟨node', hNode', -, hPrev, hNext⟩ := h.nodeAt hLength
  obtain rfl : node' = node := Option.some.inj (hNode'.symm.trans hNode)
  obtain ⟨hLeft, hRight, hApart⟩ := List.nodup_append.mp h.nodup
  have hMem₁ : ∀ b ∈ l₁, b ∈ l₁ ++ a :: l₂ := fun b hb => List.mem_append_left _ hb
  have hMem₂ : ∀ b ∈ l₂, b ∈ l₁ ++ a :: l₂ := fun b hb => mem_append_right _ (.tail a hb)
  have hPrevIn : ∀ p, node'.prev = some p → p ∈ l₁ ++ a :: l₂ :=
    fun p hp => hMem₁ p (List.mem_of_getLast? (hPrev.symm.trans hp))
  have hNextIn : ∀ n, node'.next = some n → n ∈ l₁ ++ a :: l₂ :=
    fun n hn => hMem₂ n (List.mem_of_head? (hNext.symm.trans hn))
  obtain ⟨s₁, hLink₁, hq₁, hNextOf₁, hPrevOf₁, hRe₁⟩ :=
    linkNext_spec (fun p hp => ⟨hPrevIn p hp, h.present (hPrevIn p hp)⟩) node'.next
  obtain ⟨s₂, hLink₂, hq₂, hNextOf₂, hPrevOf₂, hRe₂⟩ := linkPrev_spec
    (fun n hn => ⟨hNextIn n hn, present_of_relinked hRe₁ (h.present (hNextIn n hn))⟩) node'.prev
  have hRe := hRe₁.trans hRe₂
  have hNe : ∀ b ∈ l₁ ++ l₂, b ≠ a := by
    intro b hb
    obtain hb | hb := List.mem_append.mp hb
    · exact hApart b hb a (.head _)
    · rintro rfl
      exact (List.nodup_cons.mp hRight).1 hb
  have hFreed : ∀ b ∈ l₁ ++ l₂, (s₂.free a).nodes b = s₂.nodes b := fun b hb => update_of_ne (hNe b hb) _ _
  refine ⟨s₁, s₂, hLink₁, hLink₂, ?_, ?_, ?_⟩
  · rw [hq₂, hq₁]
  · refine .frame ?_ hFreed
    constructor
    · exact List.nodup_append.mpr ⟨hLeft, (List.nodup_cons.mp hRight).2, fun b hb c hc => hApart b hb c (.tail a hc)⟩
    · rw [hq₂, hq₁]
      change (if node'.prev = none then node'.next else s.q.head) = _
      rw [hPrev, hNext, h.head, List.head?_append, List.head?_append]
      cases l₁ with
      | nil => rfl
      | cons b l => rw [List.getLast?_cons, if_neg nofun]; rfl
    · rw [hq₂, hq₁]
      change (if node'.next = none then node'.prev else s.q.tail) = _
      rw [hPrev, hNext, h.tail, List.getLast?_append, List.getLast?_append, List.getLast?_cons]
      cases l₂ with
      | nil => rfl
      | cons b l => rw [if_neg nofun, List.getLast?_cons]; rfl
    · refine h.links.remove h.nodup ?_ ?_
      · intro b _
        rw [hNextOf₂, hNextOf₁, hPrev, hNext]
      · intro b _
        rw [hPrevOf₂, hPrevOf₁, hPrev, hNext]
    · have hItems := h.items
      rw [map_append, map_append] at hItems
      obtain ⟨hItems₁, hRest⟩ := List.append_inj hItems (by rw [length_map, length_map, hLength])
      rw [hRe.item, map_append, map_append, hItems₁, (List.cons.inj hRest).2]
  · exact hRe.only.update (mem_append_right _ (.head _)) none

structure Shrunk (l l' : List Addr) (q q' : LockQueue) : Prop where
  size : q'.size = q.size - 1
  nextIndex : q'.nextIndex = q.nextIndex
  cursor : (∀ c, q.rrCursor = some c → c ∈ l) → ∀ c, q'.rrCursor = some c → c ∈ l'

theorem leave_spec (s : State) (a : Addr) (next nextCursor : Option Addr) :
    (s.leave a next nextCursor).nodes = s.nodes ∧
      (s.leave a next nextCursor).q =
        { s.q with
          tail := if s.q.head = none then none else s.q.tail
          rrCursor := (s.leave a next nextCursor).q.rrCursor } ∧
      ∀ c, (s.leave a next nextCursor).q.rrCursor = some c →
        s.q.head ≠ none ∧
          (next.or s.q.head = some c ∨ nextCursor.or s.q.head = some c ∨ s.q.rrCursor = some c ∧ c ≠ a) := by
  rw [State.leave]
  by_cases hHere : s.q.rrCursor = some a
  · have hHead : (s.setCursor (next.or s.q.head)).q.head = s.q.head := rfl
    rw [if_pos hHere, hHead]
    by_cases hEmpty : s.q.head = none
    · rw [if_pos hEmpty, if_pos hEmpty]
      exact ⟨rfl, rfl, nofun⟩
    · rw [if_neg hEmpty, if_neg hEmpty]
      split
      · exact ⟨rfl, rfl, fun c hc => ⟨hEmpty, .inr (.inl hc)⟩⟩
      · exact ⟨rfl, rfl, fun c hc => ⟨hEmpty, .inl hc⟩⟩
  · rw [if_neg hHere]
    by_cases hEmpty : s.q.head = none
    · rw [if_pos hEmpty, if_pos hEmpty]
      exact ⟨rfl, rfl, nofun⟩
    · rw [if_neg hEmpty, if_neg hEmpty]
      split
      · exact ⟨rfl, rfl, fun c hc => ⟨hEmpty, .inr (.inl hc)⟩⟩
      · refine ⟨rfl, rfl, fun c hc => ⟨hEmpty, .inr (.inr ⟨hc, ?_⟩)⟩⟩
        rintro rfl
        exact hHere hc

theorem queueRemoveLocked_spec (h : Chain s.nodes s.q.head s.q.tail (l₁ ++ a :: l₂) (xs₁ ++ x :: xs₂))
    (hLength : l₁.length = xs₁.length) :
    ∃ s', queueRemoveLocked s a = some (s', x.2) ∧
      Chain s'.nodes s'.q.head s'.q.tail (l₁ ++ l₂) (xs₁ ++ xs₂) ∧
      Shrunk (l₁ ++ a :: l₂) (l₁ ++ l₂) s.q s'.q ∧ Only (l₁ ++ a :: l₂) s.nodes s'.nodes := by
  obtain ⟨node, hNode, rfl, -, hNext⟩ := h.nodeAt hLength
  obtain ⟨s₁, s₂, hLink₁, hLink₂, hq, hChain, hOnly⟩ := h.unlink hLength hNode
  obtain ⟨hNodes, hLeave, hCursor⟩ := leave_spec s₂ a node.next (node.next.or s.q.head)
  have hDrop : ((s₂.leave a node.next (node.next.or s.q.head)).drop a).nodes = (s₂.free a).nodes := by
    change update (s₂.leave a node.next (node.next.or s.q.head)).nodes a none = _
    rw [hNodes]
    rfl
  have hHead : ((s₂.leave a node.next (node.next.or s.q.head)).drop a).q.head = s₂.q.head := by
    change (s₂.leave a node.next (node.next.or s.q.head)).q.head = _
    rw [hLeave]
  have hTail : ((s₂.leave a node.next (node.next.or s.q.head)).drop a).q.tail = s₂.q.tail := by
    change (s₂.leave a node.next (node.next.or s.q.head)).q.tail = _
    rw [hLeave]
    split
    · next hEmpty =>
      rw [hChain.tail, List.head?_eq_none_iff.mp (hChain.head.symm.trans hEmpty)]
      rfl
    · rfl
  refine ⟨(s₂.leave a node.next (node.next.or s.q.head)).drop a, ?_, ?_, ?_, ?_⟩
  · simp only [queueRemoveLocked, bind_eq_bind, hNode, bind_some, hLink₁, hLink₂]
  · rw [hDrop, hHead, hTail]
    exact hChain
  · constructor
    · change (s₂.leave a node.next (node.next.or s.q.head)).q.size - 1 = _
      rw [hLeave, hq]
    · change (s₂.leave a node.next (node.next.or s.q.head)).q.nextIndex = _
      rw [hLeave, hq]
    · intro hOld c hc
      obtain ⟨hSome, hFrom⟩ := hCursor c hc
      have hNextIn : ∀ d, l₂.head? = some d → d ∈ l₁ ++ l₂ := fun d hd =>
        mem_append_right _ (List.mem_of_head? hd)
      have hHeadIn : ∀ d, s₂.q.head = some d → d ∈ l₁ ++ l₂ := fun d hd =>
        List.mem_of_head? (hChain.head.symm.trans hd)
      have hNextOr : ∀ d, node.next.or s₂.q.head = some d → d ∈ l₁ ++ l₂ := by
        intro d hd
        obtain hd | ⟨-, hd⟩ := Option.or_eq_some_iff.mp hd
        · exact hNextIn d (hNext.symm.trans hd)
        · exact hHeadIn d hd
      obtain hFrom | hFrom | ⟨hFrom, hNe⟩ := hFrom
      · exact hNextOr c hFrom
      · rw [Option.or_assoc] at hFrom
        obtain hFrom | ⟨hNone, hFrom⟩ := Option.or_eq_some_iff.mp hFrom
        · exact hNextIn c (hNext.symm.trans hFrom)
        -- the old head is the node itself only where no node is left
        · cases l₁ with
          | nil =>
            refine absurd (hChain.head.trans ?_) hSome
            exact hNext.symm.trans hNone
          | cons b l =>
            have hHeadOld : s.q.head = some b := h.head
            rw [hHeadOld, Option.some_or] at hFrom
            exact Option.some.inj hFrom ▸ (.head _)
      · rw [hq] at hFrom
        obtain hIn | hIn := List.mem_append.mp (hOld c hFrom)
        · exact List.mem_append_left _ hIn
        · exact mem_append_right _ ((List.mem_cons.mp hIn).resolve_left hNe)
  · rw [hDrop]
    exact hOnly

theorem queueDequeue_spec (h : Chain s.nodes s.q.head s.q.tail (a :: l) (x :: xs)) :
    ∃ s', queueDequeue s = some (s', x.2) ∧ Chain s'.nodes s'.q.head s'.q.tail l xs ∧
      Shrunk (a :: l) l s.q s'.q ∧ Only (a :: l) s.nodes s'.nodes := by
  have hFirst : Chain s.nodes s.q.head s.q.tail ([] ++ a :: l) ([] ++ x :: xs) := h
  obtain ⟨node, hNode, rfl, hPrev, -⟩ := hFirst.nodeAt rfl
  obtain ⟨s₁, s₂, hLink₁, hLink₂, hq, hChain, hOnly⟩ := hFirst.unlink rfl hNode
  have hPrev : node.prev = none := hPrev
  rw [hPrev] at hLink₁ hLink₂
  obtain rfl : s.setHead node.next = s₁ := Option.some.inj hLink₁
  have hHead : s.q.head = some a := h.head
  let s₃ := if s₂.q.rrCursor = some a then s₂.setCursor s₂.q.head else s₂
  have hNodes : s₃.nodes = s₂.nodes := by
    simp only [s₃]
    split
    · rfl
    · rfl
  have hq₃ : s₃.q = { s₂.q with rrCursor := if s₂.q.rrCursor = some a then s₂.q.head else s₂.q.rrCursor } := by
    simp only [s₃]
    split
    · rfl
    · rfl
  refine ⟨s₃.drop a, ?_, ?_, ?_, ?_⟩
  · simp only [queueDequeue, hHead, bind_eq_bind, hNode, bind_some]
    cases hNext : node.next with
    | none =>
      rw [hNext] at hLink₂
      cases hLink₂
      rfl
    | some n =>
      rw [hNext] at hLink₂
      exact congrArg (fun o : Option State => o.bind fun s =>
        some ((if s.q.rrCursor = some a then s.setCursor s.q.head else s).drop a, node.data)) hLink₂
  · change Chain (update s₃.nodes a none) s₃.q.head s₃.q.tail l xs
    rw [hNodes, hq₃]
    exact hChain
  · constructor
    · change s₃.q.size - 1 = _
      rw [hq₃, hq]
    · change s₃.q.nextIndex = _
      rw [hq₃, hq]
    · intro hOld c hc
      have hc : s₃.q.rrCursor = some c := hc
      rw [hq₃] at hc
      change (if s₂.q.rrCursor = some a then s₂.q.head else s₂.q.rrCursor) = some c at hc
      split at hc
      · exact List.mem_of_head? (hChain.head.symm.trans hc)
      · next hNe =>
        rw [hc] at hNe
        rw [hq] at hc
        exact (List.mem_cons.mp (hOld c hc)).resolve_left fun h => hNe (congrArg some h)
  · change Only _ _ (update s₃.nodes a none)
    rw [hNodes]
    exact hOnly

structure FirstAt (p : Index × Data → Prop) (l₁ : List Addr) (a : Addr) (l₂ : List Addr)
    (xs₁ : List (Index × Data)) (x : Index × Data) (xs₂ : List (Index × Data)) (l : List Addr)
    (xs : List (Index × Data)) : Prop where
  nodes : l = l₁ ++ a :: l₂
  items : xs = xs₁ ++ x :: xs₂
  length : l₁.length = xs₁.length
  here : p x
  before : ∀ y ∈ xs₁, ¬p y

theorem findNode_spec {kind : LockNode → Bool} {p : Index × Data → Prop}
    (hKind : ∀ node, kind node ↔ p (node.index, node.data)) {before : Option Addr}
    (hLinks : Segment (nextOf nodes) (prevOf nodes) before l none) (hItems : l.map (itemOf nodes) = xs.map some)
    (hRounds : l.length < rounds) :
    findNode nodes kind rounds l.head? = some none ∧ (∀ x ∈ xs, ¬p x) ∨
      ∃ l₁ a l₂ xs₁ x xs₂, FirstAt p l₁ a l₂ xs₁ x xs₂ l xs ∧ findNode nodes kind rounds l.head? = some (some a) := by
  induction l generalizing xs rounds before with
  | nil =>
    obtain ⟨rounds, rfl⟩ := Nat.exists_eq_succ_of_ne_zero hRounds.ne'
    obtain rfl : xs = [] := List.map_eq_nil_iff.mp hItems.symm
    exact .inl ⟨rfl, fun x hx => nomatch hx⟩
  | cons a l ih =>
    obtain ⟨rounds, rfl⟩ := Nat.exists_eq_succ_of_ne_zero (Nat.zero_lt_of_lt hRounds).ne'
    obtain ⟨x, xs, rfl, hItem, hOthers⟩ := List.map_eq_cons_iff.mp hItems.symm
    obtain ⟨node, hNode, rfl⟩ := node_of_item hItem.symm
    obtain ⟨-, hNext, hRest⟩ := hLinks
    rw [nextOf_eq hNode, or_none] at hNext
    have hStep : findNode nodes kind (rounds + 1) (a :: l).head? =
        if kind node then some (some a) else findNode nodes kind rounds l.head? := by
      rw [List.head?_cons, findNode, hNode, ← hNext]
      rfl
    rw [hStep]
    by_cases hHere : kind node
    · right
      rw [if_pos hHere]
      exact ⟨[], a, l, [], _, xs, ⟨rfl, rfl, rfl, (hKind node).mp hHere, fun y hy => nomatch hy⟩, rfl⟩
    · rw [if_neg hHere]
      have hNot : ¬p (node.index, node.data) := fun h => hHere ((hKind node).mpr h)
      rcases ih hRest hOthers.symm (Nat.lt_of_succ_lt_succ hRounds) with
        ⟨hNone, hAll⟩ | ⟨l₁, b, l₂, xs₁, y, xs₂, hFirst, hFound⟩
      · exact .inl ⟨hNone, List.forall_mem_cons.mpr ⟨hNot, hAll⟩⟩
      · refine .inr ⟨a :: l₁, b, l₂, (node.index, node.data) :: xs₁, y, xs₂, ⟨?_, ?_, ?_, hFirst.here, ?_⟩, hFound⟩
        · rw [hFirst.nodes, List.cons_append]
        · rw [hFirst.items, List.cons_append]
        · rw [List.length_cons, List.length_cons, hFirst.length]
        · exact List.forall_mem_cons.mpr ⟨hNot, hFirst.before⟩

theorem foreachNode_spec {before : Option Addr} (hLinks : Segment (nextOf nodes) (prevOf nodes) before l none)
    (hItems : l.map (itemOf nodes) = xs.map some) (hRounds : l.length < rounds) :
    foreachNode nodes rounds l.head? = some xs := by
  induction l generalizing xs rounds before with
  | nil =>
    obtain ⟨rounds, rfl⟩ := Nat.exists_eq_succ_of_ne_zero hRounds.ne'
    obtain rfl : xs = [] := List.map_eq_nil_iff.mp hItems.symm
    rfl
  | cons a l ih =>
    obtain ⟨rounds, rfl⟩ := Nat.exists_eq_succ_of_ne_zero (Nat.zero_lt_of_lt hRounds).ne'
    obtain ⟨x, xs, rfl, hItem, hOthers⟩ := List.map_eq_cons_iff.mp hItems.symm
    obtain ⟨node, hNode, rfl⟩ := node_of_item hItem.symm
    obtain ⟨-, hNext, hRest⟩ := hLinks
    rw [nextOf_eq hNode, or_none] at hNext
    have hStep := ih hRest hOthers.symm (Nat.lt_of_succ_lt_succ hRounds)
    simp only [List.head?_cons, foreachNode, bind_eq_bind, hNode, bind_some, hNext, hStep]

end OpenXJ380.Queues
