import Mathlib.Algebra.Group.Nat.Defs
import Mathlib.Data.List.TakeWhile
import OpenXJ380.Lib.Transition

/-! # Messages to a process (`kernel/task/ipc.cpp`, `kernel/lock_queue.cpp`)

The message queue of one process. A call is given which of its calls of `malloc`
have memory, in their order.
-/

namespace OpenXJ380.Ipc

open Transition

structure Contents where
  pid : Int
  type : BitVec 8
  data : Vector (BitVec 8) 64
deriving DecidableEq

structure IpcMessage extends Contents where
  index : Nat

structure LockNode where
  data : IpcMessage
  index : Nat

structure LockQueue where
  nodes : List LockNode
  size : Nat
  nextIndex : Nat
  counted : size = nodes.length

def queueInit : LockQueue := ⟨[], 0, 0, rfl⟩

/-- `(size_t)-1`. -/
def noIndex : Nat := 2 ^ 64 - 1

def queueAppendNode (q : LockQueue) (data : IpcMessage) : LockQueue where
  nodes := q.nodes ++ [⟨data, q.nextIndex⟩]
  size := q.size + 1
  nextIndex := q.nextIndex + 1
  counted := by rw [List.length_append, q.counted, List.length_singleton]

/-- `node` says whether `malloc` has memory for a node. -/
def lockQueueEnqueue (q : LockQueue) (data : IpcMessage) (node : Bool) : LockQueue × Nat :=
  if node = false then (q, noIndex)
  else if q.nextIndex = noIndex then (q, noIndex)
  else (queueAppendNode q data, q.nextIndex)

def queueDequeue (q : LockQueue) : LockQueue × Option IpcMessage :=
  match h : q.nodes with
  | [] => (q, none)
  | temp :: nodes => (⟨nodes, q.size - 1, q.nextIndex, by rw [q.counted, h, List.length_cons, Nat.add_sub_cancel]⟩, some temp.data)

/-- `message->index = lock_queue_enqueue(queue, message)`, where the message is in the queue already. -/
def enqueueMessage (q : LockQueue) (message : IpcMessage) (node : Bool) : LockQueue :=
  (lockQueueEnqueue q { message with index := (lockQueueEnqueue q message node).2 } node).1

def ipcSend (q : LockQueue) (message : IpcMessage) (node : Bool) : LockQueue := enqueueMessage q message node

/-- The loop of `ipc_recv`; the size never grows, so it ends within as many rounds as there are messages. -/
def recvLoop (type : BitVec 8) : Nat → Nat → (Nat → Bool) → LockQueue → LockQueue × Option IpcMessage
  | 0, _, _, q => (q, none)
  | rounds + 1, i, node, q =>
    if i < q.size then
      match queueDequeue q with
      | (q, none) => (q, none)
      | (q, some message) =>
        if message.type = type then (q, some message)
        else recvLoop type rounds (i + 1) (fun k => node (k + 1)) (enqueueMessage q message (node 0))
    else (q, none)

def ipcRecv (type : BitVec 8) (node : Nat → Bool) (q : LockQueue) : LockQueue × Option IpcMessage :=
  recvLoop type q.size 0 node q

/-- The loop of `ipc_free_type`, with the messages that it frees. -/
def freeLoop (type : BitVec 8) : Nat → Nat → (Nat → Bool) → LockQueue → LockQueue × List IpcMessage
  | 0, _, _, q => (q, [])
  | rounds + 1, i, node, q =>
    if i < q.size then
      match queueDequeue q with
      | (q, none) => (q, [])
      | (q, some message) =>
        if message.type = type then
          let rest := freeLoop type rounds (i + 1) node q
          (rest.1, message :: rest.2)
        else freeLoop type rounds (i + 1) (fun k => node (k + 1)) (enqueueMessage q message (node 0))
    else (q, [])

def ipcFreeType (type : BitVec 8) (node : Nat → Bool) (q : LockQueue) : LockQueue × List IpcMessage :=
  freeLoop type q.size 0 node q

inductive Label where
  | send (message : IpcMessage) (node : Bool)
  | recv (type : BitVec 8) (node : Nat → Bool) (received : Option Contents)
  | freeType (type : BitVec 8) (node : Nat → Bool) (freed : List Contents)

inductive Step : LockQueue → Label → LockQueue → Prop
  | send {q : LockQueue} (message : IpcMessage) (node : Bool) : Step q (.send message node) (ipcSend q message node)
  | recv {q : LockQueue} (type : BitVec 8) (node : Nat → Bool) :
      Step q (.recv type node ((ipcRecv type node q).2.map IpcMessage.toContents)) (ipcRecv type node q).1
  | freeType {q : LockQueue} (type : BitVec 8) (node : Nat → Bool) :
      Step q (.freeType type node ((ipcFreeType type node q).2.map IpcMessage.toContents)) (ipcFreeType type node q).1

def ipcSystem : System LockQueue Label where
  step := Step

def LockQueue.contents (q : LockQueue) : List Contents := q.nodes.map fun n => n.data.toContents

def Label.sent (type : BitVec 8) : Label → List Contents
  | .send message _ => if message.type = type then [message.toContents] else []
  | .recv _ _ _ => []
  | .freeType _ _ _ => []

def Label.taken (type : BitVec 8) : Label → List Contents
  | .send _ _ => []
  | .recv t _ received => if t = type then received.toList else []
  | .freeType t _ freed => if t = type then freed else []

def sentOf (type : BitVec 8) (labels : List Label) : List Contents := labels.flatMap (Label.sent type)

/-- The messages that calls for a type returned or freed, in the order of the calls. -/
def takenOf (type : BitVec 8) (labels : List Label) : List Contents := labels.flatMap (Label.taken type)

/-! # Messages in their order

`ipc_recv` turns the queue up to the first message of the type, `ipc_free_type` as
far as its rounds go. What has been turned is behind what has not.
-/

open List (append_assoc append_nil cons_append filter_append filter_cons_of_neg filter_cons_of_pos length_append
  length_cons map_cons nil_append)

variable {q : LockQueue} {type : BitVec 8} {node : Nat → Bool}

def OfType (type : BitVec 8) (message : Contents) : Bool := message.type = type

def Other (type : BitVec 8) (message : Contents) : Bool := message.type ≠ type

def Served (q : LockQueue) (node : Nat → Bool) (n : Nat) : Prop := (∀ k < n, node k = true) ∧ q.nextIndex + n ≤ noIndex

def Apart (l m : List Contents) : Prop := ∀ x ∈ l, ∀ y ∈ m, x.type ≠ y.type

theorem size_eq (q : LockQueue) : q.size = q.contents.length := by
  rw [q.counted, LockQueue.contents, List.length_map]

theorem enqueueMessage_contents {message : IpcMessage} {b : Bool} (hNode : b) (hIndex : q.nextIndex < noIndex) :
    (enqueueMessage q message b).contents = q.contents ++ [message.toContents] ∧
      (enqueueMessage q message b).nextIndex = q.nextIndex + 1 := by
  have hNot : ¬ b = false := by
    rw [hNode]
    exact Bool.noConfusion
  rw [enqueueMessage, lockQueueEnqueue, if_neg hNot, if_neg hIndex.ne]
  refine ⟨?_, rfl⟩
  simp only [LockQueue.contents, queueAppendNode, List.map_append, map_cons, List.map_nil]

theorem queueDequeue_contents {message : Contents} {rest : List Contents} (hContents : q.contents = message :: rest) :
    ∃ q' m, queueDequeue q = (q', some m) ∧ m.toContents = message ∧ q'.contents = rest ∧ q'.nextIndex = q.nextIndex := by
  rw [LockQueue.contents] at hContents
  obtain ⟨n, nodes, hNodes, hHead, hTail⟩ := List.map_eq_cons_iff.mp hContents
  obtain ⟨l, size, nextIndex, counted⟩ := q
  simp only at hNodes
  subst hNodes
  exact ⟨_, n.data, rfl, hHead, hTail, rfl⟩

variable {rounds i : Nat} {l : List Contents} {q' : LockQueue}

theorem recvLoop_contents (rest : List Contents) {seen : List Contents} (hContents : q.contents = rest ++ seen)
    (hSeen : i = seen.length) (hRounds : rest.length ≤ rounds)
    (hServed : Served q node (rest.takeWhile (Other type)).length) : (recvLoop type rounds i node q).1.contents =
        (rest.dropWhile (Other type)).tail ++ seen ++ rest.takeWhile (Other type) ∧
      (recvLoop type rounds i node q).2.map IpcMessage.toContents = (rest.dropWhile (Other type)).head? := by
  induction rest generalizing seen rounds i q node with
  | nil =>
    have hEnd : ¬ i < q.size := by
      rw [size_eq, hContents, hSeen, nil_append]
      exact lt_irrefl _
    cases rounds with
    | zero => exact ⟨hContents.trans (append_nil _).symm, rfl⟩
    | succ rounds =>
      rw [recvLoop, if_neg hEnd]
      exact ⟨hContents.trans (append_nil _).symm, rfl⟩
  | cons message rest ih =>
    cases rounds with
    | zero => exact absurd hRounds (Nat.not_succ_le_zero _)
    | succ rounds =>
      rw [cons_append] at hContents
      have hMore : i < q.size := by
        rw [size_eq, hContents, hSeen, length_cons, length_append]
        omega
      obtain ⟨q', m, hDequeue, hMessage, hRest, hIndex⟩ := queueDequeue_contents hContents
      rw [recvLoop, if_pos hMore, hDequeue]
      simp only
      by_cases hType : m.type = type
      · have hOther : Other type message = false := by
          rw [Other, ← hMessage]
          exact decide_eq_false (not_not.mpr hType)
        rw [if_pos hType, List.dropWhile_cons_of_neg (by rw [hOther]; exact Bool.noConfusion),
          List.takeWhile_cons_of_neg (by rw [hOther]; exact Bool.noConfusion)]
        constructor
        · rw [hRest, List.tail_cons, append_nil]
        · rw [List.head?_cons, ← hMessage]
          rfl
      · have hOther : Other type message := by
          rw [Other, ← hMessage]
          exact decide_eq_true hType
        rw [if_neg hType, List.dropWhile_cons_of_pos hOther, List.takeWhile_cons_of_pos hOther]
        rw [List.takeWhile_cons_of_pos hOther, length_cons] at hServed
        obtain ⟨hNodes, hBound⟩ := hServed
        obtain ⟨hEnqueued, hNext⟩ := @enqueueMessage_contents q' m (node 0) (hNodes 0 (Nat.succ_pos _)) (by omega)
        have hQueue : (enqueueMessage q' m (node 0)).contents = rest ++ (seen ++ [message]) := by
          rw [hEnqueued, hRest, hMessage, append_assoc]
        have hSeen' : i + 1 = (seen ++ [message]).length := by rw [length_append, hSeen, List.length_singleton]
        obtain ⟨hAfter, hAnswer⟩ := ih hQueue hSeen' (Nat.le_of_succ_le_succ hRounds)
          ⟨fun k hk => hNodes (k + 1) (Nat.succ_lt_succ hk), by omega⟩
        refine ⟨?_, hAnswer⟩
        rw [hAfter]
        simp only [append_assoc, cons_append, nil_append]

theorem ipcRecv_contents (hServed : Served q node (q.contents.takeWhile (Other type)).length) :
    (ipcRecv type node q).1.contents = (q.contents.dropWhile (Other type)).tail ++ q.contents.takeWhile (Other type) ∧
      (ipcRecv type node q).2.map IpcMessage.toContents = (q.contents.dropWhile (Other type)).head? := by
  have h := recvLoop_contents q.contents (append_nil _).symm rfl (size_eq q).symm.le hServed
  rwa [append_nil] at h

/-- The messages that `ipc_free_type` looks at: one of the type takes two from what is left of the size, any other one. -/
def examined (type : BitVec 8) : Nat → List Contents → List Contents
  | 0, _ => []
  | _, [] => []
  | left + 1, message :: rest => message :: examined type (if message.type = type then left - 1 else left) rest

theorem freeLoop_end (hEnd : ¬ i < q.size) : freeLoop type rounds i node q = (q, []) := by
  cases rounds with
  | zero => rfl
  | succ rounds => rw [freeLoop, if_neg hEnd]

theorem freeLoop_contents (rest : List Contents) {kept : List Contents} {left : Nat}
    (hContents : q.contents = rest ++ kept) (hSeen : kept.length ≤ i) (hLeft : left = q.size - i)
    (hRounds : left ≤ rounds) (hServed : Served q node ((examined type left rest).filter (Other type)).length) :
    (freeLoop type rounds i node q).1.contents =
        rest.drop (examined type left rest).length ++ kept ++ (examined type left rest).filter (Other type) ∧
      (freeLoop type rounds i node q).2.map IpcMessage.toContents = (examined type left rest).filter (OfType type) := by
  induction rest generalizing kept rounds i left q node with
  | nil =>
    have hSize : q.size ≤ i := by
      rw [size_eq, hContents, nil_append]
      exact hSeen
    have hNone : examined type left [] = [] := by cases left <;> rfl
    rw [freeLoop_end (not_lt.mpr hSize), hNone]
    exact ⟨hContents.trans (append_nil _).symm, rfl⟩
  | cons message rest ih =>
    cases left with
    | zero =>
      rw [freeLoop_end (by omega)]
      exact ⟨hContents.trans (append_nil _).symm, rfl⟩
    | succ left =>
      cases rounds with
      | zero => exact absurd hRounds (Nat.not_succ_le_zero _)
      | succ rounds =>
        have hMore : i < q.size := by omega
        rw [cons_append] at hContents
        obtain ⟨q', m, hDequeue, hMessage, hRest, hIndex⟩ := queueDequeue_contents hContents
        have hSize : q.size = q'.size + 1 := by rw [size_eq, size_eq, hContents, hRest, length_cons]
        rw [freeLoop, if_pos hMore, hDequeue]
        simp only
        rw [examined] at hServed ⊢
        subst hMessage
        by_cases hType : m.type = type
        · have hOther : Other type m.toContents = false := decide_eq_false (not_not.mpr hType)
          rw [if_pos hType] at hServed ⊢
          rw [if_pos hType]
          rw [filter_cons_of_neg (by rw [hOther]; exact Bool.noConfusion)] at hServed ⊢
          have hServed' : Served q' node ((examined type (left - 1) rest).filter (Other type)).length := by
            rw [Served, hIndex]
            exact hServed
          have hLeft' : left - 1 = q'.size - (i + 1) := by omega
          have hRounds' : left - 1 ≤ rounds := by omega
          obtain ⟨hAfter, hFreed⟩ := ih hRest (Nat.le_succ_of_le hSeen) hLeft' hRounds' hServed'
          have hOf : OfType type m.toContents := decide_eq_true hType
          refine ⟨hAfter, ?_⟩
          rw [map_cons, hFreed, filter_cons_of_pos hOf]
        · have hOther : Other type m.toContents := decide_eq_true hType
          rw [if_neg hType] at hServed ⊢
          rw [if_neg hType]
          rw [filter_cons_of_pos hOther, length_cons] at hServed
          obtain ⟨hNodes, hBound⟩ := hServed
          obtain ⟨hEnqueued, hNext⟩ := @enqueueMessage_contents q' m (node 0) (hNodes 0 (Nat.succ_pos _)) (by omega)
          have hQueue : (enqueueMessage q' m (node 0)).contents = rest ++ (kept ++ [m.toContents]) := by
            rw [hEnqueued, hRest, append_assoc]
          have hGrown : (enqueueMessage q' m (node 0)).size = q'.size + 1 := by
            rw [size_eq, size_eq, hEnqueued, length_append, List.length_singleton]
          have hSeen' : (kept ++ [m.toContents]).length ≤ i + 1 := by
            rw [length_append]
            exact Nat.succ_le_succ hSeen
          have hLeft' : left = (enqueueMessage q' m (node 0)).size - (i + 1) := by omega
          obtain ⟨hAfter, hFreed⟩ := ih hQueue hSeen' hLeft' (Nat.le_of_succ_le_succ hRounds) ⟨fun k hk => hNodes (k + 1) (Nat.succ_lt_succ hk), by omega⟩
          constructor
          · rw [hAfter, filter_cons_of_pos hOther]
            simp only [length_cons, List.drop_succ_cons, append_assoc, cons_append, nil_append]
          · have hOf : ¬ OfType type m.toContents := fun hEq => hType (of_decide_eq_true hEq)
            rw [hFreed, filter_cons_of_neg hOf]

theorem ipcFreeType_contents (hServed : Served q node ((examined type q.size q.contents).filter (Other type)).length) :
    (ipcFreeType type node q).1.contents =
        q.contents.drop (examined type q.size q.contents).length ++ (examined type q.size q.contents).filter (Other type) ∧
      (ipcFreeType type node q).2.map IpcMessage.toContents =
        (examined type q.size q.contents).filter (OfType type) := by
  have h := freeLoop_contents q.contents (append_nil _).symm (Nat.zero_le 0) rfl (Nat.le_refl _) hServed
  rwa [append_nil] at h

theorem examined_front (left : Nat) (l : List Contents) : examined type left l <+: l := by
  induction l generalizing left with
  | nil => cases left <;> exact List.prefix_refl _
  | cons message rest ih =>
    cases left with
    | zero => exact List.nil_prefix
    | succ left =>
      rw [examined]
      exact List.cons_prefix_cons.mpr ⟨rfl, ih _⟩

theorem examined_append (left : Nat) (l : List Contents) :
    examined type left l ++ l.drop (examined type left l).length = l := by
  have hTake := List.prefix_iff_eq_take.mp (@examined_front type left l)
  exact (congrArg (· ++ _) hTake).trans (List.take_append_drop _ l)

def LockQueue.queued (q : LockQueue) (type : BitVec 8) : List Contents := q.contents.filter (OfType type)

/-- What a call is to find: memory for its nodes, and nothing that it would turn past another message of the same type. -/
def InOrder (q : LockQueue) : Label → Prop
  | .send _ node => Served q (fun _ => node) 1
  | .recv type node _ =>
    Served q node (q.contents.takeWhile (Other type)).length ∧
      Apart (q.contents.takeWhile (Other type)) (q.contents.dropWhile (Other type)).tail
  | .freeType type node _ =>
    let seen := examined type q.size q.contents
    let rest := q.contents.drop seen.length
    Served q node (seen.filter (Other type)).length ∧ (∀ m ∈ rest, m.type ≠ type) ∧ Apart (seen.filter (Other type)) rest

theorem filter_ofType_none (h : ∀ m ∈ l, m.type ≠ type) : l.filter (OfType type) = [] := by
  rw [List.filter_eq_nil_iff]
  exact fun m hm hEq => h m hm (of_decide_eq_true hEq)

theorem Apart.filter_comm {m : List Contents} (h : Apart l m) (type : BitVec 8) :
    (m ++ l).filter (OfType type) = (l ++ m).filter (OfType type) := by
  by_cases hSome : ∃ x ∈ l, x.type = type
  · obtain ⟨x, hx, rfl⟩ := hSome
    rw [filter_append, filter_append, filter_ofType_none fun y hy => (h x hx y hy).symm, nil_append, append_nil]
  · have hNone : ∀ x ∈ l, x.type ≠ type := fun x hx hEq => hSome ⟨x, hx, hEq⟩
    rw [filter_append, filter_append, filter_ofType_none hNone, nil_append, append_nil]

theorem filter_other_filter {t : BitVec 8} (hNe : t ≠ type) (l : List Contents) :
    (l.filter (Other type)).filter (OfType t) = l.filter (OfType t) := by
  rw [List.filter_filter]
  apply List.filter_congr
  intro x _
  rw [Other, OfType, ← Bool.decide_and]
  apply decide_eq_decide.mpr
  constructor
  · exact And.left
  · rintro rfl
    exact ⟨rfl, hNe⟩

theorem other_of_mem_filter : ∀ m ∈ l.filter (Other type), m.type ≠ type :=
  fun _ hm => of_decide_eq_true (List.mem_filter.mp hm).2

theorem other_of_mem_takeWhile : ∀ m ∈ l.takeWhile (Other type), m.type ≠ type :=
  fun m hm => of_decide_eq_true (@List.mem_takeWhile_imp _ (Other type) l m hm)

theorem first_cases (type : BitVec 8) (l : List Contents) :
    (l.dropWhile (Other type) = [] ∧ l.takeWhile (Other type) = l) ∨
      ∃ message rest, l.dropWhile (Other type) = message :: rest ∧ message.type = type ∧
        l = l.takeWhile (Other type) ++ message :: rest := by
  have hWhole := @List.takeWhile_append_dropWhile _ (Other type) l
  cases hRest : l.dropWhile (Other type) with
  | nil => exact .inl ⟨rfl, List.takeWhile_eq_self_iff.mpr (List.dropWhile_eq_nil_iff.mp hRest)⟩
  | cons message rest =>
    rw [hRest] at hWhole
    refine .inr ⟨message, rest, rfl, ?_, hWhole.symm⟩
    have hHead := List.head?_dropWhile_not (Other type) l
    rw [hRest, List.head?_cons] at hHead
    exact not_not.mp (of_decide_eq_false hHead)

theorem step_queued {l : Label} (hStep : Step q l q') (hAllowed : InOrder q l) (t : BitVec 8) :
    q.queued t ++ l.sent t = l.taken t ++ q'.queued t := by
  cases hStep with
  | send message b =>
    obtain ⟨hContents, -⟩ := enqueueMessage_contents (hAllowed.1 0 Nat.one_pos) hAllowed.2
    rw [LockQueue.queued, LockQueue.queued, ipcSend, hContents, filter_append, Label.sent, Label.taken, nil_append]
    congr 1
    by_cases hType : message.type = t
    · have hOf : OfType t message.toContents := decide_eq_true hType
      rw [if_pos hType, filter_cons_of_pos hOf, List.filter_nil]
    · have hOf : ¬ OfType t message.toContents := fun hEq => hType (of_decide_eq_true hEq)
      rw [if_neg hType, filter_cons_of_neg hOf, List.filter_nil]
  | recv type node =>
    obtain ⟨hServed, hApart⟩ := hAllowed
    obtain ⟨hContents, hAnswer⟩ := ipcRecv_contents hServed
    rw [LockQueue.queued, LockQueue.queued, hContents, hAnswer, Label.sent, append_nil, hApart.filter_comm]
    obtain ⟨hRest, hTake⟩ | ⟨message, rest, hRest, hType, hWhole⟩ := first_cases type q.contents
    · rw [hRest, hTake, List.tail_nil, append_nil, Label.taken, List.head?_nil, Option.toList_none, ite_self]
      rfl
    · rw [hRest, List.head?_cons, List.tail_cons, Label.taken]
      have hSplit : q.contents.filter (OfType t) =
          (q.contents.takeWhile (Other type)).filter (OfType t) ++ (message :: rest).filter (OfType t) := by
        rw [← filter_append, ← hWhole]
      rw [hSplit, filter_append]
      by_cases hSame : type = t
      · subst hSame
        have hOf : OfType type message := decide_eq_true hType
        rw [if_pos rfl, filter_cons_of_pos hOf, filter_ofType_none other_of_mem_takeWhile]
        rfl
      · have hOf : ¬ OfType t message := fun hEq => hSame (hType.symm.trans (of_decide_eq_true hEq))
        rw [if_neg hSame, filter_cons_of_neg hOf, nil_append]
  | freeType type node =>
    obtain ⟨hServed, hNone, hApart⟩ := hAllowed
    obtain ⟨hContents, hFreed⟩ := ipcFreeType_contents hServed
    rw [LockQueue.queued, LockQueue.queued, hContents, hFreed, Label.sent, append_nil, hApart.filter_comm, Label.taken]
    have hWhole := @examined_append type q.size q.contents
    have hSplit : q.contents.filter (OfType t) = (examined type q.size q.contents).filter (OfType t) ++
        (q.contents.drop (examined type q.size q.contents).length).filter (OfType t) := by
      rw [← filter_append, hWhole]
    rw [hSplit, filter_append]
    by_cases hSame : type = t
    · subst hSame
      rw [if_pos rfl, filter_ofType_none hNone, filter_ofType_none other_of_mem_filter, append_nil, append_nil,
        append_nil]
    · rw [if_neg hSame, filter_other_filter (.symm hSame), nil_append]

theorem run_queued {labels : List Label} (hRun : Run (ipcSystem.restrict InOrder) queueInit labels q) (t : BitVec 8) :
    sentOf t labels = takenOf t labels ++ q.queued t := by
  induction hRun with
  | nil => rfl
  | snoc _ last ih =>
    have hLast := step_queued last.2 last.1 t
    rw [sentOf, takenOf] at ih ⊢
    simp only [List.flatMap_append, List.flatMap_singleton]
    rw [ih, append_assoc, append_assoc, hLast]

theorem recv_none (hStep : Step q (.recv type node none) q')
    (hServed : Served q node (q.contents.takeWhile (Other type)).length) : ∀ m ∈ q.contents, m.type ≠ type := by
  generalize hLabel : Label.recv type node none = l at hStep
  cases hStep with
  | send => cases hLabel
  | freeType => cases hLabel
  | recv t n =>
    obtain ⟨rfl, rfl, hNone⟩ := Label.recv.inj hLabel
    rw [(ipcRecv_contents hServed).2] at hNone
    obtain ⟨-, hTake⟩ | ⟨message, rest, hRest, -⟩ := first_cases type q.contents
    · rw [← hTake]
      exact other_of_mem_takeWhile
    · rw [hRest] at hNone
      cases hNone

theorem freeType_none {freed : List Contents} (hStep : Step q (.freeType type node freed) q')
    (hAllowed : InOrder q (.freeType type node freed)) : ∀ m ∈ q'.contents, m.type ≠ type := by
  generalize hLabel : Label.freeType type node freed = l at hStep
  cases hStep with
  | send => cases hLabel
  | recv => cases hLabel
  | freeType t n =>
    obtain ⟨rfl, rfl, -⟩ := Label.freeType.inj hLabel
    obtain ⟨hServed, hNone, -⟩ := hAllowed
    rw [(ipcFreeType_contents hServed).1]
    intro m hm
    obtain hm | hm := List.mem_append.mp hm
    · exact hNone m hm
    · exact other_of_mem_filter m hm

/-- In a run whose calls have memory and turn no message past another one of its type, every message is taken once and
in its order, a call that returns nothing finds nothing, and `ipc_free_type` leaves nothing of the type. -/
theorem ipc_in_order {labels : List Label} {q : LockQueue}
    (hRun : Run (ipcSystem.restrict InOrder) queueInit labels q) :
    (∀ type, sentOf type labels = takenOf type labels ++ q.queued type) ∧
      (∀ type node q', (ipcSystem.restrict InOrder).step q (.recv type node none) q' → ∀ m ∈ q.contents, m.type ≠ type) ∧
      ∀ type node freed q', (ipcSystem.restrict InOrder).step q (.freeType type node freed) q' →
        ∀ m ∈ q'.contents, m.type ≠ type :=
  ⟨run_queued hRun, fun _ _ _ hStep => recv_none hStep.2 hStep.1.1,
    fun _ _ _ _ hStep => freeType_none hStep.2 hStep.1⟩

def note (pid : Int) (type : BitVec 8) : IpcMessage := ⟨⟨pid, type, Vector.replicate 64 0⟩, 0⟩

/-- A message is sent and received. -/
theorem ipc_in_order_note :
    ∃ labels q, Run (ipcSystem.restrict InOrder) queueInit labels q ∧ takenOf 1 labels = [(note 1 1).toContents] ∧
      ∀ type, sentOf type labels = takenOf type labels ++ q.queued type := by
  have hServed : InOrder queueInit (.send (note 1 1) true) := ⟨fun _ _ => rfl, by decide⟩
  have hSent := (Run.nil (M := ipcSystem.restrict InOrder) queueInit).snoc ⟨hServed, .send (note 1 1) true⟩
  have hFirst : (ipcSend queueInit (note 1 1) true).contents.takeWhile (Other 1) = [] := rfl
  have hAllowed : InOrder (ipcSend queueInit (note 1 1) true) (.recv 1 (fun _ => true) (some (note 1 1).toContents)) := by
    rw [InOrder, hFirst]
    refine ⟨⟨fun _ _ => rfl, by decide⟩, ?_⟩
    intro x hx
    cases hx
  have hRun := hSent.snoc ⟨hAllowed, .recv 1 fun _ => true⟩
  exact ⟨_, _, hRun, rfl, (ipc_in_order hRun).1⟩

/-- Type 1, type 2, type 1: a call for type 2 brings the second message of type 1 before the first one. -/
theorem ipc_turned :
    ∃ labels q, Run ipcSystem queueInit labels q ∧ sentOf 1 labels ≠ takenOf 1 labels ++ q.queued 1 := by
  have hRun := ((((Run.nil (M := ipcSystem) queueInit).snoc (.send (note 1 1) true)).snoc (.send (note 2 2) true)).snoc
    (.send (note 3 1) true)).snoc (.recv 2 fun _ => true)
  refine ⟨_, _, hRun, ?_⟩
  intro hEq
  have hPids := congrArg (List.map Contents.pid) hEq
  revert hPids
  decide

end OpenXJ380.Ipc
