import Mathlib.Data.List.Nodup

/-! # Singly linked lists

The links live in the nodes, so a list is a head together with a successor
function. `Linked` names the nodes in order; `forEach` is the C traversal, which
reads the link of a node only after the body has run on it.
-/

namespace LinkedList

open Function

universe u v

variable {α : Type u} {σ : Type v}

inductive Linked (next : α → Option α) : Option α → List α → Prop
  | nil : Linked next none []
  | cons {a : α} {l : List α} (rest : Linked next (next a) l) : Linked next (some a) (a :: l)

/-- The traversal `for (a = head; a != NULL; a = a->next) body(a)`. -/
def forEach (next : σ → α → Option α) (body : σ → α → σ) : Nat → Option α → σ → σ
  | 0, _, s => s
  | _ + 1, none, s => s
  | fuel + 1, some a, s => forEach next body fuel (next (body s a) a) (body s a)

/-- A traversal whose body leaves the links alone, or `none` where it does not come to an end. -/
def walk (next : α → Option α) (body : σ → α → σ) : Nat → Option α → σ → Option σ
  | 0, _, _ => none
  | _ + 1, none, s => some s
  | fuel + 1, some a, s => walk next body fuel (next a) (body s a)

def search {β : Type v} (next : α → Option α) (body : σ → α → σ ⊕ β) : Nat → Option α → σ → Option (σ ⊕ β)
  | 0, _, _ => none
  | _ + 1, none, s => some (.inl s)
  | fuel + 1, some a, s =>
    match body s a with
    | .inl s => search next body fuel (next a) s
    | .inr b => some (.inr b)

def searchList {β : Type v} (body : σ → α → σ ⊕ β) : List α → σ → σ ⊕ β
  | [], s => .inl s
  | a :: l, s =>
    match body s a with
    | .inl s => searchList body l s
    | .inr b => .inr b

def nodes (next : α → Option α) (fuel : Nat) (head : Option α) : List α :=
  forEach (fun _ => next) (fun seen a => seen ++ [a]) fuel head []

variable {next : α → Option α} {head : Option α} {l : List α} {fuel : Nat}

theorem Linked.eq {m : List α} (hl : Linked next head l) (hm : Linked next head m) : l = m := by
  induction hl generalizing m with
  | nil =>
    cases hm
    rfl
  | cons _ ih =>
    cases hm with
    | cons rest => rw [ih rest]

theorem Linked.suffix {pre : List α} {a : α}
    (h : Linked next head (pre ++ a :: l)) : Linked next (some a) (a :: l) := by
  induction pre generalizing head with
  | nil =>
    cases h with
    | cons rest => exact .cons rest
  | cons b pre ih =>
    cases h with
    | cons rest => exact ih rest

theorem Linked.nodup (h : Linked next head l) : l.Nodup := by
  induction h with
  | nil => exact List.nodup_nil
  | cons rest ih =>
    rename_i a l
    refine List.nodup_cons.mpr ⟨?_, ih⟩
    intro hMem
    obtain ⟨pre, post, rfl⟩ := List.append_of_mem hMem
    have hAgain := rest.suffix
    have hEq := (Linked.cons rest).eq hAgain
    have hLength := congrArg List.length hEq
    simp at hLength
    omega

theorem Linked.congr {next' : α → Option α}
    (h : Linked next head l) (hNext : ∀ a ∈ l, next' a = next a) : Linked next' head l := by
  induction h with
  | nil => exact .nil
  | cons rest ih =>
    rename_i a l
    apply Linked.cons
    rw [hNext a List.mem_cons_self]
    exact ih fun b hb => hNext b (.tail a hb)

theorem Linked.head?_eq (h : Linked next head l) : l.head? = head := by
  cases h <;> rfl

theorem forEach_eq_foldl {next : σ → α → Option α} {body : σ → α → σ}
    (hBody : ∀ s a b, next (body s a) b = next s b) {s : σ} (h : Linked (next s) head l) (hFuel : l.length ≤ fuel) :
    forEach next body fuel head s = l.foldl body s := by
  induction l generalizing fuel head s with
  | nil =>
    cases h
    cases fuel <;> rfl
  | cons a l ih =>
    cases h with
    | cons rest =>
      cases fuel with
      | zero => simp at hFuel
      | succ fuel =>
        rw [forEach, List.foldl_cons]
        apply ih
        · rw [hBody]
          exact rest.congr fun b _ => hBody s a b
        · simpa using hFuel

theorem forEach_fixed {body : σ → α → σ} {s : σ} (h : Linked next head l) (hFuel : l.length ≤ fuel) :
    forEach (fun _ => next) body fuel head s = l.foldl body s := by
  apply forEach_eq_foldl
  · intro s a b
    rfl
  · exact h
  · exact hFuel

theorem nodes_eq (h : Linked next head l) (hFuel : l.length ≤ fuel) : nodes next fuel head = l := by
  rw [nodes, forEach_fixed h hFuel]
  have hFold : ∀ (m seen : List α), m.foldl (fun seen a => seen ++ [a]) seen = seen ++ m := by
    intro m
    induction m with
    | nil => simp
    | cons a m ih => simp [ih]
  simpa using hFold l []

theorem Linked.append [DecidableEq α] {last a : α} (h : Linked next head (l ++ [last])) (hFresh : a ∉ l ++ [last]) :
    Linked (update (update next last (some a)) a none) head (l ++ [last] ++ [a]) := by
  induction l generalizing head with
  | nil =>
    cases h with
    | cons rest =>
      have hNe : last ≠ a := by
        rintro rfl
        simp at hFresh
      apply Linked.cons
      rw [update_of_ne hNe, update_self]
      apply Linked.cons
      rw [update_self]
      exact .nil
  | cons b l ih =>
    have hNodup := h.nodup
    cases h with
    | cons rest =>
      rw [List.cons_append, List.nodup_cons] at hNodup
      have hLast : b ≠ last := by
        rintro rfl
        exact hNodup.1 (by simp)
      have hNe : b ≠ a := by
        rintro rfl
        simp at hFresh
      apply Linked.cons
      rw [update_of_ne hNe, update_of_ne hLast]
      exact ih rest fun hMem => hFresh (List.mem_cons_of_mem b hMem)

theorem walk_linked (h : Linked next head l) (body : σ → α → σ) (hFuel : l.length < fuel) (s : σ) :
    walk next body fuel head s = some (l.foldl body s) := by
  induction h generalizing fuel s with
  | nil =>
    cases fuel with
    | zero => exact nomatch hFuel
    | succ fuel => rfl
  | cons rest ih =>
    cases fuel with
    | zero => exact nomatch hFuel
    | succ fuel =>
      rw [walk, List.foldl_cons]
      exact ih (Nat.lt_of_succ_lt_succ hFuel) _

theorem search_linked {β : Type v} (h : Linked next head l) (body : σ → α → σ ⊕ β) (hFuel : l.length < fuel) (s : σ) :
    search next body fuel head s = some (searchList body l s) := by
  induction h generalizing fuel s with
  | nil =>
    cases fuel with
    | zero => exact nomatch hFuel
    | succ fuel => rfl
  | cons rest ih =>
    cases fuel with
    | zero => exact nomatch hFuel
    | succ fuel =>
      rename_i a l
      rw [search, searchList]
      cases body s a with
      | inl s => exact ih (Nat.lt_of_succ_lt_succ hFuel) s
      | inr b => rfl

end LinkedList

/-! # Lists that share their links

Several lists over one successor function, with no node on two of them. Changing
the links of one list leaves the others as they are.
-/

namespace LinkedList

open Function

universe u v

variable {α : Type u} {ι : Type v} [DecidableEq α] [DecidableEq ι]

structure Family (next : α → Option α) (heads : ι → Option α) (lists : ι → List α) : Prop where
  linked : ∀ i, Linked next (heads i) (lists i)
  apart : ∀ i j a, a ∈ lists i → a ∈ lists j → i = j

omit [DecidableEq α] in
theorem Linked.tail {next : α → Option α} {head : Option α} {a : α} {l : List α} (h : Linked next head (a :: l)) :
    Linked next (next a) l := by
  cases h with
  | cons rest => exact rest

theorem Linked.unlink {next : α → Option α} {head : Option α} {pre post : List α} {b a : α}
    (h : Linked next head (pre ++ b :: a :: post)) (v : Option α) :
    Linked (update (update next b (next a)) a v) head (pre ++ b :: post) := by
  induction pre generalizing head with
  | nil =>
    have hNodup := h.nodup
    simp only [List.nil_append, List.nodup_cons, List.mem_cons, not_or] at hNodup
    obtain ⟨⟨hNe, hBehind⟩, hRest, -⟩ := hNodup
    cases h with
    | cons hTail =>
      cases hTail' : next b with
      | none =>
        rw [hTail'] at hTail
        cases hTail
      | some c =>
        rw [hTail'] at hTail
        cases hTail with
        | cons hPost =>
          apply Linked.cons
          rw [update_of_ne hNe, update_self]
          apply hPost.congr
          intro d hd
          have hb : d ≠ b := fun hEq => hBehind (hEq ▸ hd)
          have ha : d ≠ a := fun hEq => hRest (hEq ▸ hd)
          rw [update_of_ne ha, update_of_ne hb]
  | cons c pre ih =>
    have hNodup := h.nodup
    rw [List.cons_append, List.nodup_cons] at hNodup
    cases h with
    | cons hTail =>
      have hb : c ≠ b := by
        rintro rfl
        exact hNodup.1 (by simp)
      have ha : c ≠ a := by
        rintro rfl
        exact hNodup.1 (by simp)
      apply Linked.cons
      rw [update_of_ne ha, update_of_ne hb]
      exact ih hTail

namespace Family

variable {next : α → Option α} {heads : ι → Option α} {lists : ι → List α} {i : ι} {a b : α} {l pre post : List α}

theorem push (h : Family next heads lists) (hFresh : ∀ j, a ∉ lists j) (i : ι) :
    Family (update next a (heads i)) (update heads i (some a)) (update lists i (a :: lists i)) := by
  have hKept : ∀ j, Linked (update next a (heads i)) (heads j) (lists j) := by
    intro j
    apply (h.linked j).congr
    intro b hb
    apply update_of_ne
    rintro rfl
    exact hFresh j hb
  constructor
  · intro j
    obtain rfl | hNe := eq_or_ne j i
    · rw [update_self, update_self]
      apply Linked.cons
      rw [update_self]
      exact hKept j
    · rw [update_of_ne hNe, update_of_ne hNe]
      exact hKept j
  · intro j k b hj hk
    simp only [update_apply] at hj hk
    split at hj <;> split at hk
    · rename_i hji hki
      exact hji.trans hki.symm
    · rename_i hji hki
      cases hj with
      | head => exact absurd hk (hFresh k)
      | tail _ hj => exact hji.trans (h.apart i k b hj hk)
    · rename_i hji hki
      cases hk with
      | head => exact absurd hj (hFresh j)
      | tail _ hk => exact (h.apart j i b hj hk).trans hki.symm
    · exact h.apart j k b hj hk

omit [DecidableEq α] in
theorem shrink {next' : α → Option α} {head : Option α} (h : Family next heads lists)
    (hLinked : Linked next' head l) (hSome : ∀ b ∈ l, b ∈ lists i)
    (hNext : ∀ j, j ≠ i → ∀ b ∈ lists j, next' b = next b) : Family next' (update heads i head) (update lists i l) := by
  have hBack : ∀ j b, b ∈ update lists i l j → b ∈ lists j := by
    intro j b hb
    rw [update_apply] at hb
    split at hb
    · rename_i hEq
      rw [hEq]
      exact hSome b hb
    · exact hb
  constructor
  · intro j
    obtain rfl | hNe := eq_or_ne j i
    · rw [update_self, update_self]
      exact hLinked
    · rw [update_of_ne hNe, update_of_ne hNe]
      exact (h.linked j).congr (hNext j hNe)
  · intro j k b hj hk
    exact h.apart j k b (hBack j b hj) (hBack k b hk)

theorem pop (h : Family next heads lists) (hList : lists i = a :: l) (v : Option α) :
    Family (update next a v) (update heads i (next a)) (update lists i l) := by
  have hLinked := h.linked i
  rw [hList] at hLinked
  have hNodup := hLinked.nodup
  apply h.shrink
  · apply hLinked.tail.congr
    intro b hb
    apply update_of_ne
    rintro rfl
    exact (List.nodup_cons.mp hNodup).1 hb
  · intro b hb
    rw [hList]
    exact .tail a hb
  · intro j hNe b hb
    apply update_of_ne
    rintro rfl
    exact hNe (h.apart j i b hb (by rw [hList]; exact .head _))

theorem unlink (h : Family next heads lists) (hList : lists i = pre ++ b :: a :: post) (v : Option α) :
    Family (update (update next b (next a)) a v) heads (update lists i (pre ++ b :: post)) := by
  have hLinked := h.linked i
  rw [hList] at hLinked
  have hOther : ∀ c, c ∈ lists i → ∀ j, j ≠ i → ∀ d ∈ lists j, d ≠ c := by
    rintro c hc j hNe d hd rfl
    exact hNe (h.apart j i d hd hc)
  have hShrunk := h.shrink (hLinked.unlink v) (i := i) (fun c hc => by
    rw [hList]
    simp only [List.mem_append, List.mem_cons] at hc ⊢
    tauto) (fun j hNe d hd => by
    rw [update_of_ne (hOther a (by rw [hList]; simp) j hNe d hd),
      update_of_ne (hOther b (by rw [hList]; simp) j hNe d hd)])
  rwa [update_eq_self] at hShrunk

end Family

end LinkedList
