import Mathlib.Data.List.Nodup

/-! # Doubly linked lists

A segment is a run of nodes whose links point to each other and, at its ends, to
what stands before and after it. Splitting a segment and changing the links at its
ends are all that taking out and putting in a node need.
-/

namespace LinkedList

open List (mem_append_left mem_append_right mem_cons_self)

universe u

variable {α : Type u}

/-- The nodes `l` with `before` in front of them and `after` behind. -/
def Segment (next prev : α → Option α) : Option α → List α → Option α → Prop
  | _, [], _ => True
  | before, a :: l, after => prev a = before ∧ next a = l.head?.or after ∧ Segment next prev (some a) l after

variable {next prev next' prev' : α → Option α} {before after : Option α} {a b : α} {l l₁ l₂ : List α}

theorem segment_append : Segment next prev before (l₁ ++ l₂) after ↔
      Segment next prev before l₁ (l₂.head?.or after) ∧ Segment next prev (l₁.getLast?.or before) l₂ after := by
  induction l₁ generalizing before with
  | nil => simp [Segment]
  | cons a l ih =>
    have hHead : (l ++ l₂).head?.or after = l.head?.or (l₂.head?.or after) := by
      rw [List.head?_append, Option.or_assoc]
    have hLast : ((a :: l).getLast?).or before = l.getLast?.or (some a) := by
      rw [List.getLast?_cons]
      cases l.getLast? <;> rfl
    rw [List.cons_append, Segment, Segment, ih, hHead, hLast, and_assoc, and_assoc]

section

variable (h : Segment next prev before l after)

include h

theorem Segment.congr (hSame : ∀ a ∈ l, next' a = next a ∧ prev' a = prev a) : Segment next' prev' before l after := by
  induction l generalizing before with
  | nil => trivial
  | cons a l ih =>
    obtain ⟨hPrev, hNext, hRest⟩ := h
    have hHere := hSame a (.head _)
    exact ⟨hHere.2.trans hPrev, hHere.1.trans hNext, ih hRest fun b hb => hSame b (.tail a hb)⟩

theorem Segment.setAfter {after' : Option α} (hNodup : l.Nodup)
    (hLast : ∀ a, l.getLast? = some a → next' a = after') (hOthers : ∀ a ∈ l, l.getLast? ≠ some a → next' a = next a)
    (hPrev : ∀ a ∈ l, prev' a = prev a) : Segment next' prev' before l after' := by
  obtain rfl | ⟨l, a, rfl⟩ := List.eq_nil_or_concat l
  · trivial
  · rw [List.concat_eq_append] at *
    rw [segment_append] at h ⊢
    rw [List.nodup_append] at hNodup
    obtain ⟨hInit, hEnd⟩ := h
    refine ⟨hInit.congr ?_, (hPrev a (by simp)).trans hEnd.1, ?_, trivial⟩
    · intro b hb
      refine ⟨hOthers b (mem_append_left _ hb) ?_, hPrev b (mem_append_left _ hb)⟩
      rw [List.getLast?_concat]
      rintro ⟨⟩
      exact hNodup.2.2 _ hb _ mem_cons_self rfl
    · rw [hLast a List.getLast?_concat]
      rfl

theorem Segment.setBefore {before' : Option α} (hNodup : l.Nodup)
    (hFirst : ∀ a, l.head? = some a → prev' a = before') (hOthers : ∀ a ∈ l, l.head? ≠ some a → prev' a = prev a)
    (hNext : ∀ a ∈ l, next' a = next a) : Segment next' prev' before' l after := by
  cases l with
  | nil => trivial
  | cons a l =>
    obtain ⟨-, hLink, hRest⟩ := h
    rw [List.nodup_cons] at hNodup
    refine ⟨hFirst a rfl, (hNext a (.head _)).trans hLink, hRest.congr ?_⟩
    intro b hb
    refine ⟨hNext b (.tail a hb), hOthers b (.tail a hb) ?_⟩
    rintro ⟨⟩
    exact hNodup.1 hb

end

theorem Segment.middle (h : Segment next prev none (l₁ ++ a :: l₂) none) :
    prev a = l₁.getLast? ∧ next a = l₂.head? := by
  rw [segment_append] at h
  obtain ⟨-, hPrev, hNext, -⟩ := h
  rw [Option.or_none] at hPrev hNext
  exact ⟨hPrev, hNext⟩

variable [DecidableEq α]

/-- The last node of `l₁` now points to `n` and the first one of `l₂` back to `p`. -/
theorem Segment.relink {n p x y : Option α} (hInit : Segment next prev before l₁ x)
    (hRest : Segment next prev y l₂ after)
    (hNodup : (l₁ ++ l₂).Nodup) (hNext : ∀ b ∈ l₁ ++ l₂, next' b = if l₁.getLast? = some b then n else next b)
    (hPrev : ∀ b ∈ l₁ ++ l₂, prev' b = if l₂.head? = some b then p else prev b) :
    Segment next' prev' before l₁ n ∧ Segment next' prev' p l₂ after := by
  obtain ⟨hLeft, hRight, hApart⟩ := List.nodup_append.mp hNodup
  have hNotRight : ∀ b ∈ l₁, l₂.head? ≠ some b := fun b hb hHead => hApart b hb b (List.mem_of_head? hHead) rfl
  have hNotLeft : ∀ b ∈ l₂, l₁.getLast? ≠ some b := fun b hb hLast => hApart b (List.mem_of_getLast? hLast) b hb rfl
  constructor
  · refine hInit.setAfter hLeft ?_ ?_ ?_
    · intro b hLast
      rw [hNext b (mem_append_left _ (List.mem_of_getLast? hLast)), if_pos hLast]
    · intro b hb hNotLast
      rw [hNext b (mem_append_left _ hb), if_neg hNotLast]
    · intro b hb
      rw [hPrev b (mem_append_left _ hb), if_neg (hNotRight b hb)]
  · refine hRest.setBefore hRight ?_ ?_ ?_
    · intro b hHead
      rw [hPrev b (mem_append_right _ (List.mem_of_head? hHead)), if_pos hHead]
    · intro b hb hNotFirst
      rw [hPrev b (mem_append_right _ hb), if_neg hNotFirst]
    · intro b hb
      rw [hNext b (mem_append_right _ hb), if_neg (hNotLeft b hb)]

theorem Segment.remove (h : Segment next prev none (l₁ ++ a :: l₂) none) (hNodup : (l₁ ++ a :: l₂).Nodup)
    (hNext : ∀ b ∈ l₁ ++ l₂, next' b = if l₁.getLast? = some b then l₂.head? else next b)
    (hPrev : ∀ b ∈ l₁ ++ l₂, prev' b = if l₂.head? = some b then l₁.getLast? else prev b) :
    Segment next' prev' none (l₁ ++ l₂) none := by
  rw [segment_append] at h ⊢
  rw [List.nodup_middle] at hNodup
  obtain ⟨hInit, -, -, hRest⟩ := h
  rw [Option.or_none, Option.or_none]
  exact hInit.relink hRest (List.nodup_cons.mp hNodup).2 hNext hPrev

theorem Segment.insert (h : Segment next prev none (l₁ ++ l₂) none) (hNodup : (l₁ ++ l₂).Nodup)
    (hNextNew : next' b = l₂.head?) (hPrevNew : prev' b = l₁.getLast?)
    (hNext : ∀ c ∈ l₁ ++ l₂, next' c = if l₁.getLast? = some c then some b else next c)
    (hPrev : ∀ c ∈ l₁ ++ l₂, prev' c = if l₂.head? = some c then some b else prev c) :
    Segment next' prev' none (l₁ ++ b :: l₂) none := by
  rw [segment_append] at h ⊢
  obtain ⟨hLeft, hRight⟩ := h.1.relink h.2 hNodup hNext hPrev
  exact ⟨hLeft, by rw [hPrevNew, Option.or_none], by rw [hNextNew, Option.or_none], hRight⟩

end LinkedList
