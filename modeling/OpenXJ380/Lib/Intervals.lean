import Mathlib.Algebra.GroupWithZero.Nat
import Mathlib.Algebra.Order.BigOperators.Group.List
import Mathlib.Algebra.Order.Group.Nat

/-! # Labelled intervals

Half-open intervals in order, each with a value. Taking a range out of one leaves
what lies below and what lies above it; the value of the upper piece is shifted by
the distance that its start has moved.
-/

namespace Intervals

universe u

variable {α : Type u}

structure Interval (α : Type u) where
  lo : Nat
  hi : Nat
  value : α

def Interval.Covers (x : Interval α) (a : Nat) : Prop := x.lo ≤ a ∧ a < x.hi

def Interval.Meets (x y : Interval α) : Prop := y.lo < x.hi ∧ x.lo < y.hi

structure Ordered (l : List (Interval α)) : Prop where
  apart : l.Pairwise fun x y => x.hi ≤ y.lo
  nonempty : ∀ x ∈ l, x.lo < x.hi

def total (l : List (Interval α)) : Nat := (l.map fun x => x.hi - x.lo).sum

/-- What is left of an interval outside `start` to `stop`. -/
def cut (shift : Nat → α → α) (start stop : Nat) (x : Interval α) : List (Interval α) :=
  (if x.lo < start then [⟨x.lo, min x.hi start, x.value⟩] else []) ++
    (if stop < x.hi then [⟨max x.lo stop, x.hi, shift (max x.lo stop - x.lo) x.value⟩] else [])

variable {shift : Nat → α → α} {start stop a : Nat} {x y : Interval α} {l : List (Interval α)}

@[simp] theorem total_nil : total ([] : List (Interval α)) = 0 := rfl

@[simp] theorem total_cons (x : Interval α) (l : List (Interval α)) : total (x :: l) = x.hi - x.lo + total l :=
  List.sum_cons

theorem Ordered.tail (h : Ordered (x :: l)) : Ordered l :=
  ⟨(List.pairwise_cons.mp h.apart).2, fun y hy => h.nonempty y (.tail x hy)⟩

theorem Ordered.head_le (h : Ordered (x :: l)) (hy : y ∈ l) : x.hi ≤ y.lo := (List.pairwise_cons.mp h.apart).1 y hy

theorem Ordered.total_le {lo hi : Nat} (h : Ordered l) (hLow : ∀ x ∈ l, lo ≤ x.lo) (hHigh : ∀ x ∈ l, x.hi ≤ hi)
    (hBounds : lo ≤ hi) : total l + lo ≤ hi := by
  induction l generalizing lo with
  | nil => rwa [total_nil, zero_add]
  | cons x l ih =>
    have hFirst := hLow x (.head _)
    have hLast := hHigh x (.head _)
    have hNonempty := h.nonempty x (.head _)
    have hRest := ih h.tail (fun y hy => h.head_le hy) (fun y hy => hHigh y (.tail x hy)) hLast
    rw [total_cons]
    omega

theorem Ordered.insert {xs ys : List (Interval α)} (h : Ordered (xs ++ ys)) (hy : y.lo < y.hi)
    (hApart : ∀ x ∈ xs ++ ys, ¬ x.Meets y) (hLow : ∀ x ∈ xs, x.lo < y.lo)
    (hHigh : ∀ x, ys.head? = some x → y.lo ≤ x.lo) : Ordered (xs ++ y :: ys) := by
  obtain ⟨hLeft, hRight, hBetween⟩ := List.pairwise_append.mp h.apart
  have hBelow : ∀ x ∈ xs, x.hi ≤ y.lo := by
    intro x hx
    have hLess := hLow x hx
    exact not_lt.mp fun hOver => hApart x (List.mem_append_left _ hx) ⟨hOver, by omega⟩
  have hAbove : ∀ x ∈ ys, y.hi ≤ x.lo := by
    cases ys with
    | nil => exact List.forall_mem_nil _
    | cons z ys =>
      have hFirst := hHigh z rfl
      have hNonempty := h.nonempty z (List.mem_append_right _ List.mem_cons_self)
      have hEnd : y.hi ≤ z.lo := not_lt.mp fun hOver =>
        hApart z (List.mem_append_right _ List.mem_cons_self) ⟨by omega, hOver⟩
      refine List.forall_mem_cons.mpr ⟨hEnd, fun x hx => ?_⟩
      have hOrder := (List.pairwise_cons.mp hRight).1 x hx
      omega
  refine ⟨List.pairwise_append.mpr ⟨hLeft, List.pairwise_cons.mpr ⟨hAbove, hRight⟩, ?_⟩, ?_⟩
  · intro x hx
    exact List.forall_mem_cons.mpr ⟨hBelow x hx, hBetween x hx⟩
  · intro x hx
    obtain rfl | hOld := List.mem_cons.mp (List.perm_middle.mem_iff.mp hx)
    · exact hy
    · exact h.nonempty x hOld

theorem mem_cut : y ∈ cut shift start stop x ↔ (x.lo < start ∧ y = ⟨x.lo, min x.hi start, x.value⟩) ∨
        (stop < x.hi ∧ y = ⟨max x.lo stop, x.hi, shift (max x.lo stop - x.lo) x.value⟩) := by
  rw [cut, List.mem_append]
  split_ifs with hLow hHigh hHigh <;> simp [hLow, hHigh]

theorem cut_below (hLess : start < stop) (hNonempty : x.lo < x.hi) (hBelow : x.hi ≤ start) :
    cut shift start stop x = [x] := by
  rw [cut, if_pos (by omega), if_neg (by omega), min_eq_left hBelow]
  rfl

theorem cut_above (hShift : ∀ v, shift 0 v = v) (hLess : start < stop) (hNonempty : x.lo < x.hi)
    (hAbove : stop ≤ x.lo) : cut shift start stop x = [x] := by
  rw [cut, if_neg (by omega), if_pos (by omega), Nat.max_eq_left hAbove, Nat.sub_self, hShift]
  rfl

theorem cut_inside (hLow : start ≤ x.lo) (hHigh : x.hi ≤ stop) : cut shift start stop x = [] := by
  rw [cut, if_neg (by omega), if_neg (by omega)]
  rfl

theorem cut_left (hLow : x.lo < start) (hHigh : start ≤ x.hi) (hEnd : x.hi ≤ stop) :
    cut shift start stop x = [⟨x.lo, start, x.value⟩] := by
  rw [cut, if_pos hLow, if_neg (by omega), min_eq_right hHigh]
  rfl

theorem cut_right (hLow : start ≤ x.lo) (hStart : x.lo ≤ stop) (hHigh : stop < x.hi) :
    cut shift start stop x = [⟨stop, x.hi, shift (stop - x.lo) x.value⟩] := by
  rw [cut, if_neg (by omega), if_pos hHigh, max_eq_right hStart]
  rfl

theorem cut_hole (hLess : start ≤ stop) (hLow : x.lo < start) (hHigh : stop < x.hi) :
    cut shift start stop x = [⟨x.lo, start, x.value⟩, ⟨stop, x.hi, shift (stop - x.lo) x.value⟩] := by
  rw [cut, if_pos hLow, if_pos hHigh, min_eq_right (by omega), max_eq_right (by omega)]
  rfl

theorem flatMap_cut_above (hShift : ∀ v, shift 0 v = v) (hLess : start < stop) (h : Ordered l)
    (hAbove : ∀ x ∈ l, stop ≤ x.lo) : l.flatMap (cut shift start stop) = l := by
  induction l with
  | nil => rfl
  | cons x l ih =>
    rw [List.flatMap_cons, cut_above hShift hLess (h.nonempty x (.head _)) (hAbove x (.head _)),
      ih h.tail fun y hy => hAbove y (.tail x hy)]
    rfl

theorem cut_bounds (hShift : ∀ v, shift 0 v = v) (hNonempty : x.lo < x.hi) (hy : y ∈ cut shift start stop x) :
    x.lo ≤ y.lo ∧ y.hi ≤ x.hi ∧ y.lo < y.hi ∧ (y.hi ≤ start ∨ stop ≤ y.lo) ∧ y.value = shift (y.lo - x.lo) x.value := by
  obtain ⟨hLow, rfl⟩ | ⟨hHigh, rfl⟩ := mem_cut.mp hy
  · refine ⟨le_rfl, min_le_left _ _, ?_, .inl (min_le_right _ _), ?_⟩
    · simp only
      omega
    · simp only [Nat.sub_self, hShift]
  · refine ⟨le_max_left _ _, le_rfl, ?_, .inr (le_max_right _ _), rfl⟩
    simp only
    omega

theorem cut_ordered (hLess : start < stop) (hShift : ∀ v, shift 0 v = v) (hNonempty : x.lo < x.hi) :
    Ordered (cut shift start stop x) := by
  refine ⟨?_, fun y hy => (cut_bounds hShift hNonempty hy).2.2.1⟩
  rw [cut]
  split_ifs with hLow hHigh hHigh
  · refine List.pairwise_pair.mpr ?_
    simp only
    omega
  · exact List.pairwise_singleton _ _
  · exact List.pairwise_singleton _ _
  · exact .nil

theorem flatMap_cut_ordered (hLess : start < stop) (hShift : ∀ v, shift 0 v = v) (h : Ordered l) :
    Ordered (l.flatMap (cut shift start stop)) := by
  induction l with
  | nil => exact ⟨.nil, nofun⟩
  | cons x l ih =>
    have hNonempty := h.nonempty x (.head _)
    have hFirst : Ordered (cut shift start stop x) := cut_ordered hLess hShift hNonempty
    have hRest := ih h.tail
    rw [List.flatMap_cons]
    constructor
    · refine List.pairwise_append.mpr ⟨hFirst.apart, hRest.apart, ?_⟩
      intro y hy z hz
      obtain ⟨w, hw, hzw⟩ := List.mem_flatMap.mp hz
      have hyBounds := cut_bounds hShift hNonempty hy
      have hzBounds := cut_bounds hShift (h.nonempty w (.tail x hw)) hzw
      have hBetween := h.head_le hw
      omega
    · intro y hy
      obtain hHere | hLater := List.mem_append.mp hy
      · exact hFirst.nonempty y hHere
      · exact hRest.nonempty y hLater

theorem covers_flatMap_cut (hShift : ∀ v, shift 0 v = v) (h : Ordered l) :
    (∃ y ∈ l.flatMap (cut shift start stop), y.Covers a) ↔ (∃ x ∈ l, x.Covers a) ∧ ¬ (start ≤ a ∧ a < stop) := by
  constructor
  · rintro ⟨y, hy, hCovers⟩
    obtain ⟨x, hx, hyx⟩ := List.mem_flatMap.mp hy
    have hBounds := cut_bounds hShift (h.nonempty x hx) hyx
    rw [Interval.Covers] at hCovers
    refine ⟨⟨x, hx, ?_⟩, by omega⟩
    rw [Interval.Covers]
    omega
  · rintro ⟨⟨x, hx, hCovers⟩, hOutside⟩
    rw [Interval.Covers] at hCovers
    obtain hLow | hHigh := lt_or_ge a start
    · refine ⟨⟨x.lo, min x.hi start, x.value⟩, List.mem_flatMap.mpr ⟨x, hx, mem_cut.mpr (.inl ⟨by omega, rfl⟩)⟩, ?_⟩
      rw [Interval.Covers]
      simp only
      omega
    · refine ⟨⟨max x.lo stop, x.hi, shift (max x.lo stop - x.lo) x.value⟩,
        List.mem_flatMap.mpr ⟨x, hx, mem_cut.mpr (.inr ⟨by omega, rfl⟩)⟩, ?_⟩
      rw [Interval.Covers]
      simp only
      omega

end Intervals
