import Mathlib.Data.Nat.Bitwise
import Mathlib.Data.Set.Lattice
import Mathlib.Order.CompletePartialOrder
import Mathlib.Tactic.Ring

/-! # Dyadic blocks

A block of order `k` covers `2 ^ k` numbers from a multiple of `2 ^ k` on. Two
blocks are nested or disjoint, a block and its buddy make up their parent, and a
set has at most one decomposition that no two buddies share.
-/

namespace Dyadic

structure Block where
  base : Nat
  order : Nat
  deriving DecidableEq, Repr

namespace Block

def cells (x : Block) : Set Nat := Set.Ico x.base (x.base + 2 ^ x.order)

def Aligned (x : Block) : Prop := 2 ^ x.order ∣ x.base

def buddy (x : Block) : Block := ⟨x.base ^^^ 2 ^ x.order, x.order⟩

def parent (x : Block) : Block := ⟨min x.base x.buddy.base, x.order + 1⟩

variable {x : Block} {a : Nat}

theorem mem_cells : a ∈ x.cells ↔ x.base ≤ a ∧ a < x.base + 2 ^ x.order := Iff.rfl

theorem base_mem (x : Block) : x.base ∈ x.cells :=
  ⟨le_rfl, Nat.lt_add_of_pos_right (Nat.two_pow_pos _)⟩

theorem xor_two_pow (k n : Nat) : (2 ^ n * k) ^^^ 2 ^ n = 2 ^ n * (k ^^^ 1) := by
  have hShift := @Nat.shiftLeft_xor_distrib n k 1
  rw [Nat.shiftLeft_eq, Nat.shiftLeft_eq, Nat.shiftLeft_eq, Nat.one_mul] at hShift
  rw [Nat.mul_comm, Nat.mul_comm (2 ^ n) (k ^^^ 1)]
  exact hShift.symm

theorem Aligned.cases (h : x.Aligned) :
    ∃ k, x.base = 2 ^ (x.order + 1) * k ∧ x.buddy.base = 2 ^ (x.order + 1) * k + 2 ^ x.order ∨
      x.base = 2 ^ (x.order + 1) * k + 2 ^ x.order ∧ x.buddy.base = 2 ^ (x.order + 1) * k := by
  obtain ⟨j, hBase⟩ := h
  have hBuddy : x.buddy.base = 2 ^ x.order * (j ^^^ 1) := by
    rw [buddy, hBase, xor_two_pow]
  cases Nat.even_or_odd j with
  | inl hEven =>
    rw [Nat.xor_one_of_even hEven] at hBuddy
    obtain ⟨k, rfl⟩ := hEven
    refine ⟨k, .inl ⟨?_, ?_⟩⟩
    · rw [hBase]
      ring
    · rw [hBuddy]
      ring
  | inr hOdd =>
    rw [Nat.xor_one_of_odd hOdd] at hBuddy
    obtain ⟨k, rfl⟩ := hOdd
    refine ⟨k, .inr ⟨?_, ?_⟩⟩
    · rw [hBase]
      ring
    · rw [hBuddy, Nat.add_sub_cancel]
      ring

theorem Aligned.buddy (h : x.Aligned) : x.buddy.Aligned := by
  obtain ⟨j, hBase⟩ := h
  refine ⟨j ^^^ 1, ?_⟩
  rw [Block.buddy, hBase, xor_two_pow]

@[simp] theorem buddy_order (x : Block) : x.buddy.order = x.order := rfl

@[simp] theorem buddy_buddy (x : Block) : x.buddy.buddy = x := by
  rw [buddy, buddy, Nat.xor_assoc, Nat.xor_self, Nat.xor_zero]

theorem Aligned.parent (h : x.Aligned) : x.parent.Aligned := by
  obtain ⟨k, ⟨hBase, hBuddy⟩ | ⟨hBase, hBuddy⟩⟩ := h.cases
  · refine ⟨k, ?_⟩
    rw [Block.parent, hBuddy, hBase]
    exact min_eq_left le_self_add
  · refine ⟨k, ?_⟩
    rw [Block.parent, hBuddy, hBase]
    exact min_eq_right le_self_add

theorem Aligned.parent_cells (h : x.Aligned) : x.parent.cells = x.cells ∪ x.buddy.cells := by
  ext a
  rw [Set.mem_union, mem_cells, mem_cells, mem_cells, buddy_order]
  simp only [Block.parent]
  have hDouble : 2 ^ (x.order + 1) = 2 ^ x.order + 2 ^ x.order := by ring
  obtain ⟨k, ⟨hBase, hBuddy⟩ | ⟨hBase, hBuddy⟩⟩ := h.cases <;>
  · rw [hBuddy, hBase, hDouble]
    omega

theorem Aligned.buddy_disjoint (h : x.Aligned) : Disjoint x.cells x.buddy.cells := by
  rw [Set.disjoint_left]
  intro a hx hBuddy
  rw [mem_cells] at hx hBuddy
  rw [buddy_order] at hBuddy
  obtain ⟨k, ⟨hBase, hOther⟩ | ⟨hBase, hOther⟩⟩ := h.cases <;> omega

theorem Aligned.buddy_ne (h : x.Aligned) : x.buddy ≠ x := by
  intro hEq
  have hDisjoint := h.buddy_disjoint
  rw [hEq, Set.disjoint_left] at hDisjoint
  exact hDisjoint x.base_mem x.base_mem

def left (x : Block) : Block := ⟨x.base, x.order - 1⟩

def right (x : Block) : Block := ⟨x.base + 2 ^ (x.order - 1), x.order - 1⟩

theorem two_pow_pred {n : Nat} (hPos : 0 < n) : 2 ^ n = 2 ^ (n - 1) + 2 ^ (n - 1) := by
  obtain ⟨m, rfl⟩ : ∃ m, n = m + 1 := ⟨n - 1, by omega⟩
  rw [Nat.add_sub_cancel]
  ring

theorem halves_cells (hPos : 0 < x.order) : x.cells = x.left.cells ∪ x.right.cells := by
  have hDouble := two_pow_pred hPos
  ext a
  rw [Set.mem_union, mem_cells, mem_cells, mem_cells]
  simp only [left, right]
  omega

theorem halves_disjoint (x : Block) : Disjoint x.left.cells x.right.cells := by
  rw [Set.disjoint_left]
  intro a hLeft hRight
  rw [mem_cells] at hLeft hRight
  simp only [left, right] at hLeft hRight
  omega

theorem Aligned.left (h : x.Aligned) : x.left.Aligned :=
  Nat.dvd_trans (Nat.pow_dvd_pow 2 (Nat.sub_le _ _)) h

theorem Aligned.right (h : x.Aligned) : x.right.Aligned :=
  Nat.dvd_add h.left (Nat.dvd_refl _)

theorem Aligned.right_buddy (h : x.Aligned) (hPos : 0 < x.order) : x.right.buddy = x.left := by
  have hBuddy : x.left.buddy = x.right := by
    obtain ⟨k, hBase⟩ := h
    have hDouble := two_pow_pred hPos
    have hEven : x.base = 2 ^ (x.order - 1) * (2 * k) := by
      rw [hBase, hDouble]
      ring
    rw [Block.buddy, Block.left, Block.right, Block.mk.injEq]
    refine ⟨?_, rfl⟩
    rw [hEven, xor_two_pow, Nat.xor_one_of_even (even_two_mul k)]
    ring
  rw [← hBuddy, buddy_buddy]

theorem add_le_of_dvd {d b : Nat} (ha : d ∣ a) (hb : d ∣ b) (hLt : a < b) : a + d ≤ b := by
  obtain ⟨i, rfl⟩ := ha
  obtain ⟨j, rfl⟩ := hb
  have hLess : i < j := Nat.lt_of_mul_lt_mul_left hLt
  calc d * i + d = d * (i + 1) := by ring
    _ ≤ d * j := Nat.mul_le_mul_left d hLess

theorem Aligned.subset {y : Block} (hx : x.Aligned) (hy : y.Aligned) (hOrder : x.order ≤ y.order)
    (hax : a ∈ x.cells) (hay : a ∈ y.cells) : x.cells ⊆ y.cells := by
  have hDvd : 2 ^ x.order ∣ 2 ^ y.order := Nat.pow_dvd_pow 2 hOrder
  have hStart : 2 ^ x.order ∣ y.base := hDvd.trans hy
  have hEnd : 2 ^ x.order ∣ y.base + 2 ^ y.order := Nat.dvd_add hStart hDvd
  rw [mem_cells] at hax hay
  have hLow : y.base ≤ x.base := by
    by_contra hNot
    have hStep := add_le_of_dvd hx hStart (not_le.mp hNot)
    omega
  have hHigh := add_le_of_dvd hx hEnd (by omega)
  intro b hb
  rw [mem_cells] at hb ⊢
  omega

theorem Aligned.eq_of_mem {y : Block} (hx : x.Aligned) (hy : y.Aligned) (hOrder : x.order = y.order)
    (hax : a ∈ x.cells) (hay : a ∈ y.cells) : x = y := by
  have hBelow := hx.subset hy hOrder.le hax hay x.base_mem
  have hAbove := hy.subset hx hOrder.symm.le hay hax y.base_mem
  rw [mem_cells] at hBelow hAbove
  cases x
  cases y
  simp only [mk.injEq] at hBelow hAbove hOrder ⊢
  omega

end Block

theorem sdiff_union_part {U A B : Set Nat} (hApart : Disjoint A B) (hInside : B ⊆ U) : U \ (A ∪ B) ∪ B = U \ A := by
  ext a
  simp only [Set.mem_union, Set.mem_sdiff, not_or]
  constructor
  · rintro (⟨hU, hA, -⟩ | hB)
    · exact ⟨hU, hA⟩
    · exact ⟨hInside hB, fun hA => Set.disjoint_left.mp hApart hA hB⟩
  · rintro ⟨hU, hA⟩
    obtain hB | hB := Classical.em (a ∈ B)
    · exact .inr hB
    · exact .inl ⟨hU, hA, hB⟩

structure Carved (F : Set Block) (U : Set Nat) : Prop where
  aligned : ∀ x ∈ F, x.Aligned
  apart : ∀ x ∈ F, ∀ y ∈ F, x ≠ y → Disjoint x.cells y.cells
  cover : ∀ a, a ∈ U ↔ ∃ x ∈ F, a ∈ x.cells

def Reduced (top : Nat) (F : Set Block) : Prop := ∀ x ∈ F, x.order < top → x.buddy ∉ F

variable {F G : Set Block} {U : Set Nat} {x y : Block} {top : Nat}

theorem carved_empty : Carved ∅ ∅ :=
  ⟨fun _ h => h.elim, fun _ h => h.elim, fun _ => ⟨fun h => h.elim, fun ⟨_, h, _⟩ => h.elim⟩⟩

theorem Carved.subset (h : Carved F U) (hx : x ∈ F) : x.cells ⊆ U := fun a ha => (h.cover a).mpr ⟨x, hx, ha⟩

theorem Carved.eq_of_mem (h : Carved F U) (hx : x ∈ F) (hy : y ∈ F) {a : Nat} (hax : a ∈ x.cells)
    (hay : a ∈ y.cells) : x = y := by
  by_contra hNe
  exact Set.disjoint_left.mp (h.apart x hx y hy hNe) hax hay

theorem Carved.insert (h : Carved F U) (hx : x.Aligned) (hApart : Disjoint x.cells U) :
    Carved (insert x F) (U ∪ x.cells) := by
  refine ⟨?_, ?_, ?_⟩
  · rintro y (rfl | hy)
    · exact hx
    · exact h.aligned y hy
  · rintro y (rfl | hy) z (rfl | hz) hNe
    · exact absurd rfl hNe
    · exact hApart.mono_right (h.subset hz)
    · exact (hApart.mono_right (h.subset hy)).symm
    · exact h.apart y hy z hz hNe
  · intro a
    rw [Set.mem_union, h.cover]
    constructor
    · rintro (⟨y, hy, ha⟩ | ha)
      · exact ⟨y, Set.mem_insert_of_mem x hy, ha⟩
      · exact ⟨x, Set.mem_insert x F, ha⟩
    · rintro ⟨y, rfl | hy, ha⟩
      · exact .inr ha
      · exact .inl ⟨y, hy, ha⟩

theorem Carved.remove (h : Carved F U) (hx : x ∈ F) : Carved (F \ {x}) (U \ x.cells) := by
  refine ⟨fun y hy => h.aligned y hy.1, fun y hy z hz => h.apart y hy.1 z hz.1, ?_⟩
  intro a
  rw [Set.mem_sdiff, h.cover]
  constructor
  · rintro ⟨⟨y, hy, ha⟩, hNot⟩
    refine ⟨y, ⟨hy, ?_⟩, ha⟩
    rintro rfl
    exact hNot ha
  · rintro ⟨y, ⟨hy, hNe⟩, ha⟩
    exact ⟨⟨y, hy, ha⟩, fun hax => hNe (h.eq_of_mem hy hx ha hax)⟩

theorem Reduced.mono (h : Reduced top F) (hSome : G ⊆ F) : Reduced top G :=
  fun x hx hBelow hBuddy => h x (hSome hx) hBelow (hSome hBuddy)

theorem Reduced.insert (h : Reduced top F) (hx : x.Aligned) (hAlone : x.order < top → x.buddy ∉ F) :
    Reduced top (insert x F) := by
  rintro y (rfl | hy) hBelow (hEq | hBuddy)
  · exact hx.buddy_ne hEq
  · exact hAlone hBelow hBuddy
  · have hBack : x.buddy = y := by rw [← hEq, Block.buddy_buddy]
    have hOrder : x.order = y.order := by rw [← hBack, Block.buddy_order]
    exact hAlone (hOrder ▸ hBelow) (hBack ▸ hy)
  · exact h y hy hBelow hBuddy

theorem Carved.buddies_inside (h : Carved G U) (hx : x.Aligned)
    (hCovered : ∀ a ∈ x.cells, ∃ y ∈ G, a ∈ y.cells ∧ y.order < x.order) :
    ∃ y ∈ G, y.order < x.order ∧ y.buddy ∈ G := by
  classical
  have hSome : ∃ n, ∃ y ∈ G, y.order = n ∧ y.order < x.order ∧ ∃ a ∈ x.cells, a ∈ y.cells := by
    obtain ⟨y, hy, ha, hLess⟩ := hCovered x.base x.base_mem
    exact ⟨y.order, y, hy, rfl, hLess, x.base, x.base_mem, ha⟩
  -- the smallest block inside; its buddy's place holds no smaller one and no larger one
  obtain ⟨y, hy, hOrder, hLess, a, hax, hay⟩ := Nat.find_spec hSome
  have hMin : ∀ z ∈ G, z.order < x.order → (∃ b ∈ x.cells, b ∈ z.cells) → y.order ≤ z.order := by
    intro z hz hzLess hMeet
    rw [hOrder]
    exact Nat.find_min' hSome ⟨z, hz, rfl, hzLess, hMeet⟩
  have hyAligned := h.aligned y hy
  have hParent : y.parent.cells ⊆ x.cells := by
    apply hyAligned.parent.subset hx hLess (a := a) _ hax
    rw [hyAligned.parent_cells]
    exact .inl hay
  have hBuddyInside : y.buddy.base ∈ x.cells := by
    apply hParent
    rw [hyAligned.parent_cells]
    exact .inr y.buddy.base_mem
  obtain ⟨z, hz, hbz, hzLess⟩ := hCovered _ hBuddyInside
  refine ⟨y, hy, hLess, ?_⟩
  obtain hAbove | hSame := Nat.lt_or_eq_of_le (hMin z hz hzLess ⟨_, hBuddyInside, hbz⟩)
  · have hWhole : y.parent.cells ⊆ z.cells := by
      apply hyAligned.parent.subset (h.aligned z hz) hAbove (a := y.buddy.base) _ hbz
      rw [hyAligned.parent_cells]
      exact .inr y.buddy.base_mem
    have hay' : y.base ∈ z.cells := by
      apply hWhole
      rw [hyAligned.parent_cells]
      exact .inl y.base_mem
    have hEq := h.eq_of_mem hy hz y.base_mem hay'
    rw [hEq] at hAbove
    exact absurd hAbove (lt_irrefl _)
  · have hEq := hyAligned.buddy.eq_of_mem (h.aligned z hz) hSame y.buddy.base_mem hbz
    rwa [hEq]

theorem Carved.subset_of_reduced (hF : Carved F U) (hG : Carved G U) (hReduced : Reduced top G)
    (hTop : ∀ x ∈ F, x.order ≤ top) {n : Nat} (hAbove : ∀ x : Block, n < x.order → (x ∈ G ↔ x ∈ F)) :
    ∀ x ∈ F, x.order = n → x ∈ G := by
  rintro x hx rfl
  by_contra hNot
  have hCovered : ∀ a ∈ x.cells, ∃ y ∈ G, a ∈ y.cells ∧ y.order < x.order := by
    intro a ha
    obtain ⟨y, hy, hay⟩ := (hG.cover a).mp (hF.subset hx ha)
    refine ⟨y, hy, hay, ?_⟩
    obtain hLess | hSame | hMore := Nat.lt_trichotomy y.order x.order
    · exact hLess
    · rw [(hG.aligned y hy).eq_of_mem (hF.aligned x hx) hSame hay ha] at hy
      exact absurd hy hNot
    · have hEq := hF.eq_of_mem ((hAbove y hMore).mp hy) hx hay ha
      rw [hEq] at hMore
      exact absurd hMore (lt_irrefl _)
  obtain ⟨y, hy, hLess, hBuddy⟩ := hG.buddies_inside (hF.aligned x hx) hCovered
  exact hReduced y hy (hLess.trans_le (hTop x hx)) hBuddy

theorem Carved.unique (hF : Carved F U) (hG : Carved G U) (hReducedF : Reduced top F) (hReducedG : Reduced top G)
    (hTopF : ∀ x ∈ F, x.order ≤ top) (hTopG : ∀ x ∈ G, x.order ≤ top) : F = G := by
  have hAll : ∀ d n, top < n + d → ∀ x : Block, n ≤ x.order → (x ∈ F ↔ x ∈ G) := by
    intro d
    induction d with
    | zero =>
      intro n hBeyond x hOrder
      constructor
      · intro hx
        have hLe := hTopF x hx
        omega
      · intro hx
        have hLe := hTopG x hx
        omega
    | succ d ih =>
      intro n hBeyond x hOrder
      have hAbove := ih (n + 1) (by omega)
      obtain hMore | hHere := Nat.lt_or_eq_of_le hOrder
      · exact hAbove x hMore
      · constructor
        · intro hx
          exact hF.subset_of_reduced hG hReducedG hTopF (fun y hy => (hAbove y hy).symm) x hx hHere.symm
        · intro hx
          exact hG.subset_of_reduced hF hReducedF hTopG hAbove x hx hHere.symm
  ext x
  exact hAll (top + 1) 0 (by omega) x (Nat.zero_le _)

end Dyadic
