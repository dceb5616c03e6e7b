import Mathlib.Data.List.Chain

/-! # Regions tiled by blocks

A region is a list of blocks in address order. Every block has a header of a
fixed size before its payload, so the addresses follow from the sizes.
-/

namespace Tiling

structure Block where
  size : Nat
  free : Bool
  deriving DecidableEq, Repr

variable (header : Nat)

def span : List Block → Nat
  | [] => 0
  | b :: l => header + b.size + span l

def placed (start : Nat) : List Block → List (Nat × Block)
  | [] => []
  | b :: l => (start, b) :: placed (start + header + b.size) l

/-- The address of the last block, or `prev` where there is none. -/
def lastAddress (prev start : Nat) : List Block → Nat
  | [] => prev
  | b :: l => lastAddress start (start + header + b.size) l

def freeTotal : List Block → Nat
  | [] => 0
  | b :: l => (if b.free then b.size else 0) + freeTotal l

def usedTotal : List Block → Nat
  | [] => 0
  | b :: l => (if b.free then 0 else b.size) + usedTotal l

def largest : List Block → Nat
  | [] => 0
  | b :: l => max (if b.free then b.size else 0) (largest l)

def Coalesced (l : List Block) : Prop := l.IsChain fun b c => b.free = false ∨ c.free = false

variable {header}

@[simp] theorem span_nil : span header [] = 0 := rfl

@[simp] theorem span_cons (b : Block) (l : List Block) : span header (b :: l) = header + b.size + span header l :=
  rfl

@[simp] theorem span_append (l l' : List Block) : span header (l ++ l') = span header l + span header l' := by
  induction l with
  | nil => simp
  | cons b l ih =>
    rw [List.cons_append, span_cons, span_cons, ih]
    omega

@[simp] theorem freeTotal_append (l l' : List Block) : freeTotal (l ++ l') = freeTotal l + freeTotal l' := by
  induction l with
  | nil => simp [freeTotal]
  | cons b l ih =>
    rw [List.cons_append, freeTotal, freeTotal, ih]
    omega

@[simp] theorem usedTotal_append (l l' : List Block) : usedTotal (l ++ l') = usedTotal l + usedTotal l' := by
  induction l with
  | nil => simp [usedTotal]
  | cons b l ih =>
    rw [List.cons_append, usedTotal, usedTotal, ih]
    omega

theorem totals_le_span (l : List Block) : freeTotal l + usedTotal l + header * l.length = span header l := by
  induction l with
  | nil => rfl
  | cons b l ih =>
    rw [freeTotal, usedTotal, span_cons, List.length_cons, Nat.mul_succ, ← ih]
    cases b.free
    · simp only [Bool.false_eq_true, if_false]
      omega
    · simp only [if_true]
      omega

theorem largest_le_freeTotal (l : List Block) : largest l ≤ freeTotal l := by
  induction l with
  | nil => exact le_rfl
  | cons b l ih =>
    rw [largest, freeTotal]
    omega

variable {l l' pre post : List Block} {b : Block} {n start c d : Nat}

theorem size_le_largest (hMem : b ∈ l) (hFree : b.free) : b.size ≤ largest l := by
  induction l with
  | nil => cases hMem
  | cons c l ih =>
    rw [largest]
    cases hMem with
    | head =>
      rw [if_pos hFree]
      exact le_max_left _ _
    | tail _ hRest => exact (ih hRest).trans (le_max_right _ _)

theorem largest_lt (hPos : 0 < n) (hSmall : ∀ b ∈ l, b.free → b.size < n) : largest l < n := by
  induction l with
  | nil => exact hPos
  | cons b l ih =>
    have hRest := ih fun c hMem => hSmall c (.tail _ hMem)
    have hHead := hSmall b (.head _)
    rw [largest]
    split
    · rename_i hFree
      have hSize := hHead hFree
      omega
    · omega

theorem placed_append (start : Nat) (l l' : List Block) :
    placed header start (l ++ l') = placed header start l ++ placed header (start + span header l) l' := by
  induction l generalizing start with
  | nil => simp [placed]
  | cons b l ih =>
    have hStart : start + header + b.size + span header l = start + (header + b.size + span header l) := by omega
    rw [List.cons_append, placed, placed, ih, span_cons, List.cons_append, hStart]

theorem placed_bounds
    (hMem : (c, b) ∈ placed header start l) : start ≤ c ∧ c + header + b.size ≤ start + span header l := by
  induction l generalizing start with
  | nil => cases hMem
  | cons d l ih =>
    rw [span_cons]
    cases hMem with
    | head => omega
    | tail _ hRest =>
      have hInner := ih hRest
      omega

theorem placed_split (hMem : (c, b) ∈ placed header start l) :
    ∃ pre post, l = pre ++ b :: post ∧ c = start + span header pre := by
  induction l generalizing start with
  | nil => cases hMem
  | cons d l ih =>
    cases hMem with
    | head => exact ⟨[], l, rfl, rfl⟩
    | tail _ hRest =>
      obtain ⟨pre, post, rfl, rfl⟩ := ih hRest
      refine ⟨d :: pre, post, rfl, ?_⟩
      rw [span_cons]
      omega

theorem lastAddress_snoc (prev start : Nat) (l : List Block) (b : Block) :
    lastAddress header prev start (l ++ [b]) = start + span header l := by
  induction l generalizing prev start with
  | nil => rfl
  | cons c l ih =>
    rw [List.cons_append, lastAddress, ih, span_cons]
    omega

theorem mem_placed_append (pre : List Block) (b : Block) (post : List Block) :
    (start + span header pre, b) ∈ placed header start (pre ++ b :: post) := by
  rw [placed_append, placed]
  exact List.mem_append_right _ (.head _)

theorem placed_apart {e : Block}
    (hb : (c, b) ∈ placed header start l) (he : (d, e) ∈ placed header start l) (hNe : c ≠ d) :
    c + header + b.size ≤ d ∨ d + header + e.size ≤ c := by
  induction l generalizing start with
  | nil => cases hb
  | cons f l ih =>
    cases hb with
    | head =>
      cases he with
      | head => exact absurd rfl hNe
      | tail _ hRest => exact .inl (placed_bounds hRest).1
    | tail _ hRest =>
      cases he with
      | head => exact .inr (placed_bounds hRest).1
      | tail _ hRest' => exact ih hRest hRest'

theorem placed_unique (hHeader : 0 < header) {e : Block}
    (hb : (c, b) ∈ placed header start l) (he : (c, e) ∈ placed header start l) : b = e := by
  induction l generalizing start with
  | nil => cases hb
  | cons f l ih =>
    cases hb with
    | head =>
      cases he with
      | head => rfl
      | tail _ hRest =>
        have hLow := (placed_bounds hRest).1
        omega
    | tail _ hRest =>
      cases he with
      | head =>
        have hLow := (placed_bounds hRest).1
        omega
      | tail _ hRest' => exact ih hRest hRest'

variable (header) in
/-- A used block of `n` bytes at `d`. -/
def UsedAt (start : Nat) (l : List Block) (d n : Nat) : Prop := (d, ⟨n, false⟩) ∈ placed header start l

theorem usedAt_append : UsedAt header start (l ++ l') d n ↔
      UsedAt header start l d n ∨ UsedAt header (start + span header l) l' d n := by
  rw [UsedAt, placed_append, List.mem_append]
  rfl

theorem usedAt_free {s : Nat} :
    UsedAt header start (⟨s, true⟩ :: l) d n ↔ UsedAt header (start + header + s) l d n := by
  rw [UsedAt, placed, List.mem_cons]
  constructor
  · rintro (hHere | hRest)
    · cases hHere
    · exact hRest
  · exact .inr

theorem usedAt_used {s : Nat} :
    UsedAt header start (⟨s, false⟩ :: l) d n ↔ d = start ∧ n = s ∨ UsedAt header (start + header + s) l d n := by
  rw [UsedAt, placed, List.mem_cons, Prod.mk.injEq, Block.mk.injEq]
  constructor
  · rintro (⟨rfl, rfl, -⟩ | hRest)
    · exact .inl ⟨rfl, rfl⟩
    · exact .inr hRest
  · rintro (⟨rfl, rfl⟩ | hRest)
    · exact .inl ⟨rfl, rfl, rfl⟩
    · exact .inr hRest

theorem all_free (hNone : ∀ d n, ¬ UsedAt header start l d n) : ∀ b ∈ l, b.free := by
  induction l generalizing start with
  | nil => exact nofun
  | cons c l ih =>
    obtain ⟨s, free⟩ := c
    cases free with
    | false => exact absurd (usedAt_used.mpr (.inl ⟨rfl, rfl⟩)) (hNone start s)
    | true =>
      intro b hMem
      cases hMem with
      | head => rfl
      | tail _ hRest => exact ih (fun d n hUsed => hNone d n (usedAt_free.mpr hUsed)) b hRest

theorem Coalesced.marked (h : Coalesced (pre ++ b :: post)) (n : Nat) : Coalesced (pre ++ ⟨n, false⟩ :: post) := by
  rw [Coalesced, List.isChain_split] at h ⊢
  obtain ⟨hPre, hPost⟩ := h
  constructor
  · rw [List.isChain_append] at hPre ⊢
    refine ⟨hPre.1, List.isChain_singleton _, ?_⟩
    intro c _ d hd
    obtain rfl : d = ⟨n, false⟩ := by simpa using hd.symm
    exact .inr rfl
  · rw [List.isChain_cons] at hPost ⊢
    exact ⟨fun _ _ => .inl rfl, hPost.2⟩

theorem Coalesced.freed (hPre : Coalesced pre) (hPost : Coalesced post)
    (hLast : ∀ b ∈ pre.getLast?, b.free = false) (hHead : ∀ b ∈ post.head?, b.free = false) (b : Block) :
    Coalesced (pre ++ b :: post) := by
  rw [Coalesced, List.isChain_append]
  refine ⟨hPre, ?_, ?_⟩
  · rw [List.isChain_cons]
    exact ⟨fun c hc => .inr (hHead c hc), hPost⟩
  · intro c hc _ _
    exact .inl (hLast c hc)

theorem Coalesced.head_used (h : Coalesced (b :: post)) (hFree : b.free) : ∀ c ∈ post.head?, c.free = false := by
  rw [Coalesced, List.isChain_cons] at h
  intro c hc
  obtain hUsed | hUsed := h.1 c hc
  · rw [hFree] at hUsed
    cases hUsed
  · exact hUsed

theorem Coalesced.last_used (h : Coalesced (pre ++ [b])) (hFree : b.free) : ∀ c ∈ pre.getLast?, c.free = false := by
  rw [Coalesced, List.isChain_append] at h
  intro c hc
  obtain hUsed | hUsed := h.2.2 c hc b rfl
  · exact hUsed
  · rw [hFree] at hUsed
    cases hUsed

theorem Coalesced.left (h : Coalesced (l ++ l')) : Coalesced l := List.IsChain.left_of_append h

theorem Coalesced.right (h : Coalesced (l ++ l')) : Coalesced l' := List.IsChain.right_of_append h

theorem Coalesced.single (h : Coalesced l) (hFree : ∀ b ∈ l, b.free) (hNonempty : l ≠ []) : ∃ b, l = [b] := by
  cases l with
  | nil => exact absurd rfl hNonempty
  | cons b l =>
    cases l with
    | nil => exact ⟨b, rfl⟩
    | cons c l =>
      have hUsed := h.head_used (hFree b (.head _)) c rfl
      rw [hFree c (.tail _ (.head _))] at hUsed
      cases hUsed

end Tiling
