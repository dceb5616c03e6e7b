import OpenXJ380.Heap.Model
import OpenXJ380.Lib.Tiling

/-! # Blocks in memory

A tiled region is in memory when every header holds the size, the state and the
two links of its block. Addresses are natural numbers, pointers their words.
-/

namespace OpenXJ380.Heap

open BitVec (ofNat toNat_ofNat)

section

open ByteMemory Tiling

section

variable {m m' : Memory} {a : Nat}

theorem Field.offset_le (f : Field) : f.offset.toNat ≤ 20 := by
  cases f <;> decide

theorem Field.offset_apart {f g : Field} (hNe : f ≠ g) :
    f.offset.toNat + 4 ≤ g.offset.toNat ∨ g.offset.toNat + 4 ≤ f.offset.toNat := by
  cases f <;> cases g <;> first | exact absurd rfl hNe | decide

theorem field_address {b : U32} (hFits : b.toNat + 24 ≤ 2 ^ 32) (f : Field) :
    (b + f.offset).toNat = b.toNat + f.offset.toNat := by
  have hOffset := f.offset_le
  rw [BitVec.toNat_add]
  omega

theorem pointer_toNat (hFits : a < 2 ^ 32) : (ofNat 32 a).toNat = a := by
  rw [toNat_ofNat]
  omega

theorem field_congr {b : U32} (hFits : b.toNat + 24 ≤ 2 ^ 32) (h : Agree m m' b.toNat (b.toNat + 24))
    (f : Field) : field m' b f = field m b f := by
  have hOffset := f.offset_le
  apply load_congr
  · rw [field_address hFits]
    omega
  · rw [field_address hFits]
    exact h.mono (by omega) (by omega)

variable {lo hi : Nat}

theorem setField_agree (m : Memory) {b : U32} (hFits : b.toNat + 24 ≤ 2 ^ 32) (f : Field) (w : U32)
    (hApart : hi ≤ b.toNat ∨ b.toNat + 24 ≤ lo) : Agree m (setField m b f w) lo hi := by
  have hOffset := f.offset_le
  apply store_agree
  · rw [field_address hFits]
    omega
  · rw [field_address hFits]
    omega

theorem setField_agree_at (m : Memory) (hFits : a + 24 ≤ 2 ^ 32) (f : Field) (w : U32)
    (hApart : hi ≤ a ∨ a + 24 ≤ lo) : Agree m (setField m (ofNat 32 a) f w) lo hi := by
  have hPointer : (ofNat 32 a).toNat = a := pointer_toNat (by omega)
  apply setField_agree
  · rwa [hPointer]
  · rwa [hPointer]

@[simp] theorem field_setField (m : Memory) (b : U32) (f : Field) (w : U32) : field (setField m b f w) b f = w :=
  load_store _ _ _

theorem field_setField_ne (m : Memory) {b : U32} (hFits : b.toNat + 24 ≤ 2 ^ 32) {f g : Field} (hNe : f ≠ g)
    (w : U32) : field (setField m b f w) b g = field m b g := by
  have hF := f.offset_le
  have hG := g.offset_le
  apply load_store_apart
  · rw [field_address hFits]
    omega
  · rw [field_address hFits]
    omega
  · rw [field_address hFits, field_address hFits]
    have hApart := Field.offset_apart hNe
    omega

theorem initHeader_agree (m : Memory) {b : U32} (hFits : b.toNat + 24 ≤ 2 ^ 32) (state size : U32)
    (hApart : hi ≤ b.toNat ∨ b.toNat + 24 ≤ lo) : Agree m (initHeader m b state size) lo hi := by
  have hStep := fun (m : Memory) (f : Field) (w : U32) => setField_agree m hFits f w hApart
  exact (((((hStep _ _ _).trans (hStep _ _ _)).trans (hStep _ _ _)).trans (hStep _ _ _)).trans
    (hStep _ _ _)).trans (hStep _ _ _)

def stateOf (b : Block) : U32 := if b.free then heapStateFree else heapStateUsed

/-- The header of a block at `a` between the links `prev` and `next`. -/
structure Node (m : Memory) (a prev next : Nat) (b : Block) : Prop where
  magic : field m (ofNat 32 a) .magic = heapMagic
  state : field m (ofNat 32 a) .state = stateOf b
  size : field m (ofNat 32 a) .size = ofNat 32 b.size
  next : field m (ofNat 32 a) .next = ofNat 32 next
  prev : field m (ofNat 32 a) .prev = ofNat 32 prev

variable {prev next : Nat} {b : Block}

section

variable (h : Node m a prev next b)

include h

variable (hFits : a + 24 ≤ 2 ^ 32)

include hFits

theorem Node.congr (hAgree : Agree m m' a (a + 24)) : Node m' a prev next b := by
  have hPointer : (ofNat 32 a).toNat = a := pointer_toNat (by omega)
  have hSame : ∀ f, field m' (ofNat 32 a) f = field m (ofNat 32 a) f :=
    field_congr (by rwa [hPointer]) (by rwa [hPointer])
  exact ⟨(hSame _).trans h.magic, (hSame _).trans h.state, (hSame _).trans h.size, (hSame _).trans h.next,
    (hSame _).trans h.prev⟩

theorem Node.setSize (n : Nat) : Node (setField m (ofNat 32 a) .size (ofNat 32 n)) a prev next ⟨n, b.free⟩ := by
  have hOther := fun (f : Field) (hNe : Field.size ≠ f) => field_setField_ne m (b := ofNat 32 a)
    (by rw [pointer_toNat (by omega)]; exact hFits) hNe (ofNat 32 n)
  exact ⟨(hOther _ (by decide)).trans h.magic, (hOther _ (by decide)).trans h.state, field_setField _ _ _ _,
    (hOther _ (by decide)).trans h.next, (hOther _ (by decide)).trans h.prev⟩

theorem Node.setNext (n : Nat) : Node (setField m (ofNat 32 a) .next (ofNat 32 n)) a prev n b := by
  have hOther := fun (f : Field) (hNe : Field.next ≠ f) => field_setField_ne m (b := ofNat 32 a)
    (by rw [pointer_toNat (by omega)]; exact hFits) hNe (ofNat 32 n)
  exact ⟨(hOther _ (by decide)).trans h.magic, (hOther _ (by decide)).trans h.state,
    (hOther _ (by decide)).trans h.size, field_setField _ _ _ _, (hOther _ (by decide)).trans h.prev⟩

theorem Node.setPrev (n : Nat) : Node (setField m (ofNat 32 a) .prev (ofNat 32 n)) a n next b := by
  have hOther := fun (f : Field) (hNe : Field.prev ≠ f) => field_setField_ne m (b := ofNat 32 a)
    (by rw [pointer_toNat (by omega)]; exact hFits) hNe (ofNat 32 n)
  exact ⟨(hOther _ (by decide)).trans h.magic, (hOther _ (by decide)).trans h.state,
    (hOther _ (by decide)).trans h.size, (hOther _ (by decide)).trans h.next, field_setField _ _ _ _⟩

theorem Node.setState (free : Bool) :
    Node (setField m (ofNat 32 a) .state (stateOf ⟨b.size, free⟩)) a prev next ⟨b.size, free⟩ := by
  have hOther := fun (f : Field) (hNe : Field.state ≠ f) => field_setField_ne m (b := ofNat 32 a)
    (by rw [pointer_toNat (by omega)]; exact hFits) hNe (stateOf ⟨b.size, free⟩)
  exact ⟨(hOther _ (by decide)).trans h.magic, field_setField _ _ _ _, (hOther _ (by decide)).trans h.size,
    (hOther _ (by decide)).trans h.next, (hOther _ (by decide)).trans h.prev⟩

end

theorem initHeader_node (m : Memory) (hFits : a + 24 ≤ 2 ^ 32) (n : Nat) :
    Node (initHeader m (ofNat 32 a) heapStateFree (ofNat 32 n)) a 0 0 ⟨n, true⟩ := by
  have hOther := fun (m : Memory) (f g : Field) (hNe : f ≠ g) (w : U32) =>
    field_setField_ne m (b := ofNat 32 a) (by rw [pointer_toNat (by omega)]; exact hFits) hNe w
  refine ⟨?_, ?_, ?_, ?_, ?_⟩
  · rw [initHeader, hOther _ _ _ (by decide), hOther _ _ _ (by decide), hOther _ _ _ (by decide),
      hOther _ _ _ (by decide), hOther _ _ _ (by decide), field_setField]
  · rw [initHeader, hOther _ _ _ (by decide), hOther _ _ _ (by decide), hOther _ _ _ (by decide),
      hOther _ _ _ (by decide), field_setField]
    rfl
  · rw [initHeader, hOther _ _ _ (by decide), hOther _ _ _ (by decide), hOther _ _ _ (by decide), field_setField]
  · rw [initHeader, hOther _ _ _ (by decide), hOther _ _ _ (by decide), field_setField]
    rfl
  · rw [initHeader, hOther _ _ _ (by decide), field_setField]
    rfl

end

/-- The blocks from `a` on, after the block `prev`; the last one links to `stop`. -/
def Chain (m : Memory) (prev a : Nat) : List Block → Nat → Prop
  | [], _ => True
  | b :: l, stop => Node m a prev (if l = [] then stop else a + 24 + b.size) b ∧ Chain m a (a + 24 + b.size) l stop

variable {m m' : Memory} {prev a stop : Nat} {l : List Block}

theorem Chain.congr (h : Chain m prev a l stop) (hFits : a + span 24 l ≤ 2 ^ 32)
    (hAgree : ∀ c b, (c, b) ∈ placed 24 a l → Agree m m' c (c + 24)) : Chain m' prev a l stop := by
  induction l generalizing prev a with
  | nil => trivial
  | cons b l ih =>
    rw [span_cons] at hFits
    refine ⟨h.1.congr (by omega) (hAgree a b (.head _)), ih h.2 (by omega) ?_⟩
    intro c d hMem
    exact hAgree c d (.tail _ hMem)

theorem Chain.congr_region (h : Chain m prev a l stop) (hFits : a + span 24 l ≤ 2 ^ 32)
    (hAgree : Agree m m' a (a + span 24 l)) : Chain m' prev a l stop := by
  apply h.congr hFits
  intro c b hMem
  have hBounds := placed_bounds hMem
  exact hAgree.mono hBounds.1 (by omega)

theorem chain_append (pre l : List Block) : Chain m prev a (pre ++ l) stop ↔
      Chain m prev a pre (if l = [] then stop else a + span 24 pre) ∧
        Chain m (lastAddress 24 prev a pre) (a + span 24 pre) l stop := by
  induction pre generalizing prev a with
  | nil => simp [Chain, lastAddress]
  | cons b pre ih =>
    have hStart : a + (24 + b.size + span 24 pre) = a + 24 + b.size + span 24 pre := by omega
    rw [List.cons_append, Chain, ih, span_cons, lastAddress, hStart, Chain, and_assoc]
    cases pre with
    | nil =>
      cases l <;> simp
    | cons c pre => simp

def startOf (e : Nat) (l : List Block) : Nat := if l = [] then 0 else e

theorem linkBack_agree (m : Memory) {e : Nat} (w : U32)
    (hFits : e + span 24 l ≤ 2 ^ 32) {lo hi : Nat} (hApart : hi ≤ e ∨ e + 24 ≤ lo) :
    Agree m (linkBack m (ofNat 32 (startOf e l)) w) lo hi := by
  have hEnd : l ≠ [] → e + 24 ≤ 2 ^ 32 := by
    intro hSome
    obtain ⟨b, rest, rfl⟩ := List.exists_cons_of_ne_nil hSome
    rw [span_cons] at hFits
    omega
  rw [linkBack]
  split
  · rename_i hNonzero
    rw [startOf] at hNonzero ⊢
    split at hNonzero
    · exact absurd rfl hNonzero
    · rename_i hSome
      rw [if_neg hSome]
      exact setField_agree_at m (hEnd hSome) .prev w hApart
  · exact .refl _ _ _

theorem Chain.linkBack (h : Chain m prev a l 0) (hPos : 0 < a) (hFits : a + span 24 l ≤ 2 ^ 32) (v : Nat) :
    Chain (linkBack m (ofNat 32 (startOf a l)) (ofNat 32 v)) v a l 0 := by
  cases l with
  | nil => trivial
  | cons b l =>
    rw [span_cons] at hFits
    have hPointer : (ofNat 32 a).toNat = a := pointer_toNat (by omega)
    have hNonzero : ofNat 32 a ≠ 0 := by
      intro hZero
      rw [hZero] at hPointer
      exact absurd hPointer hPos.ne
    rw [startOf, if_neg (List.cons_ne_nil b l), Heap.linkBack, if_pos hNonzero]
    refine ⟨h.1.setPrev (by omega) v, ?_⟩
    apply h.2.congr_region (by omega)
    exact setField_agree_at m (by omega) .prev _ (.inr (Nat.le_add_right _ _))

end

/-! # Splitting and joining blocks

Each edit rewrites the headers at one place of the chain and leaves all other
bytes alone.
-/

open ByteMemory Tiling

variable {h : HeapT} {prev a s t : Nat} {f g : Bool} {post : List Block}

theorem ofNat_add (x y : Nat) : ofNat 32 x + ofNat 32 y = ofNat 32 (x + y) :=
  (BitVec.ofNat_add x y).symm

theorem header_eq : heapHeaderSize = ofNat 32 24 := rfl

theorem heapAbsorb_mem (hChain : Chain h.mem prev a (⟨s, f⟩ :: ⟨t, g⟩ :: post) 0)
    (hFits : a + span 24 (⟨s, f⟩ :: ⟨t, g⟩ :: post) ≤ 2 ^ 32) :
    (heapAbsorb h (ofNat 32 a) (ofNat 32 (a + 24 + s))).mem =
      linkBack (setField (setField h.mem (ofNat 32 a) .size (ofNat 32 (s + (24 + t))))
        (ofNat 32 a) .next (ofNat 32 (startOf (a + 24 + s + 24 + t) post)))
        (ofNat 32 (startOf (a + 24 + s + 24 + t) post)) (ofNat 32 a) := by
  simp only [span_cons] at hFits
  have hKeep := hChain.1
  have hVictim : Node h.mem (a + 24 + s) a (startOf (a + 24 + s + 24 + t) post) ⟨t, g⟩ := hChain.2.1
  have hNext : ∀ m, Agree h.mem m (a + 24 + s) (a + 24 + s + 24) →
      field m (ofNat 32 (a + 24 + s)) .next = ofNat 32 (startOf (a + 24 + s + 24 + t) post) :=
    fun m hAgree => (hVictim.congr (by omega) hAgree).next
  have hSet := fun (m : Memory) (k : Field) (w : U32) =>
    @setField_agree_at a (a + 24 + s) (a + 24 + s + 24) m (by omega) k w (.inr (by omega))
  simp only [heapAbsorb, hKeep.size, hVictim.size, header_eq, ofNat_add]
  rw [hNext _ (hSet _ _ _), hNext _ ((hSet _ _ _).trans (hSet _ _ _))]

variable {lo hi r : Nat}

theorem heapAbsorb_agree (hChain : Chain h.mem prev a (⟨s, f⟩ :: ⟨t, g⟩ :: post) 0)
    (hFits : a + span 24 (⟨s, f⟩ :: ⟨t, g⟩ :: post) ≤ 2 ^ 32) (hKeep : hi ≤ a ∨ a + 24 ≤ lo)
    (hNext : hi ≤ a + 24 + s + 24 + t ∨ a + 24 + s + 24 + t + 24 ≤ lo) :
    Agree h.mem (heapAbsorb h (ofNat 32 a) (ofNat 32 (a + 24 + s))).mem lo hi := by
  rw [heapAbsorb_mem hChain hFits]
  simp only [span_cons] at hFits
  have hSet := fun (m : Memory) (k : Field) (w : U32) => @setField_agree_at a lo hi m (by omega) k w hKeep
  exact ((hSet _ _ _).trans (hSet _ _ _)).trans (linkBack_agree _ _ (by omega) hNext)

theorem heapAbsorb_chain (hChain : Chain h.mem prev a (⟨s, f⟩ :: ⟨t, g⟩ :: post) 0)
    (hFits : a + span 24 (⟨s, f⟩ :: ⟨t, g⟩ :: post) ≤ 2 ^ 32) :
    Chain (heapAbsorb h (ofNat 32 a) (ofNat 32 (a + 24 + s))).mem prev a (⟨s + (24 + t), f⟩ :: post) 0 := by
  rw [heapAbsorb_mem hChain hFits]
  simp only [span_cons] at hFits
  have hStart : a + 24 + (s + (24 + t)) = a + 24 + s + 24 + t := by omega
  have hKeep := (hChain.1.setSize (by omega) (s + (24 + t))).setNext (by omega) (startOf (a + 24 + s + 24 + t) post)
  have hOld : Chain h.mem (a + 24 + s) (a + 24 + s + 24 + t) post 0 := hChain.2.2
  have hSet := fun (m : Memory) (k : Field) (w : U32) =>
    @setField_agree_at a (a + 24 + s + 24 + t) (a + 24 + s + 24 + t + span 24 post) m (by omega) k w (.inr (by omega))
  have hPost := hOld.congr_region (by omega) ((hSet _ .size (ofNat 32 (s + (24 + t)))).trans
    (hSet _ .next (ofNat 32 (startOf (a + 24 + s + 24 + t) post))))
  constructor
  · simp only [hStart]
    exact hKeep.congr (by omega) (linkBack_agree _ _ (by omega) (.inl (by omega)))
  · simp only [hStart]
    exact hPost.linkBack (by omega) (by omega) a

theorem ofNat_sub {x y : Nat} (hLe : y ≤ x) (hFits : x < 2 ^ 32) : ofNat 32 x - ofNat 32 y = ofNat 32 (x - y) := by
  apply BitVec.eq_of_toNat_eq
  rw [BitVec.toNat_sub, toNat_ofNat, toNat_ofNat, toNat_ofNat]
  omega

def restHeader (m : Memory) (r prev next n : Nat) : Memory :=
  setField (setField (initHeader m (ofNat 32 r) heapStateFree (ofNat 32 n))
    (ofNat 32 r) .next (ofNat 32 next)) (ofNat 32 r) .prev (ofNat 32 prev)

theorem restHeader_node (m : Memory) (hFits : r + 24 ≤ 2 ^ 32) (prev next n : Nat) :
    Node (restHeader m r prev next n) r prev next ⟨n, true⟩ :=
  ((initHeader_node m hFits n).setNext hFits next).setPrev hFits prev

theorem initHeader_agree_at (m : Memory) (hFits : r + 24 ≤ 2 ^ 32) (state size : U32)
    (hApart : hi ≤ r ∨ r + 24 ≤ lo) : Agree m (initHeader m (ofNat 32 r) state size) lo hi := by
  have hPointer : (ofNat 32 r).toNat = r := pointer_toNat (by omega)
  apply initHeader_agree
  · rwa [hPointer]
  · rwa [hPointer]

theorem restHeader_agree (m : Memory) (hFits : r + 24 ≤ 2 ^ 32) (prev next n : Nat)
    (hApart : hi ≤ r ∨ r + 24 ≤ lo) : Agree m (restHeader m r prev next n) lo hi :=
  ((initHeader_agree_at m hFits _ _ hApart).trans (setField_agree_at _ hFits _ _ hApart)).trans
    (setField_agree_at _ hFits _ _ hApart)

variable {n : Nat}

theorem heapSplit_mem (hChain : Chain h.mem prev a (⟨s, f⟩ :: post) 0)
    (hFits : a + span 24 (⟨s, f⟩ :: post) ≤ 2 ^ 32) (hLe : n + 24 ≤ s) :
    (heapSplit h (ofNat 32 a) (ofNat 32 n) (ofNat 32 (s - n))).mem = setField (setField (linkBack
        (restHeader h.mem (a + 24 + n) a (startOf (a + 24 + s) post) (s - n - 24))
        (ofNat 32 (startOf (a + 24 + s) post)) (ofNat 32 (a + 24 + n))) (ofNat 32 a) .next (ofNat 32 (a + 24 + n)))
        (ofNat 32 a) .size (ofNat 32 n) := by
  simp only [span_cons] at hFits
  have hBlock : Node h.mem a prev (startOf (a + 24 + s) post) ⟨s, f⟩ := hChain.1
  have hNext : ∀ m, Agree h.mem m a (a + 24) → field m (ofNat 32 a) .next = ofNat 32 (startOf (a + 24 + s) post) :=
    fun m hAgree => (hBlock.congr (by omega) hAgree).next
  have hInit := @initHeader_agree_at a (a + 24) (a + 24 + n) h.mem (by omega) heapStateFree
    (ofNat 32 (s - n - 24)) (.inl (by omega))
  have hRest := @restHeader_agree a (a + 24) (a + 24 + n) h.mem (by omega) a (startOf (a + 24 + s) post)
    (s - n - 24) (.inl (by omega))
  simp only [restHeader] at hRest ⊢
  simp only [heapSplit, header_eq, ofNat_add]
  rw [ofNat_sub (by omega) (by omega), hNext _ hInit, hNext _ hRest]

theorem heapSplit_agree (hChain : Chain h.mem prev a (⟨s, f⟩ :: post) 0)
    (hFits : a + span 24 (⟨s, f⟩ :: post) ≤ 2 ^ 32) (hLe : n + 24 ≤ s)
    (hBlock : hi ≤ a ∨ a + 24 + s ≤ lo) (hNext : hi ≤ a + 24 + s ∨ a + 24 + s + 24 ≤ lo) :
    Agree h.mem (heapSplit h (ofNat 32 a) (ofNat 32 n) (ofNat 32 (s - n))).mem lo hi := by
  rw [heapSplit_mem hChain hFits hLe]
  simp only [span_cons] at hFits
  have hRest := @restHeader_agree lo hi (a + 24 + n) h.mem (by omega) a (startOf (a + 24 + s) post) (s - n - 24)
    (by omega)
  have hSet := fun (m : Memory) (k : Field) (w : U32) =>
    @setField_agree_at a lo hi m (by omega) k w (by omega)
  exact ((hRest.trans (linkBack_agree _ _ (by omega) hNext)).trans (hSet _ _ _)).trans (hSet _ _ _)

theorem heapSplit_chain (hChain : Chain h.mem prev a (⟨s, true⟩ :: post) 0)
    (hFits : a + span 24 (⟨s, true⟩ :: post) ≤ 2 ^ 32) (hLe : n + 24 ≤ s) :
    Chain (heapSplit h (ofNat 32 a) (ofNat 32 n) (ofNat 32 (s - n))).mem prev a
      (⟨n, true⟩ :: ⟨s - n - 24, true⟩ :: post) 0 := by
  rw [heapSplit_mem hChain hFits hLe]
  simp only [span_cons] at hFits
  have hEnd : a + 24 + n + 24 + (s - n - 24) = a + 24 + s := by omega
  have hBlock : Node h.mem a prev (startOf (a + 24 + s) post) ⟨s, true⟩ := hChain.1
  have hOld : Chain h.mem a (a + 24 + s) post 0 := hChain.2
  have hRest := restHeader_node h.mem (r := a + 24 + n) (by omega) a (startOf (a + 24 + s) post) (s - n - 24)
  have hAgree := fun (lo hi : Nat) => @restHeader_agree lo hi (a + 24 + n) h.mem (by omega) a
    (startOf (a + 24 + s) post) (s - n - 24)
  have hLink := fun (m : Memory) (lo hi : Nat) => @linkBack_agree post m (a + 24 + s)
    (ofNat 32 (a + 24 + n)) (by omega) lo hi
  have hSet := fun (m : Memory) (k : Field) (w : U32) (lo hi : Nat) =>
    @setField_agree_at a lo hi m (by omega) k w
  have hFirst := hBlock.congr (by omega) ((hAgree a (a + 24) (.inl (by omega))).trans (hLink _ _ _ (.inl (by omega))))
  have hMiddle := hRest.congr (by omega) (((hLink _ _ _ (.inl (by omega))).trans
    (hSet _ .next (ofNat 32 (a + 24 + n)) _ _ (.inr (by omega)))).trans
    (hSet _ .size (ofNat 32 n) _ _ (.inr (by omega))))
  have hTail := hOld.congr_region (by omega) (hAgree (a + 24 + s) (a + 24 + s + span 24 post) (.inr (by omega)))
  have hLinked := hTail.linkBack (by omega) (by omega) (a + 24 + n)
  refine ⟨?_, ?_, ?_⟩
  · exact (hFirst.setNext (by omega) (a + 24 + n)).setSize (by omega) n
  · simp only [hEnd]
    exact hMiddle
  · simp only [hEnd]
    exact hLinked.congr_region (by omega) ((hSet _ .next (ofNat 32 (a + 24 + n)) _ _ (.inr (by omega))).trans
      (hSet _ .size (ofNat 32 n) _ _ (.inr (by omega))))

theorem setState_chain {m : Memory} (hChain : Chain m prev a (⟨s, f⟩ :: post) 0)
    (hFits : a + span 24 (⟨s, f⟩ :: post) ≤ 2 ^ 32) (free : Bool) :
    Chain (setField m (ofNat 32 a) .state (stateOf ⟨s, free⟩)) prev a (⟨s, free⟩ :: post) 0 := by
  simp only [span_cons] at hFits
  have hOld : Chain m a (a + 24 + s) post 0 := hChain.2
  refine ⟨hChain.1.setState (by omega) free, ?_⟩
  exact hOld.congr_region (by omega) (setField_agree_at m (by omega) .state _ (.inr (by omega)))

end OpenXJ380.Heap
