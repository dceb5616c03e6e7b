import OpenXJ380.Frames.Held
import OpenXJ380.Paging.Model

/-! # Frames by their addresses

What the allocator promises to the code that maps pages: a frame it hands out
was free, and one that is held goes back when it is given back.
-/

namespace OpenXJ380.Paging

open BitVec (eq_of_toNat_eq ofNat toNat_and toNat_ofNat)

open Buddy (countToBlockPages countToOrder orderValid orderValid_iff minOrder)
open Frames

def addressLimit : Nat := 2 ^ 52

/-- The frames of `free` can be handed out, and those of `held` are held once. -/
structure Funded (site : Site) (m : Machine) (free held : Set U64) : Prop where
  physical : site.memorySize ≤ addressLimit
  stock : ∃ W H, Stock site m.frames W H ∧
    (∀ a : U64, a ∈ free ↔ a.toNat % 4096 = 0 ∧ a.toNat ∈ W) ∧
        (∀ a : U64, a ∈ held ↔ a.toNat % 4096 = 0 ∧ a.toNat / 4096 ∈ H)

structure FrameAddress (a : U64) : Prop where
  nonzero : a ≠ 0
  aligned : a.toNat % 4096 = 0
  masked : a &&& pteAddrMask = a

variable {site : Site} {m m' : Machine} {free held : Set U64} {a b : U64}

theorem frameAddress_of_lt (hNonzero : a.toNat ≠ 0) (hAligned : a.toNat % 4096 = 0) (hLess : a.toNat < addressLimit) :
    FrameAddress a where
  nonzero := fun hZero => hNonzero (by rw [hZero]; rfl)
  aligned := hAligned
  masked := by
    have hMask : (pteAddrMask : U64) = (ofNat 64 (2 ^ 52 - 1)) &&& ~~~(ofNat 64 (2 ^ 12 - 1)) := by
      rw [pteAddrMask]
      decide
    have hHigh : a &&& ofNat 64 (2 ^ 52 - 1) = a := by
      apply eq_of_toNat_eq
      rw [toNat_and]
      change a.toNat &&& (2 ^ 52 - 1) = a.toNat
      rw [Nat.and_two_pow_sub_one_eq_mod]
      exact Nat.mod_eq_of_lt hLess
    have hLow : a &&& ofNat 64 (2 ^ 12 - 1) = 0#64 := by
      apply eq_of_toNat_eq
      rw [toNat_and]
      change a.toNat &&& (2 ^ 12 - 1) = 0
      rw [Nat.and_two_pow_sub_one_eq_mod]
      exact hAligned
    have hNot : a &&& ~~~(ofNat 64 (2 ^ 12 - 1)) = a := by
      have hSplit : a = (a &&& ofNat 64 (2 ^ 12 - 1)) ||| (a &&& ~~~(ofNat 64 (2 ^ 12 - 1))) := by
        rw [← BitVec.and_or_distrib_left, BitVec.or_not_self, BitVec.and_allOnes]
      rw [hLow, BitVec.zero_or] at hSplit
      exact hSplit.symm
    rw [hMask, ← BitVec.and_assoc, hHigh, hNot]

theorem Funded.address_of_managed {W H : Set Nat} {f : Nat} (hPhysical : site.memorySize ≤ addressLimit)
    (h : Stock site m.frames W H) (hManaged : Managed site.regions f) (hAt : a.toNat = f * 4096) : FrameAddress a := by
  obtain ⟨hBound, hNonzero⟩ := h.bound hManaged
  have hSize := h.ledger.memorySize
  refine frameAddress_of_lt ?_ ?_ ?_
  · omega
  · omega
  · omega

section

variable (h : Funded site m free held)

include h

theorem Funded.free_address (ha : a ∈ free) : FrameAddress a := by
  obtain ⟨W, H, hStock, hFree, -⟩ := h.stock
  obtain ⟨hAligned, hMem⟩ := (hFree a).mp ha
  exact address_of_managed h.physical hStock (hStock.ledger.pages _ hMem) (by omega)

theorem Funded.held_address (ha : a ∈ held) : FrameAddress a := by
  obtain ⟨W, H, hStock, -, hHeld⟩ := h.stock
  obtain ⟨hAligned, hMem⟩ := (hHeld a).mp ha
  exact address_of_managed h.physical hStock (hStock.managed _ hMem) (by omega)

theorem Funded.apart (ha : a ∈ held) : a ∉ free := by
  obtain ⟨W, H, hStock, hFree, hHeld⟩ := h.stock
  obtain ⟨hAligned, hMem⟩ := (hHeld a).mp ha
  intro hIn
  refine hStock.taken _ hMem ?_
  rw [Nat.div_mul_cancel (Nat.dvd_of_mod_eq_zero hAligned)]
  exact ((hFree a).mp hIn).2

theorem Funded.congr (hFrames : m'.frames = m.frames) : Funded site m' free held :=
  ⟨h.physical, by rw [hFrames]; exact h.stock⟩

end

def framesFrom (a : U64) (pages : Nat) : Set U64 :=
    {b | b.toNat % 4096 = 0 ∧ b.toNat / 4096 ∈ blockFrames a.toNat pages}

theorem framesFrom_one (hAligned : a.toNat % 4096 = 0) : framesFrom a (countToBlockPages 1) = {a} := by
  ext b
  have hBlock : blockFrames a.toNat (countToBlockPages 1) = {a.toNat / 4096} := Nat.Ico_succ_singleton _
  rw [framesFrom, Set.mem_ofPred_eq, hBlock, Finset.mem_singleton, Set.mem_singleton_iff]
  constructor
  · rintro ⟨hB, hSame⟩
    apply eq_of_toNat_eq
    omega
  · rintro rfl
    exact ⟨hAligned, rfl⟩

structure TakenBlock (site : Site) (m : Machine) (free held : Set U64) (count : Nat) (a : U64) : Prop where
  nonzero : a ≠ 0
  valid : orderValid (countToOrder count) = true
  whole : 2 ^ countToOrder count ∣ a.toNat
  inside : a.toNat + countToBlockPages count * 4096 ≤ site.memorySize
  wasFree : framesFrom a (countToBlockPages count) ⊆ free
  funded : ∀ m' : Machine, m'.frames = (allocFrames m.frames count).1 →
    Funded site m' (free \ framesFrom a (countToBlockPages count)) (held ∪ framesFrom a (countToBlockPages count))

theorem page_mul (hAligned : a.toNat % 4096 = 0) : a.toNat / 4096 * 4096 = a.toNat :=
  Nat.div_mul_cancel (Nat.dvd_of_mod_eq_zero hAligned)

theorem Funded.allocBlock (h : Funded site m free held) (count : Nat) :
    allocFrames m.frames count = (m.frames, 0) ∨
      ∃ a, (allocFrames m.frames count).2 = a.toNat ∧ TakenBlock site m free held count a := by
  obtain ⟨W, H, hStock, hFree, hHeld⟩ := h.stock
  obtain hNone | ⟨hNonzero, hHanded⟩ := hStock.alloc count
  · exact .inl hNone
  · right
    rcases hResult : allocFrames m.frames count with ⟨frames, addr⟩
    rw [hResult] at hHanded hNonzero
    obtain ⟨V, hAfter, hLeft⟩ := hHanded.stock
    have hLow : minOrder ≤ countToOrder count := (orderValid_iff.mp hHanded.valid).1
    have hDvd : 4096 ∣ addr := (Nat.pow_dvd_pow 2 hLow).trans hHanded.whole
    obtain ⟨k, hPages, -⟩ := blockPages_eq count
    have hPositive : 0 < countToBlockPages count := by
      rw [hPages]
      exact Nat.two_pow_pos k
    have hLast : addr / 4096 + countToBlockPages count - 1 ∈ blockFrames addr (countToBlockPages count) :=
      Finset.mem_Ico.mpr ⟨by rw [Buddy.pageSize]; omega, by rw [Buddy.pageSize]; omega⟩
    have hManaged : ∀ f ∈ blockFrames addr (countToBlockPages count), Managed site.regions f := by
      intro f hf
      have hPage := hStock.ledger.pages _ (hHanded.free f hf)
      rwa [Nat.mul_div_cancel _ (by decide)] at hPage
    have hEnd := (hStock.bound (hManaged _ hLast)).1
    have hSize := hStock.ledger.memorySize
    have hPhysical := h.physical
    rw [addressLimit] at hPhysical
    have hNat : (ofNat 64 addr).toNat = addr := by
      rw [toNat_ofNat]
      omega
    refine ⟨ofNat 64 addr, hNat.symm, ?_, hHanded.valid, by rw [hNat]; exact hHanded.whole, by rw [hNat]; omega, ?_, ?_⟩
    · rintro hZero
      rw [hZero] at hNat
      exact hNonzero hNat.symm
    · rintro b ⟨hAligned, hIn⟩
      rw [hNat] at hIn
      rw [hFree, ← page_mul hAligned]
      exact ⟨by rw [page_mul hAligned]; exact hAligned, hHanded.free _ hIn⟩
    · intro m' hFrames
      refine ⟨h.physical, V, H ∪ blockFrames addr
          (countToBlockPages count), by rw [hFrames, hResult]; exact hAfter, ?_, ?_⟩
      · intro b
        rw [Set.mem_sdiff, hFree, framesFrom, Set.mem_ofPred_eq, hNat]
        constructor
        · rintro ⟨⟨hAligned, hOld⟩, hNot⟩
          refine ⟨hAligned, ?_⟩
          rw [← page_mul hAligned, hLeft, page_mul hAligned]
          exact ⟨hOld, fun hIn => hNot ⟨hAligned, hIn⟩⟩
        · rintro ⟨hAligned, hOld⟩
          rw [← page_mul hAligned] at hOld
          obtain ⟨hWas, hOut⟩ := (hLeft _).mp hOld
          rw [page_mul hAligned] at hWas
          exact ⟨⟨hAligned, hWas⟩, fun hIn => hOut hIn.2⟩
      · intro b
        rw [Set.mem_union, hHeld, framesFrom, Set.mem_ofPred_eq, hNat, Set.mem_union, Finset.mem_coe, ← and_or_left]

theorem Funded.releaseBlock {count : Nat} (h : Funded site m free held)
    (ha : framesFrom a (countToBlockPages count) ⊆ held) (hCount : count ≠ 0)
    (hWhole : 2 ^ countToOrder count ∣ a.toNat)
    (hValid : orderValid (countToOrder count))
    (hInside : a.toNat + countToBlockPages count * 4096 ≤ site.memorySize) :
    ∃ frames, freeFrames m.frames a.toNat count = some frames ∧ ∀ m' : Machine, m'.frames = frames →
      Funded site m' (free ∪ framesFrom a (countToBlockPages count))
          (held \ framesFrom a (countToBlockPages count)) := by
  obtain ⟨W, H, hStock, hFree, hHeld⟩ := h.stock
  have hPhysical := h.physical
  rw [addressLimit] at hPhysical
  have hIn : ↑(blockFrames a.toNat (countToBlockPages count)) ⊆ H := by
    intro f hf
    have hBounds := Finset.mem_Ico.mp (Finset.mem_coe.mp hf)
    rw [Buddy.pageSize] at hBounds
    have hNat : (ofNat 64 (f * 4096)).toNat = f * 4096 := by
      rw [toNat_ofNat]
      omega
    have hFrame : ofNat 64 (f * 4096) ∈ framesFrom a (countToBlockPages count) := by
      rw [framesFrom, Set.mem_ofPred_eq, hNat, Nat.mul_div_cancel _ (by decide)]
      exact ⟨by omega, Finset.mem_coe.mp hf⟩
    have hOld := ((hHeld _).mp (ha hFrame)).2
    rwa [hNat, Nat.mul_div_cancel _ (by decide)] at hOld
  obtain ⟨frames, V, hRelease, hAfter, hNow⟩ := hStock.release hIn hCount hWhole hValid
  refine ⟨frames, hRelease, fun m' hFrames => ⟨h.physical, V, H \ blockFrames a.toNat (countToBlockPages count),
    by rw [hFrames]; exact hAfter, ?_, ?_⟩⟩
  · intro b
    rw [Set.mem_union, hFree, framesFrom, Set.mem_ofPred_eq, ← and_or_left]
    refine and_congr_right fun hAligned => ?_
    rw [← page_mul hAligned, hNow, page_mul hAligned]
  · intro b
    rw [Set.mem_sdiff, hHeld, framesFrom, Set.mem_ofPred_eq, Set.mem_sdiff, Finset.mem_coe]
    constructor
    · rintro ⟨⟨hAligned, hOld⟩, hNot⟩
      exact ⟨hAligned, hOld, fun hIn => hNot ⟨hAligned, hIn⟩⟩
    · rintro ⟨hAligned, hOld, hOut⟩
      exact ⟨⟨hAligned, hOld⟩, fun hIn => hOut hIn.2⟩

structure Taken (site : Site) (m : Machine) (free held : Set U64) (a : U64) (m' : Machine) : Prop where
  wasFree : a ∈ free
  memory : m'.memory = m.memory
  exhausted : m'.exhausted = m.exhausted
  funded : Funded site m' (free \ {a}) (insert a held)

theorem Funded.alloc (h : Funded site m free held) :
    (allocFrame m).2 = 0 ∧ (allocFrame m).1 = { m with exhausted := true } ∨
      Taken site m free held (allocFrame m).2 (allocFrame m).1 := by
  obtain hNone | ⟨a, hAddr, hTaken⟩ := h.allocBlock 1
  · left
    simp only [allocFrame, hNone]
    exact ⟨rfl, by simp⟩
  · right
    have hNat : ofNat 64 (allocFrames m.frames 1).2 = a := by
      rw [hAddr, BitVec.ofNat_toNat, BitVec.setWidth_eq]
    have hAligned : a.toNat % 4096 = 0 := Nat.mod_eq_zero_of_dvd hTaken.whole
    have hIn := hTaken.wasFree
    have hFunded := hTaken.funded (allocFrame m).1 rfl
    rw [framesFrom_one hAligned] at hIn hFunded
    change Taken site m free held (ofNat 64 (allocFrames m.frames 1).2) _
    rw [hNat]
    refine ⟨hIn rfl, rfl, ?_, by rwa [Set.union_singleton] at hFunded⟩
    have hNonzero : ((allocFrames m.frames 1).2 == 0) = false := by
      rw [beq_eq_false_iff_ne, hAddr]
      exact fun hZero => hTaken.nonzero (eq_of_toNat_eq hZero)
    change (m.exhausted || (allocFrames m.frames 1).2 == 0) = m.exhausted
    rw [hNonzero, Bool.or_false]

theorem Funded.release (h : Funded site m free held) (ha : a ∈ held) :
    ∃ frames, freeFrame m a = some { m with frames := frames } ∧
      Funded site { m with frames := frames } (insert a free) (held \ {a}) := by
  obtain ⟨W, H, hStock, -, hHeld⟩ := h.stock
  obtain ⟨hAligned, hMem⟩ := (hHeld a).mp ha
  have hBlock := framesFrom_one hAligned
  have hEnd := (hStock.bound (hStock.managed _ hMem)).1
  have hSize := hStock.ledger.memorySize
  have hWhole : 2 ^ countToOrder 1 ∣ a.toNat := Nat.dvd_of_mod_eq_zero hAligned
  have hInside : a.toNat + countToBlockPages 1 * 4096 ≤ site.memorySize := by
    rw [show countToBlockPages 1 = 1 from rfl]
    omega
  have hHeld' : framesFrom a (countToBlockPages 1) ⊆ held := by
    rw [hBlock]
    exact Set.singleton_subset_iff.mpr ha
  obtain ⟨frames, hFree, hFunded⟩ := h.releaseBlock hHeld' one_ne_zero hWhole (by decide) hInside
  have hAfter := hFunded { m with frames := frames } rfl
  rw [hBlock, Set.union_singleton] at hAfter
  exact ⟨frames, by rw [freeFrame, hFree]; rfl, hAfter⟩

theorem boot_funded {memory : Buddy.Memory} (hPhysical : site.memorySize ≤ addressLimit)
    (hBoot : addRegions site.regions (buddyInit memory site.usable site.memorySize) = some m.frames) :
    ∃ free, Funded site m free ∅ ∧ ∀ a ∈ free, Managed site.regions (a.toNat / 4096) := by
  obtain ⟨W, hStock⟩ := boot_stock hBoot
  refine ⟨{a | a.toNat % 4096 = 0 ∧ a.toNat ∈ W}, ⟨hPhysical, W, ∅, hStock, fun a => Iff.rfl, ?_⟩, ?_⟩
  · intro a
    exact ⟨(absurd · (Set.notMem_empty a)), fun ha => absurd ha.2 (Set.notMem_empty _)⟩
  · intro a ha
    exact hStock.ledger.pages _ ha.2

end OpenXJ380.Paging
