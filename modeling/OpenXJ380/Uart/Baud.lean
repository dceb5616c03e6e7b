import Mathlib.Data.BitVec
import Mathlib.Data.Nat.Dist

/-! # The search for a baud rate (`arch/arm32/src/uart_baud.c`)

The search computes in words of 32 bits. It is exact where none of its products
leaves the word.
-/

namespace OpenXJ380.Uart

open Option (bind_eq_bind bind_some)
open BitVec (eq_of_toNat_eq le_of_lt ofNat toNat_mul toNat_ofNat toNat_udiv)

abbrev U32 := BitVec 32

structure UartBaudResult where
  requested : U32
  actual : U32
  baudgen : U32
  bauddiv : U32
  errorPpm : U32
  valid : Bool

structure Search where
  bestBaudgen : U32
  bestBauddiv : U32
  bestError : U32
  products : List (U32 × U32)

def uartMaxBaudErrorPercent : BitVec 64 := 5

def uartBauddivMin : Nat := 4

def uartBauddivMax : Nat := 254

/-- `none` for a division by zero. -/
def divide (a b : U32) : Option U32 := if b = 0 then none else some (a / b)

def Search.multiply (s : Search) (a b : U32) : Search := { s with products := (a, b) :: s.products }

def tryBauddiv (inputClk baud : U32) (s : Search) (iterBauddiv : U32) : Option Search := do
  let s := s.multiply baud (iterBauddiv + 1)
  let baudgen ← divide inputClk (baud * (iterBauddiv + 1))
  if baudgen = 0 then some s
  else
    let s := s.multiply baudgen (iterBauddiv + 1)
    let actual ← divide inputClk (baudgen * (iterBauddiv + 1))
    let error := if baud > actual then baud - actual else actual - baud
    if error < s.bestError then
      some { s with bestError := error, bestBaudgen := baudgen, bestBauddiv := iterBauddiv }
    else some s

def bauddivs : List U32 :=
  (List.range' uartBauddivMin (uartBauddivMax + 1 - uartBauddivMin)).map (ofNat 32)

def uartBaudSearch (inputClk baud : U32) : Option (UartBaudResult × List (U32 × U32)) :=
  let result : UartBaudResult :=
    { requested := baud, actual := 0, baudgen := 0, bauddiv := 0, errorPpm := 0, valid := false }
  if inputClk = 0 ∨ baud = 0 then some (result, [])
  else do
    let s ← bauddivs.foldlM (tryBauddiv inputClk baud)
      { bestBaudgen := 0, bestBauddiv := 0, bestError := 0xFFFFFFFF, products := [] }
    if s.bestBaudgen = 0 then some (result, s.products)
    else
      let s := s.multiply s.bestBaudgen (s.bestBauddiv + 1)
      let actual ← divide inputClk (s.bestBaudgen * (s.bestBauddiv + 1))
      let s := s.multiply s.bestError 1000000
      let errorPpm ← divide (s.bestError * 1000000) baud
      some ({ result with
        baudgen := s.bestBaudgen
        bauddiv := s.bestBauddiv
        actual := actual
        errorPpm := errorPpm
        valid := s.bestError.setWidth 64 * 100 ≤ baud.setWidth 64 * uartMaxBaudErrorPercent }, s.products)

variable {inputClk baud : U32} {s s' : Search} {d e : U32} {clk rate div : Nat}

def generator (clk rate div : Nat) : Nat := clk / (rate * (div + 1))

def Usable (clk rate div : Nat) : Prop := uartBauddivMin ≤ div ∧ div ≤ uartBauddivMax ∧ 1 ≤ generator clk rate div

def achieved (clk rate div : Nat) : Nat := clk / (generator clk rate div * (div + 1))

def miss (clk rate div : Nat) : Nat := Nat.dist (achieved clk rate div) rate

structure Exact (clk rate div : Nat) (result : UartBaudResult) : Prop where
  usable : Usable clk rate div
  bauddiv : result.bauddiv.toNat = div
  baudgen : result.baudgen.toNat = generator clk rate div
  actual : result.actual.toNat = achieved clk rate div
  best : ∀ other, Usable clk rate other → miss clk rate div ≤ miss clk rate other
  errorPpm : result.errorPpm.toNat = miss clk rate div * 1000000 / rate
  valid : result.valid = true ↔ miss clk rate div * 100 ≤ rate * 5

/-- Nothing is divided by zero, no product is too large for a word, and a best pair is found if there is one. -/
def Meets (inputClk baud : U32) : Prop :=
  ∃ result products, uartBaudSearch inputClk baud = some (result, products) ∧
    (∀ p ∈ products, p.1.toNat * p.2.toNat < 2 ^ 32) ∧
    ((∃ div, Usable inputClk.toNat baud.toNat div) → ∃ div, Exact inputClk.toNat baud.toNat div result)

theorem divide_some {a b : U32} (h : b.toNat ≠ 0) : divide a b = some (a / b) :=
  if_neg fun hZero => h (by rw [hZero]; rfl)

theorem toNat_product {a b : U32} (h : a.toNat * b.toNat < 2 ^ 32) : (a * b).toNat = a.toNat * b.toNat := by
  rw [toNat_mul, Nat.mod_eq_of_lt h]

theorem toNat_error (a b : U32) : (if a > b then a - b else b - a).toNat = Nat.dist b.toNat a.toNat := by
  split
  · next h =>
    rw [BitVec.toNat_sub_of_le (le_of_lt h)]
    exact (Nat.dist_eq_sub_of_le (BitVec.le_def.mp (le_of_lt h))).symm
  · next h =>
    have hLe : a ≤ b := BitVec.not_lt.mp h
    rw [BitVec.toNat_sub_of_le hLe]
    exact (Nat.dist_eq_sub_of_le_right (BitVec.le_def.mp hLe)).symm

theorem mem_bauddivs : d ∈ bauddivs ↔ uartBauddivMin ≤ d.toNat ∧ d.toNat ≤ uartBauddivMax := by
  rw [bauddivs, List.mem_map, uartBauddivMin, uartBauddivMax]
  constructor
  · rintro ⟨n, hn, rfl⟩
    have hBounds := List.mem_range'_1.mp hn
    rw [toNat_ofNat]
    omega
  · intro h
    refine ⟨d.toNat, List.mem_range'_1.mpr (by omega), ?_⟩
    rw [BitVec.ofNat_toNat, BitVec.setWidth_eq]

theorem toNat_next (h : d ∈ bauddivs) : (d + 1).toNat = d.toNat + 1 := by
  have hMax := (mem_bauddivs.mp h).2
  rw [uartBauddivMax] at hMax
  rw [BitVec.toNat_add]
  exact Nat.mod_eq_of_lt ((Nat.succ_le_succ hMax).trans_lt (by decide))

theorem generator_mul (clk rate div : Nat) : generator clk rate div * (div + 1) * rate ≤ clk := by
  rw [mul_assoc, mul_comm (div + 1)]
  exact Nat.div_mul_le_self clk _

theorem generator_le (hRate : rate ≠ 0) : generator clk rate div * (div + 1) ≤ clk :=
  (Nat.le_mul_of_pos_right _ (Nat.pos_of_ne_zero hRate)).trans (generator_mul clk rate div)

theorem le_achieved (h : Usable clk rate div) : rate ≤ achieved clk rate div := by
  rw [achieved, Nat.le_div_iff_mul_le (Nat.mul_pos h.2.2 (Nat.succ_pos div)), mul_comm]
  exact generator_mul clk rate div

theorem miss_lt (hRate : rate ≠ 0) (h : Usable clk rate div) : miss clk rate div < clk := by
  have hAchieved := le_achieved h
  have hClk : achieved clk rate div ≤ clk := Nat.div_le_self clk _
  rw [miss, Nat.dist_eq_sub_of_le_right hAchieved]
  omega

theorem tryBauddiv_spec (hRate : baud.toNat ≠ 0) (hFits : baud.toNat * 255 < 2 ^ 32) (hd : d ∈ bauddivs) :
    (¬ Usable inputClk.toNat baud.toNat d.toNat ∧
      tryBauddiv inputClk baud s d = some (s.multiply baud (d + 1))) ∨
    (Usable inputClk.toNat baud.toNat d.toNat ∧ ∃ baudgen error : U32,
      baudgen.toNat = generator inputClk.toNat baud.toNat d.toNat ∧
      error.toNat = miss inputClk.toNat baud.toNat d.toNat ∧
      tryBauddiv inputClk baud s d =
        let s := (s.multiply baud (d + 1)).multiply baudgen (d + 1)
        if error < s.bestError then some { s with bestError := error, bestBaudgen := baudgen, bestBauddiv := d }
        else some s) := by
  have hBounds := mem_bauddivs.mp hd
  have hNext := toNat_next hd
  have hMax : d.toNat + 1 ≤ 255 := by
    have := hBounds.2
    rw [uartBauddivMax] at this
    omega
  have hProduct : (baud * (d + 1)).toNat = baud.toNat * (d.toNat + 1) := by
    rw [toNat_product, hNext]
    rw [hNext]
    exact (Nat.mul_le_mul_left _ hMax).trans_lt hFits
  have hNonzero : (baud * (d + 1)).toNat ≠ 0 := by
    rw [hProduct]
    exact Nat.mul_ne_zero hRate (Nat.succ_ne_zero _)
  have hGenerator : (inputClk / (baud * (d + 1))).toNat = generator inputClk.toNat baud.toNat d.toNat := by
    rw [toNat_udiv, hProduct, generator]
  rw [tryBauddiv, divide_some hNonzero]
  by_cases hZero : inputClk / (baud * (d + 1)) = 0
  · left
    constructor
    · intro hUsable
      have hOne := hUsable.2.2
      rw [← hGenerator, hZero] at hOne
      exact absurd hOne (by decide)
    · simp only [bind_eq_bind, bind_some, hZero, if_true]
  · right
    have hPositive : generator inputClk.toNat baud.toNat d.toNat ≠ 0 := by
      intro hNone
      exact hZero (eq_of_toNat_eq (hGenerator.trans hNone))
    have hUsable : Usable inputClk.toNat baud.toNat d.toNat := ⟨hBounds.1, hBounds.2, Nat.pos_of_ne_zero hPositive⟩
    have hActual : (inputClk / (baud * (d + 1)) * (d + 1)).toNat =
        generator inputClk.toNat baud.toNat d.toNat * (d.toNat + 1) := by
      rw [toNat_product, hGenerator, hNext]
      rw [hGenerator, hNext]
      exact (generator_le hRate).trans_lt inputClk.isLt
    have hFactor : (inputClk / (baud * (d + 1)) * (d + 1)).toNat ≠ 0 := by
      rw [hActual]
      exact Nat.mul_ne_zero hPositive (Nat.succ_ne_zero _)
    obtain ⟨actual, hRateOf⟩ : ∃ actual, actual = inputClk / (inputClk / (baud * (d + 1)) * (d + 1)) := ⟨_, rfl⟩
    refine ⟨hUsable, _, if baud > actual then baud - actual else actual - baud, hGenerator, ?_, ?_⟩
    · rw [toNat_error, hRateOf, toNat_udiv, hActual, miss, achieved]
    · simp only [bind_eq_bind, bind_some, hZero, if_false, divide_some hFactor, ← hRateOf]

structure Best (inputClk baud : U32) (seen : List U32) (s : Search) : Prop where
  fits : ∀ p ∈ s.products, p.1.toNat * p.2.toNat < 2 ^ 32
  unset : (∀ d ∈ seen, ¬ Usable inputClk.toNat baud.toNat d.toNat) → s.bestBaudgen = 0 ∧ s.bestError = 0xFFFFFFFF
  usable : (∃ d ∈ seen, Usable inputClk.toNat baud.toNat d.toNat) →
    s.bestBauddiv ∈ bauddivs ∧ Usable inputClk.toNat baud.toNat s.bestBauddiv.toNat ∧
      s.bestBaudgen.toNat = generator inputClk.toNat baud.toNat s.bestBauddiv.toNat ∧
      s.bestError.toNat = miss inputClk.toNat baud.toNat s.bestBauddiv.toNat
  least : ∀ d ∈ seen, Usable inputClk.toNat baud.toNat d.toNat →
    s.bestError.toNat ≤ miss inputClk.toNat baud.toNat d.toNat

variable {seen : List U32}

section

variable (h : Best inputClk baud seen s)

include h

theorem Best.multiply {a b : U32} (hFits : a.toNat * b.toNat < 2 ^ 32) :
    Best inputClk baud seen (s.multiply a b) where
  fits p hp := by
    obtain rfl | hp := List.mem_cons.mp hp
    · exact hFits
    · exact h.fits p hp
  __ := h

theorem Best.skip (hd : ¬ Usable inputClk.toNat baud.toNat d.toNat) :
    Best inputClk baud (d :: seen) s where
  fits := h.fits
  unset hNone := h.unset fun e he => hNone e (.tail d he)
  usable := by
    rintro ⟨e, he, hUsable⟩
    obtain rfl | he := List.mem_cons.mp he
    · exact absurd hUsable hd
    · exact h.usable ⟨e, he, hUsable⟩
  least e he hUsable := by
    obtain rfl | he := List.mem_cons.mp he
    · exact absurd hUsable hd
    · exact h.least e he hUsable

theorem Best.keep (hRate : baud.toNat ≠ 0)
    (hd : Usable inputClk.toNat baud.toNat d.toNat)
    (hError : s.bestError.toNat ≤ miss inputClk.toNat baud.toNat d.toNat) :
    Best inputClk baud (d :: seen) s where
  fits := h.fits
  unset hNone := absurd hd (hNone d (.head _))
  usable _ := by
    apply h.usable
    by_contra hNone
    have hUnset := (h.unset fun e he hUsable => hNone ⟨e, he, hUsable⟩).2
    rw [hUnset] at hError
    have hMiss := miss_lt hRate hd
    exact absurd (hError.trans_lt (hMiss.trans_le (Nat.le_sub_one_of_lt inputClk.isLt))) (by decide)
  least e he hUsable := by
    obtain rfl | he := List.mem_cons.mp he
    · exact hError
    · exact h.least e he hUsable

theorem Best.improve (hMember : d ∈ bauddivs)
    (hd : Usable inputClk.toNat baud.toNat d.toNat) {baudgen error : U32}
    (hBaudgen : baudgen.toNat = generator inputClk.toNat baud.toNat d.toNat)
    (hError : error.toNat = miss inputClk.toNat baud.toNat d.toNat) (hLess : error < s.bestError) :
    Best inputClk baud (d :: seen) { s with bestError := error, bestBaudgen := baudgen, bestBauddiv := d } where
  fits := h.fits
  unset hNone := absurd hd (hNone d (.head _))
  usable _ := ⟨hMember, hd, hBaudgen, hError⟩
  least e he hUsable := by
    obtain rfl | he := List.mem_cons.mp he
    · exact hError.le
    · exact (BitVec.le_def.mp (le_of_lt hLess)).trans (h.least e he hUsable)

theorem Best.step (hRate : baud.toNat ≠ 0) (hFits : baud.toNat * 255 < 2 ^ 32)
    (hd : d ∈ bauddivs) : ∃ s', tryBauddiv inputClk baud s d = some s' ∧ Best inputClk baud (d :: seen) s' := by
  have hNext := toNat_next hd
  have hMax := (mem_bauddivs.mp hd).2
  rw [uartBauddivMax] at hMax
  have hFirst : baud.toNat * (d + 1).toNat < 2 ^ 32 := by
    rw [hNext]
    exact (Nat.mul_le_mul_left _ (Nat.succ_le_succ hMax)).trans_lt hFits
  obtain ⟨hUnusable, hStep⟩ | ⟨hUsable, baudgen, error, hBaudgen, hError, hStep⟩ :=
    tryBauddiv_spec (s := s) hRate hFits hd
  · exact ⟨_, hStep, (h.multiply hFirst).skip hUnusable⟩
  · have hSecond : baudgen.toNat * (d + 1).toNat < 2 ^ 32 := by
      rw [hBaudgen, hNext]
      exact (generator_le hRate).trans_lt inputClk.isLt
    have hBest := (h.multiply hFirst).multiply hSecond
    rw [hStep]
    by_cases hLess : error < s.bestError
    · exact ⟨_, if_pos hLess, hBest.improve hd hUsable hBaudgen hError hLess⟩
    · refine ⟨_, if_neg hLess, hBest.keep hRate hUsable ?_⟩
      rw [← hError]
      exact BitVec.le_def.mp (BitVec.not_lt.mp hLess)

end

theorem Best.run (hRate : baud.toNat ≠ 0) (hFits : baud.toNat * 255 < 2 ^ 32) (l : List U32) :
    ∀ {seen s}, (∀ d ∈ l, d ∈ bauddivs) → Best inputClk baud seen s →
      ∃ s', l.foldlM (tryBauddiv inputClk baud) s = some s' ∧ Best inputClk baud (l.reverse ++ seen) s' := by
  induction l with
  | nil => exact fun _ h => ⟨_, rfl, h⟩
  | cons d l ih =>
    intro seen s hl h
    obtain ⟨s', hStep, hBest⟩ := h.step hRate hFits (hl d (.head _))
    obtain ⟨s'', hRun, hLast⟩ := ih (fun e he => hl e (.tail d he)) hBest
    refine ⟨s'', ?_, ?_⟩
    · rw [List.foldlM_cons, hStep]
      exact hRun
    · rw [List.reverse_cons, List.append_assoc]
      exact hLast

theorem tryBauddiv_products (h : tryBauddiv inputClk baud s d = some s') :
    (baud, d + 1) ∈ s'.products ∧ ∀ p ∈ s.products, p ∈ s'.products := by
  rw [tryBauddiv, bind_eq_bind, Option.bind_eq_some_iff] at h
  obtain ⟨baudgen, -, h⟩ := h
  split at h
  · cases h
    exact ⟨.head _, fun p hp => .tail _ hp⟩
  · obtain ⟨actual, -, h⟩ := Option.bind_eq_some_iff.mp h
    dsimp only at h
    generalize (if baud > actual then baud - actual else actual - baud) = error at h
    have hBoth : s'.products = (baudgen, d + 1) :: (baud, d + 1) :: s.products := by
      split at h <;> cases h <;> rfl
    rw [hBoth]
    exact ⟨.tail _ (.head _), fun p hp => .tail _ (.tail _ hp)⟩

theorem products_of_run (l : List U32) : ∀ {s s'}, l.foldlM (tryBauddiv inputClk baud) s = some s' →
    (∀ p ∈ s.products, p ∈ s'.products) ∧ ∀ d ∈ l, (baud, d + 1) ∈ s'.products := by
  induction l with
  | nil =>
    intro s s' h
    cases h
    exact ⟨fun p hp => hp, fun d hd => nomatch hd⟩
  | cons d l ih =>
    intro s s' h
    rw [List.foldlM_cons, bind_eq_bind, Option.bind_eq_some_iff] at h
    obtain ⟨s₁, hStep, hRun⟩ := h
    obtain ⟨hFirst, hKept⟩ := tryBauddiv_products hStep
    obtain ⟨hRest, hAll⟩ := ih hRun
    constructor
    · exact fun p hp => hRest p (hKept p hp)
    · intro e he
      obtain rfl | he := List.mem_cons.mp he
      · exact hRest _ hFirst
      · exact hAll e he

theorem exists_bauddiv (h : Usable clk rate div) : ∃ d ∈ bauddivs, d.toNat = div := by
  have hMax := h.2.1
  rw [uartBauddivMax] at hMax
  have hDiv : (ofNat 32 div).toNat = div := by
    rw [toNat_ofNat]
    exact Nat.mod_eq_of_lt (hMax.trans_lt (by decide))
  refine ⟨ofNat 32 div, mem_bauddivs.mpr ?_, hDiv⟩
  rw [hDiv]
  exact ⟨h.1, h.2.1⟩

def initial : Search := { bestBaudgen := 0, bestBauddiv := 0, bestError := 0xFFFFFFFF, products := [] }

theorem initial_best : Best inputClk baud [] initial where
  fits _ hp := nomatch hp
  unset _ := ⟨rfl, rfl⟩
  usable := fun ⟨_, hd, _⟩ => nomatch hd
  least _ hd := nomatch hd

theorem uartBaudSearch_eq (hClk : inputClk ≠ 0) (hBaud : baud ≠ 0)
    (hRun : bauddivs.foldlM (tryBauddiv inputClk baud) initial = some s) (hZero : s.bestBaudgen = 0) :
    uartBaudSearch inputClk baud =
      some ({ requested := baud, actual := 0, baudgen := 0, bauddiv := 0, errorPpm := 0, valid := false },
        s.products) := by
  have hChecks : ¬ (inputClk = 0 ∨ baud = 0) := not_or.mpr ⟨hClk, hBaud⟩
  rw [initial] at hRun
  simp only [uartBaudSearch, if_neg hChecks, hRun, bind_eq_bind, bind_some, if_pos hZero]

theorem uartBaudSearch_found (hClk : inputClk ≠ 0) (hBaud : baud ≠ 0)
    (hRun : bauddivs.foldlM (tryBauddiv inputClk baud) initial = some s) (hFound : s.bestBaudgen ≠ 0) :
    uartBaudSearch inputClk baud =
      (divide inputClk (s.bestBaudgen * (s.bestBauddiv + 1))).map fun actual =>
        ({ requested := baud
           actual := actual
           baudgen := s.bestBaudgen
           bauddiv := s.bestBauddiv
           errorPpm := s.bestError * 1000000 / baud
           valid := s.bestError.setWidth 64 * 100 ≤ baud.setWidth 64 * uartMaxBaudErrorPercent },
          (s.bestError, 1000000) :: (s.bestBaudgen, s.bestBauddiv + 1) :: s.products) := by
  have hChecks : ¬ (inputClk = 0 ∨ baud = 0) := not_or.mpr ⟨hClk, hBaud⟩
  have hDivide : divide (s.bestError * 1000000) baud = some (s.bestError * 1000000 / baud) := if_neg hBaud
  rw [initial] at hRun
  simp only [uartBaudSearch, if_neg hChecks, hRun, bind_eq_bind, bind_some, if_neg hFound, Search.multiply, hDivide]
  cases divide inputClk (s.bestBaudgen * (s.bestBauddiv + 1)) <;> rfl

theorem uartBaudSearch_products (hClk : inputClk ≠ 0) (hBaud : baud ≠ 0) {result : UartBaudResult}
    {products : List (U32 × U32)} (h : uartBaudSearch inputClk baud = some (result, products)) :
    ∃ s, bauddivs.foldlM (tryBauddiv inputClk baud) initial = some s ∧ (∀ d ∈ bauddivs, (baud, d + 1) ∈ products) ∧
      (s.bestBaudgen ≠ 0 → (s.bestError, 1000000) ∈ products) := by
  have hSome : ∃ s, bauddivs.foldlM (tryBauddiv inputClk baud) initial = some s := by
    have hChecks : ¬ (inputClk = 0 ∨ baud = 0) := not_or.mpr ⟨hClk, hBaud⟩
    rw [uartBaudSearch, if_neg hChecks] at h
    obtain ⟨s, hRun, -⟩ := Option.bind_eq_some_iff.mp h
    exact ⟨s, hRun⟩
  obtain ⟨s, hRun⟩ := hSome
  have hProducts := (products_of_run bauddivs hRun).2
  refine ⟨s, hRun, ?_⟩
  by_cases hZero : s.bestBaudgen = 0
  · rw [uartBaudSearch_eq hClk hBaud hRun hZero] at h
    cases h
    exact ⟨hProducts, fun hFound => absurd hZero hFound⟩
  · rw [uartBaudSearch_found hClk hBaud hRun hZero] at h
    obtain ⟨actual, -, hResult⟩ := Option.map_eq_some_iff.mp h
    cases hResult
    exact ⟨fun d hd => .tail _ (.tail _ (hProducts d hd)), fun _ => .head _⟩

theorem valid_iff (error baud : U32) :
    error.setWidth 64 * 100 ≤ baud.setWidth 64 * uartMaxBaudErrorPercent ↔ error.toNat * 100 ≤ baud.toNat * 5 := by
  have hWide (w : U32) (n : Nat) (hn : n ≤ 100) : (w.setWidth 64 * ofNat 64 n).toNat = w.toNat * n := by
    have hw := w.isLt
    have hn' : (ofNat 64 n).toNat = n := by
      rw [toNat_ofNat]
      exact Nat.mod_eq_of_lt (hn.trans_lt (by decide))
    have hw' : (w.setWidth 64).toNat = w.toNat := by
      rw [BitVec.toNat_setWidth]
      exact Nat.mod_eq_of_lt (hw.trans (by decide))
    rw [toNat_mul, hn', hw']
    apply Nat.mod_eq_of_lt
    calc
      w.toNat * n ≤ w.toNat * 100 := Nat.mul_le_mul_left _ hn
      _ < 2 ^ 32 * 100 := Nat.mul_lt_mul_of_pos_right hw (by decide)
      _ < 2 ^ 64 := by decide
  rw [BitVec.le_def]
  exact Eq.to_iff (congrArg₂ (· ≤ ·) (hWide error 100 (by decide)) (hWide baud 5 (by decide)))

theorem search_best (hRate : baud.toNat ≠ 0) (hFits : baud.toNat * 255 < 2 ^ 32) :
    ∃ s, bauddivs.foldlM (tryBauddiv inputClk baud) initial = some s ∧ Best inputClk baud bauddivs.reverse s := by
  obtain ⟨s, hRun, hBest⟩ := initial_best.run hRate hFits bauddivs (fun _ hd => hd)
  rw [List.append_nil] at hBest
  exact ⟨s, hRun, hBest⟩

section

variable (h : Best inputClk baud bauddivs.reverse s)

include h

theorem Best.absent (hZero : s.bestBaudgen = 0) (div : Nat) : ¬ Usable inputClk.toNat baud.toNat div := by
  intro hDiv
  obtain ⟨d, hd, rfl⟩ := exists_bauddiv hDiv
  obtain ⟨-, hUsable, hBaudgen, -⟩ := h.usable ⟨d, List.mem_reverse.mpr hd, hDiv⟩
  have hOne := hUsable.2.2
  rw [← hBaudgen, hZero] at hOne
  exact absurd hOne (by decide)

theorem Best.present (hFound : s.bestBaudgen ≠ 0) :
    s.bestBauddiv ∈ bauddivs ∧ Usable inputClk.toNat baud.toNat s.bestBauddiv.toNat ∧
      s.bestBaudgen.toNat = generator inputClk.toNat baud.toNat s.bestBauddiv.toNat ∧
      s.bestError.toNat = miss inputClk.toNat baud.toNat s.bestBauddiv.toNat := by
  apply h.usable
  by_contra hNone
  exact hFound (h.unset fun d hd hUsable => hNone ⟨d, hd, hUsable⟩).1

theorem Best.le_miss (hDiv : Usable inputClk.toNat baud.toNat div) :
    s.bestError.toNat ≤ miss inputClk.toNat baud.toNat div := by
  obtain ⟨d, hd, rfl⟩ := exists_bauddiv hDiv
  exact h.least d (List.mem_reverse.mpr hd) hDiv

end

theorem toNat_million : (1000000 : U32).toNat = 1000000 := by decide

theorem Best.meets (h : Best inputClk baud bauddivs.reverse s) (hClk : inputClk ≠ 0) (hBaud : baud ≠ 0)
    (hRun : bauddivs.foldlM (tryBauddiv inputClk baud) initial = some s) (hFound : s.bestBaudgen ≠ 0)
    (hSmall : s.bestError.toNat ≤ 4294) : Meets inputClk baud := by
  obtain ⟨hMember, hUsable, hBaudgen, hError⟩ := h.present hFound
  have hRate : baud.toNat ≠ 0 := fun hZero => hBaud (eq_of_toNat_eq hZero)
  have hNext := toNat_next hMember
  have hScaled : s.bestError.toNat * (1000000 : U32).toNat < 2 ^ 32 := by
    rw [toNat_million]
    exact (Nat.mul_le_mul_right _ hSmall).trans_lt (by decide)
  have hFactor : s.bestBaudgen.toNat * (s.bestBauddiv + 1).toNat < 2 ^ 32 := by
    rw [hBaudgen, hNext]
    exact (generator_le hRate).trans_lt inputClk.isLt
  have hFactorValue : (s.bestBaudgen * (s.bestBauddiv + 1)).toNat =
      generator inputClk.toNat baud.toNat s.bestBauddiv.toNat * (s.bestBauddiv.toNat + 1) := by
    rw [toNat_product hFactor, hBaudgen, hNext]
  have hNonzero : (s.bestBaudgen * (s.bestBauddiv + 1)).toNat ≠ 0 := by
    rw [hFactorValue]
    exact Nat.mul_ne_zero (Nat.ne_of_gt hUsable.2.2) (Nat.succ_ne_zero _)
  have hSearch := uartBaudSearch_found hClk hBaud hRun hFound
  rw [divide_some hNonzero] at hSearch
  refine ⟨_, _, hSearch, ((h.multiply hFactor).multiply hScaled).fits, fun _ => ⟨s.bestBauddiv.toNat, ?_⟩⟩
  constructor
  · exact hUsable
  · rfl
  · exact hBaudgen
  · change (inputClk / (s.bestBaudgen * (s.bestBauddiv + 1))).toNat = _
    rw [toNat_udiv, hFactorValue, achieved]
  · intro other hOther
    rw [← hError]
    exact h.le_miss hOther
  · change (s.bestError * 1000000 / baud).toNat = _
    rw [toNat_udiv, toNat_product hScaled, hError, toNat_million]
  · rw [← hError]
    exact decide_eq_true_iff.trans (valid_iff s.bestError baud)

/-- The search is safe and optimal where the greatest product fits a word and the least error can be scaled. -/
theorem uartBaudSearch_meets_iff (hClk : inputClk ≠ 0) (hBaud : baud ≠ 0) :
    Meets inputClk baud ↔ baud.toNat * 255 < 2 ^ 32 ∧
      ((∀ div, ¬ Usable inputClk.toNat baud.toNat div) ∨
        ∃ div, Usable inputClk.toNat baud.toNat div ∧ miss inputClk.toNat baud.toNat div ≤ 4294) := by
  have hRate : baud.toNat ≠ 0 := fun hZero => hBaud (eq_of_toNat_eq hZero)
  constructor
  · rintro ⟨result, products, hSearch, hProducts, -⟩
    obtain ⟨s, hRun, hRates, hScaled⟩ := uartBaudSearch_products hClk hBaud hSearch
    have hFits : baud.toNat * 255 < 2 ^ 32 := hProducts _ (hRates 254 (mem_bauddivs.mpr (by decide)))
    obtain ⟨s', hRun', hBest⟩ := search_best hRate hFits
    obtain rfl := Option.some.inj (hRun.symm.trans hRun')
    refine ⟨hFits, ?_⟩
    by_cases hZero : s.bestBaudgen = 0
    · exact .inl (hBest.absent hZero)
    · right
      obtain ⟨-, hUsable, -, hError⟩ := hBest.present hZero
      have hProduct : s.bestError.toNat * (1000000 : U32).toNat < 2 ^ 32 := hProducts _ (hScaled hZero)
      rw [toNat_million] at hProduct
      refine ⟨_, hUsable, ?_⟩
      rw [← hError]
      omega
  · rintro ⟨hFits, hRange⟩
    obtain ⟨s, hRun, hBest⟩ := search_best hRate hFits
    by_cases hZero : s.bestBaudgen = 0
    · refine ⟨_, _, uartBaudSearch_eq hClk hBaud hRun hZero, hBest.fits, ?_⟩
      rintro ⟨div, hUsable⟩
      exact absurd hUsable (hBest.absent hZero div)
    · apply hBest.meets hClk hBaud hRun hZero
      obtain hAbsent | ⟨div, hDiv, hMiss⟩ := hRange
      · exact absurd (hBest.present hZero).2.1 (hAbsent _)
      · exact (hBest.le_miss hDiv).trans hMiss

theorem uartBaudSearch_meets_console : Meets 100000000 115200 :=
  (uartBaudSearch_meets_iff (by decide) (by decide)).mpr
    ⟨by decide, .inr ⟨6, ⟨by decide, by decide, by decide⟩, by decide⟩⟩

/-- Eight times this rate is zero in a word. -/
theorem uartBaudSearch_divides_by_zero :
    uartBaudSearch 100000000 0x20000000 = none ∧
      ¬ ∀ inputClk baud : U32, inputClk ≠ 0 → baud ≠ 0 → Meets inputClk baud := by
  have hNone : uartBaudSearch 100000000 0x20000000 = none := by decide
  refine ⟨hNone, fun h => ?_⟩
  obtain ⟨result, products, hSome, -⟩ := h 100000000 0x20000000 (by decide) (by decide)
  rw [hNone] at hSome
  cases hSome

end OpenXJ380.Uart
