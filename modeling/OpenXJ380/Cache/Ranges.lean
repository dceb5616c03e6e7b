import Mathlib.Data.Finset.Card
import OpenXJ380.Lib.Bits

/-! # Cache maintenance by ranges (`arch/arm32/include/arch/cache.h`, `arch/arm32/src/cache_hw.c`)

A range grows outwards to whole lines. One that reaches the last line is cut off at
the last address, which no line ends at, or becomes empty.
-/

namespace OpenXJ380.Cache

open BitVec (lt_def lt_irrefl ofNat toNat_add toNat_ofNat twoPow)

abbrev U32 := BitVec 32

structure CacheRange where
  start : U32
  stop : U32
  deriving DecidableEq

def cacheRangeIsEmpty (range : CacheRange) : Bool := range.start ≥ range.stop

def alignment (lineBytes : U32) : U32 := if lineBytes ≠ 0 then lineBytes else 1

def cacheAlignRange (addr size lineBytes : U32) : CacheRange :=
  let mask := alignment lineBytes - 1
  if size = 0 then ⟨addr, addr⟩
  else
    let start := addr &&& ~~~mask
    let stop := addr + size
    let stop := if stop < addr then ~~~0 else stop
    let stop := (stop + mask) &&& ~~~mask
    ⟨start, if stop < start then ~~~0 else stop⟩

def cacheRangeLines (range : CacheRange) (lineBytes : U32) : U32 :=
  if cacheRangeIsEmpty range then 0 else (range.stop - range.start) / alignment lineBytes

/-- The lines that the loop goes over, `none` where it is not through after the given rounds. -/
def rangeLoop (step stop : U32) : Nat → U32 → Option (List U32)
  | 0, _ => none
  | rounds + 1, line =>
    if line < stop then (rangeLoop step stop rounds (line + step)).map (line :: ·) else some []

inductive CacheOp where
  | invalidate
  | clean
  | cleanInvalidate

inductive Operation where
  | dcacheCleanMva (line : U32)
  | dcacheCleanInvalidateMva (line : U32)
  | dcacheInvalidateMva (line : U32)
  | dsb
  | l2CleanPa (line : U32)
  | l2InvPa (line : U32)
  | l2CacheSync

def l2Line : CacheOp → U32 → List Operation
  | .clean, line => [.l2CleanPa line]
  | .invalidate, line => [.l2InvPa line]
  | .cleanInvalidate, line => [.l2CleanPa line, .l2InvPa line]

def l2RangeOp (lineBytes : U32) (enabled : Bool) (addr size : U32) (op : CacheOp) (rounds : Nat) :
    Option (List Operation) :=
  let range := cacheAlignRange addr size lineBytes
  if cacheRangeIsEmpty range ∨ !enabled then some []
  else (rangeLoop lineBytes range.stop rounds range.start).map fun lines => lines.flatMap (l2Line op) ++ [.l2CacheSync]

def dcacheLine : CacheOp → U32 → Operation
  | .clean => .dcacheCleanMva
  | .cleanInvalidate => .dcacheCleanInvalidateMva
  | .invalidate => .dcacheInvalidateMva

def cacheRangeOp (lineBytes : U32) (enabled : Bool) (addr size : U32) (op : CacheOp) (rounds : Nat) :
    Option (List Operation) :=
  let range := cacheAlignRange addr size lineBytes
  if cacheRangeIsEmpty range then some []
  else do
    let lines ← rangeLoop lineBytes range.stop rounds range.start
    let l2 ← l2RangeOp lineBytes enabled addr size op rounds
    some (lines.map (dcacheLine op) ++ .dsb :: l2)

/-- The line of the first level that an operation is on. -/
def Operation.dcache : Operation → Option U32
  | .dcacheCleanMva line | .dcacheCleanInvalidateMva line | .dcacheInvalidateMva line => some line
  | _ => none

/-- The line of the second level that an operation is on. -/
def Operation.l2 : Operation → Option U32
  | .l2CleanPa line | .l2InvPa line => some line
  | _ => none

/-- The line has a byte of the range, which ends at the top of the address space at the latest. -/
def HasByte (k addr size : Nat) (line : U32) : Prop :=
  2 ^ k ∣ line.toNat ∧ ∃ byte, addr ≤ byte ∧ byte < min (addr + size) (2 ^ 32) ∧ byte / 2 ^ k = line.toNat / 2 ^ k

/-- The range with lines of `2 ^ k` bytes. -/
abbrev wholeLines (k : Nat) (addr size : U32) : CacheRange := cacheAlignRange addr size (twoPow 32 k)

/-- The operations are on the lines of the range, as many as are counted. -/
structure Touches (k : Nat) (addr size : U32) (lines : List U32) : Prop where
  exact : ∀ line, line ∈ lines ↔ HasByte k addr.toNat size.toNat line
  count : lines.toFinset.card = (cacheRangeLines (wholeLines k addr size) (twoPow 32 k)).toNat

/-- Both loops come to an end and touch the lines of the range. -/
def Maintains (k : Nat) (addr size : U32) : Prop :=
  ∀ op enabled, ∃ rounds operations, cacheRangeOp (twoPow 32 k) enabled addr size op rounds = some operations ∧
    Touches k addr size (operations.filterMap Operation.dcache) ∧
    (enabled = true → Touches k addr size (operations.filterMap Operation.l2))

variable {k : Nat} {addr size : U32}

theorem dcache_lines (op : CacheOp) (lines : List U32) :
    (lines.map (dcacheLine op)).filterMap Operation.dcache = lines ∧
      (lines.map (dcacheLine op)).filterMap Operation.l2 = [] := by
  induction lines with
  | nil => exact ⟨rfl, rfl⟩
  | cons line lines ih => cases op <;> exact ⟨congrArg (line :: ·) ih.1, ih.2⟩

theorem l2_lines (op : CacheOp) (lines : List U32) : (lines.flatMap (l2Line op)).filterMap Operation.dcache = [] ∧
      ∀ x, x ∈ (lines.flatMap (l2Line op)).filterMap Operation.l2 ↔ x ∈ lines := by
  induction lines with
  | nil => exact ⟨rfl, fun _ => Iff.rfl⟩
  | cons line lines ih =>
    rw [List.flatMap_cons, List.filterMap_append, List.filterMap_append, ih.1]
    refine ⟨by cases op <;> rfl, fun x => ?_⟩
    rw [List.mem_append, ih.2, List.mem_cons]
    cases op <;> simp [l2Line, Operation.l2]

theorem cacheRangeOp_lines {lines : List U32} {rounds : Nat} (op : CacheOp) (enabled : Bool)
    (hSome : cacheRangeIsEmpty (wholeLines k addr size) = false)
    (hLoop : rangeLoop (twoPow 32 k) (wholeLines k addr size).stop rounds (wholeLines k addr size).start = some lines) :
    ∃ operations, cacheRangeOp (twoPow 32 k) enabled addr size op rounds = some operations ∧
      operations.filterMap Operation.dcache = lines ∧
      (enabled → ∀ x, x ∈ operations.filterMap Operation.l2 ↔ x ∈ lines) := by
  have hFirst := dcache_lines op lines
  have hSecond := l2_lines op lines
  cases enabled with
  | false =>
    refine ⟨lines.map (dcacheLine op) ++ [.dsb], ?_, ?_, nofun⟩
    · simp [cacheRangeOp, l2RangeOp, hSome, hLoop]
    · rw [List.filterMap_append, hFirst.1]
      exact List.append_nil _
  | true =>
    refine ⟨lines.map (dcacheLine op) ++ .dsb :: (lines.flatMap (l2Line op) ++ [.l2CacheSync]), ?_, ?_, ?_⟩
    · simp [cacheRangeOp, l2RangeOp, hSome, hLoop]
    · change List.filterMap _ (_ ++ ([Operation.dsb] ++ (_ ++ [Operation.l2CacheSync]))) = _
      rw [List.filterMap_append, List.filterMap_append, List.filterMap_append, hFirst.1, hSecond.1]
      exact List.append_nil _
    · intro _ x
      rw [← hSecond.2 x]
      simp [hFirst.2, Operation.l2]

section

variable (hk : k < 32)

include hk

theorem lineBytes_toNat : (twoPow 32 k).toNat = 2 ^ k := BitVec.toNat_twoPow_of_lt hk

theorem alignment_twoPow : alignment (twoPow 32 k) = twoPow 32 k := by
  have hNonzero : twoPow 32 k ≠ 0 := fun hZero =>
    absurd ((lineBytes_toNat hk).symm.trans (congrArg BitVec.toNat hZero)) (Nat.two_pow_pos k).ne'
  exact if_pos hNonzero

theorem mask_toNat : (twoPow 32 k - 1).toNat = 2 ^ k - 1 := by
  have hOne : (1 : U32) ≤ twoPow 32 k := by
    rw [BitVec.le_def, lineBytes_toNat hk]
    exact Nat.two_pow_pos k
  rw [BitVec.toNat_sub_of_le hOne, lineBytes_toNat hk]
  rfl

/-- The lines from `q * 2 ^ k` up to a line before the top. -/
theorem rangeLoop_lines (q m : Nat) (hTop : (q + m) * 2 ^ k < 2 ^ 32) :
    rangeLoop (twoPow 32 k) (ofNat 32 ((q + m) * 2 ^ k)) (m + 1) (ofNat 32 (q * 2 ^ k)) =
      some ((List.range' q m).map fun i => ofNat 32 (i * 2 ^ k)) := by
  have hNat (n : Nat) (hn : n < 2 ^ 32) : (ofNat 32 n).toNat = n := by
    rw [toNat_ofNat, Nat.mod_eq_of_lt hn]
  induction m generalizing q with
  | zero => exact if_neg (lt_irrefl _)
  | succ m ih =>
    have hLess : q * 2 ^ k < (q + (m + 1)) * 2 ^ k := Nat.mul_lt_mul_of_pos_right (by omega) (Nat.two_pow_pos k)
    have hNext : ofNat 32 (q * 2 ^ k) + twoPow 32 k = ofNat 32 ((q + 1) * 2 ^ k) := by
      rw [add_mul, one_mul, BitVec.ofNat_add]
      congr 1
      apply BitVec.eq_of_toNat_eq
      rw [lineBytes_toNat hk, hNat _ (Nat.pow_lt_pow_right (by decide) hk)]
    have hSum : q + (m + 1) = q + 1 + m := by omega
    rw [rangeLoop, if_pos (BitVec.lt_def.mpr (by rwa [hNat _ (hLess.trans hTop), hNat _ hTop])), hNext, hSum,
      ih (q + 1) (hSum ▸ hTop)]
    rfl

/-- The last address is behind every line of several bytes, also when the lines wrap around. -/
theorem rangeLoop_endless (hWide : k ≠ 0) (rounds : Nat) {line : U32} (hLine : 2 ^ k ∣ line.toNat) :
    rangeLoop (twoPow 32 k) (~~~0) rounds line = none := by
  have hPower : 2 ^ k ∣ 2 ^ 32 := Nat.pow_dvd_pow 2 hk.le
  induction rounds generalizing line with
  | zero => rfl
  | succ rounds ih =>
    have hBelow : line < ~~~0 := by
      have hTwo : 2 ∣ line.toNat := Nat.dvd_trans (dvd_pow_self 2 hWide) hLine
      rw [lt_def]
      change line.toNat < 2 ^ 32 - 1
      omega
    have hNext : 2 ^ k ∣ (line + twoPow 32 k).toNat := by
      rw [toNat_add, lineBytes_toNat hk]
      exact (Nat.dvd_mod_iff hPower).mpr (Nat.dvd_add hLine (Nat.dvd_refl _))
    rw [rangeLoop, if_pos hBelow, ih hNext]
    rfl

theorem cacheAlignRange_start (hSize : size ≠ 0) :
    (wholeLines k addr size).start.toNat = addr.toNat / 2 ^ k * 2 ^ k := by
  simp only [cacheAlignRange, if_neg hSize, alignment_twoPow hk]
  exact Bits.clear_low_toNat addr (mask_toNat hk)

/-- The end of the range, before it is compared with the start: cut off at the top, then rounded up, modulo 2^32. -/
theorem cacheAlignRange_stop (hSize : size ≠ 0) :
    ∃ cut stop, (cut = addr.toNat + size.toNat ∨ cut = 2 ^ 32 - 1 ∧ 2 ^ 32 ≤ addr.toNat + size.toNat) ∧ cut < 2 ^ 32 ∧
      stop.toNat = (cut + (2 ^ k - 1)) % 2 ^ 32 / 2 ^ k * 2 ^ k ∧ (wholeLines k addr size).stop =
        if stop < (wholeLines k addr size).start then ~~~0 else stop := by
  simp only [cacheAlignRange, if_neg hSize, alignment_twoPow hk]
  generalize hCut : (if addr + size < addr then ~~~0 else addr + size) = cut
  refine ⟨cut.toNat, _, ?_, cut.isLt, ?_, rfl⟩
  · have hSum := toNat_add addr size
    split at hCut
    · next hWraps =>
      rw [lt_def, hSum] at hWraps
      refine .inr ⟨by rw [← hCut]; rfl, by omega⟩
    · next hNot =>
      rw [lt_def, hSum] at hNot
      left
      rw [← hCut, hSum]
      omega
  · rw [Bits.clear_low_toNat _ (mask_toNat hk), toNat_add, mask_toNat hk]

end

/-- The lines of the range are those from its first byte to its last. -/
theorem hasByte_iff {addr size : Nat} {line : U32} (hSize : 0 < size) (hTop : addr + size ≤ 2 ^ 32) :
    HasByte k addr size line ↔
      2 ^ k ∣ line.toNat ∧ addr / 2 ^ k ≤ line.toNat / 2 ^ k ∧ line.toNat / 2 ^ k ≤ (addr + size - 1) / 2 ^ k := by
  have hPower := Nat.two_pow_pos k
  rw [HasByte, min_eq_left hTop]
  refine and_congr_right fun hLine => ⟨?_, fun ⟨hFrom, hTo⟩ => ?_⟩
  · rintro ⟨byte, hFrom, hTo, hEq⟩
    exact hEq ▸ ⟨Nat.div_le_div_right hFrom, Nat.div_le_div_right (by omega)⟩
  · obtain hFirst | hLater := Nat.eq_or_lt_of_le hFrom
    · exact ⟨addr, le_rfl, by omega, hFirst⟩
    · refine ⟨line.toNat, ?_, ?_, rfl⟩
      · exact (Nat.lt_of_div_lt_div hLater).le
      · have hLast := (Nat.le_div_iff_mul_le hPower).mp hTo
        rw [Nat.div_mul_cancel hLine] at hLast
        omega

theorem Touches.of_mem {lines lines' : List U32} (h : Touches k addr size lines) (hMem : ∀ x, x ∈ lines' ↔ x ∈ lines) :
    Touches k addr size lines' := by
  refine ⟨fun line => (hMem line).trans (h.exact line), ?_⟩
  rw [← h.count]
  congr 1
  ext line
  rw [List.mem_toFinset, List.mem_toFinset, hMem]

/-- A range that ends before the last line. -/
theorem maintains_of_fits (hk : k < 32) (hSize : size ≠ 0) (hFits : addr.toNat + size.toNat + 2 ^ k ≤ 2 ^ 32) :
    Maintains k addr size := by
  have hPower := Nat.two_pow_pos k
  have hPositive : 0 < size.toNat := Nat.pos_of_ne_zero fun hZero => hSize (BitVec.toNat_inj.mp hZero)
  have hNat (n : Nat) (hn : n < 2 ^ 32) : (ofNat 32 n).toNat = n := by
    rw [toNat_ofNat, Nat.mod_eq_of_lt hn]
  obtain ⟨m, hm⟩ := Nat.exists_eq_add_of_le (Nat.div_le_div_right (c := 2 ^ k)
    (show addr.toNat ≤ addr.toNat + size.toNat - 1 by omega))
  have hLast : (addr.toNat + size.toNat - 1) / 2 ^ k * 2 ^ k ≤ addr.toNat + size.toNat - 1 := Nat.div_mul_le_self _ _
  have hUp : (addr.toNat + size.toNat + (2 ^ k - 1)) / 2 ^ k = addr.toNat / 2 ^ k + (m + 1) := by
    have hSum : addr.toNat + size.toNat + (2 ^ k - 1) = addr.toNat + size.toNat - 1 + 2 ^ k := by omega
    rw [hSum, Nat.add_div_right _ hPower, hm]
    rfl
  have hEnd : (addr.toNat / 2 ^ k + (m + 1)) * 2 ^ k < 2 ^ 32 := by
    rw [← add_assoc, ← hm, add_mul, one_mul]
    omega
  have hLess : addr.toNat / 2 ^ k * 2 ^ k < (addr.toNat / 2 ^ k + (m + 1)) * 2 ^ k :=
    Nat.mul_lt_mul_of_pos_right (by omega) hPower
  obtain ⟨start, hStart⟩ : ∃ start, (wholeLines k addr size).start = start := ⟨_, rfl⟩
  have hStartNat := @cacheAlignRange_start k addr size hk hSize
  obtain ⟨cut, stop, hCut, -, hStopNat, hStop⟩ := @cacheAlignRange_stop k addr size hk hSize
  obtain rfl : cut = addr.toNat + size.toNat := by omega
  rw [Nat.mod_eq_of_lt (by omega), hUp] at hStopNat
  rw [hStart] at hStartNat hStop
  rw [if_neg (by rw [lt_def]; omega)] at hStop
  obtain rfl : start = ofNat 32 (addr.toNat / 2 ^ k * 2 ^ k) := by rw [← hStartNat]; simp
  obtain rfl : stop = ofNat 32 ((addr.toNat / 2 ^ k + (m + 1)) * 2 ^ k) := by rw [← hStopNat]; simp
  have hLoop := rangeLoop_lines hk _ (m + 1) hEnd
  have hSome : cacheRangeIsEmpty (wholeLines k addr size) = false := by
    rw [cacheRangeIsEmpty, hStart, hStop]
    exact decide_eq_false (BitVec.not_le.mpr (BitVec.lt_def.mpr (by omega)))
  have hLine (i : Nat) (hi : i < addr.toNat / 2 ^ k + (m + 1)) : (ofNat 32 (i * 2 ^ k)).toNat = i * 2 ^ k :=
    hNat _ ((Nat.mul_lt_mul_of_pos_right hi hPower).trans hEnd)
  have hTouches : Touches k addr size ((List.range' (addr.toNat / 2 ^ k) (m + 1)).map fun i =>
      ofNat 32 (i * 2 ^ k)) := by
    refine ⟨fun line => ?_, ?_⟩
    · rw [hasByte_iff hPositive (by omega), List.mem_map]
      constructor
      · rintro ⟨i, hi, rfl⟩
        have hBounds := List.mem_range'_1.mp hi
        rw [hLine i hBounds.2, Nat.mul_div_cancel _ hPower]
        exact ⟨Nat.dvd_mul_left _ _, hBounds.1, by omega⟩
      · rintro ⟨hWhole, hFrom, hTo⟩
        refine ⟨line.toNat / 2 ^ k, List.mem_range'_1.mpr ⟨hFrom, by omega⟩, ?_⟩
        rw [Nat.div_mul_cancel hWhole]
        simp
    · rw [List.toFinset_card_of_nodup, List.length_map, List.length_range', cacheRangeLines, hSome,
        if_neg Bool.false_ne_true, alignment_twoPow hk, BitVec.toNat_udiv, hStart, hStop,
        BitVec.toNat_sub_of_le (BitVec.le_def.mpr (by omega)), hStopNat, hStartNat, lineBytes_toNat hk, ← Nat.sub_mul,
        Nat.add_sub_cancel_left, Nat.mul_div_cancel _ hPower]
      refine .map_on (fun i hi j hj hEq => ?_) List.nodup_range'
      have hSame := congrArg BitVec.toNat hEq
      rw [hLine i (List.mem_range'_1.mp hi).2, hLine j (List.mem_range'_1.mp hj).2] at hSame
      exact Nat.eq_of_mul_eq_mul_right hPower hSame
  intro op enabled
  rw [← hStop, ← hStart] at hLoop
  obtain ⟨operations, hRun, hDcache, hL2⟩ := cacheRangeOp_lines op enabled hSome hLoop
  exact ⟨_, operations, hRun, hDcache ▸ hTouches, fun hEnabled => hTouches.of_mem (hL2 hEnabled)⟩

/-- Nothing is done for a range that comes out empty. -/
theorem cacheRangeOp_empty (op : CacheOp) (enabled : Bool) (rounds : Nat)
    (hNone : cacheRangeIsEmpty (wholeLines k addr size)) :
    cacheRangeOp (twoPow 32 k) enabled addr size op rounds = some [] := if_pos hNone

theorem maintains_nothing (k : Nat) (addr : U32) : Maintains k addr 0 := by
  have hNone : cacheRangeIsEmpty (wholeLines k addr 0) := decide_eq_true (BitVec.le_refl addr)
  have hTouches : Touches k addr 0 [] := by
    refine ⟨fun line => iff_of_false List.not_mem_nil ?_, ?_⟩
    · rintro ⟨-, byte, hFrom, hTo, -⟩
      have hEnd := hTo.trans_le (min_le_left _ _)
      exact absurd hEnd (not_lt.mpr hFrom)
    · rw [cacheRangeLines, hNone]
      rfl
  exact fun op enabled => ⟨0, [], cacheRangeOp_empty op enabled 0 hNone, hTouches, fun _ => hTouches⟩

theorem rangeLoop_before {rounds : Nat} {line stop step : U32} {lines : List U32}
    (h : rangeLoop step stop rounds line = some lines) : ∀ x ∈ lines, x < stop := by
  induction rounds generalizing line lines with
  | zero => cases h
  | succ rounds ih =>
    rw [rangeLoop] at h
    split at h
    · next hLess =>
      obtain ⟨rest, hRest, rfl⟩ := Option.map_eq_some_iff.mp h
      exact List.forall_mem_cons.mpr ⟨hLess, ih hRest⟩
    · cases h
      exact fun _ hx => nomatch hx

theorem cacheRangeOp_before {op : CacheOp} {rounds : Nat} {operations : List Operation}
    (h : cacheRangeOp (twoPow 32 k) false addr size op rounds = some operations) :
    (∀ x ∈ operations.filterMap Operation.dcache, x < (wholeLines k addr size).stop) ∧
      (cacheRangeIsEmpty (wholeLines k addr size) = false → rangeLoop (twoPow 32 k) (wholeLines k addr size).stop rounds
          (wholeLines k addr size).start ≠ none) := by
  cases hEmpty : cacheRangeIsEmpty (wholeLines k addr size) with
  | true =>
    rw [cacheRangeOp_empty op false rounds hEmpty] at h
    cases h
    exact ⟨fun _ hx => absurd hx List.not_mem_nil, nofun⟩
  | false =>
    cases hLoop : rangeLoop (twoPow 32 k) (wholeLines k addr size).stop rounds (wholeLines k addr size).start with
    | none => simp [cacheRangeOp, hEmpty, hLoop] at h
    | some lines =>
      obtain ⟨operations', hRun, hLines, -⟩ := cacheRangeOp_lines op false hEmpty hLoop
      cases h.symm.trans hRun
      exact ⟨hLines.symm ▸ rangeLoop_before hLoop, fun _ => nofun⟩

/-- A range that reaches the last line: the loop does not end, leaves out the last byte, or has no line to go over. -/
theorem not_maintains (hk : k < 32) (hSize : size ≠ 0) (hTop : 2 ^ 32 < addr.toNat + size.toNat + 2 ^ k) :
    ¬Maintains k addr size := by
  intro h
  obtain ⟨rounds, operations, hRun, hTouches, -⟩ := h .clean false
  have hPower := Nat.two_pow_pos k
  have hAddr := addr.isLt
  have hLess := size.isLt
  have hPositive : 0 < size.toNat := Nat.pos_of_ne_zero fun hZero => hSize (BitVec.toNat_inj.mp hZero)
  have hStartNat := @cacheAlignRange_start k addr size hk hSize
  obtain ⟨cut, stop, hCut, hCutLess, hStopNat, hStop⟩ := @cacheAlignRange_stop k addr size hk hSize
  obtain ⟨hBefore, hEnds⟩ := cacheRangeOp_before hRun
  obtain rfl | hWide := eq_or_ne k 0
  · have hLast : (wholeLines 0 addr size).stop = ~~~0 := by
      rw [hStop]
      split
      · rfl
      · apply BitVec.eq_of_toNat_eq
        change _ = 2 ^ 32 - 1
        omega
    have hByte : HasByte 0 addr.toNat size.toNat (~~~0) := by
      refine ⟨one_dvd _, 2 ^ 32 - 1, by omega, ?_, rfl⟩
      rw [min_eq_right (by omega)]
      decide
    exact absurd (hLast ▸ hBefore _ ((hTouches.exact _).mpr hByte)) (lt_irrefl _)
  · have hZero : stop.toNat = 0 := by
      have hLow : (cut + (2 ^ k - 1)) % 2 ^ 32 < 2 ^ k := by
        have hSmall : 2 ^ k ≤ 2 ^ 31 := Nat.pow_le_pow_right (by decide) (by omega)
        have hTwo : 2 ≤ 2 ^ k := Nat.le_self_pow hWide 2
        generalize 2 ^ k = p at hSmall hTwo hTop ⊢
        omega
      rw [hStopNat, Nat.div_eq_of_lt hLow, zero_mul]
    split at hStop
    · have hWhole : 2 ^ k ∣ (wholeLines k addr size).start.toNat := hStartNat ▸ Nat.dvd_mul_left _ _
      have hLoop := rangeLoop_endless hk hWide rounds hWhole
      rw [← hStop] at hLoop
      refine hEnds (decide_eq_false (BitVec.not_le.mpr ?_)) hLoop
      have hTwo : 2 ∣ (wholeLines k addr size).start.toNat := Nat.dvd_trans (dvd_pow_self 2 hWide) hWhole
      rw [hStop, lt_def]
      change _ < 2 ^ 32 - 1
      omega
    · next hNot =>
      rw [lt_def, hZero, hStartNat, not_lt] at hNot
      have hFirst : addr.toNat / 2 ^ k = 0 := by
        obtain hNone | hNone := Nat.mul_eq_zero.mp (Nat.le_zero.mp hNot)
        · exact hNone
        · exact absurd hNone hPower.ne'
      have hByte : HasByte k addr.toNat size.toNat 0 := by
        refine ⟨Nat.dvd_zero _, addr.toNat, le_rfl, lt_min (by omega) hAddr, ?_⟩
        rw [hFirst]
        exact (Nat.zero_div _).symm
      have hBelow := BitVec.lt_def.mp (hStop ▸ hBefore _ ((hTouches.exact _).mpr hByte))
      rw [hZero] at hBelow
      exact nomatch hBelow

/-- For lines of `2 ^ k` bytes, the loops end and touch the lines of the range exactly where it is empty or ends before
the last line. -/
theorem cache_maintenance_iff (k : Fin 32) (addr size : U32) :
    Maintains k addr size ↔ size = 0 ∨ addr.toNat + size.toNat + 2 ^ k.val ≤ 2 ^ 32 := by
  constructor
  · intro h
    by_contra hNot
    rw [not_or, not_le] at hNot
    exact not_maintains k.isLt hNot.1 hNot.2 h
  · rintro (rfl | hFits)
    · exact maintains_nothing k addr
    · rcases eq_or_ne size 0 with rfl | hSize
      · exact maintains_nothing k addr
      · exact maintains_of_fits k.isLt hSize hFits

/-- The last line of 32 bytes: the loop goes around the address space without end. -/
theorem cache_last_line_endless :
    (∀ rounds, cacheRangeOp 32 false 0xFFFFFFE0 32 .clean rounds = none) ∧ ¬Maintains 5 0xFFFFFFE0 32 := by
  have hLoop (rounds : Nat) : rangeLoop 32 (~~~0) rounds 0xFFFFFFE0 = none :=
    rangeLoop_endless (show 5 < 32 by decide) (by decide) rounds (by decide)
  have hNone (rounds : Nat) : cacheRangeOp 32 false 0xFFFFFFE0 32 .clean rounds = none := by
    have hRange : cacheAlignRange 0xFFFFFFE0 32 32 = ⟨0xFFFFFFE0, ~~~0⟩ := by decide
    simp only [cacheRangeOp, hRange, hLoop]
    rfl
  refine ⟨hNone, fun h => ?_⟩
  obtain ⟨rounds, operations, hRun, -⟩ := h .clean false
  rw [show twoPow 32 5 = 32 from rfl, hNone] at hRun
  cases hRun

end OpenXJ380.Cache
