import Mathlib.Data.Nat.Bitwise

/-! # Single bits and low bits of a word -/

namespace Bits

variable {w j k : Nat}

theorem bit_getLsbD (j k : Nat) : (1#w <<< k).getLsbD j = decide (j = k ∧ j < w) := by
  rw [BitVec.getLsbD_shiftLeft, BitVec.getLsbD_one]
  grind

theorem set_getLsbD (x : BitVec w) (value : Bool) (hj : j < w) :
    (if value then x ||| 1#w <<< k else x &&& ~~~(1#w <<< k)).getLsbD j = if j = k then value else x.getLsbD j := by
  cases value with
  | true =>
    rw [if_pos rfl, BitVec.getLsbD_or, bit_getLsbD]
    by_cases hEq : j = k <;> simp [hEq]
    omega
  | false =>
    rw [if_neg Bool.false_ne_true, BitVec.getLsbD_and, BitVec.getLsbD_not, bit_getLsbD]
    by_cases hEq : j = k <;> simp [hEq, hj]

theorem masked_iff (x : BitVec w) (hk : k < w) : x &&& 1#w <<< k = 0 ↔ x.getLsbD k = false := by
  constructor
  · intro hZero
    have hBit := congrArg (BitVec.getLsbD · k) hZero
    simpa [bit_getLsbD, hk] using hBit
  · intro hClear
    apply BitVec.eq_of_getLsbD_eq
    intro j _
    rw [BitVec.getLsbD_and, bit_getLsbD]
    obtain rfl | hOther := eq_or_ne j k
    · simp [hClear]
    · simp [hOther]

/-- Clearing the bits of a mask of `k` ones rounds down. -/
theorem clear_low_toNat (x : BitVec w) {mask : BitVec w} (hMask : mask.toNat = 2 ^ k - 1) :
    (x &&& ~~~mask).toNat = x.toNat / 2 ^ k * 2 ^ k := by
  have hShift : x &&& ~~~mask = (x >>> k) <<< k := by
    apply BitVec.eq_of_getLsbD_eq
    intro j hj
    have hBit : mask.getLsbD j = decide (j < k) := by
      rw [BitVec.getLsbD, hMask, Nat.testBit_two_pow_sub_one]
    rw [BitVec.getLsbD_and, BitVec.getLsbD_not, hBit, BitVec.getLsbD_shiftLeft, BitVec.getLsbD_ushiftRight]
    obtain hLow | hHigh := lt_or_ge j k
    · simp [hLow]
    · simp [hj, hHigh, not_lt.mpr hHigh]
  rw [hShift, BitVec.toNat_shiftLeft, BitVec.toNat_ushiftRight, Nat.shiftLeft_eq, Nat.shiftRight_eq_div_pow]
  exact Nat.mod_eq_of_lt ((Nat.div_mul_le_self _ _).trans_lt x.isLt)

end Bits
