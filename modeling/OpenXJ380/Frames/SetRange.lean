import OpenXJ380.Frames.Model

/-! # Setting a range (`kernel/memory/bitmap.cpp`)

The loop over whole bytes does not look at the length, so a range that ends a
whole byte past the bitmap reaches the memory behind the buffer.
-/

namespace OpenXJ380.Frames

variable {bitmap : Bitmap} {start stop n index w : Nat} {value : Bool}

/-- The range has the value, the other bits and the memory behind the buffer stay. -/
structure SetsRange (bitmap : Bitmap) (start stop : Nat) (value : Bool) : Prop where
  bits : ∀ i < bitmap.length, bitmapGet (bitmapSetRange bitmap start stop value) i =
    if start ≤ i ∧ i < stop then value else bitmapGet bitmap i
  inside : ∀ w, bitmap.length ≤ w * 8 → (bitmapSetRange bitmap start stop value).buffer w = bitmap.buffer w
  bitwise : bitmapSetRange bitmap start stop value = bitmapSetBits value (stop - start) bitmap start

theorem bitmapSet_behind (hBehind : bitmap.length ≤ w * 8) :
    (bitmapSet bitmap index value).buffer w = bitmap.buffer w := by
  rw [bitmapSet]
  split
  · rfl
  · next hIndex => exact Function.update_of_ne (by omega) ..

theorem bitmapSetBits_behind (hBehind : bitmap.length ≤ w * 8) :
    (bitmapSetBits value n bitmap index).buffer w = bitmap.buffer w := by
  induction n generalizing bitmap index with
  | zero => rfl
  | succ n ih =>
    rw [bitmapSetBits, ih (by rwa [bitmapSet_length]), bitmapSet_behind hBehind]

theorem bitmapFill_buffer {word : Nat} : (bitmapFill value n bitmap word).buffer w =
      if word ≤ w ∧ w < word + n then if value then BitVec.allOnes 8 else 0#8 else bitmap.buffer w := by
  induction n generalizing bitmap word with
  | zero =>
    rw [if_neg (by omega)]
    rfl
  | succ n ih =>
    rw [bitmapFill, ih]
    obtain rfl | hOther := eq_or_ne w word
    · have hLater : ¬(w + 1 ≤ w ∧ w < w + 1 + n) := by omega
      have hHere : w ≤ w ∧ w < w + (n + 1) := by omega
      rw [if_neg hLater, if_pos hHere]
      exact Function.update_self ..
    · have hIff : (word + 1 ≤ w ∧ w < word + 1 + n) ↔ word ≤ w ∧ w < word + (n + 1) := by omega
      simp only [hIff, Function.update_of_ne hOther]

/-- A buffer of whole bytes is known by its bits and the memory behind it. -/
theorem bitmap_ext {b : Bitmap} {size : Nat} (hLength : bitmap.length = size * 8) (hSame : b.length = size * 8)
    (hBits : ∀ i < size * 8, bitmapGet bitmap i = bitmapGet b i)
    (hBehind : ∀ w, size * 8 ≤ w * 8 → bitmap.buffer w = b.buffer w) : bitmap = b := by
  obtain ⟨buffer, length⟩ := bitmap
  obtain ⟨buffer', length'⟩ := b
  obtain rfl : length = size * 8 := hLength
  obtain rfl : length' = size * 8 := hSame
  congr
  funext w
  obtain hIn | hOut := lt_or_ge w size
  · apply BitVec.eq_of_getLsbD_eq
    intro j hj
    have hBit := hBits (w * 8 + j) (by omega)
    have hByte : (w * 8 + j) / 8 = w := by omega
    have hPlace : (w * 8 + j) % 8 = j := by omega
    simpa only [bitmapGet, if_neg (show ¬w * 8 + j ≥ size * 8 by omega), hByte, hPlace] using hBit
  · exact hBehind w (Nat.mul_le_mul_right 8 hOut)

theorem bitmapSetRange_behind {size : Nat} (hLength : bitmap.length = size * 8)
    (hFits : start < stop → start < size * 8 → stop < size * 8 + 8) (hBehind : size * 8 ≤ w * 8) :
    (bitmapSetRange bitmap start stop value).buffer w = bitmap.buffer w := by
  have hBehind' : bitmap.length ≤ w * 8 := hLength ▸ hBehind
  simp only [bitmapSetRange]
  split
  · rfl
  next hSome =>
  split
  · exact bitmapSetBits_behind hBehind'
  · rw [bitmapSetBits_behind (by simpa using hBehind'), bitmapFill_buffer, if_neg (by omega),
      bitmapSetBits_behind hBehind']

theorem bitmapSetRange_overrun {size : Nat} (hLength : bitmap.length = size * 8) (hSome : start < stop)
    (hStart : start < size * 8) (hStop : size * 8 + 8 ≤ stop) :
    (bitmapSetRange bitmap start stop value).buffer size = if value then BitVec.allOnes 8 else 0#8 := by
  simp only [bitmapSetRange]
  rw [if_neg (by omega), if_neg (by omega), bitmapSetBits_behind (by simp [hLength]), bitmapFill_buffer,
    if_pos (by omega)]

/-- Over every content, a bitmap of `size` bytes has its range set exactly where the range does not end a whole byte
past it. -/
theorem bitmap_set_range_iff (size start stop : Nat) (value : Bool) :
    (∀ buffer, SetsRange ⟨buffer, size * 8⟩ start stop value) ↔
      (start < stop → start < size * 8 → stop < size * 8 + 8) := by
  constructor
  · intro hSets hSome hStart
    by_contra hPast
    have hByte := (hSets fun _ => if value then 0#8 else BitVec.allOnes 8).inside size le_rfl
    rw [bitmapSetRange_overrun rfl hSome hStart (Nat.le_of_not_lt hPast)] at hByte
    cases value with
    | false => exact absurd (show 0#8 = BitVec.allOnes 8 from hByte) (by decide)
    | true => exact absurd (show BitVec.allOnes 8 = 0#8 from hByte) (by decide)
  · intro hFits buffer
    have hGet (i : Nat) (hi : i < size * 8) : bitmapGet (bitmapSetRange ⟨buffer, size * 8⟩ start stop value) i =
        if start ≤ i ∧ i < stop then value else bitmapGet ⟨buffer, size * 8⟩ i := by
      rw [bitmapSetRange_get]
      simp only [hi, and_true]
    refine ⟨hGet, fun w => bitmapSetRange_behind rfl hFits, ?_⟩
    apply bitmap_ext bitmapSetRange_length bitmapSetBits_length
    · intro i hi
      rw [hGet i hi, bitmapSetBits_get]
      simp only [hi, and_true]
      congr 1
      rw [eq_iff_iff]
      omega
    · intro w hBehind
      rw [bitmapSetRange_behind rfl hFits hBehind, bitmapSetBits_behind hBehind]

/-- The byte behind a buffer of one byte is set. -/
theorem bitmap_set_range_overruns : ¬SetsRange ⟨fun _ => 0, 8⟩ 0 16 true := by
  intro hSets
  exact absurd (hSets.inside 1 (by decide)) (by decide)

end OpenXJ380.Frames
