import OpenXJ380.Frames.Model

/-! # Searching a bitmap for a range (`kernel/memory/bitmap.cpp`)

The search counts matching bits and goes on byte by byte. It sees whole bytes only. Where clear bits are
wanted, a byte of 1 is taken for one without clear bits, and the search that has a first index starts with the
byte of that index.
-/

namespace OpenXJ380.Frames

/-- `byte_match`. -/
def byteMatch (value : Bool) : BitVec 8 := if value then BitVec.allOnes 8 else 0

/-- `!byte_match`, which is a logical negation. -/
def notByteMatch (value : Bool) : BitVec 8 := if byteMatch value = 0 then 1 else 0

inductive Scan
  | found (index : Nat)
  | going (count start : Nat)

/-- The last `n` bits of a byte. -/
def scanBits (length : Nat) (value : Bool) (byte : BitVec 8) (byteIdx : Nat) : Nat → Nat → Nat → Scan
  | 0, count, start => .going count start
  | n + 1, count, start =>
    let bit := 8 - (n + 1)
    if byte.getLsbD bit = value then
      let start := if count = 0 then byteIdx * 8 + bit else start
      let count := count + 1
      if count = length then .found start else scanBits length value byte byteIdx n count start
    else scanBits length value byte byteIdx n 0 start

/-- The last `n` bytes. -/
def scanBytes (bitmap : Bitmap) (length : Nat) (value : Bool) : Nat → Nat → Nat → Nat → Option Nat
  | 0, _, _, _ => none
  | n + 1, byteIdx, count, start =>
    let byte := bitmap.buffer byteIdx
    if byte = notByteMatch value then scanBytes bitmap length value n (byteIdx + 1) 0 start
    else if byte = byteMatch value then
      if length < 8 then some (byteIdx * 8)
      else
        let start := if count = 0 then byteIdx * 8 else start
        let count := count + 8
        if count ≥ length then some start else scanBytes bitmap length value n (byteIdx + 1) count start
    else
      match scanBits length value byte byteIdx 8 count start with
      | .found index => some index
      | .going count start => scanBytes bitmap length value n (byteIdx + 1) count start

/-- Without an index where the function returns `(size_t)-1`. -/
def bitmapFindRange (bitmap : Bitmap) (length : Nat) (value : Bool) : Option Nat :=
  scanBytes bitmap length value (bitmap.length / 8) 0 0 0

def bitmapFindRangeFrom (bitmap : Bitmap) (length : Nat) (value : Bool) (startFrom : Nat) : Option Nat :=
  scanBytes bitmap length value (bitmap.length / 8 - startFrom / 8) (startFrom / 8) 0 0

/-- All of `length` places from `i` on. -/
def Stretch (p : Nat → Prop) (length i : Nat) : Prop := ∀ x, i ≤ x → x < i + length → p x

/-- The places from `s` up to `pos` have been counted, and no run begins before `s`. -/
structure Counted (p : Nat → Prop) (length first s pos : Nat) : Prop where
  first_le : first ≤ s
  le : s ≤ pos
  here : ∀ x, s ≤ x → x < pos → p x
  least : ∀ i, first ≤ i → Stretch p length i → s ≤ i
  short : pos < s + length

section

variable {p : Nat → Prop} {length first s pos n i : Nat}

theorem Counted.start (hLength : 0 < length) : Counted p length first first first where
  first_le := le_rfl
  le := le_rfl
  here _ hx hLt := absurd hx (not_le.mpr hLt)
  least _ hi _ := hi
  short := Nat.lt_add_of_pos_right hLength

variable (h : Counted p length first s pos)

include h

theorem Counted.hits (hHits : ∀ x, pos ≤ x → x < pos + n → p x)
    (hShort : pos + n < s + length) : Counted p length first s (pos + n) where
  __ := h
  le := Nat.le_add_right_of_le h.le
  here x hx hLt := by
    obtain hOld | hNew := lt_or_ge x pos
    · exact h.here x hx hOld
    · exact hHits x hNew hLt
  short := hShort

theorem Counted.found (hHits : ∀ x, pos ≤ x → x < pos + n → p x)
    (hLong : s + length ≤ pos + n) : Stretch p length s := by
  intro x hx hLt
  obtain hOld | hNew := lt_or_ge x pos
  · exact h.here x hx hOld
  · exact hHits x hNew (hLt.trans_le hLong)

theorem Counted.beyond (hi : first ≤ i) (hRun : Stretch p length i) : pos < i + length :=
  h.short.trans_le (Nat.add_le_add_right (h.least i hi hRun) length)

theorem Counted.misses (hMisses : ∀ x, pos ≤ x → x < pos + n → ¬p x) (hn : 0 < n) :
    Counted p length first (pos + n) (pos + n) where
  first_le := Nat.le_add_right_of_le (h.first_le.trans h.le)
  le := le_rfl
  here _ hx hLt := absurd hx (not_le.mpr hLt)
  least i hi hRun := by
    by_contra hBefore
    have hBeyond := h.beyond hi hRun
    have hShort := h.short
    have hLe := h.le
    exact hMisses (max i pos) (le_max_right i pos) (by omega) (hRun _ (le_max_left i pos) (by omega))
  short := by
    have hShort := h.short
    have hLe := h.le
    omega

end

/-- A bit with the value that is looked for, in a whole byte, and not in a byte of 1 where clear bits are wanted. -/
def Seen (bitmap : Bitmap) (value : Bool) (x : Nat) : Prop :=
  x / 8 < bitmap.length / 8 ∧ (value = false → bitmap.buffer (x / 8) ≠ 1) ∧
    (bitmap.buffer (x / 8)).getLsbD (x % 8) = value

def Has (bitmap : Bitmap) (value : Bool) (x : Nat) : Prop := x < bitmap.length ∧ bitmapGet bitmap x = value

section

variable {bitmap : Bitmap} {length first s pos n i x : Nat} {value : Bool} {byteIdx count start : Nat}

theorem Seen.has (h : Seen bitmap value x) : Has bitmap value x := by
  obtain ⟨hByte, -, hBit⟩ := h
  have hLt : x < bitmap.length := by omega
  exact ⟨hLt, by rw [bitmapGet, if_neg (not_le.mpr hLt), hBit]⟩

theorem not_seen_of_notByteMatch (hByte : bitmap.buffer (x / 8) = notByteMatch value) : ¬Seen bitmap value x := by
  rintro ⟨-, hNe, hBit⟩
  rw [hByte] at hNe hBit
  cases value with
  | true =>
    have hZero : notByteMatch true = 0#8 := by decide
    rw [hZero, BitVec.getLsbD_zero] at hBit
    exact Bool.false_ne_true hBit
  | false => exact hNe rfl (by decide)

theorem seen_of_byteMatch (hWhole : x / 8 < bitmap.length / 8) (hByte : bitmap.buffer (x / 8) = byteMatch value) :
    Seen bitmap value x := by
  refine ⟨hWhole, ?_, ?_⟩
  · rintro rfl
    rw [hByte]
    decide
  · rw [hByte]
    cases value with
    | true => exact (BitVec.getLsbD_allOnes ..).trans (decide_eq_true (Nat.mod_lt x (by decide)))
    | false => exact BitVec.getLsbD_zero

theorem seen_iff (hWhole : x / 8 < bitmap.length / 8) (hByte : bitmap.buffer (x / 8) ≠ notByteMatch value) :
    Seen bitmap value x ↔ (bitmap.buffer (x / 8)).getLsbD (x % 8) = value := by
  refine ⟨fun h => h.2.2, fun hBit => ⟨hWhole, ?_, hBit⟩⟩
  rintro rfl
  exact hByte

structure Scanning (bitmap : Bitmap) (length : Nat) (value : Bool) (first s pos count start : Nat) : Prop where
  counted : Counted (Seen bitmap value) length first s pos
  counts : s + count = pos
  starts : count ≠ 0 → start = s

structure Found (bitmap : Bitmap) (length : Nat) (value : Bool) (first i : Nat) : Prop where
  run : Stretch (Seen bitmap value) length i
  first_le : first ≤ i
  earlier : ∀ j, first ≤ j → Stretch (Seen bitmap value) length j → j < i →
    length < 8 ∧ i % 8 = 0 ∧ bitmap.buffer (i / 8) = byteMatch value ∧ i < j + length
  whole : length < 8 → bitmap.buffer ((i + length - 1) / 8) = byteMatch value → i % 8 = 0

theorem Scanning.begin (h : Scanning bitmap length value first s pos count start) :
    (if count = 0 then pos else start) = s := by
  have hCount := h.counts
  split
  · next hZero => omega
  · next hSome => exact h.starts hSome

theorem scanBits_spec (hWhole : byteIdx < bitmap.length / 8) (hNot : bitmap.buffer byteIdx ≠ notByteMatch value)
    (hNotFull : bitmap.buffer byteIdx ≠ byteMatch value) (hn : n ≤ 8)
    (h : Scanning bitmap length value first s (byteIdx * 8 + (8 - n)) count start) :
    (∃ i, scanBits length value (bitmap.buffer byteIdx) byteIdx n count start = .found i ∧
        Found bitmap length value first i) ∨
      ∃ s' count' start', scanBits length value (bitmap.buffer byteIdx) byteIdx n count start = .going count' start' ∧
        Scanning bitmap length value first s' (byteIdx * 8 + 8) count' start' := by
  induction n generalizing s count start with
  | zero => exact .inr ⟨s, count, start, rfl, h⟩
  | succ n ih =>
    have hDiv : (byteIdx * 8 + (8 - (n + 1))) / 8 = byteIdx := by omega
    have hMod : (byteIdx * 8 + (8 - (n + 1))) % 8 = 8 - (n + 1) := by omega
    have hNext : byteIdx * 8 + (8 - (n + 1)) + 1 = byteIdx * 8 + (8 - n) := by omega
    have hSeen : Seen bitmap value (byteIdx * 8 + (8 - (n + 1))) ↔
        (bitmap.buffer byteIdx).getLsbD (8 - (n + 1)) = value := by
      rw [seen_iff (hDiv.symm ▸ hWhole) (hDiv.symm ▸ hNot), hDiv, hMod]
    have hCount := h.counts
    by_cases hBit : (bitmap.buffer byteIdx).getLsbD (8 - (n + 1)) = value
    · have hHits : ∀ x, byteIdx * 8 + (8 - (n + 1)) ≤ x → x < byteIdx * 8 + (8 - (n + 1)) + 1 →
          Seen bitmap value x := by
        intro x hx hLt
        obtain rfl : x = byteIdx * 8 + (8 - (n + 1)) := by omega
        exact hSeen.mpr hBit
      simp only [scanBits, hBit, if_true, h.begin]
      by_cases hEnd : count + 1 = length
      · left
        refine ⟨s, if_pos hEnd, h.counted.found hHits (by omega), h.counted.first_le, ?_, ?_⟩
        · intro j hj hRun hLt
          exact absurd (h.counted.least j hj hRun) (not_le.mpr hLt)
        · intro _ hFull
          have hLast : (s + length - 1) / 8 = byteIdx := by omega
          rw [hLast] at hFull
          exact absurd hFull hNotFull
      · rw [if_neg hEnd]
        have hShort := h.counted.short
        refine ih (by omega) ⟨?_, by omega, fun _ => rfl⟩
        rw [← hNext]
        exact h.counted.hits hHits (by omega)
    · simp only [scanBits, hBit, if_false]
      have hMisses : ∀ x, byteIdx * 8 + (8 - (n + 1)) ≤ x → x < byteIdx * 8 + (8 - (n + 1)) + 1 →
          ¬Seen bitmap value x := by
        intro x hx hLt
        obtain rfl : x = byteIdx * 8 + (8 - (n + 1)) := by omega
        exact fun hx => hBit (hSeen.mp hx)
      refine ih (by omega) ⟨?_, add_zero _, fun hNe => absurd rfl hNe⟩
      rw [← hNext]
      exact h.counted.misses hMisses Nat.one_pos

theorem scanBytes_spec (hBytes : byteIdx + n = bitmap.length / 8 ∨ n = 0 ∧ bitmap.length / 8 ≤ byteIdx)
    (h : Scanning bitmap length value first s (byteIdx * 8) count start) :
    (scanBytes bitmap length value n byteIdx count start = none ∧
        ∀ i, first ≤ i → ¬Stretch (Seen bitmap value) length i) ∨
      ∃ i, scanBytes bitmap length value n byteIdx count start = some i ∧ Found bitmap length value first i := by
  induction n generalizing s byteIdx count start with
  | zero =>
    refine .inl ⟨rfl, fun i hi hRun => ?_⟩
    have hBeyond := h.counted.beyond hi hRun
    have hShort := h.counted.short
    have hLe := h.counted.le
    have hLast := (hRun (i + length - 1) (by omega) (by omega)).1
    omega
  | succ n ih =>
    have hWhole : byteIdx < bitmap.length / 8 := by omega
    have hRest : byteIdx + 1 + n = bitmap.length / 8 ∨ n = 0 ∧ bitmap.length / 8 ≤ byteIdx + 1 := by omega
    have hIn : ∀ x, byteIdx * 8 ≤ x → x < byteIdx * 8 + 8 → x / 8 = byteIdx := by omega
    have hNext : byteIdx * 8 + 8 = (byteIdx + 1) * 8 := by omega
    have hCount := h.counts
    rw [scanBytes]
    by_cases hNot : bitmap.buffer byteIdx = notByteMatch value
    · rw [if_pos hNot]
      refine ih hRest ⟨?_, add_zero _, fun hNe => absurd rfl hNe⟩
      rw [← hNext]
      exact h.counted.misses (fun x hx hLt => not_seen_of_notByteMatch (by rw [hIn x hx hLt, hNot])) (by decide)
    · rw [if_neg hNot]
      by_cases hFull : bitmap.buffer byteIdx = byteMatch value
      · have hHits : ∀ x, byteIdx * 8 ≤ x → x < byteIdx * 8 + 8 → Seen bitmap value x := by
          intro x hx hLt
          have hx := hIn x hx hLt
          exact seen_of_byteMatch (by rw [hx]; exact hWhole) (by rw [hx, hFull])
        rw [if_pos hFull]
        by_cases hSmall : length < 8
        · right
          rw [if_pos hSmall]
          refine ⟨byteIdx * 8, rfl, ?_, h.counted.first_le.trans h.counted.le, ?_, ?_⟩
          · exact fun x hx hLt => hHits x hx (by omega)
          · intro j hj hRun _
            refine ⟨hSmall, Nat.mul_mod_left byteIdx 8, ?_, h.counted.beyond hj hRun⟩
            rw [Nat.mul_div_cancel byteIdx (by decide), hFull]
          · exact fun _ _ => Nat.mul_mod_left byteIdx 8
        · simp only [if_neg hSmall, h.begin]
          by_cases hEnd : count + 8 ≥ length
          · right
            rw [if_pos hEnd]
            refine ⟨s, rfl, h.counted.found hHits (by omega), h.counted.first_le, ?_, (absurd · hSmall)⟩
            intro j hj hRun hLt
            exact absurd (h.counted.least j hj hRun) (not_le.mpr hLt)
          · rw [if_neg hEnd]
            refine ih hRest ⟨?_, by omega, fun _ => rfl⟩
            rw [← hNext]
            exact h.counted.hits hHits (by omega)
      · rw [if_neg hFull]
        rcases scanBits_spec (n := 8) hWhole hNot hFull (Nat.le_refl 8) h with
          ⟨i, hScan, hFound⟩ | ⟨s', count', start', hScan, hScanning⟩
        · right
          rw [hScan]
          exact ⟨i, rfl, hFound⟩
        · rw [hScan]
          rw [hNext] at hScanning
          exact ih hRest hScanning

theorem search_spec (bitmap : Bitmap) (value : Bool) (hLength : 0 < length) (hFirst : byteIdx * 8 = first) :
    (scanBytes bitmap length value (bitmap.length / 8 - byteIdx) byteIdx 0 0 = none ∧
        ∀ i, first ≤ i → ¬Stretch (Seen bitmap value) length i) ∨
      ∃ i, scanBytes bitmap length value (bitmap.length / 8 - byteIdx) byteIdx 0 0 = some i ∧
        Found bitmap length value first i := by
  refine scanBytes_spec (by omega) ⟨?_, add_zero _, fun hNe => absurd rfl hNe⟩
  rw [hFirst]
  exact .start hLength

theorem bitmapFindRange_spec (bitmap : Bitmap) (value : Bool) (hLength : 0 < length) :
    (bitmapFindRange bitmap length value = none ∧ ∀ i, ¬Stretch (Seen bitmap value) length i) ∨
      ∃ i, bitmapFindRange bitmap length value = some i ∧ Found bitmap length value 0 i := by
  obtain ⟨hNone, hAll⟩ | hSome := search_spec bitmap value hLength (Nat.zero_mul 8)
  · exact Or.inl ⟨hNone, fun i => hAll i (Nat.zero_le i)⟩
  · exact .inr hSome

/-- An answer is an index, from `first` on, of bits that all have the value, or there is none. -/
structure Answers (bitmap : Bitmap) (length : Nat) (value : Bool) (first : Nat) (answer : Option Nat) : Prop where
  sound : ∀ i, answer = some i → first ≤ i ∧ Stretch (Has bitmap value) length i
  complete : answer = none → ∀ i, first ≤ i → ¬Stretch (Has bitmap value) length i

theorem Found.has (h : Found bitmap length value first i) : Stretch (Has bitmap value) length i :=
  fun x hx hLt => (h.run x hx hLt).has

/-- A run that the search sees begins before `startFrom` and does not hold it up. -/
structure Passed (bitmap : Bitmap) (length : Nat) (value : Bool) (startFrom i : Nat) : Prop where
  short : length < 8
  beyond : startFrom / 8 * 8 + 8 < i + length
  next : bitmap.buffer (startFrom / 8 + 1) = byteMatch value

theorem passed_of_found {startFrom j : Nat} (h : Found bitmap length value (startFrom / 8 * 8) i) (hi : startFrom ≤ i)
    (hj : startFrom / 8 * 8 ≤ j) (hLt : j < startFrom) (hRun : Stretch (Seen bitmap value) length j) :
    Passed bitmap length value startFrom j := by
  obtain ⟨hShort, hMod, hByte, hBeyond⟩ := h.earlier j hj hRun (hLt.trans_le hi)
  have hNext : i / 8 = startFrom / 8 + 1 := by omega
  refine ⟨hShort, by omega, ?_⟩
  rw [← hNext, hByte]

theorem startFrom_le_of_found {startFrom : Nat} (h : Found bitmap length value (startFrom / 8 * 8) i)
    (hPassed : i < startFrom → Passed bitmap length value startFrom i) : startFrom ≤ i := by
  by_contra hLt
  obtain ⟨hShort, hBeyond, hNext⟩ := hPassed (not_le.mp hLt)
  have hFirst := h.first_le
  have hLast : (i + length - 1) / 8 = startFrom / 8 + 1 := by omega
  have hMod := h.whole hShort (by rw [hLast, hNext])
  omega

/-- The searches do what they are for exactly where a run that is there can be seen, and no run that begins too
early is found first. -/
theorem bitmapFindRange_answers_iff (bitmap : Bitmap) {length : Nat} (hLength : 0 < length) (value : Bool)
    (startFrom : Nat) :
    (Answers bitmap length value 0 (bitmapFindRange bitmap length value) ↔
        ((∃ i, Stretch (Has bitmap value) length i) → ∃ i, Stretch (Seen bitmap value) length i)) ∧
      (Answers bitmap length value startFrom (bitmapFindRangeFrom bitmap length value startFrom) ↔
        ((∃ i, startFrom ≤ i ∧ Stretch (Has bitmap value) length i) →
            ∃ i, startFrom ≤ i ∧ Stretch (Seen bitmap value) length i) ∧
          ∀ i, startFrom / 8 * 8 ≤ i → i < startFrom → Stretch (Seen bitmap value) length i →
            Passed bitmap length value startFrom i) := by
  constructor
  · rcases bitmapFindRange_spec bitmap value hLength with ⟨hNone, hAll⟩ | ⟨i, hSome, hFound⟩
    · constructor
      · rintro hAnswers ⟨j, hRun⟩
        exact absurd hRun (hAnswers.complete hNone j (Nat.zero_le j))
      · intro hSeen
        refine ⟨fun j hj => (nomatch hNone.symm.trans hj), fun _ j _ hRun => ?_⟩
        obtain ⟨k, hRun⟩ := hSeen ⟨j, hRun⟩
        exact hAll k hRun
    · constructor
      · exact fun _ _ => ⟨i, hFound.run⟩
      · intro _
        refine ⟨fun j hj => ?_, fun hNone => nomatch hNone.symm.trans hSome⟩
        obtain rfl := Option.some.inj (hSome.symm.trans hj)
        exact ⟨Nat.zero_le _, hFound.has⟩
  · have hStart : startFrom / 8 * 8 ≤ startFrom := Nat.div_mul_le_self startFrom 8
    rcases search_spec bitmap value hLength (rfl : startFrom / 8 * 8 = _) with
      ⟨hNone, hAll⟩ | ⟨i, hSome, hFound⟩
    · have hNone : bitmapFindRangeFrom bitmap length value startFrom = none := hNone
      constructor
      · intro hAnswers
        constructor
        · rintro ⟨j, hj, hRun⟩
          exact absurd hRun (hAnswers.complete hNone j hj)
        · intro j hj _ hRun
          exact absurd hRun (hAll j hj)
      · rintro ⟨hSeen, -⟩
        refine ⟨fun j hj => (nomatch hNone.symm.trans hj), fun _ j hj hRun => ?_⟩
        obtain ⟨k, hk, hRun⟩ := hSeen ⟨j, hj, hRun⟩
        exact hAll k (hStart.trans hk) hRun
    · have hSome : bitmapFindRangeFrom bitmap length value startFrom = some i := hSome
      constructor
      · intro hAnswers
        have hi := (hAnswers.sound i hSome).1
        exact ⟨fun _ => ⟨i, hi, hFound.run⟩, fun j hj hLt hRun => passed_of_found hFound hi hj hLt hRun⟩
      · rintro ⟨-, hPassed⟩
        refine ⟨fun j hj => ?_, fun hNone => nomatch hNone.symm.trans hSome⟩
        obtain rfl := Option.some.inj (hSome.symm.trans hj)
        exact ⟨startFrom_le_of_found hFound fun hLt => hPassed i hFound.first_le hLt hFound.run, hFound.has⟩

end

def oneByte (byte : BitVec 8) : Bitmap where
  buffer := fun _ => byte
  length := 8

/-- In a clear byte, the search for one clear bit from index 0 on. -/
theorem bitmapFindRange_answers_clear :
    (∃ i, Stretch (Seen (oneByte 0) false) 1 i) ∧
      Answers (oneByte 0) 1 false 0 (bitmapFindRangeFrom (oneByte 0) 1 false 0) := by
  have hRun : Stretch (Seen (oneByte 0) false) 1 0 := by
    intro x _ hx
    obtain rfl : x = 0 := by omega
    exact ⟨by decide, by decide, by decide⟩
  refine ⟨⟨0, hRun⟩, ((bitmapFindRange_answers_iff (oneByte 0) Nat.one_pos false 0).2).mpr ⟨?_, ?_⟩⟩
  · exact fun _ => ⟨0, Nat.le_refl 0, hRun⟩
  · exact fun i _ hLt => nomatch hLt

/-- The seven clear bits of a byte of 1 are not found, and from index 3 on index 0 is found. -/
theorem bitmapFindRange_misses :
    (Stretch (Has (oneByte 1) false) 7 1 ∧ ¬Answers (oneByte 1) 7 false 0 (bitmapFindRange (oneByte 1) 7 false)) ∧
      bitmapFindRangeFrom (oneByte 0) 1 false 3 = some 0 ∧
        ¬Answers (oneByte 0) 1 false 3 (bitmapFindRangeFrom (oneByte 0) 1 false 3) := by
  have hClear : Stretch (Has (oneByte 1) false) 7 1 := by
    intro x hx hLt
    have hCases : ∀ x < 8, 1 ≤ x → x < (oneByte 1).length ∧ bitmapGet (oneByte 1) x = false := by decide
    exact hCases x hLt hx
  have hNone : bitmapFindRange (oneByte 1) 7 false = none := by decide
  have hEarly : bitmapFindRangeFrom (oneByte 0) 1 false 3 = some 0 := by decide
  refine ⟨⟨hClear, fun hAnswers => hAnswers.complete hNone 1 (Nat.zero_le 1) hClear⟩, hEarly, fun hAnswers => ?_⟩
  exact absurd (hAnswers.sound 0 hEarly).1 (by decide)

end OpenXJ380.Frames
