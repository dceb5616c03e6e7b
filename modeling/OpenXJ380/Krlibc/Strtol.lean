import Mathlib.Data.List.TakeWhile
import Mathlib.Data.Nat.Digits.Defs
import OpenXJ380.Krlibc.Strings

/-! # Numbers in strings (`strtol` of `kernel/krlibc.cpp`)

Every operation on `uint64_t` and the last negation are checked: where one would leave the
range of its type there is no result.
-/

namespace OpenXJ380.Krlibc

open Option (bind_eq_bind bind_some some_inj)

def longMax : Nat := 2 ^ 63 - 1

def isspace (c : Byte) : Bool :=
  c = 0x20 || c = 0x09 || c = 0x0A || c = 0x0D || c = 0x0C || c = 0x0B

/-- `-1` where the character is none. -/
def digitOf (ch : Int) : Int :=
  if 0x30 ≤ ch ∧ ch ≤ 0x39 then ch - 0x30
  else if 0x41 ≤ ch ∧ ch ≤ 0x5A then ch - 0x41 + 10
  else if 0x61 ≤ ch ∧ ch ≤ 0x7A then ch - 0x61 + 10
  else -1

def isHexDigit (ch : Int) : Bool :=
  (0x30 ≤ ch ∧ ch ≤ 0x39) ∨ (0x41 ≤ ch ∧ ch ≤ 0x46) ∨ (0x61 ≤ ch ∧ ch ≤ 0x66)

def checked (x : Nat) : Option Nat := if x < 2 ^ 64 then some x else none

def checkedSub (x y : Nat) : Option Nat := if y ≤ x then some (x - y) else none

def checkedLong (x : Int) : Option Int := if -2 ^ 63 ≤ x ∧ x < 2 ^ 63 then some x else none

/-- The loop over the digits: the value, whether it was too large, and where the cursor stays. -/
def strtolLoop (base limit : Nat) : List Byte → Nat → Bool → Option (Nat × Bool × List Byte)
  | [], value, overflow => some (value, overflow, [])
  | c :: cursor, value, overflow =>
    let digit := digitOf (charValue c)
    if digit = -1 ∨ digit ≥ base then some (value, overflow, c :: cursor)
    else do
      let room ← checkedSub limit digit.toNat
      if value > room / base then strtolLoop base limit cursor value true
      else do
        let product ← checked (value * base)
        let value ← checked (product + digit.toNat)
        strtolLoop base limit cursor value overflow

def strtolSign (cursor : List Byte) : Bool × List Byte :=
  match cursor with
  | c :: rest => if c = 0x2D ∨ c = 0x2B then (c = 0x2D, rest) else (false, c :: rest)
  | [] => (false, [])

def hasHexPrefix (base : Int) (cursor : List Byte) : Bool :=
  (base = 0 ∨ base = 16) ∧ cursor.headD nul = 0x30 ∧
    ((cursor.drop 1).headD nul = 0x78 ∨ (cursor.drop 1).headD nul = 0x58) ∧
    isHexDigit (charValue ((cursor.drop 2).headD nul)) = true

def strtolBase (base : Int) (cursor : List Byte) : Nat × List Byte :=
  if hasHexPrefix base cursor then (16, cursor.drop 2)
  else if base = 0 then (if cursor.headD nul = 0x30 then 8 else 10, cursor)
  else (base.toNat, cursor)

def strtolLimit (negative : Bool) : Option Nat := if negative then checked (longMax + 1) else checked longMax

def strtolResult (negative overflow : Bool) (value : Nat) : Option Int :=
  if overflow then some (if negative then -2 ^ 63 else longMax)
  else if !negative then checkedLong value
  else if value = longMax + 1 then some (-2 ^ 63)
  else (checkedLong value).bind fun value => checkedLong (-value)

/-- The result and how far behind `str` the end pointer stands, which is `NULL` with `str`. -/
def strtol (str : Option (List Byte)) (base : Int) : Option (Int × Option Nat) :=
  match str with
  | none => some (0, none)
  | some str =>
    let (negative, cursor) := strtolSign (str.dropWhile isspace)
    if base ≠ 0 ∧ (base < 2 ∨ base > 36) then some (0, some 0)
    else do
      let (base, numberStart) := strtolBase base cursor
      let limit ← strtolLimit negative
      let (value, overflow, cursor) ← strtolLoop base limit numberStart 0 false
      if cursor = numberStart then some (0, some 0)
      else
        let result ← strtolResult negative overflow value
        some (result, some (str.length - cursor.length))

def isDigit (base : Nat) (c : Byte) : Bool :=
  digitOf (charValue c) ≠ -1 ∧ digitOf (charValue c) < base

def magnitude (base : Nat) (digits : List Byte) : Nat :=
  Nat.ofDigits base (digits.reverse.map fun c => (digitOf (charValue c)).toNat)

def IsSign (sign : List Byte) (negative : Bool) : Prop :=
  (sign = [] ∨ sign = [0x2B]) ∧ negative = false ∨ sign = [0x2D] ∧ negative = true

/-- What may stand before the digits, and the base that they are then read in. -/
def IsPrefix (base : Int) (pre digits : List Byte) (radix : Nat) : Prop :=
  (pre = [0x30, 0x78] ∨ pre = [0x30, 0x58]) ∧ (base = 0 ∨ base = 16) ∧ radix = 16 ∨
    pre = [] ∧ (2 ≤ base ∧ base ≤ 36 ∧ radix = base.toNat ∨
      base = 0 ∧ radix = if digits.head? = some 0x30 then 8 else 10)

def signed (negative : Bool) (m : Nat) : Int := if negative then -m else m

/-- White space, a sign, a prefix and digits, with the number that they are. -/
structure Numeral (base : Int) (text : List Byte) (number : Int) : Prop where
  parts : ∃ spaces sign pre digits negative radix, text = spaces ++ (sign ++ (pre ++ digits)) ∧
    (∀ c ∈ spaces, isspace c = true) ∧ IsSign sign negative ∧ IsPrefix base pre digits radix ∧
    digits ≠ [] ∧ (∀ c ∈ digits, isDigit radix c = true) ∧ number = signed negative (magnitude radix digits)

def clamp (number : Int) : Int := max (-2 ^ 63) (min number longMax)

theorem magnitude_append (base : Nat) (digits : List Byte) (c : Byte) :
    magnitude base (digits ++ [c]) = magnitude base digits * base + (digitOf (charValue c)).toNat := by
  simp [magnitude, Nat.ofDigits_cons, mul_comm, add_comm]

theorem digitOf_nonneg {ch : Int} (h : digitOf ch ≠ -1) : 0 ≤ digitOf ch := by
  unfold digitOf at h ⊢
  split_ifs at h ⊢ <;> omega

/-- The value is exact as long as it does not pass the limit, and from then on the flag stays. -/
def Reads (limit m value : Nat) (overflow : Bool) : Prop :=
  if m ≤ limit then value = m ∧ overflow = false else overflow = true ∧ value ≤ limit

variable {base : Int} {value : Nat} {overflow : Bool} {c : Byte}

theorem Reads.step {base limit m digit : Nat} (h : Reads limit m value overflow)
    (hbase : 0 < base) (hdigit : digit ≤ limit) :
    if value > (limit - digit) / base then Reads limit (m * base + digit) value true
    else value * base + digit ≤ limit ∧ Reads limit (m * base + digit) (value * base + digit) overflow := by
  have hiff : value > (limit - digit) / base ↔ limit < value * base + digit := by
    rw [gt_iff_lt, Nat.div_lt_iff_lt_mul hbase]
    omega
  have hgrows : m ≤ m * base := Nat.le_mul_of_pos_right m hbase
  unfold Reads at h ⊢
  obtain hm | hm := lt_or_ge limit m |>.symm
  · rw [if_pos hm] at h
    obtain ⟨rfl, rfl⟩ := h
    obtain hlarge | hlarge := lt_or_ge limit (value * base + digit)
    · rw [if_pos (hiff.mpr hlarge), if_neg (not_le.mpr hlarge)]
      exact ⟨rfl, hm⟩
    · rw [if_neg (mt hiff.mp (not_lt.mpr hlarge)), if_pos hlarge]
      exact ⟨hlarge, rfl, rfl⟩
  · rw [if_neg (not_le.mpr hm)] at h
    obtain ⟨rfl, hvalue⟩ := h
    have hm' : ¬ m * base + digit ≤ limit := by omega
    obtain hlarge | hlarge := lt_or_ge limit (value * base + digit)
    · rw [if_pos (hiff.mpr hlarge), if_neg hm']
      exact ⟨rfl, hvalue⟩
    · rw [if_neg (mt hiff.mp (not_lt.mpr hlarge)), if_neg hm']
      exact ⟨hlarge, rfl, hlarge⟩

theorem strtolLoop_reads {base limit : Nat} (hbase : 0 < base) (hlimit : base ≤ limit) (hword : limit < 2 ^ 64)
    (cursor seen : List Byte) (h : Reads limit (magnitude base seen) value overflow) :
    ∃ value' overflow', strtolLoop base limit cursor value overflow =
        some (value', overflow', cursor.dropWhile (isDigit base)) ∧
      Reads limit (magnitude base (seen ++ cursor.takeWhile (isDigit base))) value' overflow' := by
  induction cursor generalizing seen value overflow with
  | nil => exact ⟨value, overflow, rfl, by simpa using h⟩
  | cons c cursor ih =>
    rw [strtolLoop, List.dropWhile_cons, List.takeWhile_cons]
    by_cases hdigit : isDigit base c
    · simp only [isDigit, decide_eq_true_eq] at hdigit
      have hnonneg := digitOf_nonneg hdigit.1
      have hsmall : (digitOf (charValue c)).toNat ≤ limit := by omega
      have hstep := h.step hbase hsmall
      rw [← magnitude_append] at hstep
      rw [if_neg (by omega), if_pos (by simpa [isDigit] using hdigit), if_pos (by simpa [isDigit] using hdigit)]
      simp only [checkedSub, hsmall, if_true, bind_eq_bind, bind_some]
      split at hstep
      next hlarge =>
        rw [if_pos hlarge]
        simpa using ih (seen ++ [c]) hstep
      next hlarge =>
        rw [if_neg hlarge]
        have hproduct : value * base < 2 ^ 64 := by omega
        have hsum : value * base + (digitOf (charValue c)).toNat < 2 ^ 64 := by omega
        simp only [checked, hproduct, hsum, if_true, bind_some]
        simpa using ih (seen ++ [c]) hstep.2
    · have hstop : digitOf (charValue c) = -1 ∨ digitOf (charValue c) ≥ base := by
        simp only [isDigit, decide_eq_true_eq] at hdigit
        omega
      rw [if_pos hstop, if_neg hdigit, if_neg hdigit]
      exact ⟨value, overflow, rfl, by simpa using h⟩

theorem strtolLimit_eq (negative : Bool) :
    strtolLimit negative = some (if negative then longMax + 1 else longMax) := by
  cases negative <;> rfl

theorem strtolResult_eq {negative : Bool} {m : Nat}
    (h : Reads (if negative then longMax + 1 else longMax) m value overflow) :
    strtolResult negative overflow value = some (clamp (signed negative m)) := by
  have hmax : (longMax : Int) = 2 ^ 63 - 1 := rfl
  cases negative with
  | false =>
    simp only [Reads, Bool.false_eq_true, if_false] at h
    split at h
    next hm =>
      obtain ⟨rfl, rfl⟩ := h
      have hlong : checkedLong value = some (value : Int) := if_pos (by omega)
      simp only [strtolResult, Bool.false_eq_true, if_false, Bool.not_false, if_true, hlong, signed, clamp]
      rw [some_inj]
      omega
    next hm =>
      obtain ⟨rfl, -⟩ := h
      simp only [strtolResult, Bool.false_eq_true, if_true, if_false, signed, clamp]
      rw [some_inj]
      omega
  | true =>
    simp only [Reads, if_true] at h
    split at h
    next hm =>
      obtain ⟨rfl, rfl⟩ := h
      simp only [strtolResult, Bool.false_eq_true, if_false, Bool.not_true, if_true, signed, clamp]
      split
      next hlast =>
        rw [some_inj]
        omega
      next hlast =>
        have hlong : checkedLong value = some (value : Int) := if_pos (by omega)
        have hneg : checkedLong (-value) = some (-value : Int) := if_pos (by omega)
        rw [hlong, bind_some, hneg]
        rw [some_inj]
        omega
    next hm =>
      obtain ⟨rfl, -⟩ := h
      simp only [strtolResult, if_true, signed, clamp]
      rw [some_inj]
      omega

theorem dropWhile_eq_self_iff_takeWhile (p : Byte → Bool) (s : List Byte) :
    s.dropWhile p = s ↔ s.takeWhile p = [] := by
  cases s with
  | nil => simp
  | cons c s =>
    rw [List.dropWhile_cons, List.takeWhile_cons]
    split
    next =>
      have hshort : (s.dropWhile p).length ≤ s.length := (List.dropWhile_suffix p).length_le
      refine iff_of_false (fun h => ?_) (List.cons_ne_nil _ _)
      rw [h] at hshort
      exact absurd hshort (by simp)
    next => simp

theorem strtol_eq (hbase : base = 0 ∨ 2 ≤ base ∧ base ≤ 36) (str : List Byte) :
    strtol (some str) base =
      let c := strtolSign (str.dropWhile isspace)
      let b := strtolBase base c.2
      let digits := b.2.takeWhile (isDigit b.1)
      some (if digits = [] then (0, some 0)
        else (clamp (signed c.1 (magnitude b.1 digits)),
          some (str.length - (b.2.dropWhile (isDigit b.1)).length))) := by
  obtain ⟨negative, cursor, hc⟩ : ∃ n c, strtolSign (str.dropWhile isspace) = (n, c) := ⟨_, _, rfl⟩
  obtain ⟨radix, start, hb⟩ : ∃ r s, strtolBase base cursor = (r, s) := ⟨_, _, rfl⟩
  have hradix : 0 < radix ∧ radix ≤ 36 := by
    have h := congrArg Prod.fst hb
    simp only [strtolBase] at h
    split_ifs at h <;> simp only at h <;> omega
  have hvalid : ¬ (base ≠ 0 ∧ (base < 2 ∨ base > 36)) := by omega
  obtain ⟨limit, hl⟩ : ∃ limit, limit = if negative = true then longMax + 1 else longMax := ⟨_, rfl⟩
  have hword : radix ≤ limit ∧ limit < 2 ^ 64 := by
    rw [hl]
    split <;> simp only [longMax] <;> omega
  obtain ⟨value, overflow, hloop, hreads⟩ :=
    strtolLoop_reads hradix.1 hword.1 hword.2 start [] (show Reads limit (magnitude radix []) 0 false by
      simp [Reads, magnitude])
  rw [hl, List.nil_append] at hreads
  simp only [strtol, hc, hb, if_neg hvalid, strtolLimit_eq, ← hl, hloop, strtolResult_eq hreads,
    bind_eq_bind, bind_some, dropWhile_eq_self_iff_takeWhile]
  split <;> rfl

theorem isDigit_of_prefix {base : Nat} (h : isDigit base c) :
    isspace c = false ∧ c ≠ 0x2D ∧ c ≠ 0x2B := by
  have hall : ∀ c : Byte, digitOf (charValue c) ≠ -1 → isspace c = false ∧ c ≠ 0x2D ∧ c ≠ 0x2B := by decide
  simp only [isDigit, decide_eq_true_eq] at h
  exact hall c h.1

theorem isDigit_sixteen (c : Byte) : isDigit 16 c = isHexDigit (charValue c) := by
  revert c
  decide

theorem not_isDigit_x {base : Nat} (hbase : base ≤ 16) {x : Byte} (hx : x = 0x78 ∨ x = 0x58) :
    isDigit base x = false := by
  have hvalue : digitOf (charValue x) = 33 := by
    obtain rfl | rfl := hx <;> rfl
  rw [isDigit, hvalue]
  simp
  omega

theorem strtolSign_split (cursor : List Byte) :
    ∃ sign, cursor = sign ++ (strtolSign cursor).2 ∧ IsSign sign (strtolSign cursor).1 := by
  cases cursor with
  | nil => exact ⟨[], rfl, .inl ⟨.inl rfl, rfl⟩⟩
  | cons c rest =>
    rw [strtolSign]
    split
    next hc =>
      refine ⟨[c], rfl, ?_⟩
      obtain rfl | rfl := hc
      · exact .inr ⟨rfl, rfl⟩
      · exact .inl ⟨.inr rfl, rfl⟩
    next hc => exact ⟨[], rfl, .inl ⟨.inl rfl, rfl⟩⟩

theorem strtolSign_sign {sign : List Byte} {negative : Bool} (h : IsSign sign negative) (rest : List Byte)
    (hc : c ≠ 0x2D ∧ c ≠ 0x2B) : strtolSign (sign ++ c :: rest) = (negative, c :: rest) := by
  obtain ⟨rfl | rfl, rfl⟩ | ⟨rfl, rfl⟩ := h
  · exact if_neg (not_or.mpr hc)
  · rfl
  · rfl

theorem hasHexPrefix_iff {cursor : List Byte} :
    hasHexPrefix base cursor ↔ (base = 0 ∨ base = 16) ∧
      ∃ x c rest, cursor = 0x30 :: x :: c :: rest ∧ (x = 0x78 ∨ x = 0x58) ∧ isDigit 16 c := by
  have hnul : isHexDigit (charValue nul) = false := by decide
  simp only [hasHexPrefix, decide_eq_true_eq]
  refine and_congr_right fun _ => ⟨?_, ?_⟩
  · rintro ⟨hzero, hx, hdigit⟩
    cases cursor with
    | nil => simp [hnul] at hdigit
    | cons z cursor =>
      cases cursor with
      | nil => simp [hnul] at hdigit
      | cons x cursor =>
        cases cursor with
        | nil => simp [hnul] at hdigit
        | cons c rest => exact ⟨x, c, rest, congrArg (· :: _) hzero, hx, (isDigit_sixteen c).trans hdigit⟩
  · rintro ⟨x, c, rest, rfl, hx, hdigit⟩
    exact ⟨rfl, hx, (isDigit_sixteen c).symm.trans hdigit⟩

theorem strtolBase_split (hbase : base = 0 ∨ 2 ≤ base ∧ base ≤ 36) (cursor : List Byte) :
    ∃ pre, cursor = pre ++ (strtolBase base cursor).2 ∧ ∀ digits, digits ≠ [] →
      digits <+: (strtolBase base cursor).2 → IsPrefix base pre digits (strtolBase base cursor).1 := by
  rw [strtolBase]
  split
  next hhex =>
    obtain ⟨hbase, x, c, rest, rfl, hx, -⟩ := hasHexPrefix_iff.mp hhex
    refine ⟨[0x30, x], rfl, fun digits _ _ => .inl ⟨?_, hbase, rfl⟩⟩
    obtain rfl | rfl := hx
    · exact .inl rfl
    · exact .inr rfl
  next hhex =>
    split
    next hzero =>
      refine ⟨[], rfl, fun digits hne hpre => .inr ⟨rfl, .inr ⟨hzero, ?_⟩⟩⟩
      obtain ⟨d, digits, rfl⟩ := List.exists_cons_of_ne_nil hne
      obtain ⟨tail, rfl⟩ := hpre
      simp
    next hzero => exact ⟨[], rfl, fun digits _ _ => .inr ⟨rfl, .inl (by omega)⟩⟩

theorem strtolBase_hex (hbase : base = 0 ∨ base = 16) {x : Byte} (hx : x = 0x78 ∨ x = 0x58)
    (hc : isDigit 16 c) (rest : List Byte) :
    strtolBase base (0x30 :: x :: c :: rest) = (16, c :: rest) :=
  if_pos (hasHexPrefix_iff.mpr ⟨hbase, x, c, rest, rfl, hx, hc⟩)

theorem strtolBase_plain {radix : Nat} {digits : List Byte} (h : IsPrefix base [] digits radix)
    (hne : digits ≠ []) (hdigits : ∀ c ∈ digits, isDigit radix c) (tail : List Byte) :
    strtolBase base (digits ++ tail) = (radix, digits ++ tail) ∨
      digits.length = 1 ∧ ∃ x c rest, tail = x :: c :: rest ∧ isDigit 16 c ∧
        strtolBase base (digits ++ tail) = (16, c :: rest) := by
  obtain ⟨d, digits, rfl⟩ := List.exists_cons_of_ne_nil hne
  obtain ⟨hpre, -⟩ | ⟨-, hradix⟩ := h
  · simp at hpre
  rw [strtolBase]
  split
  next hhex =>
    obtain ⟨hbase, x, c, rest, hcursor, hx, hc⟩ := hasHexPrefix_iff.mp hhex
    simp only [List.cons_append, List.cons.injEq] at hcursor
    obtain ⟨rfl, hcursor⟩ := hcursor
    have hsixteen : radix ≤ 16 := by
      obtain ⟨-, -, rfl⟩ | ⟨-, rfl⟩ := hradix
      · omega
      · simp
    cases digits with
    | nil => exact .inr ⟨rfl, x, c, rest, hcursor, hc, by rw [List.nil_append] at hcursor; simp [hcursor]⟩
    | cons e digits =>
      simp only [List.cons_append, List.cons.injEq] at hcursor
      obtain ⟨rfl, -⟩ := hcursor
      have hdigit := hdigits e (by simp)
      rw [not_isDigit_x hsixteen hx] at hdigit
      cases hdigit
  next hhex =>
    left
    obtain ⟨hlow, -, rfl⟩ | ⟨rfl, rfl⟩ := hradix
    · rw [if_neg (by omega)]
    · simp

section

variable {base : Int} {str text : List Byte} {number : Int}

/-- The digits that the code finds, with the sign and the base, and what stands behind them. -/
def scanned (base : Int) (str : List Byte) : Bool × Nat × List Byte × List Byte :=
  let c := strtolSign (str.dropWhile isspace)
  let b := strtolBase base c.2
  (c.1, b.1, b.2.takeWhile (isDigit b.1), b.2.dropWhile (isDigit b.1))

variable {negative : Bool}

theorem scanned_numeral (hbase : base = 0 ∨ 2 ≤ base ∧ base ≤ 36) {radix : Nat}
    {digits rest : List Byte} (h : scanned base str = (negative, radix, digits, rest)) (hne : digits ≠ []) :
    ∃ text, str = text ++ rest ∧ Numeral base text (signed negative (magnitude radix digits)) := by
  obtain ⟨sign, hcursor, hsign⟩ := strtolSign_split (str.dropWhile isspace)
  obtain ⟨pre, hstart, hpre⟩ := strtolBase_split hbase (strtolSign (str.dropWhile isspace)).2
  simp only [scanned, Prod.mk.injEq] at h
  obtain ⟨rfl, rfl, rfl, rfl⟩ := h
  refine ⟨str.takeWhile isspace ++ (sign ++ (pre ++ _)), ?_, ⟨str.takeWhile isspace, sign, pre, _, _, _, rfl,
    fun c hc => List.mem_takeWhile_imp hc, hsign, hpre _ hne (List.takeWhile_prefix _), hne,
    fun c hc => List.mem_takeWhile_imp hc, rfl⟩⟩
  rw [List.append_assoc, List.append_assoc, List.append_assoc, List.takeWhile_append_dropWhile, ← hstart, ← hcursor,
    List.takeWhile_append_dropWhile]

theorem scanned_signed (base : Int) {spaces sign : List Byte} {r : Nat} {c : Byte} (body : List Byte)
    (hspaces : ∀ c ∈ spaces, isspace c) (hsign : IsSign sign negative) (hc : isDigit r c) :
    scanned base (spaces ++ (sign ++ c :: body)) =
      let b := strtolBase base (c :: body)
      (negative, b.1, b.2.takeWhile (isDigit b.1), b.2.dropWhile (isDigit b.1)) := by
  obtain ⟨hspace, hmark⟩ := isDigit_of_prefix hc
  have hstop : (sign ++ c :: body).dropWhile isspace = sign ++ c :: body := by
    obtain ⟨rfl | rfl, -⟩ | ⟨rfl, -⟩ := hsign
    · simp [hspace]
    · rfl
    · rfl
  rw [scanned, List.dropWhile_append_of_pos hspaces, hstop, strtolSign_sign hsign body hmark]

/-- The text is no longer than what the code finds, and if it is as long it has the same number. -/
def Within (base : Int) (str text : List Byte) (number : Int) : Prop :=
  ∀ negative radix digits rest, scanned base str = (negative, radix, digits, rest) →
    digits ≠ [] ∧ text.length + rest.length ≤ str.length ∧
      (text.length + rest.length = str.length → number = signed negative (magnitude radix digits))

theorem within_of_scanned {radix : Nat} {digits tail : List Byte} (hne : digits ≠ [])
    (hdigits : ∀ c ∈ digits, isDigit radix c) (h : scanned base (text ++ tail) =
      (negative, radix, (digits ++ tail).takeWhile (isDigit radix), (digits ++ tail).dropWhile (isDigit radix))) :
    Within base (text ++ tail) text (signed negative (magnitude radix digits)) := by
  rintro negative' radix' digits' rest hscan
  rw [h, List.takeWhile_append_of_pos hdigits, List.dropWhile_append_of_pos hdigits] at hscan
  simp only [Prod.mk.injEq] at hscan
  obtain ⟨rfl, rfl, rfl, rfl⟩ := hscan
  have hsuffix : tail.dropWhile (isDigit radix) <:+ tail := List.dropWhile_suffix _
  have hshort := hsuffix.length_le
  refine ⟨by simp [hne], by rw [List.length_append]; omega, fun hlength => ?_⟩
  have hstay : tail.dropWhile (isDigit radix) = tail :=
    hsuffix.eq_of_length (by rw [List.length_append] at hlength; omega)
  rw [(dropWhile_eq_self_iff_takeWhile _ _).mp hstay, List.append_nil]

theorem Numeral.within (h : Numeral base text number) (htext : text <+: str) : Within base str text number := by
  obtain ⟨spaces, sign, pre, digits, negative, radix, rfl, hspaces, hsign, hpre, hne, hdigits, rfl⟩ := h
  obtain ⟨tail, rfl⟩ := htext
  obtain ⟨d, digits, rfl⟩ := List.exists_cons_of_ne_nil hne
  have hd := hdigits d (.head _)
  obtain ⟨hmark, hbase, rfl⟩ | ⟨rfl, -⟩ := id hpre
  · obtain ⟨x, rfl, hx⟩ : ∃ x, pre = [0x30, x] ∧ (x = 0x78 ∨ x = 0x58) := by
      obtain rfl | rfl := hmark
      · exact ⟨_, rfl, .inl rfl⟩
      · exact ⟨_, rfl, .inr rfl⟩
    have hscan := scanned_signed base (x :: d :: (digits ++ tail)) hspaces hsign (show isDigit 16 0x30 = true by decide)
    rw [strtolBase_hex hbase hx hd] at hscan
    exact within_of_scanned hne hdigits (by simpa using hscan)
  · have hscan := scanned_signed base (digits ++ tail) hspaces hsign hd
    obtain hplain | ⟨-, x, c, rest', rfl, hc, hhex⟩ := strtolBase_plain hpre hne hdigits tail
    · rw [← List.cons_append, hplain] at hscan
      exact within_of_scanned hne hdigits (by simpa using hscan)
    · rw [← List.cons_append, hhex] at hscan
      rintro negative' radix' digits' rest hscan'
      have hrest : (rest'.dropWhile (isDigit 16)).length ≤ rest'.length := (List.dropWhile_suffix _).length_le
      simp only [List.nil_append, List.append_assoc] at hscan hscan' ⊢
      rw [hscan] at hscan'
      simp only [Prod.mk.injEq, List.takeWhile_cons_of_pos hc, List.dropWhile_cons_of_pos hc] at hscan'
      obtain ⟨rfl, rfl, rfl, rfl⟩ := hscan'
      simp only [List.length_append, List.length_cons]
      refine ⟨List.cons_ne_nil _ _, by omega, fun hlength => ?_⟩
      omega

end

/-- Of all numerals that the string begins with this is the longest, and it is no other number as well. -/
structure LongestNumeral (base : Int) (str text : List Byte) (number : Int) : Prop where
  numeral : Numeral base text number
  begins : text <+: str
  longest : ∀ text' number', Numeral base text' number' → text' <+: str →
    text'.length ≤ text.length ∧ (text' = text → number' = number)

theorem strtol_longest (str : CString) (base : Int) :
    (∃ text number, LongestNumeral base str.bytes text number ∧
      strtol (some str.bytes) base = some (clamp number, some text.length)) ∨
    (∀ text number, Numeral base text number → ¬ text <+: str.bytes) ∧
      strtol (some str.bytes) base = some (0, some 0) := by
  obtain ⟨str, -⟩ := str
  by_cases hbase : base = 0 ∨ 2 ≤ base ∧ base ≤ 36
  · obtain ⟨negative, radix, digits, rest, hscan⟩ : ∃ n r d s, scanned base str = (n, r, d, s) := ⟨_, _, _, _, rfl⟩
    have heq := strtol_eq hbase str
    have hwithin (text : List Byte) (number : Int) (h : Numeral base text number) (htext : text <+: str) :=
      h.within htext negative radix digits rest hscan
    obtain ⟨rfl, rfl, rfl, rfl⟩ : _ ∧ _ ∧ _ ∧ _ := by simpa [scanned] using hscan
    by_cases hne : (strtolBase base (strtolSign (str.dropWhile isspace)).2).2.takeWhile
        (isDigit (strtolBase base (strtolSign (str.dropWhile isspace)).2).1) = []
    · refine .inr ⟨fun text number h htext => (hwithin text number h htext).1 hne, ?_⟩
      simpa [hne] using heq
    · obtain ⟨text, hstr, hnumeral⟩ := scanned_numeral hbase hscan hne
      have hlength := congrArg List.length hstr
      rw [List.length_append] at hlength
      refine .inl ⟨text, _, ⟨hnumeral, ⟨_, hstr.symm⟩, fun text' number' h htext => ?_⟩, ?_⟩
      · obtain ⟨-, hle, hsame⟩ := hwithin text' number' h htext
        exact ⟨by omega, fun he => hsame (by rw [he]; omega)⟩
      · rw [heq]
        simp only [if_neg hne]
        congr 3
        omega
  · refine .inr ⟨fun text number h _ => hbase ?_, ?_⟩
    · obtain ⟨_, _, _, _, _, _, -, -, -, hpre, -⟩ := h
      obtain ⟨-, hbase, -⟩ | ⟨-, ⟨hlow, hhigh, -⟩ | ⟨hzero, -⟩⟩ := hpre <;> omega
    · exact if_pos (by omega)

example : strtol (some [0x20, 0x2D, 0x30, 0x78, 0x46, 0x67]) 0 = some (-15, some 5) := by decide

end OpenXJ380.Krlibc
