import OpenXJ380.Json.Document
import Mathlib.Tactic.Ring

/-! # The values of numbers

A literal is taken apart twice, first to find where it ends. In exact arithmetic
the value is that of the literal as long as its exponent is an `int`.
-/

namespace OpenXJ380.Json

open TextCursor

variable {ν : Type} {r rest t : Text}

def decimal (digits : Text) : Nat := digits.foldl (fun x ch => x * 10 + (ch.toNat - '0'.toNat)) 0

inductive ExponentSign where
  | none
  | plus
  | minus
  deriving DecidableEq

def ExponentSign.text : ExponentSign → Text
  | none => []
  | plus => ['+']
  | minus => ['-']

structure Exponent where
  mark : Char
  sign : ExponentSign
  digits : Text
  isMark : mark = 'e' ∨ mark = 'E'
  isDigits : Digits digits

structure Literal where
  negative : Bool
  integer : Text
  fraction : Text
  exponent : Option Exponent
  isInteger : integer = ['0'] ∨ ∃ ch t, integer = ch :: t ∧ ('1' ≤ ch ∧ ch ≤ '9') ∧ ∀ c ∈ t, isDigit c = true
  isFraction : ∀ ch ∈ fraction, isDigit ch = true

namespace Literal

variable (l : Literal)

def text : Text :=
  (if l.negative then ['-'] else []) ++ (l.integer ++ ((if l.fraction = [] then [] else '.' :: l.fraction) ++
    l.exponent.elim [] fun e => e.mark :: (e.sign.text ++ e.digits)))

def exponentDigits : Text := l.exponent.elim [] Exponent.digits

def exponentNegative : Bool := l.exponent.any fun e => e.sign = .minus

def mantissa : ℚ := decimal l.integer + decimal l.fraction / 10 ^ l.fraction.length

def value : ℚ :=
  let signed := if l.negative then -l.mantissa else l.mantissa
  if l.exponentNegative then signed / 10 ^ decimal l.exponentDigits else signed * 10 ^ decimal l.exponentDigits

end Literal

def rational : Double ℚ where
  ofInt n := n
  add := (· + ·)
  mul := (· * ·)
  div := (· / ·)
  neg x := -x

theorem digitsValue_rational (digits : Text) (start : Nat) : digitsValue rational (start : ℚ) digits =
      (digits.foldl (fun x ch => x * 10 + (ch.toNat - '0'.toNat)) start : Nat) := by
  induction digits generalizing start with
  | nil => rfl
  | cons ch digits ih =>
    rw [digitsValue, List.foldl_cons, List.foldl_cons, ← ih, digitsValue]
    congr 1
    change (start : ℚ) * ((10 : Nat) : ℚ) + ((ch.toNat - '0'.toNat : Nat) : ℚ) = _
    push_cast
    rfl

theorem divisor_rational (digits : Text) (start : ℚ) :
    digits.foldl (fun x _ => rational.mul x (rational.ofInt 10)) start = start * 10 ^ digits.length := by
  induction digits generalizing start with
  | nil => simp
  | cons ch digits ih =>
    rw [List.foldl_cons, ih, List.length_cons, pow_succ']
    change start * ((10 : Nat) : ℚ) * 10 ^ digits.length = _
    push_cast
    ring

theorem scale_rational (negative : Bool) (k : Nat) (x : ℚ) :
    scale rational negative k x = if negative then x / 10 ^ k else x * 10 ^ k := by
  induction k generalizing x with
  | zero => simp [scale]
  | succ k ih =>
    rw [scale, ih]
    cases negative with
    | true =>
      simp only [if_true]
      change x / ((10 : Nat) : ℚ) / 10 ^ k = _
      rw [div_div, pow_succ']
      rfl
    | false =>
      simp only [Bool.false_eq_true, if_false]
      change x * ((10 : Nat) : ℚ) * 10 ^ k = _
      rw [mul_assoc, pow_succ']
      rfl

theorem le_foldl (digits : Text) (start : Nat) :
    start ≤ digits.foldl (fun x ch => x * 10 + (ch.toNat - '0'.toNat)) start := by
  induction digits generalizing start with
  | nil => exact le_rfl
  | cons ch digits ih =>
    rw [List.foldl_cons]
    exact (show start ≤ start * 10 + (ch.toNat - '0'.toNat) by omega).trans (ih _)

theorem decimal_prefix {p digits : Text} (h : p <+: digits) : decimal p ≤ decimal digits := by
  obtain ⟨q, rfl⟩ := h
  rw [decimal, decimal, List.foldl_append]
  exact le_foldl q _

theorem exponentValue_eq (digits : Text) : exponentValue digits = (decimal digits : Int).bmod (2 ^ 32) := by
  have hFold : ∀ (x : Int) (n : Nat), x = (n : Int).bmod (2 ^ 32) →
      digits.foldl (fun x ch => (x * 10 + ((ch.toNat - '0'.toNat : Nat) : Int)).bmod (2 ^ 32)) x =
        ((digits.foldl (fun x ch => x * 10 + (ch.toNat - '0'.toNat)) n : Nat) : Int).bmod (2 ^ 32) := by
    induction digits with
    | nil =>
      intro x n h
      rw [List.foldl_nil, List.foldl_nil]
      exact h
    | cons ch digits ih =>
      intro x n h
      rw [List.foldl_cons, List.foldl_cons]
      apply ih
      rw [h, Int.add_bmod, Int.bmod_mul_bmod, ← Int.add_bmod, Nat.cast_add, Nat.cast_mul, Nat.cast_ofNat]
  exact hFold 0 0 (by decide)

theorem exponentValue_exact_iff (digits : Text) : exponentValue digits = decimal digits ↔ decimal digits < 2 ^ 31 := by
  rw [exponentValue_eq]
  constructor
  · intro hExact
    have hLess := Int.bmod_lt (x := decimal digits) (m := 2 ^ 32) (by decide)
    omega
  · intro hLess
    exact Int.bmod_eq_of_le (by omega) (by omega)

namespace Literal

variable (l : Literal) (d : Double ν)

def NoWrap : Prop := ∀ p, p <+: l.exponentDigits → exponentValue p = decimal p

theorem noWrap_iff : l.NoWrap ↔ decimal l.exponentDigits < 2 ^ 31 := by
  constructor
  · intro h
    exact (exponentValue_exact_iff _).mp (h _ List.prefix_rfl)
  · intro h p hp
    exact (exponentValue_exact_iff p).mpr (( decimal_prefix hp).trans_lt h)

def eval : ν :=
  let integer := if l.integer = ['0'] then d.ofInt 0 else digitsValue d (d.ofInt 0) l.integer
  let divisor := l.fraction.foldl (fun x _ => d.mul x (d.ofInt 10)) (d.ofInt 1)
  let value := d.add integer (d.div (digitsValue d (d.ofInt 0) l.fraction) divisor)
  scale d l.exponentNegative (exponentValue l.exponentDigits).toNat (if l.negative then d.neg value else value)

theorem isNumber : IsNumber d (l.eval d) l.text := by
  refine .parts ?_ ?_ ?_ ?_
  · cases l.negative with
    | true => exact .minus
    | false => exact .plus
  · obtain hZero | ⟨ch, t, hText, hFirst, hRest⟩ := l.isInteger
    · rw [if_pos hZero, hZero]
      exact .zero
    · have hPositive : l.integer ≠ ['0'] := by
        rw [hText]
        rintro ⟨⟩
        exact absurd hFirst (by decide)
      rw [if_neg hPositive, hText]
      exact .positive hFirst hRest
  · split
    next hNone =>
      rw [hNone]
      exact .none
    next hSome => exact .some ⟨hSome, l.isFraction⟩
  · rw [exponentDigits, exponentNegative]
    cases l.exponent with
    | none => exact .none
    | some e =>
      obtain ⟨mark, sign, digits, hMark, hDigits⟩ := e
      cases sign with
      | none => exact .unsigned hMark hDigits
      | plus => exact .plus hMark hDigits
      | minus => exact .minus hMark hDigits

def scaled (exponent : Nat) : ℚ :=
  let signed := if l.negative then -l.mantissa else l.mantissa
  if l.exponentNegative then signed / 10 ^ exponent else signed * 10 ^ exponent

theorem eval_scaled : l.eval rational = l.scaled (exponentValue l.exponentDigits).toNat := by
  have hDigits : ∀ digits, digitsValue rational (rational.ofInt 0) digits = (decimal digits : ℚ) := fun digits =>
    digitsValue_rational digits 0
  have hInteger : (if l.integer = ['0'] then rational.ofInt 0 else digitsValue rational (rational.ofInt 0) l.integer) =
      (decimal l.integer : ℚ) := by
    split
    next hNull => rw [hNull]; rfl
    next => exact hDigits _
  have hDivisor : l.fraction.foldl (fun x _ => rational.mul x (rational.ofInt 10)) (rational.ofInt 1) =
      10 ^ l.fraction.length := by
    rw [divisor_rational]
    change ((1 : Nat) : ℚ) * _ = _
    rw [Nat.cast_one, one_mul]
  rw [eval, scaled]
  simp only [hInteger]
  simp only [hDivisor, hDigits, scale_rational]
  rfl

theorem eval_rational (h : decimal l.exponentDigits < 2 ^ 31) : l.eval rational = l.value := by
  rw [eval_scaled, (exponentValue_exact_iff _).mpr h, Int.toNat_natCast]
  rfl

end Literal

/-- The first part of `xapi_jsonParseNumber`. -/
def scanNumber : Parser PUnit := do
  scanSign
  scanInteger
  scanFraction
  scanExponent

theorem parseNumber_eq (d : Double ν) (h : scanNumber (some r) = .ok ⟨⟩ (some rest)) : parseNumber d (some r) =
      match parseNumberValue d (between (some r) (some rest)) with
      | none => .error .invalidNumber
      | some value => .ok (.number value) (some rest) := by
  obtain ⟨_, c₁, hSign, h⟩ := ok_of_bind h
  obtain ⟨_, c₂, hInteger, h⟩ := ok_of_bind h
  obtain ⟨_, c₃, hFraction, hExponent⟩ := ok_of_bind h
  rw [parseNumber, bind_ok here_eq, bind_ok hSign, bind_ok hInteger, bind_ok hFraction, bind_ok hExponent,
    bind_ok here_eq]
  cases parseNumberValue d (between (some r) (some rest)) <;> rfl

theorem parses_scanNumber (r : Text) : Parses scanNumber r fun _ u _ => ∃ l : Literal, l.text = u := by
  rw [scanNumber]
  apply (parses_scanSign r).bind
  rintro _ s r₁ - ⟨negative, hSign⟩
  apply (parses_scanInteger rational r₁).bind
  rintro _ i r₂ - ⟨x, hInteger⟩
  apply (parses_scanFraction rational r₂).bind
  rintro _ f r₃ - ⟨y, z, hFraction⟩
  apply (parses_scanExponent r₃).mono
  rintro _ e r₄ - ⟨expNegative, n, hExponent⟩
  have hZeroOr : i = ['0'] ∨ ∃ ch t, i = ch :: t ∧ ('1' ≤ ch ∧ ch ≤ '9') ∧ ∀ c ∈ t, isDigit c := by
    cases hInteger with
    | zero => exact .inl rfl
    | positive hFirst hRest => exact .inr ⟨_, _, rfl, hFirst, hRest⟩
  obtain ⟨digits, hDigits, hPoint⟩ : ∃ digits : Text, (∀ ch ∈ digits, isDigit ch) ∧
      (if digits = [] then [] else '.' :: digits) = f := by
    cases hFraction with
    | none => exact ⟨[], nofun, rfl⟩
    | @some t hDigits => exact ⟨t, hDigits.2, if_neg hDigits.1⟩
  obtain ⟨exponent, hMark⟩ : ∃ exponent : Option Exponent,
      exponent.elim [] (fun e => e.mark :: (e.sign.text ++ e.digits)) = e := by
    cases hExponent with
    | none => exact ⟨none, rfl⟩
    | unsigned he hDigits => exact ⟨some ⟨_, .none, _, he, hDigits⟩, rfl⟩
    | plus he hDigits => exact ⟨some ⟨_, .plus, _, he, hDigits⟩, rfl⟩
    | minus he hDigits => exact ⟨some ⟨_, .minus, _, he, hDigits⟩, rfl⟩
  refine ⟨⟨negative, i, digits, exponent, hZeroOr, hDigits⟩, ?_⟩
  rw [Literal.text]
  simp only [hPoint, hMark]
  cases hSign <;> rfl

/-- The value that is converted is that of the literal, and no integer wraps around. -/
structure Exact (l : Literal) : Prop where
  value : parseNumberValue rational l.text = some l.value
  noWrap : l.NoWrap

theorem exact_iff (l : Literal) : Exact l ↔ decimal l.exponentDigits < 2 ^ 31 := by
  constructor
  · exact fun h => l.noWrap_iff.mp h.noWrap
  · intro h
    exact ⟨(parseNumberValue_number (l.isNumber rational)).trans (congrArg some (l.eval_rational h)),
      l.noWrap_iff.mpr h⟩

/-- What the scanner accepts is a literal that is never rejected, and its value is exact as long as its exponent is an
`int`. -/
theorem number_exact_iff (h : scanNumber (some r) = .ok ⟨⟩ (some rest)) :
    (∃ l : Literal, l.text = between (some r) (some rest)) ∧
      (∀ (ν : Type) (d : Double ν), ∃ x, parseNumberValue d (between (some r) (some rest)) = some x ∧
        parseNumber d (some r) = .ok (.number x) (some rest)) ∧
      ∀ l : Literal, l.text = between (some r) (some rest) → (Exact l ↔ decimal l.exponentDigits < 2 ^ 31) := by
  obtain ⟨u, rest', hText, hRest, l, rfl⟩ := (parses_scanNumber r).ok h
  cases hRest
  have hBetween : between (some r) (some rest) = l.text := by rw [hText, between_append]
  refine ⟨⟨l, hBetween.symm⟩, fun ν d => ?_, fun l' _ => exact_iff l'⟩
  have hValue : parseNumberValue d (between (some r) (some rest)) = some (l.eval d) := by
    rw [hBetween]
    exact parseNumberValue_number (l.isNumber d)
  refine ⟨l.eval d, hValue, ?_⟩
  rw [parseNumber_eq d h, hValue]

/-- `1e10`. -/
def tenDigits : Literal where
  negative := false
  integer := ['1']
  fraction := []
  exponent := some ⟨'e', .none, ['1', '0'], .inl rfl, by decide, List.all_eq_true.mp (by decide)⟩
  isInteger := .inr ⟨'1', [], rfl, by decide, nofun⟩
  isFraction := nofun

theorem number_exact_ten : Exact tenDigits ↔ decimal tenDigits.exponentDigits < 2 ^ 31 :=
  (@number_exact_iff tenDigits.text [] rfl).2.2 tenDigits rfl

/-- `1e4294967296`. -/
def wrapped : Literal where
  negative := false
  integer := ['1']
  fraction := []
  exponent := some ⟨'e', .none, ['4', '2', '9', '4', '9', '6', '7', '2', '9', '6'], .inl rfl, by decide,
    List.all_eq_true.mp (by decide)⟩
  isInteger := .inr ⟨'1', [], rfl, by decide, nofun⟩
  isFraction := nofun

/-- Its exponent wraps around to 0, and its value is 1. -/
theorem exponent_wraps :
    scanNumber (some wrapped.text) = .ok ⟨⟩ (some []) ∧ parseNumberValue rational wrapped.text = some 1 ∧
      wrapped.value ≠ 1 ∧ ¬Exact wrapped := by
  have hMantissa : wrapped.mantissa = 1 := by
    rw [Literal.mantissa]
    change ((1 : Nat) : ℚ) + ((0 : Nat) : ℚ) / 10 ^ 0 = 1
    norm_num
  have hEval : wrapped.eval rational = 1 := by
    rw [wrapped.eval_scaled, show (exponentValue wrapped.exponentDigits).toNat = 0 by decide, Literal.scaled, hMantissa]
    change (1 : ℚ) * 10 ^ 0 = 1
    norm_num
  have hDigits : decimal wrapped.exponentDigits = 4294967296 := by decide
  refine ⟨rfl, (parseNumberValue_number (wrapped.isNumber rational)).trans (congrArg some hEval), ?_, ?_⟩
  · have hLarge : (1 : ℚ) < 10 ^ decimal wrapped.exponentDigits := by
      refine one_lt_pow₀ (by norm_num) ?_
      rw [hDigits]
      decide
    have hValue : wrapped.value = 1 * 10 ^ decimal wrapped.exponentDigits := congrArg (· * _) hMantissa
    rw [hValue, one_mul]
    exact hLarge.ne'
  · rw [exact_iff, hDigits]
    decide

end OpenXJ380.Json
