import Mathlib.Data.BitVec
import Mathlib.Data.Nat.Digits.Lemmas

/-! # Formatted output (`arch/arm32/src/console.c`)

One loop formats for three sinks. An `int` wraps at 32 bits, and the arguments are the words
that a caller on the board has left on its stack.
-/

namespace OpenXJ380.Console

open Function

/-- What an `int` keeps of a number. -/
def int32 (n : Int) : Int := (BitVec.ofInt 32 n).toInt

structure FmtOut (σ : Type) where
  ctx : σ
  written : Int

/-- A buffer, and its place in memory, of which the indices count from the first byte on. -/
structure BufSink where
  buf : Int → Char
  len : Int

structure BoundedBufSink where
  buf : Int → Char
  len : Int
  limit : Int

def sinkConsole (uart : List Char) (c : Char) : List Char :=
  (if c = '\n' then uart ++ ['\r'] else uart) ++ [c]

def sinkBuffer (state : BufSink) (c : Char) : BufSink where
  buf := update state.buf state.len c
  len := int32 (state.len + 1)

def sinkBufferBounded (state : BoundedBufSink) (c : Char) : BoundedBufSink where
  buf := if state.len < state.limit then update state.buf state.len c else state.buf
  len := int32 (state.len + 1)
  limit := state.limit

section

variable {σ : Type} (sink : σ → Char → σ)

def outChar (out : FmtOut σ) (c : Char) : FmtOut σ where
  ctx := sink out.ctx c
  written := int32 (out.written + 1)

def outChars (out : FmtOut σ) (text : List Char) : FmtOut σ := text.foldl (outChar sink) out

def outRepeat (out : FmtOut σ) (c : Char) (count : Int) : FmtOut σ :=
  Nat.iterate (fun out => outChar sink out c) count.toNat out

def outText (out : FmtOut σ) (str : List Char) (width prec : Int) (leftAlign : Bool) : FmtOut σ :=
  let text := if prec < 0 then str else str.take prec.toNat
  let pad := if width > text.length then width - text.length else 0
  let out := if leftAlign then out else outRepeat sink out ' ' pad
  let out := outChars sink out text
  if leftAlign then outRepeat sink out ' ' pad else out

def lowerDigits : List Char := "0123456789abcdef".toList

def upperDigits : List Char := "0123456789ABCDEF".toList

def reversedSize : Nat := 70

def digitLoop (digits : List Char) (radix : Nat) : Nat → Nat → List Char → List Char
  | 0, _, reversed => reversed
  | room + 1, value, reversed =>
    if 0 < value then digitLoop digits radix room (value / radix) (reversed ++ [digits.getD (value % radix) '0'])
    else reversed

def precisionLoop (prec : Int) : Nat → List Char → List Char
  | 0, reversed => reversed
  | room + 1, reversed => if prec > reversed.length then precisionLoop prec room (reversed ++ ['0']) else reversed

def reversedDigits (value : BitVec 64) (radix : Nat) (upper : Bool) (prec : Int) : List Char :=
  let digits := if upper then upperDigits else lowerDigits
  let reversed :=
    if value = 0 then if prec ≠ 0 then ['0'] else [] else digitLoop digits radix reversedSize value.toNat []
  precisionLoop prec (reversedSize - reversed.length) reversed

def signText (negative : Bool) : List Char := if negative then ['-'] else []

def altText (radix : Nat) (upper altPrefix : Bool) : List Char :=
  if altPrefix then
    if radix = 16 then ['0', if upper then 'X' else 'x']
    else if radix = 8 then ['0']
    else if radix = 2 then ['0', if upper then 'B' else 'b']
    else []
  else []

def outDigits (out : FmtOut σ) (front reversed : List Char) : FmtOut σ :=
  outChars sink (outChars sink out front) reversed.reverse

def outNumber (out : FmtOut σ) (value : BitVec 64) (negative : Bool) (radix : Nat) (upper : Bool) (width prec : Int)
    (zeroPad leftAlign altPrefix : Bool) : FmtOut σ :=
  let reversed := reversedDigits value radix upper prec
  let front := signText negative ++ altText radix upper altPrefix
  let pad := if width > reversed.length + front.length then width - reversed.length - front.length else 0
  let padZero := zeroPad && prec < 0
  if leftAlign then outRepeat sink (outDigits sink out front reversed) ' ' pad
  else if padZero then
    outChars sink (outRepeat sink (outChars sink out front) '0' pad) reversed.reverse
  else outDigits sink (outRepeat sink out ' ' pad) front reversed

end

structure VaList where
  words : Nat → BitVec 32
  next : Nat

def VaList.takeWord (args : VaList) : BitVec 32 × VaList := (args.words args.next, { args with next := args.next + 1 })

def VaList.takeDouble (args : VaList) : BitVec 64 × VaList :=
  let first := args.next + args.next % 2
  (args.words (first + 1) ++ args.words first, { args with next := first + 2 })

inductive FmtLen where
  | default
  | char
  | short
  | long
  | longLong
  | size
  deriving DecidableEq

def takeUnsigned (args : VaList) (len : FmtLen) : BitVec 64 × VaList :=
  match len with
  | .char => ((args.takeWord.1.setWidth 8).setWidth 64, args.takeWord.2)
  | .short => ((args.takeWord.1.setWidth 16).setWidth 64, args.takeWord.2)
  | .longLong => args.takeDouble
  | .long | .size | .default => (args.takeWord.1.setWidth 64, args.takeWord.2)

def takeSigned (args : VaList) (len : FmtLen) : BitVec 64 × Bool × VaList :=
  let (value, args) :=
    match len with
    | .char => ((args.takeWord.1.setWidth 8).signExtend 64, args.takeWord.2)
    | .short => ((args.takeWord.1.setWidth 16).signExtend 64, args.takeWord.2)
    | .longLong => args.takeDouble
    | .long | .size | .default => (args.takeWord.1.signExtend 64, args.takeWord.2)
  if value.toInt < 0 then (-(value + 1) + 1, true, args) else (value, false, args)

structure Spec where
  leftAlign : Bool
  zeroPad : Bool
  altPrefix : Bool
  width : Int
  prec : Int
  len : FmtLen

def Spec.none : Spec where
  leftAlign := false
  zeroPad := false
  altPrefix := false
  width := 0
  prec := -1
  len := .default

def flags : List Char → Spec → Spec × List Char
  | '-' :: fmt, s => flags fmt { s with leftAlign := true }
  | '0' :: fmt, s => flags fmt { s with zeroPad := true }
  | '#' :: fmt, s => flags fmt { s with altPrefix := true }
  | '+' :: fmt, s => flags fmt s
  | ' ' :: fmt, s => flags fmt s
  | fmt, s => (s, fmt)

def number : List Char → Int → Int × List Char
  | c :: fmt, n => if '0' ≤ c ∧ c ≤ '9' then number fmt (int32 (n * 10 + (c.toNat - 48))) else (n, c :: fmt)
  | [], n => (n, [])

def fieldWidth (fmt : List Char) (args : VaList) (s : Spec) : Spec × List Char × VaList :=
  match fmt with
  | '*' :: fmt =>
    let argWidth := args.takeWord.1.toInt
    if argWidth < 0 then
      ({ s with leftAlign := true, width := int32 (-argWidth) }, fmt, args.takeWord.2)
    else ({ s with width := argWidth }, fmt, args.takeWord.2)
  | fmt => ({ s with width := (number fmt 0).1 }, (number fmt 0).2, args)

def precision (fmt : List Char) (args : VaList) (s : Spec) : Spec × List Char × VaList :=
  match fmt with
  | '.' :: '*' :: fmt =>
    let argPrec := args.takeWord.1.toInt
    ({ s with prec := if argPrec < 0 then -1 else argPrec }, fmt, args.takeWord.2)
  | '.' :: fmt => ({ s with prec := (number fmt 0).1 }, (number fmt 0).2, args)
  | fmt => (s, fmt, args)

def lengthModifier (fmt : List Char) (s : Spec) : Spec × List Char :=
  match fmt with
  | 'h' :: 'h' :: fmt => ({ s with len := .char }, fmt)
  | 'h' :: fmt => ({ s with len := .short }, fmt)
  | 'l' :: 'l' :: fmt => ({ s with len := .longLong }, fmt)
  | 'l' :: fmt => ({ s with len := .long }, fmt)
  | 'L' :: fmt => ({ s with len := .longLong }, fmt)
  | 'z' :: fmt => ({ s with len := .size }, fmt)
  | 't' :: fmt => ({ s with len := .size }, fmt)
  | 'j' :: fmt => ({ s with len := .size }, fmt)
  | fmt => (s, fmt)

def parseSpec (fmt : List Char) (args : VaList) : Spec × List Char × VaList :=
  let (s, fmt) := flags fmt Spec.none
  let (s, fmt, args) := fieldWidth fmt args s
  let (s, fmt, args) := precision fmt args s
  let (s, fmt) := lengthModifier fmt s
  (s, fmt, args)

structure Texts where
  text : BitVec 32 → List Char
  short : ∀ address, (text address).length < 2 ^ 31

def nullText : List Char := "(null)".toList

section

variable {σ : Type} (sink : σ → Char → σ) (texts : Texts)

def outUnsigned (out : FmtOut σ) (args : VaList) (s : Spec) (radix : Nat) (upper altPrefix : Bool) :
    FmtOut σ × VaList :=
  let (value, args) := takeUnsigned args s.len
  (outNumber sink out value false radix upper s.width s.prec s.zeroPad s.leftAlign altPrefix, args)

def convert (c : Char) (s : Spec) (args : VaList) (out : FmtOut σ) : FmtOut σ × VaList :=
  match c with
  | 'c' =>
    let value := Char.ofNat (args.takeWord.1.setWidth 8).toNat
    let out := if s.width > 1 ∧ s.leftAlign = false then outRepeat sink out ' ' (s.width - 1) else out
    let out := outChar sink out value
    (if s.width > 1 ∧ s.leftAlign then outRepeat sink out ' ' (s.width - 1) else out, args.takeWord.2)
  | 's' =>
    let str := if args.takeWord.1 = 0 then nullText else texts.text args.takeWord.1
    (outText sink out str s.width s.prec s.leftAlign, args.takeWord.2)
  | 'd' | 'i' =>
    let (magnitude, negative, args) := takeSigned args s.len
    (outNumber sink out magnitude negative 10 false s.width s.prec s.zeroPad s.leftAlign false, args)
  | 'u' => outUnsigned sink out args s 10 false false
  | 'o' => outUnsigned sink out args s 8 false s.altPrefix
  | 'x' => outUnsigned sink out args s 16 false s.altPrefix
  | 'X' => outUnsigned sink out args s 16 true s.altPrefix
  | 'b' => outUnsigned sink out args s 2 false s.altPrefix
  | 'p' =>
    let value := args.takeWord.1.setWidth 64
    (outNumber sink out value false 16 false (if s.width > 10 then s.width else 10) (-1) true false true,
      args.takeWord.2)
  | 'n' => (out, args.takeWord.2)
  | '%' => (outChar sink out '%', args)
  | c => (outChar sink (outChar sink out '%') c, args)

def formatLoop : Nat → List Char → VaList → FmtOut σ → FmtOut σ
  | 0, _, _, out => out
  | _ + 1, [], _, out => out
  | rounds + 1, c :: fmt, args, out =>
    if c ≠ '%' then formatLoop rounds fmt args (outChar sink out c)
    else
      match parseSpec fmt args with
      | (_, [], _) => out
      | (s, c :: fmt, args) =>
        let r := convert sink texts c s args out
        formatLoop rounds fmt r.2 r.1

def formatCore (out : FmtOut σ) (fmt : List Char) (args : VaList) : FmtOut σ :=
  formatLoop sink texts fmt.length fmt args out

end

def consoleVprintf (texts : Texts) (uart fmt : List Char) (args : VaList) : List Char × Int :=
  let out := formatCore sinkConsole texts ⟨uart, 0⟩ fmt args
  (out.ctx, out.written)

def consoleVsprintf (texts : Texts) (buf : Int → Char) (fmt : List Char) (args : VaList) : (Int → Char) × Int :=
  let state := (formatCore sinkBuffer texts ⟨⟨buf, 0⟩, 0⟩ fmt args).ctx
  (update state.buf state.len '\x00', state.len)

/-- A buffer that is not `NULL`. -/
def consoleVsnprintf (texts : Texts) (buf : Int → Char) (size : BitVec 32) (fmt : List Char) (args : VaList) :
    (Int → Char) × Int :=
  if size = 0 then (buf, 0)
  else
    let buf := update buf 0 '\x00'
    let state := (formatCore sinkBufferBounded texts ⟨⟨buf, 0, int32 (size.toInt - 1)⟩, 0⟩ fmt args).ctx
    let stored := if state.len < state.limit then state.len else state.limit
    (update state.buf stored '\x00', state.len)

/-! # Numbers

A number is printed as a sign, a prefix and digits, in a field that is filled with blanks
outside or with zeros between prefix and digits. The array for the digits has room for
70 of them, whatever the precision is.
-/

open List (append_assoc append_nil length_append length_map nil_append replicate_zero)

variable {σ : Type} {sink : σ → Char → σ} {out : FmtOut σ}

theorem outChars_append (text rest : List Char) :
    outChars sink out (text ++ rest) = outChars sink (outChars sink out text) rest := List.foldl_append

theorem outRepeat_eq (c : Char) (count : Int) :
    outRepeat sink out c count = outChars sink out (List.replicate count.toNat c) := by
  rw [outRepeat, outChars]
  generalize count.toNat = n
  induction n generalizing out with
  | zero => rfl
  | succ n ih =>
    rw [Function.iterate_succ_apply, List.replicate_succ, List.foldl_cons]
    exact ih

def collect (text : List Char) (c : Char) : List Char := text ++ [c]

def emitted (f : FmtOut (List Char) → FmtOut (List Char)) : List Char := (f ⟨[], 0⟩).ctx

theorem collect_outChars (text : List Char) (out : FmtOut (List Char)) :
    (outChars collect out text).ctx = out.ctx ++ text := by
  induction text generalizing out with
  | nil => exact (append_nil out.ctx).symm
  | cons c text ih =>
    rw [outChars, List.foldl_cons]
    refine (ih _).trans ?_
    rw [outChar, collect, append_assoc, List.singleton_append]

variable {value : BitVec 64} {negative upper zeroPad leftAlign altPrefix : Bool} {radix : Nat} {width prec : Int}

def numberText (value : BitVec 64) (negative : Bool) (radix : Nat) (upper : Bool) (width prec : Int)
    (zeroPad leftAlign altPrefix : Bool) : List Char :=
  let digits := (reversedDigits value radix upper prec).reverse
  let front := signText negative ++ altText radix upper altPrefix
  let pad := (width - (digits.length + front.length)).toNat
  if leftAlign then front ++ digits ++ List.replicate pad ' '
  else if zeroPad && prec < 0 then front ++ List.replicate pad '0' ++ digits
  else List.replicate pad ' ' ++ (front ++ digits)

theorem pad_eq (width : Int) (a b : Nat) :
    (if width > a + b then width - a - b else 0).toNat = (width - (a + b)).toNat := by
  split
  · rw [Int.sub_sub]
  · omega

theorem outNumber_eq : outNumber sink out value negative radix upper width prec zeroPad leftAlign altPrefix =
    outChars sink out (numberText value negative radix upper width prec zeroPad leftAlign altPrefix) := by
  simp only [outNumber, numberText, outDigits, outRepeat_eq, pad_eq, List.length_reverse]
  split_ifs
  all_goals simp only [outChars_append]

theorem emitted_outNumber :
    (emitted fun out => outNumber collect out value negative radix upper width prec zeroPad leftAlign altPrefix) =
      numberText value negative radix upper width prec zeroPad leftAlign altPrefix := by
  rw [emitted, outNumber_eq, collect_outChars]
  exact nil_append _

def digitValue (c : Char) : Nat :=
  if '0' ≤ c ∧ c ≤ '9' then c.toNat - 48
  else if 'a' ≤ c ∧ c ≤ 'f' then c.toNat - 87
  else if 'A' ≤ c ∧ c ≤ 'F' then c.toNat - 55
  else 16

def readDigits (radix : Nat) (digits : List Char) : Nat :=
  digits.foldl (fun value c => digitValue c + radix * value) 0

theorem readDigits_reverse (reversed : List Char) :
    readDigits radix reversed.reverse = Nat.ofDigits radix (reversed.map digitValue) := by
  rw [readDigits, List.foldl_reverse, Nat.ofDigits_eq_foldr, List.foldr_map]
  rfl

def digitChar (upper : Bool) (d : Nat) : Char := (if upper then upperDigits else lowerDigits).getD d '0'

theorem digitValue_digitChar {d : Nat} (h : d < 16) : digitValue (digitChar upper d) = d := by
  have hAll : ∀ upper : Bool, ∀ d < 16, digitValue (digitChar upper d) = d := by decide
  exact hAll upper d h

theorem digitLoop_eq (hRadix : 1 < radix) {room value : Nat} (hRoom : (Nat.digits radix value).length ≤ room)
    (reversed : List Char) : digitLoop (if upper then upperDigits else lowerDigits) radix room value reversed =
      reversed ++ (Nat.digits radix value).map (digitChar upper) := by
  induction room generalizing value reversed with
  | zero =>
    rw [digitLoop, List.eq_nil_of_length_eq_zero (Nat.le_zero.mp hRoom)]
    exact (append_nil reversed).symm
  | succ room ih =>
    rw [digitLoop]
    split
    · next hPos =>
      rw [Nat.digits_def' hRadix hPos] at hRoom ⊢
      rw [ih (Nat.le_of_succ_le_succ hRoom), List.map_cons, append_assoc]
      rfl
    · next hZero =>
      rw [Nat.eq_zero_of_not_pos hZero, Nat.digits_zero]
      exact (append_nil reversed).symm

theorem precisionLoop_eq (room : Nat) (reversed : List Char) : precisionLoop prec room reversed =
      reversed ++ List.replicate (min room (prec - reversed.length).toNat) '0' := by
  induction room generalizing reversed with
  | zero => rw [precisionLoop, Nat.zero_min, replicate_zero, append_nil]
  | succ room ih =>
    rw [precisionLoop]
    split
    · next hMore =>
      have hCount : min (room + 1) (prec - reversed.length).toNat =
          min room (prec - (reversed ++ ['0']).length).toNat + 1 := by
        rw [length_append, List.length_singleton]
        omega
      rw [ih, hCount, List.replicate_succ, append_assoc, List.singleton_append]
    · next hDone =>
      have hCount : min (room + 1) (prec - reversed.length).toNat = 0 := by omega
      rw [hCount, replicate_zero, append_nil]

def significant (value : BitVec 64) (radix : Nat) (prec : Int) : List Nat :=
  if value = 0 then if prec ≠ 0 then [0] else [] else Nat.digits radix value.toNat

theorem significant_length (hRadix : 1 < radix) : (significant value radix prec).length ≤ 64 := by
  rw [significant]
  split_ifs
  · decide
  · decide
  · rw [Nat.digits_length_le_iff hRadix]
    exact value.isLt.trans_le (Nat.pow_le_pow_left hRadix 64)

theorem significant_lt (hRadix : 1 < radix) : ∀ d ∈ significant value radix prec, d < radix := by
  intro d hd
  rw [significant] at hd
  split_ifs at hd
  · rw [List.mem_singleton.mp hd]
    exact Nat.zero_lt_of_lt hRadix
  · exact nomatch hd
  · exact Nat.digits_lt_base hRadix hd

theorem ofDigits_significant : Nat.ofDigits radix (significant value radix prec) = value.toNat := by
  rw [significant]
  split_ifs with hZero hPrec
  · rw [hZero, Nat.ofDigits_singleton]
    rfl
  · rw [hZero, Nat.ofDigits_nil]
    rfl
  · exact Nat.ofDigits_digits radix value.toNat

theorem reversedDigits_eq (hRadix : 1 < radix) : reversedDigits value radix upper prec =
      (significant value radix prec ++ List.replicate (min (reversedSize - (significant value radix prec).length)
          (prec - (significant value radix prec).length).toNat) 0).map (digitChar upper) := by
  have hZeroChar : digitChar upper 0 = '0' := by cases upper <;> rfl
  have hMap : (if value = 0 then if prec ≠ 0 then ['0'] else [] else
      digitLoop (if upper then upperDigits else lowerDigits) radix reversedSize value.toNat []) =
      (significant value radix prec).map (digitChar upper) := by
    have hLength : (significant value radix prec).length ≤ reversedSize := (significant_length hRadix).trans (by decide)
    by_cases hValue : value = 0
    · by_cases hPrec : prec ≠ 0
      · simp only [significant, if_pos hValue, if_pos hPrec, List.map_singleton, hZeroChar]
      · simp only [significant, if_pos hValue, if_neg hPrec, List.map_nil]
    · simp only [significant, if_neg hValue] at hLength ⊢
      rw [digitLoop_eq hRadix hLength, nil_append]
  rw [reversedDigits, hMap, precisionLoop_eq, List.map_append, List.map_replicate, hZeroChar, length_map]

def printed (value : BitVec 64) (radix : Nat) (prec : Int) : List Nat :=
  significant value radix prec ++ List.replicate
    (min (reversedSize - (significant value radix prec).length) (prec - (significant value radix prec).length).toNat) 0

section

variable (hRadix : 1 < radix)

include hRadix

theorem printed_lt : ∀ d ∈ printed value radix prec, d < radix := by
  intro d hd
  obtain hd | hd := List.mem_append.mp hd
  · exact significant_lt hRadix d hd
  · rw [List.eq_of_mem_replicate hd]
    exact Nat.zero_lt_of_lt hRadix

theorem printed_length_le : (printed value radix prec).length ≤ reversedSize := by
  have hLength : (significant value radix prec).length ≤ reversedSize := (significant_length hRadix).trans (by decide)
  rw [printed, length_append, List.length_replicate]
  omega

theorem prec_le_printed (hPrec : prec ≤ 70) : prec ≤ (printed value radix prec).length := by
  have hLength : (significant value radix prec).length ≤ 64 := significant_length hRadix
  rw [printed, length_append, List.length_replicate, reversedSize]
  omega

theorem reversedDigits_printed :
    reversedDigits value radix upper prec = (printed value radix prec).map (digitChar upper) := reversedDigits_eq hRadix

theorem digitValue_printed (hSmall : radix ≤ 16) :
    (reversedDigits value radix upper prec).map digitValue = printed value radix prec := by
  rw [reversedDigits_printed hRadix, List.map_map]
  refine (List.map_congr_left fun d hd => ?_).trans (List.map_id _)
  exact digitValue_digitChar ((printed_lt hRadix d hd).trans_le hSmall)

theorem readDigits_printed (hSmall : radix ≤ 16) :
    readDigits radix (reversedDigits value radix upper prec).reverse = value.toNat := by
  rw [readDigits_reverse, digitValue_printed hRadix hSmall, printed, Nat.ofDigits_append_replicate_zero,
    ofDigits_significant]

theorem digitValue_lt (hSmall : radix ≤ 16) :
    ∀ c ∈ (reversedDigits value radix upper prec).reverse, digitValue c < radix := by
  intro c hc
  have hMem : digitValue c ∈ (reversedDigits value radix upper prec).map digitValue :=
    List.mem_map_of_mem (List.mem_reverse.mp hc)
  rw [digitValue_printed hRadix hSmall] at hMem
  exact printed_lt hRadix _ hMem

end

def Field (value : BitVec 64) (negative : Bool) (radix : Nat) (upper : Bool) (width prec : Int) (altPrefix : Bool)
    (text : List Char) : Prop :=
  ∃ (left zeros right : Nat) (digits : List Char),
    text = List.replicate left ' ' ++ signText negative ++ altText radix upper altPrefix ++
      List.replicate zeros '0' ++ digits ++ List.replicate right ' ' ∧
    (∀ c ∈ digits, digitValue c < radix) ∧ readDigits radix digits = value.toNat ∧ prec ≤ digits.length ∧
    (text.length : Int) =
      max width ((signText negative).length + (altText radix upper altPrefix).length + digits.length)

theorem numberText_length :
    ((numberText value negative radix upper width prec zeroPad leftAlign altPrefix).length : Int) =
      max width ((signText negative).length + (altText radix upper altPrefix).length +
        (reversedDigits value radix upper prec).reverse.length) := by
  simp only [numberText]
  split_ifs
  all_goals
    simp only [length_append, List.length_replicate]
    omega

theorem numberText_field (hRadix : 1 < radix) (hSmall : radix ≤ 16) (hPrec : prec ≤ 70) :
    Field value negative radix upper width prec altPrefix
      (numberText value negative radix upper width prec zeroPad leftAlign altPrefix) := by
  have hEnough : prec ≤ (reversedDigits value radix upper prec).reverse.length := by
    rw [List.length_reverse, reversedDigits_printed hRadix, length_map]
    exact prec_le_printed hRadix hPrec
  obtain ⟨pad, hPad⟩ : ∃ pad, pad = (width - ((reversedDigits value radix upper prec).reverse.length +
      (signText negative ++ altText radix upper altPrefix).length)).toNat := ⟨_, rfl⟩
  have hField (left zeros right : Nat)
      (hText : numberText value negative radix upper width prec zeroPad leftAlign altPrefix =
        List.replicate left ' ' ++ signText negative ++ altText radix upper altPrefix ++
          List.replicate zeros '0' ++ (reversedDigits value radix upper prec).reverse ++ List.replicate right ' ') :
      Field value negative radix upper width prec altPrefix
        (numberText value negative radix upper width prec zeroPad leftAlign altPrefix) :=
    ⟨left, zeros, right, _, hText, digitValue_lt hRadix hSmall, readDigits_printed hRadix hSmall, hEnough,
      numberText_length⟩
  by_cases hLeft : leftAlign
  · apply hField 0 0 pad
    simp only [numberText, if_pos hLeft, hPad, replicate_zero, nil_append, append_nil]
  · by_cases hZero : (zeroPad && decide (prec < 0))
    · apply hField 0 pad 0
      simp only [numberText, if_neg hLeft, if_pos hZero, hPad, replicate_zero, nil_append, append_nil]
    · apply hField pad 0 0
      simp only [numberText, if_neg hLeft, if_neg hZero, hPad, replicate_zero, append_nil, append_assoc]

def solid (text : List Char) : Nat := text.countP (· ≠ ' ')

theorem solid_append (a b : List Char) : solid (a ++ b) = solid a + solid b := List.countP_append

theorem solid_blanks (n : Nat) : solid (List.replicate n ' ') = 0 := by
  rw [solid, List.countP_replicate]
  rfl

theorem solid_digits (hSmall : radix ≤ 16) {digits : List Char} (h : ∀ c ∈ digits, digitValue c < radix) :
    solid digits = digits.length := by
  rw [solid, List.countP_eq_length]
  intro c hc
  have hLess : digitValue c < 16 := (h c hc).trans_le hSmall
  rw [decide_eq_true_iff]
  rintro rfl
  exact absurd hLess (by decide)

theorem not_field (hRadix : 1 < radix) (hSmall : radix ≤ 16) (hPrec : 70 < prec) :
    ¬ Field value negative radix upper width prec altPrefix
      (numberText value negative radix upper width prec zeroPad leftAlign altPrefix) := by
  rintro ⟨left, zeros, right, digits, hText, hDigits, -, hEnough, -⟩
  have hNoZero : (zeroPad && decide (prec < 0)) = false := by
    rw [decide_eq_false (by omega), Bool.and_false]
  have hPrinted : (reversedDigits value radix upper prec).reverse.length ≤ 70 := by
    rw [List.length_reverse, reversedDigits_printed hRadix, length_map]
    exact printed_length_le hRadix
  have hOwn : solid (numberText value negative radix upper width prec zeroPad leftAlign altPrefix) =
      solid (signText negative) + solid (altText radix upper altPrefix) +
        (reversedDigits value radix upper prec).reverse.length := by
    rw [← solid_digits hSmall (digitValue_lt hRadix hSmall)]
    cases leftAlign with
    | true => simp only [numberText, if_true, solid_append, solid_blanks, add_zero]
    | false =>
      simp only [numberText, hNoZero, Bool.false_eq_true, if_false, solid_append, solid_blanks, zero_add]
  have hOther := congrArg solid hText
  rw [hOwn] at hOther
  simp only [solid_append, solid_blanks, solid_digits hSmall hDigits] at hOther
  omega

/-- A number is printed faithfully where the precision is not larger than the array for the digits. -/
theorem outNumber_field_iff (hRadix : radix ∈ [2, 8, 10, 16]) :
    Field value negative radix upper width prec altPrefix
      (emitted fun out => outNumber collect out value negative radix upper width prec zeroPad leftAlign altPrefix) ↔
      prec ≤ 70 := by
  have hBounds : 1 < radix ∧ radix ≤ 16 := by
    have hAll : ∀ r ∈ [2, 8, 10, 16], 1 < r ∧ r ≤ 16 := by decide
    exact hAll radix hRadix
  rw [emitted_outNumber]
  constructor
  · intro hField
    by_contra hPrec
    exact not_field hBounds.1 hBounds.2 (by omega) hField
  · exact numberText_field hBounds.1 hBounds.2

theorem outNumber_field_hex :
    Field 255 false 16 false 8 4 true
      (emitted fun out => outNumber collect out 255 false 16 false 8 4 true false true) :=
  (outNumber_field_iff (by decide)).mpr (by decide)

/-- With a precision of 80 there are 70 digits. -/
theorem outNumber_clips :
    ¬ ∀ (value : BitVec 64) (negative : Bool) (radix : Nat) (upper : Bool) (width prec : Int)
      (zeroPad leftAlign altPrefix : Bool), radix ∈ [2, 8, 10, 16] →
      Field value negative radix upper width prec altPrefix
        (emitted fun out =>
          outNumber collect out value negative radix upper width prec zeroPad leftAlign altPrefix) := by
  intro h
  have hField := h 7 false 10 false 0 80 false false false (by decide)
  rw [emitted_outNumber] at hField
  exact not_field (by decide) (by decide) (by decide) hField

end OpenXJ380.Console
