import OpenXJ380.Console.Number

/-! # One text for three sinks

What is printed does not depend on the sink. The sinks then differ in where the text goes, as
long as its length is an `int`.
-/

namespace OpenXJ380.Console

open List (length_append length_singleton replicate)
open Function

variable {σ : Type} {sink : σ → Char → σ} {out : FmtOut σ} {texts : Texts} {fmt : List Char} {args : VaList}

def strText (str : List Char) (width prec : Int) (leftAlign : Bool) : List Char :=
  let text := if prec < 0 then str else str.take prec.toNat
  let pad := List.replicate (if width > text.length then width - text.length else 0).toNat ' '
  if leftAlign then text ++ pad else pad ++ text

theorem outText_eq (str : List Char) (width prec : Int) (leftAlign : Bool) :
    outText sink out str width prec leftAlign = outChars sink out (strText str width prec leftAlign) := by
  cases leftAlign with
  | true =>
    simp only [outText, strText, outRepeat_eq, if_true]
    exact (outChars_append ..).symm
  | false =>
    simp only [outText, strText, outRepeat_eq, Bool.false_eq_true, if_false]
    exact (outChars_append ..).symm

theorem outUnsigned_prints (args : VaList) (s : Spec) (radix : Nat) (upper altPrefix : Bool) :
    ∃ text args', ∀ (σ : Type) (sink : σ → Char → σ) (out : FmtOut σ),
      outUnsigned sink out args s radix upper altPrefix = (outChars sink out text, args') :=
  ⟨_, _, fun _ _ _ => congrArg (·, _) outNumber_eq⟩

theorem convert_prints (texts : Texts) (c : Char) (s : Spec) (args : VaList) :
    ∃ text args', ∀ (σ : Type) (sink : σ → Char → σ) (out : FmtOut σ),
      convert sink texts c s args out = (outChars sink out text, args') := by
  unfold convert
  split
  · refine ⟨(if s.width > 1 ∧ s.leftAlign = false then replicate (s.width - 1).toNat ' ' else []) ++
      [Char.ofNat (args.takeWord.1.setWidth 8).toNat] ++
      (if s.width > 1 ∧ s.leftAlign then replicate (s.width - 1).toNat ' ' else []), args.takeWord.2, ?_⟩
    intro σ sink out
    rw [outChars_append, outChars_append]
    have hPad (p : Prop) [Decidable p] (out : FmtOut σ) : (if p then outRepeat sink out ' ' (s.width - 1) else out) =
          outChars sink out (if p then replicate (s.width - 1).toNat ' ' else []) := by
      split
      · exact outRepeat_eq ..
      · rfl
    simp only [hPad]
    rfl
  · exact ⟨_, _, fun _ _ _ => congrArg (·, _) (outText_eq ..)⟩
  · exact ⟨_, _, fun _ _ _ => congrArg (·, _) outNumber_eq⟩
  · exact ⟨_, _, fun _ _ _ => congrArg (·, _) outNumber_eq⟩
  · exact outUnsigned_prints ..
  · exact outUnsigned_prints ..
  · exact outUnsigned_prints ..
  · exact outUnsigned_prints ..
  · exact outUnsigned_prints ..
  · exact ⟨_, _, fun _ _ _ => congrArg (·, _) outNumber_eq⟩
  · exact ⟨[], _, fun _ _ _ => rfl⟩
  · exact ⟨['%'], _, fun _ _ _ => rfl⟩
  · exact ⟨['%', c], _, fun _ _ _ => rfl⟩

theorem formatLoop_prints (texts : Texts) (rounds : Nat) (fmt : List Char) (args : VaList) :
    ∃ text, ∀ (σ : Type) (sink : σ → Char → σ) (out : FmtOut σ),
      formatLoop sink texts rounds fmt args out = outChars sink out text := by
  induction rounds generalizing fmt args with
  | zero => exact ⟨[], fun _ _ _ => rfl⟩
  | succ rounds ih =>
    cases fmt with
    | nil => exact ⟨[], fun _ _ _ => rfl⟩
    | cons c fmt =>
      by_cases hPercent : c = '%'
      · obtain ⟨s, rest, args', hParse⟩ : ∃ s rest args', parseSpec fmt args = (s, rest, args') := ⟨_, _, _, rfl⟩
        cases rest with
        | nil =>
          refine ⟨[], fun σ sink out => ?_⟩
          rw [formatLoop, if_neg (not_not.mpr hPercent), hParse]
          rfl
        | cons c' fmt' =>
          obtain ⟨text, args'', hConvert⟩ := convert_prints texts c' s args'
          obtain ⟨rest, hRest⟩ := ih fmt' args''
          refine ⟨text ++ rest, fun σ sink out => ?_⟩
          rw [formatLoop, if_neg (not_not.mpr hPercent), hParse, outChars_append, ← hRest]
          simp only [hConvert]
      · obtain ⟨text, hText⟩ := ih fmt args
        refine ⟨c :: text, fun σ sink out => ?_⟩
        rw [formatLoop, if_pos hPercent, hText]
        rfl

def formatted (texts : Texts) (fmt : List Char) (args : VaList) : List Char :=
  emitted fun out => formatCore collect texts out fmt args

theorem formatCore_eq : formatCore sink texts out fmt args = outChars sink out (formatted texts fmt args) := by
  obtain ⟨text, hText⟩ := formatLoop_prints texts fmt.length fmt args
  have hFormatted : formatted texts fmt args = text := by
    rw [formatted, emitted, formatCore, hText, collect_outChars]
    exact List.nil_append text
  rw [hFormatted]
  exact hText σ sink out

theorem int32_eq {n : Int} (hLow : -2 ^ 31 ≤ n) (hHigh : n < 2 ^ 31) : int32 n = n :=
  BitVec.toInt_ofInt_eq_self (by decide) hLow hHigh

theorem int32_add (n k : Int) : int32 (int32 n + k) = int32 (n + k) := by
  rw [int32, int32, int32, BitVec.toInt_ofInt, BitVec.toInt_ofInt, BitVec.toInt_ofInt]
  exact Int.bmod_add_bmod

def store (buf : Int → Char) (text : List Char) : Int → Char := fun i =>
  if 0 ≤ i then text[i.toNat]?.getD (buf i) else buf i

variable {buf : Int → Char} {text : List Char} {i : Int}

theorem store_nil : store buf [] = buf := by
  funext i
  rw [store, List.getElem?_nil]
  exact ite_self _

theorem store_inside {k : Nat} (h : k < text.length) : store buf text k = text[k] := by
  rw [store, if_pos (Int.natCast_nonneg k), Int.toNat_natCast, List.getElem?_eq_getElem h]
  rfl

theorem store_outside (h : i < 0 ∨ text.length ≤ i) : store buf text i = buf i := by
  rw [store]
  split
  · rw [List.getElem?_eq_none (by omega)]
    rfl
  · rfl

theorem store_append (c : Char) : update (store buf text) text.length c = store buf (text ++ [c]) := by
  funext i
  by_cases hEnd : i = text.length
  · rw [hEnd, update_self, store_inside (by rw [length_append]; exact lt_add_one _)]
    exact (List.getElem_concat_length rfl _).symm
  · rw [update_of_ne hEnd, store, store]
    split
    · next hPos =>
      rw [List.getElem?_append]
      split
      · rfl
      · rw [List.getElem?_eq_none (by omega), List.getElem?_eq_none]
        rw [length_singleton]
        omega
    · rfl

theorem sinkBuffer_run (buf : Int → Char) (text : List Char) (w : Int) (h : text.length < 2 ^ 31) :
    (outChars sinkBuffer ⟨⟨buf, 0⟩, w⟩ text).ctx = ⟨store buf text, text.length⟩ := by
  induction text using List.reverseRecOn with
  | nil => exact congrArg (BufSink.mk · 0) store_nil.symm
  | append_singleton text c ih =>
    rw [length_append, length_singleton] at h
    rw [outChars_append]
    change sinkBuffer _ c = _
    have hNext : int32 ((text.length : Int) + 1) = (text ++ [c]).length := by
      rw [length_append, length_singleton]
      exact int32_eq (by omega) (by omega)
    rw [ih (by omega), sinkBuffer]
    exact congrArg₂ BufSink.mk (store_append c) hNext

theorem sinkBufferBounded_run (buf : Int → Char) (limit : Nat) (text : List Char) (w : Int)
    (h : text.length < 2 ^ 31) :
    (outChars sinkBufferBounded ⟨⟨buf, 0, limit⟩, w⟩ text).ctx = ⟨store buf (text.take limit), text.length, limit⟩ := by
  induction text using List.reverseRecOn with
  | nil =>
    rw [List.take_nil, store_nil]
    rfl
  | append_singleton text c ih =>
    rw [length_append, length_singleton] at h
    rw [outChars_append]
    change sinkBufferBounded _ c = _
    have hNext : int32 ((text.length : Int) + 1) = (text ++ [c]).length := by
      rw [length_append, length_singleton]
      exact int32_eq (by omega) (by omega)
    have hTake : (if (text.length : Int) < limit then update (store buf (text.take limit)) text.length c
        else store buf (text.take limit)) = store buf ((text ++ [c]).take limit) := by
      split
      · next hLess =>
        rw [List.take_of_length_le (by omega), List.take_of_length_le, store_append]
        rw [length_append, length_singleton]
        omega
      · next hFull =>
        rw [List.take_append_of_le_length (by omega)]
    rw [ih (by omega), sinkBufferBounded]
    exact congrArg₂ (BoundedBufSink.mk · · limit) hTake hNext

def crlf (text : List Char) : List Char := text.flatMap fun c => if c = '\n' then ['\r', '\n'] else [c]

theorem sinkConsole_run (uart text : List Char) (w : Int) :
    (outChars sinkConsole ⟨uart, w⟩ text).ctx = uart ++ crlf text := by
  induction text generalizing uart w with
  | nil => exact (List.append_nil uart).symm
  | cons c text ih =>
    rw [outChars, List.foldl_cons]
    refine (ih _ _).trans ?_
    rw [crlf, crlf, List.flatMap_cons, ← List.append_assoc, sinkConsole]
    split
    · next hLine =>
      rw [hLine, List.append_assoc uart ['\r'] ['\n']]
      rfl
    · rfl

/-- The sinks have come equally far, and have the same character at a place. -/
structure Agree (i : Int) (s t : BoundedBufSink) : Prop where
  len : s.len = t.len
  limit : s.limit = t.limit
  char : s.buf i = t.buf i

theorem update_agree {s t : Int → Char} (h : s i = t i) (k : Int) (c : Char) :
    update s k c i = update t k c i := by
  rw [update_apply, update_apply, h]

theorem sinkBufferBounded_agree {s t : BoundedBufSink} (h : Agree i s t) (c : Char) :
    Agree i (sinkBufferBounded s c) (sinkBufferBounded t c) where
  len := congrArg (fun n => int32 (n + 1)) h.len
  limit := h.limit
  char := by
    rw [sinkBufferBounded, sinkBufferBounded, h.len, h.limit]
    split
    · exact update_agree h.char ..
    · exact h.char

theorem outChars_agree {s t : FmtOut BoundedBufSink} (h : Agree i s.ctx t.ctx) (text : List Char) :
    Agree i (outChars sinkBufferBounded s text).ctx (outChars sinkBufferBounded t text).ctx := by
  induction text generalizing s t with
  | nil => exact h
  | cons c text ih => exact ih (sinkBufferBounded_agree h c)

theorem outChars_len (s : FmtOut BoundedBufSink) (text : List Char) (h : int32 s.ctx.len = s.ctx.len) :
    (outChars sinkBufferBounded s text).ctx.len = int32 (s.ctx.len + text.length) ∧
      (outChars sinkBufferBounded s text).ctx.limit = s.ctx.limit := by
  induction text generalizing s with
  | nil => exact ⟨(h.symm.trans (congrArg int32 (Int.add_zero _).symm)), rfl⟩
  | cons c text ih =>
    have hNext : int32 (int32 (s.ctx.len + 1)) = int32 (s.ctx.len + 1) := by
      have hAdd := int32_add (s.ctx.len + 1) 0
      rwa [Int.add_zero, Int.add_zero] at hAdd
    obtain ⟨hLen, hLimit⟩ := ih (outChar sinkBufferBounded s c) hNext
    refine ⟨hLen.trans ?_, hLimit⟩
    change int32 (int32 (s.ctx.len + 1) + text.length) = _
    rw [int32_add, List.length_cons]
    exact congrArg int32 (by omega)

variable {size : BitVec 32}

structure Agrees (texts : Texts) (fmt : List Char) (args : VaList) (size : BitVec 32) : Prop where
  outside : ∀ (buf : Int → Char) (i : Int), i < 0 ∨ size.toNat ≤ i →
    (consoleVsnprintf texts buf size fmt args).1 i = buf i
  stored : ∀ (buf buf' : Int → Char) (i : Int),
    0 ≤ i → i < min (consoleVsprintf texts buf' fmt args).2 (size.toNat - 1) →
    (consoleVsnprintf texts buf size fmt args).1 i = (consoleVsprintf texts buf' fmt args).1 i
  ended : ∀ buf buf' : Int → Char, (consoleVsnprintf texts buf size fmt args).1
    (min (consoleVsprintf texts buf' fmt args).2 (size.toNat - 1)) = '\x00'
  returned : ∀ buf buf' : Int → Char,
    (consoleVsnprintf texts buf size fmt args).2 = (consoleVsprintf texts buf' fmt args).2
  printed : ∀ (uart : List Char) (buf : Int → Char), (consoleVprintf texts uart fmt args).1 =
    uart ++ crlf ((List.range (consoleVsprintf texts buf fmt args).2.toNat).map fun i : Nat =>
      (consoleVsprintf texts buf fmt args).1 i)

theorem vsprintf_eq (buf : Int → Char) (h : (formatted texts fmt args).length < 2 ^ 31) :
    consoleVsprintf texts buf fmt args =
      (update (store buf (formatted texts fmt args)) (formatted texts fmt args).length '\x00',
        ((formatted texts fmt args).length : Int)) := by
  simp only [consoleVsprintf, formatCore_eq, sinkBuffer_run _ _ _ h]

theorem limit_eq (hPos : 1 ≤ size.toNat) (hSize : size.toNat < 2 ^ 31) :
    int32 (size.toInt - 1) = ((size.toNat - 1 : Nat) : Int) := by
  rw [BitVec.toInt_eq_toNat_of_lt (by omega), int32_eq (by omega) (by omega)]
  omega

theorem vsnprintf_eq (buf : Int → Char) (hPos : 1 ≤ size.toNat) (hSize : size.toNat < 2 ^ 31)
    (h : (formatted texts fmt args).length < 2 ^ 31) :
    consoleVsnprintf texts buf size fmt args =
      (update (store (update buf 0 '\x00') ((formatted texts fmt args).take (size.toNat - 1)))
        (min ((formatted texts fmt args).length : Int) (size.toNat - 1 : Nat)) '\x00',
        ((formatted texts fmt args).length : Int)) := by
  have hZero : size ≠ 0 := by
    rintro rfl
    exact absurd hPos (by decide)
  simp only [consoleVsnprintf, if_neg hZero, limit_eq hPos hSize, formatCore_eq, sinkBufferBounded_run _ _ _ _ h]
  rw [Int.min_def]
  congr 2
  split_ifs
  all_goals omega

theorem formatted_stored (buf : Int → Char) (h : (formatted texts fmt args).length < 2 ^ 31) :
    ((List.range (consoleVsprintf texts buf fmt args).2.toNat).map fun i : Nat =>
      (consoleVsprintf texts buf fmt args).1 i) = formatted texts fmt args := by
  rw [vsprintf_eq buf h]
  dsimp only
  refine List.ext_getElem ?_ fun i hi hText => ?_
  · rw [List.length_map, List.length_range, Int.toNat_natCast]
  · rw [List.getElem_map, List.getElem_range, update_of_ne (by omega), store_inside hText]

theorem agrees_of_short (hPos : 1 ≤ size.toNat) (hSize : size.toNat < 2 ^ 31)
    (h : (formatted texts fmt args).length < 2 ^ 31) : Agrees texts fmt args size where
  outside buf i hi := by
    rw [vsnprintf_eq buf hPos hSize h]
    dsimp only
    have hEnd : i ≠ min ((formatted texts fmt args).length : Int) (size.toNat - 1 : Nat) := by omega
    rw [update_of_ne hEnd, store_outside, update_of_ne (by omega)]
    rw [List.length_take]
    omega
  stored buf buf' i hi hLess := by
    rw [vsprintf_eq buf' h] at hLess ⊢
    rw [vsnprintf_eq buf hPos hSize h]
    dsimp only at hLess ⊢
    obtain ⟨k, rfl⟩ := Int.eq_ofNat_of_zero_le hi
    have hShort : k < (formatted texts fmt args).length := by omega
    have hTake : k < ((formatted texts fmt args).take (size.toNat - 1)).length := by
      rw [List.length_take]
      omega
    rw [update_of_ne (by omega), update_of_ne (by omega), store_inside hTake, store_inside hShort, List.getElem_take]
  ended buf buf' := by
    rw [vsprintf_eq buf' h, vsnprintf_eq buf hPos hSize h]
    have hPlace : ((size.toNat - 1 : Nat) : Int) = size.toNat - 1 := by omega
    rw [hPlace]
    exact update_self ..
  returned buf buf' := by
    rw [vsprintf_eq buf' h, vsnprintf_eq buf hPos hSize h]
  printed uart buf := by
    rw [formatted_stored buf h, consoleVprintf, formatCore_eq]
    exact sinkConsole_run ..

def bounded (buf : Int → Char) (limit : Nat) (text : List Char) : BoundedBufSink :=
  (outChars sinkBufferBounded ⟨⟨update buf 0 '\x00', 0, limit⟩, 0⟩ text).ctx

theorem vsnprintf_state (buf : Int → Char) (hPos : 1 ≤ size.toNat) (hSize : size.toNat < 2 ^ 31) :
    (consoleVsnprintf texts buf size fmt args).1 =
      update (bounded buf (size.toNat - 1) (formatted texts fmt args)).buf
        (if (bounded buf (size.toNat - 1) (formatted texts fmt args)).len <
            (bounded buf (size.toNat - 1) (formatted texts fmt args)).limit then
          (bounded buf (size.toNat - 1) (formatted texts fmt args)).len
        else (bounded buf (size.toNat - 1) (formatted texts fmt args)).limit) '\x00' := by
  have hZero : size ≠ 0 := by
    rintro rfl
    exact absurd hPos (by decide)
  simp only [consoleVsnprintf, if_neg hZero, limit_eq hPos hSize, formatCore_eq, bounded]
  rfl

theorem bounded_len (buf : Int → Char) (limit : Nat) (text : List Char) :
    (bounded buf limit text).len = int32 text.length ∧ (bounded buf limit text).limit = limit := by
  have hStart : int32 0 = 0 := by decide
  obtain ⟨hLen, hLimit⟩ := outChars_len ⟨⟨update buf 0 '\x00', 0, limit⟩, 0⟩ text hStart
  exact ⟨hLen.trans (congrArg int32 (Int.zero_add _)), hLimit⟩

theorem bounded_overflow (buf buf' : Int → Char) (limit : Nat) (front rest : List Char) (c : Char)
    (h : front.length = 2 ^ 31) :
    Agree (-2 ^ 31) (bounded buf limit (front ++ c :: rest)) (bounded buf' limit (front ++ c :: rest)) := by
  have hFirst : int32 front.length = -2 ^ 31 := by
    rw [h]
    decide
  obtain ⟨hLen, hLimit⟩ := bounded_len buf limit front
  obtain ⟨hLen', hLimit'⟩ := bounded_len buf' limit front
  rw [hFirst] at hLen hLen'
  rw [bounded, bounded, outChars_append, outChars_append]
  refine outChars_agree (s := outChar sinkBufferBounded _ c) (t := outChar sinkBufferBounded _ c) ?_ rest
  change Agree _ (sinkBufferBounded (bounded buf limit front) c) (sinkBufferBounded (bounded buf' limit front) c)
  have hLess : (-2 ^ 31 : Int) < limit := by omega
  constructor
  · rw [sinkBufferBounded, sinkBufferBounded, hLen, hLen']
  · rw [sinkBufferBounded, sinkBufferBounded, hLimit, hLimit']
  · rw [sinkBufferBounded, sinkBufferBounded, hLen, hLen', hLimit, hLimit']
    dsimp only
    rw [if_pos hLess, if_pos hLess, update_self, update_self]

theorem vsnprintf_overflow (buf buf' : Int → Char) (hPos : 1 ≤ size.toNat) (hSize : size.toNat < 2 ^ 31)
    (h : 2 ^ 31 ≤ (formatted texts fmt args).length) :
    (consoleVsnprintf texts buf size fmt args).1 (-2 ^ 31) =
      (consoleVsnprintf texts buf' size fmt args).1 (-2 ^ 31) := by
  obtain ⟨hLen, hLimit⟩ := bounded_len buf (size.toNat - 1) (formatted texts fmt args)
  obtain ⟨hLen', hLimit'⟩ := bounded_len buf' (size.toNat - 1) (formatted texts fmt args)
  rw [vsnprintf_state buf hPos hSize, vsnprintf_state buf' hPos hSize, hLen, hLen', hLimit, hLimit']
  have hSplit := List.take_append_drop (2 ^ 31) (formatted texts fmt args)
  have hFront : ((formatted texts fmt args).take (2 ^ 31)).length = 2 ^ 31 := List.length_take_of_le h
  cases hRest : (formatted texts fmt args).drop (2 ^ 31) with
  | nil =>
    have hEnd : int32 (formatted texts fmt args).length = -2 ^ 31 := by
      rw [hRest, List.append_nil] at hSplit
      rw [← hSplit, hFront]
      decide
    have hLess : (-2 ^ 31 : Int) < (size.toNat - 1 : Nat) := by omega
    rw [hEnd, if_pos hLess, update_self, update_self]
  | cons c rest =>
    rw [hRest] at hSplit
    rw [← hSplit]
    exact update_agree (bounded_overflow buf buf' _ _ rest c hFront).char ..

/-- The calls agree where the length of the text is an `int`. -/
theorem vsnprintf_agrees_iff (hPos : 1 ≤ size.toNat) (hSize : size.toNat < 2 ^ 31) :
    Agrees texts fmt args size ↔ (formatted texts fmt args).length < 2 ^ 31 := by
  constructor
  · intro hAgrees
    by_contra hLong
    have hSame := vsnprintf_overflow (fun _ => 'a') (fun _ => 'b') hPos hSize (Nat.le_of_not_lt hLong)
    rw [hAgrees.outside _ _ (.inl (by decide)), hAgrees.outside _ _ (.inl (by decide))] at hSame
    exact absurd hSame (by decide)
  · exact agrees_of_short hPos hSize

def noTexts : Texts where
  text _ := []
  short _ := by decide

theorem vsnprintf_agrees_decimal :
    Agrees noTexts ['x', '=', '%', '0', '4', 'd', '\n'] ⟨fun _ => 42, 0⟩ 4 :=
  (vsnprintf_agrees_iff (by decide) (by decide)).mpr (by decide)

theorem formatLoop_percent {rounds : Nat} {s : Spec} {c : Char} {rest : List Char} {args' : VaList}
    (hParse : parseSpec fmt args = (s, c :: rest, args')) :
    formatLoop sink texts (rounds + 1) ('%' :: fmt) args out =
      formatLoop sink texts rounds rest (convert sink texts c s args' out).2 (convert sink texts c s args' out).1 := by
  rw [formatLoop, if_neg (not_not.mpr rfl), hParse]

theorem convert_char (s : Spec) (args : VaList) (hLeft : s.leftAlign = false) :
    convert sink texts 'c' s args out =
      (outChars sink out ((if s.width > 1 then replicate (s.width - 1).toNat ' ' else []) ++
        [Char.ofNat (args.takeWord.1.setWidth 8).toNat]), args.takeWord.2) := by
  simp only [convert, hLeft, and_true, Bool.false_eq_true, and_false, if_false, outRepeat_eq, outChars_append]
  split
  · rfl
  · rfl

def wide : List Char := ['%', '*', 'c', '%', 'c']

def largest : VaList where
  words _ := 0x7fffffff
  next := 0

theorem wide_length : (formatted noTexts wide largest).length = 2 ^ 31 := by
  have hField : parseSpec ['*', 'c', '%', 'c'] largest =
    ({ Spec.none with width := 2147483647 }, ['c', '%', 'c'], { largest with next := 1 }) := rfl
  have hPlain (args : VaList) : parseSpec ['c'] args = (.none, ['c'], args) := rfl
  have hWide : ({ Spec.none with width := 2147483647 } : Spec).width > 1 := by decide
  have hNarrow : ¬ Spec.none.width > 1 := by decide
  rw [formatted, emitted, formatCore]
  change (formatLoop collect noTexts (4 + 1) wide largest _).ctx.length = _
  rw [wide, formatLoop_percent hField, convert_char _ _ rfl, if_pos hWide]
  change (formatLoop collect noTexts (3 + 1) ['%', 'c'] _ _).ctx.length = _
  rw [formatLoop_percent (hPlain _), convert_char _ _ rfl, if_neg hNarrow]
  change (outChars collect _ _).ctx.length = _
  rw [collect_outChars, collect_outChars, length_append, length_append, length_append, List.length_replicate]
  rfl

theorem vsnprintf_overflows :
    ¬ ∀ (texts : Texts) (fmt : List Char) (args : VaList) (size : BitVec 32), 1 ≤ size.toNat → size.toNat < 2 ^ 31 →
      Agrees texts fmt args size := by
  intro h
  have hAgrees := h noTexts wide largest 16 (by decide) (by decide)
  have hSame : (consoleVsnprintf noTexts (fun _ => 'a') 16 wide largest).1 (-2 ^ 31) =
      (consoleVsnprintf noTexts (fun _ => 'b') 16 wide largest).1 (-2 ^ 31) :=
    vsnprintf_overflow _ _ (by decide) (by decide) wide_length.ge
  rw [hAgrees.outside _ _ (.inl (by decide)), hAgrees.outside _ _ (.inl (by decide))] at hSame
  exact absurd hSame (by decide)

end OpenXJ380.Console
