import OpenXJ380.Json.Grammar

/-! # Reading strings and numbers -/

namespace OpenXJ380.Json

open List (append_assoc append_nil cons_append length_cons nil_append tail_cons)

open TextCursor

variable {ν : Type}

/-- What every parser here does: it succeeds on a text of some kind, or it fails with a result that is not `OK`. -/
abbrev Parses {α : Type} (p : Parser α) (r : Text) (Q : α → Text → Text → Prop) : Prop :=
  Reads (fun e => e ≠ ParseResult.ok) p r Q

theorem spaces_nil : Spaces [] := fun _ h => nomatch h

theorem spaces_append {a b : Text} (hFirst : Spaces a) (hSecond : Spaces b) : Spaces (a ++ b) := by
  intro ch h
  obtain h | h := List.mem_append.mp h
  · exact hFirst ch h
  · exact hSecond ch h

theorem parses_skipSpaces (r : Text) : Parses skipSpaces r fun _ u _ => Spaces u :=
  (reads_skipWhile isspace).mono fun _ _ _ _ h => h.1

variable {r s t rest l : Text} {ch : Char} {negative : Bool} {d : Double ν} {x : ν}

theorem skipSpaces_append {a : Text} (hSpaces : Spaces a) (hStop : ∀ ch ∈ r.head?, isspace ch = false) :
    skipSpaces (some (a ++ r)) = .ok ⟨⟩ (some r) := skipWhile_append hSpaces hStop

def hexFrom : Nat → Nat → Text → Option Nat
  | 0, codepoint, _ => some codepoint
  | _ + 1, _, [] => none
  | more + 1, codepoint, ch :: l => (hexValue ch).bind fun value => hexFrom more (codepoint * 16 + value) l

theorem parseCodepoint_eq (more codepoint : Nat) {i : Nat} (hi : i ≤ r.length) :
    parseCodepoint more i codepoint (some r) =
      (hexFrom more codepoint (r.drop i)).elim (.error .invalidString) fun n => .ok n (some r) := by
  induction more generalizing i codepoint with
  | zero => rw [parseCodepoint, hexFrom, pure_eq, Option.elim_some]
  | succ more ih =>
    rw [parseCodepoint]
    obtain hLess | hEnd := Nat.lt_or_eq_of_le hi
    · rw [bind_ok (peek_of_lt hLess), List.drop_eq_getElem_cons hLess, hexFrom]
      cases hValue : hexValue r[i] with
      | none => rfl
      | some value => exact ih _ hLess
    · rw [hEnd, bind_ok peek_end, List.drop_length, hexFrom]
      rfl

theorem hexFrom_four (a b c d : Char) (l : Text) : hexFrom 4 0 (a :: b :: c :: d :: l) = hexDigits a b c d := by
  simp only [hexFrom, hexDigits, Nat.zero_mul, Nat.zero_add]
  rfl

theorem hexFrom_four_some {n : Nat} (h : hexFrom 4 0 r = some n) :
    ∃ a b c d rest, r = a :: b :: c :: d :: rest ∧ hexDigits a b c d = some n := by
  match r with
  | a :: b :: c :: d :: rest => exact ⟨a, b, c, d, rest, rfl, (hexFrom_four a b c d rest).symm.trans h⟩
  | [] => cases h
  | [a] => simp [hexFrom] at h
  | [a, b] => simp [hexFrom] at h
  | [a, b, c] => simp [hexFrom] at h

theorem parses_codepoint (r : Text) : Parses (parseCodepoint 4 0 0) r fun n u rest =>
    u = [] ∧ rest = r ∧ ∃ a b c d r', r = a :: b :: c :: d :: r' ∧ hexDigits a b c d = some n := by
  rw [Parses, Reads, parseCodepoint_eq 4 0 (Nat.zero_le _), List.drop_zero]
  cases hHex : hexFrom 4 0 r with
  | none => rintro ⟨⟩
  | some n => exact ⟨[], r, rfl, rfl, rfl, rfl, hexFrom_four_some hHex⟩

theorem parses_advance_four (a b c d : Char) (r : Text) :
    Parses (advance 4) (a :: b :: c :: d :: r) fun _ u rest => u = [a, b, c, d] ∧ rest = r := by
  have hAdvance := advance_append (ε := ParseResult) [a, b, c, d] r
  simp only [cons_append, nil_append, length_cons, List.length_nil] at hAdvance
  rw [Parses, Reads, hAdvance]
  exact ⟨[a, b, c, d], r, rfl, rfl, rfl, rfl⟩

theorem decodeEscape_u : decodeEscape 'u' = none := by decide

theorem parses_stringLoop {rounds : Nat} (hRounds : r.length < rounds) (buffer : Text) :
    Parses (stringLoop rounds buffer) r fun s u _ =>
      ∃ more t, s = buffer ++ more ∧ u = t ++ ['"'] ∧ Chars asciiOnly more t := by
  induction rounds generalizing r buffer with
  | zero => exact nomatch hRounds
  | succ rounds ih =>
    rw [stringLoop]
    apply Reads.deref
    cases r with
    | nil => exact Reads.fail nofun
    | cons ch r =>
      rw [length_cons, Nat.succ_lt_succ_iff] at hRounds
      rw [List.headD_cons]
      by_cases hNul : ch = nul
      · rw [if_pos hNul]
        exact .fail nofun
      rw [if_neg hNul]
      apply Reads.advance_one
      by_cases hQuote : ch = '"'
      · rw [if_pos hQuote, hQuote]
        exact .pure ⟨[], [], (append_nil _).symm, rfl, .nil⟩
      rw [if_neg hQuote]
      by_cases hControl : ch.toNat < 0x20
      · rw [if_pos hControl]
        exact .fail nofun
      rw [if_neg hControl]
      by_cases hEscape : ch = '\\'
      · rw [if_neg (not_not.mpr hEscape), hEscape]
        apply Reads.deref
        cases r with
        | nil => exact Reads.advance_end (e := .invalidString) rfl nofun
        | cons escaped r =>
          rw [length_cons] at hRounds
          apply Reads.advance_one
          rw [List.headD_cons]
          cases hDecoded : decodeEscape escaped with
          | some decoded =>
            apply (ih (Nat.lt_of_succ_lt hRounds) (buffer ++ [decoded])).mono
            rintro s u rest _ ⟨more, t, rfl, rfl, hChars⟩
            exact ⟨decoded :: more, '\\' :: escaped :: t, append_assoc _ _ _, rfl, .escaped hDecoded hChars⟩
          | none =>
            by_cases hUnicode : escaped = 'u'
            · rw [hUnicode]
              apply (parses_codepoint r).bind
              rintro n u rest _ ⟨rfl, rfl, a, b, c, d, r', rfl, hDigits⟩
              apply (parses_advance_four a b c d r').bind
              rintro _ u rest _ ⟨rfl, rfl⟩
              simp only [length_cons] at hRounds
              apply (ih (by omega) (buffer ++ [decodeUnicode n])).mono
              rintro s u rest _ ⟨more, t, rfl, rfl, hChars⟩
              exact ⟨decodeUnicode n :: more, '\\' :: 'u' :: a :: b :: c :: d :: t, append_assoc _ _ _, rfl,
                .codepoint hDigits hChars⟩
            · simp only [if_neg hUnicode]
              exact .fail nofun
      · rw [if_pos hEscape]
        apply (ih hRounds (buffer ++ [ch])).mono
        rintro s u rest _ ⟨more, t, rfl, rfl, hChars⟩
        exact ⟨ch :: more, ch :: t, append_assoc _ _ _, rfl, .unescaped (not_lt.mp hControl) hQuote hEscape hChars⟩

theorem stringLoop_chars (h : Chars asciiOnly s t) {rounds : Nat} (hRounds : t.length < rounds)
    (buffer rest : Text) : stringLoop rounds buffer (some (t ++ '"' :: rest)) = .ok (buffer ++ s) (some rest) := by
  induction h generalizing rounds buffer with
  | nil =>
    cases rounds with
    | zero => exact nomatch hRounds
    | succ rounds =>
      rw [stringLoop, nil_append, deref_bind, if_neg (by decide), advance_bind, if_pos rfl, append_nil]
      rfl
  | @unescaped ch s t hControl hQuote hEscape _ ih =>
    cases rounds with
    | zero => exact nomatch hRounds
    | succ rounds =>
      have hNul : ch ≠ nul := by
        rintro rfl
        exact absurd hControl (by decide)
      rw [stringLoop, cons_append, deref_bind, if_neg hNul, advance_bind, if_neg hQuote,
        if_neg (not_lt.mpr hControl), if_pos hEscape, ih (Nat.lt_of_succ_lt_succ hRounds), append_assoc]
      rfl
  | @escaped e ch s t hDecoded _ ih =>
    cases rounds with
    | zero => exact nomatch hRounds
    | succ rounds =>
      rw [length_cons, length_cons] at hRounds
      rw [stringLoop, cons_append, cons_append, deref_bind, if_neg (by decide), advance_bind, if_neg (by decide),
        if_neg (by decide), if_neg (not_not.mpr rfl), deref_bind, advance_bind, hDecoded]
      change stringLoop rounds (buffer ++ [ch]) _ = _
      rw [ih (by omega), append_assoc]
      rfl
  | @codepoint a b c d n s t hDigits _ ih =>
    cases rounds with
    | zero => exact nomatch hRounds
    | succ rounds =>
      simp only [length_cons] at hRounds
      have hCodepoint : parseCodepoint 4 0 0 (some (a :: b :: c :: d :: (t ++ '"' :: rest))) =
          .ok n (some (a :: b :: c :: d :: (t ++ '"' :: rest))) := by
        rw [parseCodepoint_eq 4 0 (Nat.zero_le _), List.drop_zero, hexFrom_four, hDigits, Option.elim_some]
      have hAdvance : (advance 4 : Parser PUnit) (some (a :: b :: c :: d :: (t ++ '"' :: rest))) =
          .ok ⟨⟩ (some (t ++ '"' :: rest)) := advance_append [a, b, c, d] (t ++ '"' :: rest)
      rw [stringLoop]
      simp only [cons_append]
      rw [deref_bind, if_neg (by decide), advance_bind, if_neg (by decide), if_neg (by decide),
        if_neg (not_not.mpr rfl), deref_bind, advance_bind, decodeEscape_u]
      change (parseCodepoint 4 0 0 >>= _) _ = _
      rw [bind_ok hCodepoint, bind_ok hAdvance, ih (by omega), append_assoc]
      rfl

theorem parses_stringRaw (r : Text) : Parses parseStringRaw r fun s u _ => IsString asciiOnly s u := by
  rw [parseStringRaw]
  apply Reads.deref
  by_cases hQuote : r.headD nul = '"'
  · obtain ⟨r, rfl⟩ := eq_cons_of_headD hQuote (by decide)
    rw [if_neg (not_not.mpr hQuote)]
    apply Reads.advance_one
    apply Reads.here
    apply (parses_stringLoop (Nat.lt_succ_self _) []).mono
    rintro s u rest _ ⟨more, t, rfl, rfl, hChars⟩
    exact .quoted hChars
  · rw [if_pos hQuote]
    exact .fail nofun

theorem parseStringRaw_string (h : IsString asciiOnly s t) (rest : Text) :
    parseStringRaw (some (t ++ rest)) = .ok s (some rest) := by
  obtain ⟨hChars⟩ := h
  rename_i t
  have hRounds : t.length < (t ++ '"' :: rest).length + 1 := by
    rw [List.length_append]
    omega
  have hLoop := stringLoop_chars hChars hRounds [] rest
  rw [parseStringRaw, cons_append, deref_bind, if_neg (not_not.mpr rfl), advance_bind]
  simp only [append_assoc, cons_append, nil_append] at hLoop ⊢
  exact hLoop

def EndsNumber (rest : Text) : Prop := ∀ ch ∈ rest.head?, isDigit ch = false ∧ ch ≠ '.' ∧ ch ≠ 'e' ∧ ch ≠ 'E'

theorem digit_ne_nul (h : isDigit ch) : ch ≠ nul := by
  rintro rfl
  exact absurd h (by decide)

theorem parses_scanSign (r : Text) : Parses scanSign r fun _ u _ => ∃ negative, IsSign negative u := by
  rw [scanSign]
  apply Reads.deref
  by_cases hMinus : r.headD nul = '-'
  · obtain ⟨r, rfl⟩ := eq_cons_of_headD hMinus (by decide)
    rw [if_pos hMinus]
    apply (reads_advance_one _ r).mono
    rintro _ u rest _ ⟨rfl, -⟩
    exact ⟨true, .minus⟩
  · rw [if_neg hMinus]
    exact .pure ⟨false, .plus⟩

theorem reads_skipDigits (hDigit : isDigit ch) (r : Text) :
    Parses (skipWhile isDigit) (ch :: r) fun _ u _ => ∃ t, u = ch :: t ∧ ∀ c ∈ t, isDigit c := by
  apply (reads_skipWhile isDigit).mono
  rintro _ u rest hText ⟨hAll, hStop⟩
  cases u with
  | nil =>
    have hFirst := hStop ch (by rw [← nil_append rest, ← hText]; rfl)
    rw [hDigit] at hFirst
    cases hFirst
  | cons c t =>
    cases hText
    exact ⟨t, rfl, fun c h => hAll c (.tail _ h)⟩

theorem parses_scanInteger (d : Double ν) (r : Text) : Parses scanInteger r fun _ u _ => ∃ x, IsInteger d x u := by
  rw [scanInteger]
  apply Reads.deref
  by_cases hZero : r.headD nul = '0'
  · obtain ⟨r, rfl⟩ := eq_cons_of_headD hZero (by decide)
    rw [if_pos hZero]
    apply (reads_advance_one _ r).mono
    rintro _ u rest _ ⟨rfl, -⟩
    exact ⟨d.ofInt 0, .zero⟩
  rw [if_neg hZero]
  by_cases hFirst : '1' ≤ r.headD nul ∧ r.headD nul ≤ '9'
  · have hDigit : isDigit (r.headD nul) := by
      rw [isDigit, Bool.and_eq_true, decide_eq_true_iff, decide_eq_true_iff]
      exact ⟨Char.le_trans (by decide) hFirst.1, hFirst.2⟩
    obtain ⟨rest, hText⟩ := eq_cons_of_headD rfl (digit_ne_nul hDigit)
    rw [if_pos hFirst]
    generalize r.headD nul = ch at hFirst hDigit hText
    subst hText
    apply (reads_skipDigits hDigit rest).mono
    rintro _ u rest _ ⟨t, rfl, hRest⟩
    exact ⟨_, .positive hFirst hRest⟩
  · rw [if_neg hFirst]
    exact .fail nofun

theorem parses_scanDigits (r : Text) : Parses scanDigits r fun _ u _ => Digits u := by
  rw [scanDigits]
  apply Reads.deref
  by_cases hDigit : isDigit (r.headD nul)
  · obtain ⟨rest, hText⟩ := eq_cons_of_headD rfl (digit_ne_nul hDigit)
    rw [if_pos hDigit]
    generalize r.headD nul = ch at hDigit hText
    subst hText
    apply (reads_skipDigits hDigit rest).mono
    rintro _ u rest _ ⟨t, rfl, hRest⟩
    refine ⟨List.cons_ne_nil _ _, ?_⟩
    intro c hc
    obtain rfl | hc := List.mem_cons.mp hc
    · exact hDigit
    · exact hRest c hc
  · rw [if_neg hDigit]
    exact .fail nofun

theorem parses_scanFraction (d : Double ν) (r : Text) :
    Parses scanFraction r fun _ u _ => ∃ y z, IsFraction d y z u := by
  rw [scanFraction]
  apply Reads.deref
  by_cases hPoint : r.headD nul = '.'
  · obtain ⟨r, rfl⟩ := eq_cons_of_headD hPoint (by decide)
    rw [if_pos hPoint]
    apply Reads.advance_one
    apply (parses_scanDigits r).mono
    rintro _ u rest _ hDigits
    exact ⟨_, _, .some hDigits⟩
  · rw [if_neg hPoint]
    exact .pure ⟨_, _, .none⟩

theorem parses_scanExponentSign (r : Text) : Parses scanExponentSign r fun _ u _ => u = [] ∨ u = ['+'] ∨ u = ['-'] := by
  rw [scanExponentSign]
  apply Reads.deref
  by_cases hSign : r.headD nul = '+' ∨ r.headD nul = '-'
  · rw [if_pos hSign]
    obtain hPlus | hMinus := hSign
    · obtain ⟨r, rfl⟩ := eq_cons_of_headD hPlus (by decide)
      apply (reads_advance_one _ r).mono
      rintro _ u rest _ ⟨rfl, -⟩
      exact .inr (.inl rfl)
    · obtain ⟨r, rfl⟩ := eq_cons_of_headD hMinus (by decide)
      apply (reads_advance_one _ r).mono
      rintro _ u rest _ ⟨rfl, -⟩
      exact .inr (.inr rfl)
  · rw [if_neg hSign]
    exact .pure (.inl rfl)

theorem parses_scanExponent (r : Text) : Parses scanExponent r fun _ u _ => ∃ negative n, IsExponent negative n u := by
  rw [scanExponent]
  apply Reads.deref
  by_cases hMark : r.headD nul = 'e' ∨ r.headD nul = 'E'
  · have hNul : r.headD nul ≠ nul := by
      rintro hNul
      rw [hNul] at hMark
      exact absurd hMark (by decide)
    obtain ⟨r', hText⟩ := eq_cons_of_headD rfl hNul
    rw [if_pos hMark]
    generalize r.headD nul = e at hMark hText
    subst hText
    apply Reads.advance_one
    apply (parses_scanExponentSign r').bind
    rintro _ u rest _ hSign
    apply (parses_scanDigits rest).mono
    rintro _ t _ _ hDigits
    obtain rfl | rfl | rfl := hSign
    · exact ⟨false, _, .unsigned hMark hDigits⟩
    · exact ⟨false, _, .plus hMark hDigits⟩
    · exact ⟨true, _, .minus hMark hDigits⟩
  · rw [if_neg hMark]
    exact .pure ⟨false, 0, .none⟩

def NoDigit (rest : Text) : Prop := ∀ ch ∈ rest.head?, isDigit ch = false

theorem takeWhile_digits (hAll : ∀ ch ∈ t, isDigit ch) (hStop : NoDigit rest) :
    (t ++ rest).takeWhile isDigit = t ∧ (t ++ rest).dropWhile isDigit = rest := by
  have hSpan := spanWhile_append (ε := ParseResult) hAll hStop
  injection hSpan with hTake hDrop
  exact ⟨hTake, Option.some.inj hDrop⟩

theorem digits_head (h : Digits t) (rest : Text) : (t ++ rest).head?.any isDigit := by
  cases t with
  | nil => exact absurd rfl h.1
  | cons ch t => exact h.2 ch (.head _)

theorem isDigit_positive (h : '1' ≤ ch ∧ ch ≤ '9') : isDigit ch ∧ ch ≠ '0' := by
  constructor
  · rw [isDigit, Bool.and_eq_true, decide_eq_true_iff, decide_eq_true_iff]
    exact ⟨Char.le_trans (by decide) h.1, h.2⟩
  · rintro rfl
    exact absurd h.1 (by decide)

theorem signPart_append (h : IsSign negative s) (hRest : rest.head? ≠ some '-') :
    signPart (s ++ rest) = (negative, rest) := by
  cases h with
  | plus => rw [signPart, nil_append, if_neg hRest]
  | minus => rfl

theorem integerPart_append {i : Text} (h : IsInteger d x i) (hStop : NoDigit rest) :
    integerPart d (i ++ rest) = some (x, rest) := by
  cases h with
  | zero =>
    have hNone : ¬ rest.head?.any isDigit := by
      rw [Option.any_eq_true]
      rintro ⟨ch, hHead, hDigit⟩
      rw [hStop ch hHead] at hDigit
      cases hDigit
    rw [cons_append, nil_append, integerPart, if_pos rfl, if_neg hNone]
  | @positive ch t hFirst hRest =>
    obtain ⟨hDigit, hZero⟩ := isDigit_positive hFirst
    obtain ⟨hTake, hDrop⟩ := takeWhile_digits (List.forall_mem_cons.mpr ⟨hDigit, hRest⟩) hStop
    rw [cons_append] at hTake hDrop
    rw [cons_append, integerPart, if_neg hZero, if_pos hFirst, hTake, hDrop]

theorem fractionPart_append {y z : ν} {f : Text} (h : IsFraction d y z f)
    (hStop : NoDigit rest) (hPoint : rest.head? ≠ some '.') : fractionPart d (f ++ rest) = some ((y, z), rest) := by
  cases h with
  | none => rw [fractionPart, nil_append, if_neg hPoint]
  | some hDigits =>
    obtain ⟨hTake, hDrop⟩ := takeWhile_digits hDigits.2 hStop
    rw [fractionPart, cons_append, List.head?_cons, if_pos rfl, tail_cons, if_pos (digits_head hDigits rest),
      hTake, hDrop]

theorem digit_ne_sign (h : Digits t) (rest : Text) : (t ++ rest).head? ≠ some '+' ∧ (t ++ rest).head? ≠ some '-' := by
  have hDigit := digits_head h rest
  constructor <;>
    (intro hHead
     rw [hHead] at hDigit
     exact absurd hDigit (by decide))

theorem mark_head {mark : Char} (h : mark = 'e' ∨ mark = 'E') (l : Text) :
    (mark :: l).head? = some 'e' ∨ (mark :: l).head? = some 'E' := h.imp (congrArg some) (congrArg some)

theorem exponentPart_append {n : Int} {e : Text} (h : IsExponent negative n e)
    (hStop : NoDigit rest) (hSmall : rest.head? ≠ some 'e') (hCapital : rest.head? ≠ some 'E') :
    exponentPart (e ++ rest) = some ((negative, n), rest) := by
  cases h with
  | none => rw [exponentPart, nil_append, if_neg (not_or.mpr ⟨hSmall, hCapital⟩)]
  | @unsigned mark t hMark hDigits =>
    obtain ⟨hTake, hDrop⟩ := takeWhile_digits hDigits.2 hStop
    obtain ⟨hPlus, hMinus⟩ := digit_ne_sign hDigits rest
    rw [exponentPart, cons_append, if_pos (mark_head hMark _)]
    simp only [tail_cons, hPlus, hMinus, or_self, if_false, if_pos (digits_head hDigits rest), hTake, hDrop,
      decide_false]
  | @plus mark t hMark hDigits =>
    obtain ⟨hTake, hDrop⟩ := takeWhile_digits hDigits.2 hStop
    rw [exponentPart, cons_append, if_pos (mark_head hMark _)]
    simp only [tail_cons, cons_append, List.head?_cons, true_or, if_true, if_pos (digits_head hDigits rest),
      hTake, hDrop]
    rfl
  | @minus mark t hMark hDigits =>
    obtain ⟨hTake, hDrop⟩ := takeWhile_digits hDigits.2 hStop
    rw [exponentPart, cons_append, if_pos (mark_head hMark _)]
    simp only [tail_cons, cons_append, List.head?_cons, or_true, if_true, if_pos (digits_head hDigits rest),
      hTake, hDrop]
    rfl

theorem scanSign_eq (l : Text) : scanSign (some l) = .ok ⟨⟩ (some (signPart l).2) := by
  cases l with
  | nil => rfl
  | cons ch l =>
    rw [scanSign, deref_bind, signPart]
    by_cases hMinus : ch = '-'
    · subst hMinus
      exact advance_one _ _
    · rw [if_neg hMinus, List.head?_cons, if_neg fun h => hMinus (Option.some.inj h), pure_eq]

theorem scanInteger_of (h : integerPart d l = some (x, rest)) : scanInteger (some l) = .ok ⟨⟩ (some rest) := by
  cases l with
  | nil => cases h
  | cons ch l =>
    rw [scanInteger, deref_bind]
    rw [integerPart] at h
    by_cases hZero : ch = '0'
    · rw [if_pos hZero] at h ⊢
      split at h
      · cases h
      · cases h
        exact advance_one _ _
    rw [if_neg hZero] at h ⊢
    by_cases hFirst : '1' ≤ ch ∧ ch ≤ '9'
    · rw [if_pos hFirst] at h ⊢
      cases h
      rfl
    · rw [if_neg hFirst] at h
      cases h

theorem scanDigits_of (h : l.head?.any isDigit) : scanDigits (some l) = .ok ⟨⟩ (some (l.dropWhile isDigit)) := by
  cases l with
  | nil => cases h
  | cons ch l =>
    rw [scanDigits, deref_bind, if_pos (show isDigit ch = true from h)]
    rfl

theorem scanFraction_of {v : ν × ν} (h : fractionPart d l = some (v, rest)) :
    scanFraction (some l) = .ok ⟨⟩ (some rest) := by
  cases l with
  | nil =>
    cases h
    rfl
  | cons ch l =>
    rw [scanFraction, deref_bind]
    rw [fractionPart, List.head?_cons, tail_cons] at h
    by_cases hPoint : ch = '.'
    · rw [if_pos hPoint, advance_bind]
      rw [if_pos (congrArg some hPoint)] at h
      split at h
      · next hDigit =>
        cases h
        exact scanDigits_of hDigit
      · cases h
    · rw [if_neg hPoint]
      rw [if_neg fun hEq => hPoint (Option.some.inj hEq)] at h
      cases h
      rfl

theorem scanExponentSign_eq (l : Text) :
    scanExponentSign (some l) = .ok ⟨⟩ (some (if l.head? = some '+' ∨ l.head? = some '-' then l.tail else l)) := by
  cases l with
  | nil => rfl
  | cons ch l =>
    rw [scanExponentSign, deref_bind]
    simp only [List.head?_cons, Option.some_inj]
    by_cases hSign : ch = '+' ∨ ch = '-'
    · rw [if_pos hSign, if_pos hSign]
      exact advance_one _ _
    · rw [if_neg hSign, if_neg hSign]
      rfl

theorem scanExponent_of {v : Bool × Int} (h : exponentPart l = some (v, rest)) :
    scanExponent (some l) = .ok ⟨⟩ (some rest) := by
  cases l with
  | nil =>
    cases h
    rfl
  | cons ch l =>
    rw [scanExponent, deref_bind]
    by_cases hMark : ch = 'e' ∨ ch = 'E'
    · rw [if_pos hMark, advance_bind, bind_ok (scanExponentSign_eq l)]
      obtain ⟨digits, hDigits⟩ : ∃ digits, (if l.head? = some '+' ∨ l.head? = some '-' then l.tail else l) = digits :=
        ⟨_, rfl⟩
      have hPart : exponentPart (ch :: l) = if digits.head?.any isDigit then
          some ((decide (l.head? = some '-'), exponentValue (digits.takeWhile isDigit)), digits.dropWhile isDigit)
        else none := by
        subst hDigits
        exact if_pos (mark_head hMark l)
      rw [hDigits]
      rw [hPart] at h
      split at h
      · next hDigit =>
        cases h
        exact scanDigits_of hDigit
      · cases h
    · rw [if_neg hMark]
      rw [exponentPart, if_neg fun hEq => hMark (hEq.imp Option.some.inj Option.some.inj)] at h
      cases h
      rfl

theorem integer_head {i : Text} (h : IsInteger d x i) (rest : Text) : ∃ ch t, i ++ rest = ch :: t ∧ isDigit ch := by
  cases h with
  | zero => exact ⟨'0', rest, rfl, rfl⟩
  | @positive ch t hFirst hRest => exact ⟨ch, t ++ rest, rfl, (isDigit_positive hFirst).1⟩

theorem exponent_head {n : Int} {e : Text} (h : IsExponent negative n e) (hEnd : EndsNumber rest) :
    ∀ ch ∈ (e ++ rest).head?, isDigit ch = false ∧ ch ≠ '.' := by
  have hMark : ∀ {mark : Char}, mark = 'e' ∨ mark = 'E' → isDigit mark = false ∧ mark ≠ '.' := by
    rintro _ (rfl | rfl) <;> decide
  cases h with
  | none => exact fun ch hHead => ⟨(hEnd ch hHead).1, (hEnd ch hHead).2.1⟩
  | unsigned he | plus he | minus he =>
    rintro ch ⟨⟩
    exact hMark he

theorem fraction_head {y z : ν} {f : Text} (h : IsFraction d y z f) (hEnd : NoDigit rest) : NoDigit (f ++ rest) := by
  cases h with
  | none => exact hEnd
  | some hDigits =>
    rintro ch ⟨⟩
    rfl

theorem number_parts (h : IsNumber d x t) (hEnd : EndsNumber rest) : ∃ negative l₁ integer l₂ fraction l₃ exponent,
      signPart (t ++ rest) = (negative, l₁) ∧ integerPart d l₁ = some (integer, l₂) ∧
      fractionPart d l₂ = some (fraction, l₃) ∧ exponentPart l₃ = some (exponent, rest) ∧
      x = scale d exponent.1 exponent.2.toNat (if negative then d.neg (d.add integer (d.div fraction.1 fraction.2))
          else d.add integer (d.div fraction.1 fraction.2)) := by
  obtain ⟨hSign, hInteger, hFraction, hExponent⟩ := h
  rename_i negative expNegative x y z n s i f e
  have hExponentHead := exponent_head hExponent hEnd
  have hNoDigit : NoDigit (e ++ rest) := fun ch hHead => (hExponentHead ch hHead).1
  have hPoint : (e ++ rest).head? ≠ some '.' := fun hHead => (hExponentHead '.' hHead).2 rfl
  obtain ⟨ch, l, hFirst, hDigit⟩ := integer_head hInteger (f ++ (e ++ rest))
  have hMinus : (i ++ (f ++ (e ++ rest))).head? ≠ some '-' := by
    rw [hFirst]
    rintro ⟨⟩
    exact absurd hDigit (by decide)
  refine ⟨negative, _, x, _, (y, z), _, (expNegative, n), ?_,
    integerPart_append hInteger (fraction_head hFraction hNoDigit), fractionPart_append hFraction hNoDigit hPoint,
    exponentPart_append hExponent (fun ch hHead => (hEnd ch hHead).1) ?_ ?_, rfl⟩
  · simp only [append_assoc]
    exact signPart_append hSign hMinus
  · exact fun hHead => (hEnd 'e' hHead).2.2.1 rfl
  · exact fun hHead => (hEnd 'E' hHead).2.2.2 rfl

theorem parseNumberValue_number (h : IsNumber d x t) : parseNumberValue d t = some x := by
  obtain ⟨negative, l₁, integer, l₂, fraction, l₃, exponent, hSign, hInteger, hFraction, hExponent, rfl⟩ :=
    @number_parts ν t [] d x h nofun
  rw [append_nil] at hSign
  rw [parseNumberValue, hSign]
  simp only [hInteger, hFraction, hExponent, Option.bind_eq_bind, Option.bind_some, ne_eq, not_true_eq_false, if_false]

theorem parses_number (d : Double ν) (r : Text) :
    Parses (parseNumber d) r fun v u _ => ∃ x, v = .number x ∧ IsNumber d x u := by
  rw [parseNumber]
  apply Reads.here
  apply (parses_scanSign r).bind
  rintro _ s r₁ hText₁ ⟨negative, hSign⟩
  apply (parses_scanInteger d r₁).bind
  rintro _ i r₂ hText₂ ⟨x, hInteger⟩
  apply (parses_scanFraction d r₂).bind
  rintro _ f r₃ hText₃ ⟨y, z, hFraction⟩
  apply (parses_scanExponent r₃).bind
  rintro _ e r₄ hText₄ ⟨expNegative, n, hExponent⟩
  apply Reads.here
  have hNumber := IsNumber.parts hSign hInteger hFraction hExponent
  have hBetween : between (some r) (some r₄) = s ++ (i ++ (f ++ e)) := by
    rw [hText₁, hText₂, hText₃, hText₄, ← between_append (s ++ (i ++ (f ++ e))) r₄]
    simp only [append_assoc]
  rw [hBetween, parseNumberValue_number hNumber]
  refine .pure ⟨_, rfl, ?_⟩
  rw [append_nil]
  exact hNumber

theorem parseNumber_number (h : IsNumber d x t) (hEnd : EndsNumber rest) :
    parseNumber d (some (t ++ rest)) = .ok (.number x) (some rest) := by
  obtain ⟨negative, l₁, integer, l₂, fraction, l₃, exponent, hSign, hInteger, hFraction, hExponent, -⟩ :=
    number_parts h hEnd
  have hScan := scanSign_eq (t ++ rest)
  rw [hSign] at hScan
  rw [parseNumber, bind_ok here_eq, bind_ok hScan, bind_ok (scanInteger_of hInteger),
    bind_ok (scanFraction_of hFraction), bind_ok (scanExponent_of hExponent), bind_ok here_eq, between_append,
    parseNumberValue_number h]
  rfl

end OpenXJ380.Json
