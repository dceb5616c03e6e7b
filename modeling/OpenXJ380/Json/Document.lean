import OpenXJ380.Json.Values
import OpenXJ380.Krlibc.Strings

/-! # The texts that are accepted -/

namespace OpenXJ380.Json

open List (append_assoc append_nil cons_append length_append length_cons nil_append)

open TextCursor

variable {ν : Type} {d : Double ν}

variable {ch : Char} {t text : Text} {v : JsonValue ν}

theorem isspace_ends (h : isspace ch) : isDigit ch = false ∧ ch ≠ '.' ∧ ch ≠ 'e' ∧ ch ≠ 'E' := by
  simp only [isspace, Bool.or_eq_true, decide_eq_true_eq] at h
  obtain ((((rfl | rfl) | rfl) | rfl) | rfl) | rfl := h <;> decide

theorem endsNumber_spaces {b rest : Text} (hSpaces : Spaces b) (hEnd : EndsNumber rest) : EndsNumber (b ++ rest) := by
  cases b with
  | nil => exact hEnd
  | cons ch b =>
    rintro ch ⟨⟩
    exact isspace_ends (hSpaces ch (.head _))

theorem endsNumber_cons (rest : Text)
    (h : isDigit ch = false ∧ ch ≠ '.' ∧ ch ≠ 'e' ∧ ch ≠ 'E' := by decide) : EndsNumber (ch :: rest) := by
  rintro ch ⟨⟩
  exact h

theorem skipSpaces_to {a : Text} (hSpaces : Spaces a) (hStop : isspace ch = false) (rest : Text) :
    skipSpaces (some (a ++ ch :: rest)) = .ok ⟨⟩ (some (ch :: rest)) := by
  apply skipSpaces_append hSpaces
  rintro ch ⟨⟩
  exact hStop

theorem string_head {s : Text} (h : IsString asciiOnly s t) : ∃ t', t = '"' :: t' := by
  obtain ⟨hChars⟩ := h
  exact ⟨_, rfl⟩

theorem number_head {x : ν} (h : IsNumber d x t) : ∃ ch t', t = ch :: t' ∧ (ch = '-' ∨ isDigit ch) := by
  obtain ⟨hSign, hInteger, hFraction, hExponent⟩ := h
  rename_i f e
  cases hSign with
  | plus =>
    obtain ⟨ch, t', hText, hDigit⟩ := integer_head hInteger (f ++ e)
    exact ⟨ch, t', hText, .inr hDigit⟩
  | minus => exact ⟨'-', _, rfl, .inl rfl⟩

theorem number_start (h : ch = '-' ∨ isDigit ch) :
    isspace ch = false ∧ ch ≠ '\x7b' ∧ ch ≠ '[' ∧ ch ≠ '"' ∧ ch ≠ ']' := by
  obtain rfl | hDigit := h
  · decide
  refine ⟨?_, ?_, ?_, ?_, ?_⟩
  · by_contra hSpace
    rw [Bool.not_eq_false] at hSpace
    rw [(isspace_ends hSpace).1] at hDigit
    cases hDigit
  all_goals
    rintro rfl
    exact absurd hDigit (by decide)

theorem value_head (h : IsValue d asciiOnly v t) :
    ∃ ch t', t = ch :: t' ∧ isspace ch = false ∧ ch ≠ ']' := by
  cases h with
  | null | true | false => exact ⟨_, _, rfl, by decide⟩
  | number hNumber =>
    obtain ⟨ch, t', rfl, hStart⟩ := number_head hNumber
    obtain ⟨hSpace, -, -, -, hClose⟩ := number_start hStart
    exact ⟨ch, t', rfl, hSpace, hClose⟩
  | string hString =>
    obtain ⟨t', rfl⟩ := string_head hString
    exact ⟨_, _, rfl, by decide⟩
  | emptyArray | array | emptyObject | object => exact ⟨_, _, rfl, by decide⟩

theorem skipSpaces_value {a : Text} (hSpaces : Spaces a) (h : IsValue d asciiOnly v t)
    (rest : Text) : skipSpaces (some (a ++ (t ++ rest))) = .ok ⟨⟩ (some (t ++ rest)) := by
  obtain ⟨ch, t', rfl, hStop, -⟩ := value_head h
  exact skipSpaces_to hSpaces hStop (t' ++ rest)

theorem items_head {items : List (JsonValue ν)} (h : IsItems d asciiOnly items t) :
    ∃ a ch t', t = a ++ ch :: t' ∧ Spaces a ∧ isspace ch = false ∧ ch ≠ ']' ∧ IsItems d asciiOnly items (ch :: t') := by
  cases h with
  | @last item a v b hBefore hItem hAfter =>
    obtain ⟨ch, v, rfl, hSpace, hClose⟩ := value_head hItem
    exact ⟨a, ch, v ++ b, rfl, hBefore, hSpace, hClose, .last spaces_nil hItem hAfter⟩
  | @more item items a v b t hBefore hItem hAfter hItems =>
    obtain ⟨ch, v, rfl, hSpace, hClose⟩ := value_head hItem
    exact ⟨a, ch, v ++ (b ++ ',' :: t), rfl, hBefore, hSpace, hClose, .more spaces_nil hItem hAfter hItems⟩

theorem entries_head {entries : List (Text × JsonValue ν)} (h : IsEntries d asciiOnly entries t) :
    ∃ a t', t = a ++ '"' :: t' ∧ Spaces a ∧ IsEntries d asciiOnly entries ('"' :: t') := by
  cases h with
  | @last key value a k b c v e hBefore hKey hColon hSpaces hValue hAfter =>
    obtain ⟨k, rfl⟩ := string_head hKey
    exact ⟨a, _, rfl, hBefore, .last spaces_nil hKey hColon hSpaces hValue hAfter⟩
  | @more key value entries a k b c v e t hBefore hKey hColon hSpaces hValue hAfter hEntries =>
    obtain ⟨k, rfl⟩ := string_head hKey
    exact ⟨a, _, rfl, hBefore, .more spaces_nil hKey hColon hSpaces hValue hAfter hEntries⟩

section Loops

variable {p : Parser (JsonValue ν)} {depth : Nat}
  (hParse : ∀ {v : JsonValue ν} {t : Text}, IsValue d asciiOnly v t → t.length < depth → ∀ {rest : Text},
    EndsNumber rest → p (some (t ++ rest)) = .ok v (some rest))
include hParse

variable {t : Text}

theorem arrayLoop_items {items : List (JsonValue ν)} (h : IsItems d asciiOnly items t)
    (hDepth : t.length < depth) {rounds : Nat} (hRounds : t.length < rounds) (before : List (JsonValue ν))
    (rest : Text) :
    arrayLoop p rounds before (some (t ++ ']' :: rest)) = .ok (.array (before ++ items)) (some rest) := by
  induction items generalizing t rounds before with
  | nil => cases h
  | cons item items ih =>
    cases rounds with
    | zero => exact absurd hRounds (Nat.not_lt_zero _)
    | succ rounds =>
      rw [arrayLoop]
      cases h with
      | @last _ a v b hBefore hItem hAfter =>
        simp only [length_append] at hDepth
        simp only [append_assoc]
        rw [bind_ok (skipSpaces_value hBefore hItem _),
          bind_ok (hParse hItem (by omega) (endsNumber_spaces hAfter (endsNumber_cons rest))),
          bind_ok (skipSpaces_to hAfter rfl rest), bind_ok (deref_cons _ _), if_pos rfl, bind_ok (advance_one _ _)]
        rfl
      | @more _ _ a v b t hBefore hItem hAfter hItems =>
        simp only [length_append, length_cons] at hDepth hRounds
        simp only [append_assoc, cons_append]
        rw [bind_ok (skipSpaces_value hBefore hItem _),
          bind_ok (hParse hItem (by omega) (endsNumber_spaces hAfter (endsNumber_cons _))),
          bind_ok (skipSpaces_to hAfter rfl _), bind_ok (deref_cons _ _), if_neg (by decide), if_neg (not_not.mpr rfl),
          bind_ok (advance_one _ _), ih hItems (by omega) (by omega), append_assoc]
        rfl

theorem objectLoop_entries {entries : List (Text × JsonValue ν)} (h : IsEntries d asciiOnly entries t)
    (hDepth : t.length < depth) {rounds : Nat} (hRounds : t.length < rounds) (before : List (Text × JsonValue ν))
    (rest : Text) :
    objectLoop p rounds before (some (t ++ '\x7d' :: rest)) = .ok (.object (before ++ entries)) (some rest) := by
  induction entries generalizing t rounds before with
  | nil => cases h
  | cons entry entries ih =>
    cases rounds with
    | zero => exact nomatch hRounds
    | succ rounds =>
      rw [objectLoop]
      cases h with
      | @last key value a k b c v e hBefore hKey hColon hSpaces hValue hAfter =>
        obtain ⟨k', rfl⟩ := string_head hKey
        simp only [length_append, length_cons] at hDepth
        simp only [append_assoc, cons_append]
        rw [bind_ok (skipSpaces_to hBefore rfl _), deref_bind, if_neg (not_not.mpr rfl), ← cons_append,
          bind_ok (parseStringRaw_string hKey _), bind_ok (skipSpaces_to hColon rfl _), deref_bind,
          if_neg (not_not.mpr rfl), advance_bind, bind_ok (skipSpaces_value hSpaces hValue _),
          bind_ok (hParse hValue (by omega) (endsNumber_spaces hAfter (endsNumber_cons rest))),
          bind_ok (skipSpaces_to hAfter rfl rest), deref_bind, if_pos rfl, advance_bind]
        rfl
      | @more key value _ a k b c v e t hBefore hKey hColon hSpaces hValue hAfter hEntries =>
        obtain ⟨k', rfl⟩ := string_head hKey
        simp only [length_append, length_cons] at hDepth hRounds
        simp only [append_assoc, cons_append]
        rw [bind_ok (skipSpaces_to hBefore rfl _), deref_bind, if_neg (not_not.mpr rfl), ← cons_append,
          bind_ok (parseStringRaw_string hKey _), bind_ok (skipSpaces_to hColon rfl _), deref_bind,
          if_neg (not_not.mpr rfl), advance_bind, bind_ok (skipSpaces_value hSpaces hValue _),
          bind_ok (hParse hValue (by omega) (endsNumber_spaces hAfter (endsNumber_cons _))),
          bind_ok (skipSpaces_to hAfter rfl _), deref_bind, if_neg (by decide), if_neg (not_not.mpr rfl), advance_bind,
          ih hEntries (by omega) (by omega), append_assoc]
        rfl

theorem parseArray_items {items : List (JsonValue ν)} (h : IsItems d asciiOnly items t)
    (hDepth : t.length < depth) (rest : Text) :
    parseArray p (some ('[' :: (t ++ ']' :: rest))) = .ok (.array items) (some rest) := by
  obtain ⟨a, ch, t, rfl, hSpaces, hStop, hClose, hItems⟩ := items_head h
  rw [length_append] at hDepth
  rw [parseArray, deref_bind, if_neg (not_not.mpr rfl), advance_bind]
  simp only [append_assoc, cons_append]
  rw [bind_ok (skipSpaces_to hSpaces hStop _), deref_bind, if_neg hClose, bind_ok here_eq, ← cons_append]
  refine arrayLoop_items hParse hItems (by omega) ?_ [] rest
  rw [TextCursor.rounds, Option.elim_some, length_append]
  omega

theorem parseObject_entries {entries : List (Text × JsonValue ν)} (h : IsEntries d asciiOnly entries t)
    (hDepth : t.length < depth) (rest : Text) :
    parseObject p (some ('\x7b' :: (t ++ '\x7d' :: rest))) = .ok (.object entries) (some rest) := by
  obtain ⟨a, t, rfl, hSpaces, hEntries⟩ := entries_head h
  rw [length_append] at hDepth
  rw [parseObject, deref_bind, if_neg (not_not.mpr rfl), advance_bind]
  simp only [append_assoc, cons_append]
  rw [bind_ok (skipSpaces_to hSpaces rfl _), deref_bind, if_neg (by decide), bind_ok here_eq, ← cons_append]
  refine objectLoop_entries hParse hEntries (by omega) ?_ [] rest
  rw [TextCursor.rounds, Option.elim_some, length_append]
  omega

end Loops

theorem parseArray_empty (p : Parser (JsonValue ν)) {w : Text} (hSpaces : Spaces w) (rest : Text) :
    parseArray p (some ('[' :: (w ++ ']' :: rest))) = .ok (.array []) (some rest) := by
  rw [parseArray, deref_bind, if_neg (not_not.mpr rfl), advance_bind,
    bind_ok (skipSpaces_to hSpaces rfl _), deref_bind, if_pos rfl, advance_bind]
  rfl

theorem parseObject_empty (p : Parser (JsonValue ν)) {w : Text} (hSpaces : Spaces w) (rest : Text) :
    parseObject p (some ('\x7b' :: (w ++ '\x7d' :: rest))) = .ok (.object []) (some rest) := by
  rw [parseObject, deref_bind, if_neg (not_not.mpr rfl), advance_bind,
    bind_ok (skipSpaces_to hSpaces rfl _), deref_bind, if_pos rfl, advance_bind]
  rfl

theorem startsWith_word (word : Text) (hText : nul ∉ word) (rest : Text) :
    (startsWith word 0 : Parser Bool) (some (word ++ rest)) = .ok true (some (word ++ rest)) := by
  rw [startsWith_eq hText (Nat.zero_le _), List.drop_zero, decide_eq_true (List.prefix_append word rest)]

theorem advance_word (word rest : Text) {n : Nat} (hLength : word.length = n) :
    (advance n : Parser PUnit) (some (word ++ rest)) = .ok ⟨⟩ (some rest) := by
  rw [← hLength, advance_append]

theorem parseLiteral_word (rest : Text)
    (h : v = .null ∧ t = ['n', 'u', 'l', 'l'] ∨ v = .bool true ∧ t = ['t', 'r', 'u', 'e'] ∨
      v = .bool false ∧ t = ['f', 'a', 'l', 's', 'e']) : parseLiteral (some (t ++ rest)) = .ok v (some rest) := by
  obtain ⟨rfl, rfl⟩ | ⟨rfl, rfl⟩ | ⟨rfl, rfl⟩ := h
  · rw [parseLiteral, bind_ok (startsWith_word _ (by decide) rest), if_pos rfl,
      bind_ok (advance_word ['n', 'u', 'l', 'l'] rest (n := 4) rfl)]
    rfl
  · have hNull : (startsWith ['n', 'u', 'l', 'l'] 0 : Parser Bool) (some (['t', 'r', 'u', 'e'] ++ rest)) =
        .ok false (some (['t', 'r', 'u', 'e'] ++ rest)) := rfl
    rw [parseLiteral, bind_ok hNull, if_neg (by decide), bind_ok (startsWith_word _ (by decide) rest), if_pos rfl,
      bind_ok (advance_word ['t', 'r', 'u', 'e'] rest (n := 4) rfl)]
    rfl
  · have hNull : (startsWith ['n', 'u', 'l', 'l'] 0 : Parser Bool) (some (['f', 'a', 'l', 's', 'e'] ++ rest)) =
        .ok false (some (['f', 'a', 'l', 's', 'e'] ++ rest)) := rfl
    have hTrue : (startsWith ['t', 'r', 'u', 'e'] 0 : Parser Bool) (some (['f', 'a', 'l', 's', 'e'] ++ rest)) =
        .ok false (some (['f', 'a', 'l', 's', 'e'] ++ rest)) := rfl
    rw [parseLiteral, bind_ok hNull, if_neg (by decide), bind_ok hTrue, if_neg (by decide),
      bind_ok (startsWith_word _ (by decide) rest), if_pos rfl,
      bind_ok (advance_word ['f', 'a', 'l', 's', 'e'] rest (n := 5) rfl)]
    rfl

theorem parseValue_value {depth : Nat} (h : IsValue d asciiOnly v t)
    (hDepth : t.length < depth) {rest : Text} (hEnd : EndsNumber rest) :
    parseValue d depth (some (t ++ rest)) = .ok v (some rest) := by
  induction depth generalizing v t rest with
  | zero => exact nomatch hDepth
  | succ depth ih =>
    have hSkip := skipSpaces_value spaces_nil h rest
    rw [nil_append] at hSkip
    rw [parseValue, bind_ok hSkip]
    cases h with
    | null => exact parseLiteral_word rest (.inl ⟨rfl, rfl⟩)
    | true => exact parseLiteral_word rest (.inr (.inl ⟨rfl, rfl⟩))
    | false => exact parseLiteral_word rest (.inr (.inr ⟨rfl, rfl⟩))
    | number hNumber =>
      obtain ⟨ch, t', hText, hStart⟩ := number_head hNumber
      obtain ⟨-, hBrace, hBracket, hQuote, -⟩ := number_start hStart
      have hFirst : (deref : Parser Char) (some (t ++ rest)) = .ok ch (some (t ++ rest)) := by
        rw [hText, cons_append, deref_cons]
      rw [bind_ok hFirst, if_neg hBrace, if_neg hBracket, if_neg hQuote, if_pos hStart]
      exact parseNumber_number hNumber hEnd
    | string hString =>
      obtain ⟨t', rfl⟩ := string_head hString
      have hRaw := parseStringRaw_string hString rest
      rw [cons_append] at hRaw ⊢
      rw [deref_bind, if_neg (by decide), if_neg (by decide), if_pos rfl, parseStringValue, bind_ok hRaw]
      rfl
    | emptyArray hSpaces =>
      simp only [cons_append, append_assoc, nil_append]
      rw [deref_bind, if_neg (by decide), if_pos rfl]
      exact parseArray_empty _ hSpaces rest
    | array hItems =>
      simp only [length_cons, length_append] at hDepth
      simp only [cons_append, append_assoc, nil_append]
      rw [deref_bind, if_neg (by decide), if_pos rfl]
      exact parseArray_items ih hItems (by omega) rest
    | emptyObject hSpaces =>
      simp only [cons_append, append_assoc, nil_append]
      rw [deref_bind, if_pos rfl]
      exact parseObject_empty _ hSpaces rest
    | object hEntries =>
      simp only [length_cons, length_append] at hDepth
      simp only [cons_append, append_assoc, nil_append]
      rw [deref_bind, if_pos rfl]
      exact parseObject_entries ih hEntries (by omega) rest

theorem parses_document (d : Double ν) (hText : nul ∉ text) :
    Parses (parseDocument d) text fun root u rest => rest = [] ∧ IsDocument d asciiOnly root u := by
  rw [parseDocument]
  apply (parses_skipSpaces text).bind
  rintro _ a r₁ hText₁ hBefore
  apply Reads.here
  apply (parses_value d (lt_add_one _)).bind
  rintro root u r₂ hText₂ ⟨a', v, rfl, hSpaces, hValue⟩
  apply (parses_skipSpaces r₂).bind
  rintro _ b r₃ hText₃ hAfter
  apply Reads.deref
  by_cases hNul : r₃.headD nul ≠ nul
  · rw [if_pos hNul]
    exact .fail nofun
  rw [if_neg hNul]
  cases r₃ with
  | nil =>
    refine .pure ⟨rfl, ?_⟩
    have hDocument := IsDocument.text (spaces_append hBefore hSpaces) hValue hAfter
    simp only [append_assoc, append_nil] at hDocument ⊢
    exact hDocument
  | cons ch rest =>
    refine absurd ?_ hText
    rw [hText₁, hText₂, hText₃, ← not_not.mp hNul, List.headD_cons]
    simp only [List.mem_append, List.mem_cons, true_or, or_true]

theorem parseDocument_document {root : JsonValue ν} (h : IsDocument d asciiOnly root text) :
    parseDocument d (some text) = .ok root (some []) := by
  obtain ⟨hBefore, hValue, hAfter⟩ := h
  rename_i a v b
  have hEnd : EndsNumber b := by
    rw [← append_nil b]
    exact endsNumber_spaces hAfter nofun
  have hDepth : v.length < TextCursor.rounds (some (v ++ b)) := by
    rw [TextCursor.rounds, Option.elim_some, length_append]
    omega
  have hParse := parseValue_value hValue hDepth hEnd
  have hSkip := skipSpaces_append (r := []) hAfter nofun
  rw [append_nil] at hSkip
  rw [parseDocument, bind_ok (skipSpaces_value hBefore hValue b), bind_ok here_eq, bind_ok hParse, bind_ok hSkip,
    bind_ok deref_nil, if_neg (not_not.mpr rfl)]
  rfl

theorem parseJson_document {root : JsonValue ν} (h : IsDocument d asciiOnly root text) :
    parseJson d text = some (.ok, some root) := by
  rw [parseJson, parseDocument_document h]

theorem parseJson_cases (d : Double ν) (hText : nul ∉ text) :
    (∃ root, parseJson d text = some (.ok, some root) ∧ IsDocument d asciiOnly root text) ∨
      ∃ e, e ≠ .ok ∧ parseJson d text = some (e, none) := by
  have hParses := parses_document d hText
  rw [Parses, Reads] at hParses
  rw [parseJson]
  cases hRun : parseDocument d (some text) with
  | ok root c =>
    rw [hRun] at hParses
    obtain ⟨u, rest, rfl, -, rfl, hDocument⟩ := hParses
    rw [append_nil]
    exact .inl ⟨root, rfl, hDocument⟩
  | error e =>
    rw [hRun] at hParses
    exact .inr ⟨e, hParses, rfl⟩
  | fault =>
    rw [hRun] at hParses
    exact hParses.elim
  | spent =>
    rw [hRun] at hParses
    exact hParses.elim

/-- The parser succeeds on the JSON texts and returns what they stand for, and it fails without a document on the
others. -/
theorem parseJson_accepts (d : Double ν) {text : Text} (hText : nul ∉ text) :
    (∀ root, parseJson d text = some (.ok, some root) ↔ IsDocument d asciiOnly root text) ∧
      ((∀ root, ¬ IsDocument d asciiOnly root text) → ∃ e, e ≠ .ok ∧ parseJson d text = some (e, none)) := by
  obtain ⟨v, hRun, hDocument⟩ | ⟨e, hError, hRun⟩ := parseJson_cases d hText
  · refine ⟨fun root => ⟨fun h => ?_, parseJson_document⟩, fun hNone => absurd hDocument (hNone v)⟩
    rw [hRun] at h
    injection h with h
    injection h with _ h
    injection h with h
    rw [← h]
    exact hDocument
  · refine ⟨fun root => ⟨fun h => ?_, parseJson_document⟩, fun _ => ⟨e, hError, hRun⟩⟩
    rw [hRun] at h
    cases h

def unitDouble : Double Unit where
  ofInt := fun _ => ()
  add := fun _ _ => ()
  mul := fun _ _ => ()
  div := fun _ _ => ()
  neg := fun _ => ()

/-- A string in an array. -/
theorem parseJson_accepts_nested :
    (∀ root, parseJson unitDouble ['[', '"', 'a', '"', ']'] = some (.ok, some root) ↔
        IsDocument unitDouble asciiOnly root ['[', '"', 'a', '"', ']']) ∧
      ((∀ root, ¬ IsDocument unitDouble asciiOnly root ['[', '"', 'a', '"', ']']) →
        ∃ e, e ≠ .ok ∧ parseJson unitDouble ['[', '"', 'a', '"', ']'] = some (e, none)) :=
  parseJson_accepts unitDouble (by decide)

/-- An escape beyond ASCII is stored as a question mark, not as the character it stands for. -/
theorem parseJson_beyond_ascii :
    IsDocument unitDouble utf8 (.string (utf8 0xE9)) ['"', '\\', 'u', '0', '0', 'E', '9', '"'] ∧
      parseJson unitDouble ['"', '\\', 'u', '0', '0', 'E', '9', '"'] = some (.ok, some (.string ['?'])) ∧
      utf8 0xE9 ≠ ['?'] := by
  refine ⟨?_, rfl, by decide⟩
  have hChars : Chars utf8 (utf8 0xE9 ++ []) ['\\', 'u', '0', '0', 'E', '9'] := .codepoint rfl .nil
  exact .text (a := []) (b := []) spaces_nil (.string (.quoted hChars)) spaces_nil

/-! # Keys of objects

A string that has been parsed is compared as far as its first NUL, and an escape can put one anywhere. So a key can be
taken for another.
-/

open TextCursor
open Krlibc (Byte CString strcmp)

variable {ν : Type} {s t a b : Text} {key : CString} {entries : List (Text × JsonValue ν)}

def encode (s : Text) : List Byte := s.map fun ch => BitVec.ofNat 8 ch.toNat

def cString (buffer : Text) : CString where
  bytes := (encode buffer).takeWhile (· ≠ Krlibc.nul)
  nulFree h := by simpa using List.mem_takeWhile_imp h

/-- The loop of `xapi_jsonObjectGet`. A value is named by the place of its entry. -/
def getLoop (key : CString) : Nat → List (Text × JsonValue ν) → Option Nat
  | _, [] => none
  | i, entry :: rest =>
    if strcmp (cString entry.1).bytes key.bytes = 0 then some i else getLoop key (i + 1) rest

def objectGet (objectValue : Option (JsonValue ν)) (key : Option CString) : Option Nat :=
  match objectValue, key with
  | some (.object entries), some key => getLoop key 0 entries
  | _, _ => none

inductive AsciiChars : Text → Text → Prop
  | nil : AsciiChars [] []
  | unescaped {ch : Char} {s t : Text} (hControl : 0x20 ≤ ch.toNat) (hQuote : ch ≠ '"') (hEscape : ch ≠ '\\')
      (rest : AsciiChars s t) : AsciiChars (ch :: s) (ch :: t)
  | escaped {e ch : Char} {s t : Text} (hEscape : decodeEscape e = some ch) (rest : AsciiChars s t) :
      AsciiChars (ch :: s) ('\\' :: e :: t)
  | codepoint {a b c d : Char} {n : Nat} {s t : Text} (hDigits : hexDigits a b c d = some n) (hAscii : n ≤ 0x7F)
      (rest : AsciiChars s t) : AsciiChars (Char.ofNat n :: s) ('\\' :: 'u' :: a :: b :: c :: d :: t)

inductive IsAsciiString (s : Text) : Text → Prop
  | quoted {t : Text} (chars : AsciiChars s t) : IsAsciiString s ('"' :: (t ++ ['"']))

theorem AsciiChars.chars (h : AsciiChars s t) : Chars asciiOnly s t := by
  induction h with
  | nil => exact .nil
  | unescaped hControl hQuote hEscape _ ih => exact .unescaped hControl hQuote hEscape ih
  | escaped hEscape _ ih => exact .escaped hEscape ih
  | @codepoint a b c d n s t hDigits hAscii _ ih =>
    have hChars : Chars asciiOnly (asciiOnly n ++ s) ('\\' :: 'u' :: a :: b :: c :: d :: t) := .codepoint hDigits ih
    rw [asciiOnly, decodeUnicode, if_pos hAscii] at hChars
    exact hChars

theorem IsAsciiString.parses (h : IsAsciiString s t) : parseStringRaw (some t) = .ok s (some []) := by
  obtain ⟨hChars⟩ := h
  have hParse := parseStringRaw_string (.quoted hChars.chars) []
  rwa [List.append_nil] at hParse

theorem strcmp_eq_zero_iff {s1 s2 : List Byte} : strcmp s1 s2 = 0 ↔ s1 = s2 := by
  induction s1 generalizing s2 with
  | nil => cases s2 <;> simp [strcmp]
  | cons c s1 ih =>
    cases s2 with
    | nil => simp [strcmp]
    | cons d s2 =>
      rw [strcmp]
      split
      next hDiffer =>
        have hValue : Krlibc.charValue c ≠ Krlibc.charValue d := fun hSame =>
          hDiffer (Krlibc.charValue_injective hSame)
        exact ⟨fun hZero => absurd (Int.sub_eq_zero.mp hZero) hValue,
          fun hSame => absurd (List.cons.inj hSame).1 hDiffer⟩
      next hSame =>
        obtain rfl := not_not.mp hSame
        rw [ih, List.cons.injEq, and_iff_right rfl]

def Ends (p s : List Byte) : Prop := s = p ∨ p ++ [Krlibc.nul] <+: s

theorem takeWhile_eq_iff {p s : List Byte} (hNul : Krlibc.nul ∉ p) : s.takeWhile (· ≠ Krlibc.nul) = p ↔ Ends p s := by
  induction s generalizing p with
  | nil => simp [Ends]
  | cons c s ih =>
    cases p with
    | nil => by_cases hc : c = Krlibc.nul <;> simp [Ends, hc, Ne.symm]
    | cons d p =>
      have hd : d ≠ Krlibc.nul := fun h => hNul (h ▸ (.head _))
      by_cases hc : c = Krlibc.nul
      · simp [Ends, hc, hd, Ne.symm hd]
      · have hRest := ih (p := p) fun h => hNul (.tail d h)
        rw [List.takeWhile_cons_of_pos (by simpa using hc), List.cons.injEq, hRest, Ends, Ends, List.cons_append,
          List.cons.injEq, List.cons_prefix_cons, eq_comm (a := d), ← and_or_left]

theorem cString_eq_iff : strcmp (cString s).bytes key.bytes = 0 ↔ Ends key.bytes (encode s) :=
  strcmp_eq_zero_iff.trans (takeWhile_eq_iff key.nulFree)

def Apart (s t : Text) : Prop := ∀ p : CString, Ends p.bytes (encode s) → Ends p.bytes (encode t) → s = t

theorem strcmp_apart_iff (s t : Text) : (strcmp (cString s).bytes (cString t).bytes = 0 ↔ s = t) ↔ Apart s t := by
  constructor
  · intro hSame p hs ht
    have hCut : (cString s).bytes = (cString t).bytes :=
      ((takeWhile_eq_iff p.nulFree).mpr hs).trans ((takeWhile_eq_iff p.nulFree).mpr ht).symm
    exact hSame.mp (strcmp_eq_zero_iff.mpr hCut)
  · intro hApart
    constructor
    · intro hZero
      exact hApart (cString t) (cString_eq_iff.mp hZero) ((takeWhile_eq_iff (cString t).nulFree).mp rfl)
    · rintro rfl
      exact strcmp_eq_zero_iff.mpr rfl

theorem getLoop_eq (key : CString) (i : Nat) (entries : List (Text × JsonValue ν)) : getLoop key i entries =
      (entries.findIdx? fun entry => strcmp (cString entry.1).bytes key.bytes = 0).map (· + i) := by
  induction entries generalizing i with
  | nil => rfl
  | cons entry rest ih =>
    rw [getLoop, List.findIdx?_cons]
    by_cases hFound : strcmp (cString entry.1).bytes key.bytes = 0
    · simp [hFound]
    · simp only [hFound, if_false, decide_false, Bool.false_eq_true, ih, Option.map_map]
      congr 1
      funext j
      simp only [Function.comp_apply]
      omega

theorem findIdx?_eq_iff {α : Type} {p q : α → Bool} {l : List α} (h : ∀ x, q x → p x) :
    l.findIdx? p = l.findIdx? q ↔ ∀ x ∈ l.takeWhile (!q ·), p x = false := by
  induction l with
  | nil => simp
  | cons x l ih =>
    rw [List.findIdx?_cons, List.findIdx?_cons]
    cases hq : q x with
    | true => simp [h x hq, hq]
    | false =>
      rw [List.takeWhile_cons_of_pos (by simp [hq])]
      cases hp : p x with
      | true =>
        simp only [if_true, Bool.false_eq_true, if_false, List.mem_cons, forall_eq_or_imp, hp, Bool.true_eq_false,
          false_and, iff_false]
        cases l.findIdx? q <;> simp
      | false =>
        simp only [Bool.false_eq_true, if_false, List.mem_cons, forall_eq_or_imp, hp, true_and, ← ih]
        exact (Option.map_injective fun _ _ => Nat.succ_injective.eq_iff.mp).eq_iff

def HasKey (key : CString) (entry : Text × JsonValue ν) : Bool := encode entry.1 = key.bytes

theorem objectGet_eq_iff (entries : List (Text × JsonValue ν)) (key : CString) :
    objectGet (some (.object entries)) (some key) = entries.findIdx? (HasKey key) ↔
      ∀ entry ∈ entries.takeWhile (!HasKey key ·), ¬ key.bytes ++ [Krlibc.nul] <+: encode entry.1 := by
  have hLoop := getLoop_eq key 0 entries
  simp only [add_zero, Option.map_id'] at hLoop
  rw [objectGet, hLoop, findIdx?_eq_iff]
  · refine forall₂_congr fun entry hEntry => ?_
    have hOther : encode entry.1 ≠ key.bytes := by simpa [HasKey] using List.mem_takeWhile_imp hEntry
    rw [decide_eq_false_iff_not, cString_eq_iff, Ends, or_iff_right hOther]
  · intro entry hKey
    exact decide_eq_true (cString_eq_iff.mpr (.inl (of_decide_eq_true hKey)))

/-- The strings that are stored are compared as equal exactly if they are the same. -/
def KeptApart (s t a b : Text) : Prop :=
  ∃ x y, parseStringRaw (some a) = .ok x (some []) ∧ parseStringRaw (some b) = .ok y (some []) ∧
    (strcmp (cString x).bytes (cString y).bytes = 0 ↔ s = t)

/-- Keys are kept apart exactly as far as no NUL ends them earlier. -/
theorem keys_kept_apart_iff (ha : IsAsciiString s a) (hb : IsAsciiString t b) (entries : List (Text × JsonValue ν))
    (key : CString) :
    (KeptApart s t a b ↔ Apart s t) ∧
      (objectGet (some (.object entries)) (some key) = entries.findIdx? (HasKey key) ↔
        ∀ entry ∈ entries.takeWhile (!HasKey key ·), ¬ key.bytes ++ [Krlibc.nul] <+: encode entry.1) := by
  refine ⟨?_, objectGet_eq_iff entries key⟩
  rw [← strcmp_apart_iff]
  constructor
  · rintro ⟨x, y, hx, hy, hSame⟩
    rw [ha.parses] at hx
    rw [hb.parses] at hy
    cases hx
    cases hy
    exact hSame
  · exact fun hSame => ⟨s, t, ha.parses, hb.parses, hSame⟩

/-- Two keys without a NUL, of which the second one is looked up. -/
theorem keys_kept_apart_plain :
    (KeptApart ['k'] ['l'] ['"', 'k', '"'] ['"', 'l', '"'] ↔ Apart ['k'] ['l']) ∧
      (objectGet (some (.object [(['k'], .bool true), (['l'], (.null : JsonValue Unit))])) (some (cString ['l'])) =
          List.findIdx? (HasKey (cString ['l'])) [(['k'], .bool true), (['l'], (.null : JsonValue Unit))] ↔
        ∀ entry ∈ List.takeWhile (!HasKey (cString ['l']) ·) [(['k'], .bool true), (['l'], (.null : JsonValue Unit))],
          ¬ (cString ['l']).bytes ++ [Krlibc.nul] <+: encode entry.1) := by
  have hk : AsciiChars ['k'] ['k'] := .unescaped (by decide) (by decide) (by decide) .nil
  have hl : AsciiChars ['l'] ['l'] := .unescaped (by decide) (by decide) (by decide) .nil
  exact keys_kept_apart_iff (.quoted hk) (.quoted hl) _ _

/-- `a` with a NUL and another letter behind it is taken for `a`. -/
theorem nul_merges_keys :
    IsAsciiString ['a', nul, 'b'] ['"', 'a', '\\', 'u', '0', '0', '0', '0', 'b', '"'] ∧
      IsAsciiString ['a'] ['"', 'a', '"'] ∧
      ¬KeptApart ['a', nul, 'b'] ['a'] ['"', 'a', '\\', 'u', '0', '0', '0', '0', 'b', '"'] ['"', 'a', '"'] ∧
      objectGet (some (.object [(['a', nul, 'b'], .bool true), (['a'], (.null : JsonValue Unit))]))
        (some (cString ['a'])) = some 0 ∧
      List.findIdx? (HasKey (cString ['a'])) [(['a', nul, 'b'], .bool true), (['a'], (.null : JsonValue Unit))] =
        some 1 := by
  have hEmpty : AsciiChars ['b'] ['b'] := .unescaped (by decide) (by decide) (by decide) .nil
  have hNul : AsciiChars [nul, 'b'] ['\\', 'u', '0', '0', '0', '0', 'b'] := .codepoint rfl (by decide) hEmpty
  have hFirst : IsAsciiString ['a', nul, 'b'] ['"', 'a', '\\', 'u', '0', '0', '0', '0', 'b', '"'] :=
    .quoted (.unescaped (by decide) (by decide) (by decide) hNul)
  have hSecond : IsAsciiString ['a'] ['"', 'a', '"'] :=
    .quoted (.unescaped (by decide) (by decide) (by decide) .nil)
  refine ⟨hFirst, hSecond, ?_, by decide, by decide⟩
  rintro ⟨x, y, hx, hy, hSame⟩
  rw [hFirst.parses] at hx
  rw [hSecond.parses] at hy
  cases hx
  cases hy
  exact absurd (hSame.mp (by decide)) (by decide)

end OpenXJ380.Json
