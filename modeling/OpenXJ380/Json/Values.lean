import OpenXJ380.Json.Strings

/-! # Reading values -/

namespace OpenXJ380.Json

open List (append_assoc cons_append length_append length_cons)

open TextCursor

variable {ν : Type} {d : Double ν}

theorem length_rest {r u rest : Text} (h : r = u ++ rest) : rest.length ≤ r.length := by
  rw [h, length_append]
  omega

theorem parses_word (word rest : Text) : Parses (advance word.length) (word ++ rest) fun _ u _ => u = word := by
  rw [Parses, Reads, advance_append]
  exact ⟨word, rest, rfl, rfl, rfl⟩

theorem parses_literal (d : Double ν) (r : Text) : Parses parseLiteral r fun v u _ => IsValue d asciiOnly v u := by
  rw [parseLiteral]
  apply (reads_startsWith (by decide)).bind
  rintro isNull u rest _ ⟨rfl, rfl, hNull⟩
  cases isNull with
  | true =>
    obtain ⟨rest, rfl⟩ := of_decide_eq_true hNull.symm
    apply (parses_word ['n', 'u', 'l', 'l'] rest).bind
    rintro _ u rest _ rfl
    exact .pure .null
  | false =>
    apply (reads_startsWith (by decide)).bind
    rintro isTrue u rest _ ⟨rfl, rfl, hTrue⟩
    cases isTrue with
    | true =>
      obtain ⟨rest, rfl⟩ := of_decide_eq_true hTrue.symm
      apply (parses_word ['t', 'r', 'u', 'e'] rest).bind
      rintro _ u rest _ rfl
      exact .pure .true
    | false =>
      apply (reads_startsWith (by decide)).bind
      rintro isFalse u rest _ ⟨rfl, rfl, hFalse⟩
      cases isFalse with
      | true =>
        obtain ⟨rest, rfl⟩ := of_decide_eq_true hFalse.symm
        apply (parses_word ['f', 'a', 'l', 's', 'e'] rest).bind
        rintro _ u rest _ rfl
        exact .pure .false
      | false => exact .fail nofun

theorem parses_stringValue (d : Double ν) (r : Text) :
    Parses parseStringValue r fun v u _ => IsValue d asciiOnly v u := by
  rw [parseStringValue]
  apply (parses_stringRaw r).bind
  rintro s u rest _ hString
  refine .pure (.string ?_)
  rw [List.append_nil]
  exact hString

def ValueAfterSpaces (d : Double ν) (v : JsonValue ν) (u : Text) : Prop :=
  ∃ a t, u = a ++ t ∧ Spaces a ∧ IsValue d asciiOnly v t

/-! White space before the first item or member belongs to it. -/

theorem IsItems.after_spaces {items : List (JsonValue ν)} {t : Text} (h : IsItems d asciiOnly items t) {w : Text}
    (hSpaces : Spaces w) : IsItems d asciiOnly items (w ++ t) := by
  cases h with
  | @last item a v b hBefore hItem hAfter =>
    rw [← append_assoc]
    exact .last (spaces_append hSpaces hBefore) hItem hAfter
  | @more item items a v b t hBefore hItem hAfter hItems =>
    rw [← append_assoc]
    exact .more (spaces_append hSpaces hBefore) hItem hAfter hItems

theorem IsEntries.after_spaces {entries : List (Text × JsonValue ν)} {t : Text} (h : IsEntries d asciiOnly entries t)
    {w : Text} (hSpaces : Spaces w) : IsEntries d asciiOnly entries (w ++ t) := by
  cases h with
  | last hBefore hKey hColon hBeforeValue hValue hAfter =>
    rw [← append_assoc]
    exact .last (spaces_append hSpaces hBefore) hKey hColon hBeforeValue hValue hAfter
  | more hBefore hKey hColon hBeforeValue hValue hAfter hEntries =>
    rw [← append_assoc]
    exact .more (spaces_append hSpaces hBefore) hKey hColon hBeforeValue hValue hAfter hEntries

section Loops

variable {p : Parser (JsonValue ν)} {depth : Nat}
  (hParse : ∀ r : Text, r.length < depth → Parses p r fun v u _ => ValueAfterSpaces d v u)
include hParse

theorem parses_arrayLoop {rounds : Nat} {r : Text} (hRounds : r.length < rounds) (hDepth : r.length < depth)
    (items : List (JsonValue ν)) :
    Parses (arrayLoop p rounds items) r fun v u _ =>
      ∃ more t, v = .array (items ++ more) ∧ u = t ++ [']'] ∧ IsItems d asciiOnly more t := by
  induction rounds generalizing r items with
  | zero => exact absurd hRounds (Nat.not_lt_zero _)
  | succ rounds ih =>
    rw [arrayLoop]
    apply (parses_skipSpaces r).bind
    rintro _ a r₁ hText₁ hBefore
    apply (hParse r₁ (Nat.lt_of_le_of_lt (length_rest hText₁) hDepth)).bind
    rintro item u r₂ hText₂ ⟨a', v, rfl, hSpaces, hItem⟩
    apply (parses_skipSpaces r₂).bind
    rintro _ b r₃ hText₃ hAfter
    apply Reads.deref
    by_cases hClose : r₃.headD nul = ']'
    · obtain ⟨r₄, rfl⟩ := eq_cons_of_headD hClose (by decide)
      rw [if_pos hClose]
      apply Reads.advance_one
      refine Reads.pure ⟨[item], (a ++ a') ++ (v ++ b), rfl, ?_, .last (spaces_append hBefore hSpaces) hItem hAfter⟩
      simp only [append_assoc]
    rw [if_neg hClose]
    by_cases hComma : r₃.headD nul = ','
    · obtain ⟨r₄, rfl⟩ := eq_cons_of_headD hComma (by decide)
      rw [if_neg (not_not.mpr hComma)]
      apply Reads.advance_one
      have hLength : r₄.length < r.length := by
        rw [hText₁, hText₂, hText₃]
        simp only [length_append, length_cons]
        omega
      apply (ih (by omega) (by omega) (items ++ [item])).mono
      rintro w u rest _ ⟨more, t, rfl, rfl, hItems⟩
      refine ⟨item :: more, (a ++ a') ++ (v ++ (b ++ ',' :: t)), ?_, ?_,
        .more (spaces_append hBefore hSpaces) hItem hAfter hItems⟩
      · rw [append_assoc, List.singleton_append]
      · simp only [append_assoc, cons_append]
    · rw [if_pos hComma]
      exact Reads.fail nofun

theorem parses_array {r : Text} (hDepth : r.length ≤ depth) :
    Parses (parseArray p) r fun v u _ => IsValue d asciiOnly v u := by
  rw [parseArray]
  apply Reads.deref
  by_cases hOpen : r.headD nul = '['
  · obtain ⟨r, rfl⟩ := eq_cons_of_headD hOpen (by decide)
    rw [if_neg (not_not.mpr hOpen)]
    apply Reads.advance_one
    apply (parses_skipSpaces r).bind
    rintro _ w r₁ hText₁ hSpaces
    apply Reads.deref
    have hLength := length_rest hText₁
    rw [length_cons] at hDepth
    by_cases hClose : r₁.headD nul = ']'
    · obtain ⟨r₁, rfl⟩ := eq_cons_of_headD hClose (by decide)
      rw [if_pos hClose]
      apply Reads.advance_one
      exact Reads.pure (.emptyArray hSpaces)
    · rw [if_neg hClose]
      apply Reads.here
      apply (parses_arrayLoop hParse (Nat.lt_succ_self _) (by omega) []).mono
      rintro v u rest _ ⟨more, t, rfl, rfl, hItems⟩
      have hArray := IsValue.array (hItems.after_spaces hSpaces)
      rw [append_assoc] at hArray
      exact hArray
  · rw [if_pos hOpen]
    exact .fail nofun

theorem parses_objectLoop {rounds : Nat} {r : Text} (hRounds : r.length < rounds) (hDepth : r.length < depth)
    (entries : List (Text × JsonValue ν)) : Parses (objectLoop p rounds entries) r fun v u _ =>
      ∃ more t, v = .object (entries ++ more) ∧ u = t ++ ['\x7d'] ∧ IsEntries d asciiOnly more t := by
  induction rounds generalizing r entries with
  | zero => exact absurd hRounds (Nat.not_lt_zero _)
  | succ rounds ih =>
    rw [objectLoop]
    apply (parses_skipSpaces r).bind
    rintro _ a r₁ hText₁ hBefore
    apply Reads.deref
    by_cases hQuote : r₁.headD nul ≠ '"'
    · rw [if_pos hQuote]
      exact Reads.fail nofun
    rw [if_neg hQuote]
    apply (parses_stringRaw r₁).bind
    rintro key k r₂ hText₂ hKey
    apply (parses_skipSpaces r₂).bind
    rintro _ b r₃ hText₃ hColonSpaces
    apply Reads.deref
    by_cases hColon : r₃.headD nul ≠ ':'
    · rw [if_pos hColon]
      exact Reads.fail nofun
    obtain ⟨r₄, rfl⟩ := eq_cons_of_headD (not_not.mp hColon) (by decide)
    rw [if_neg hColon]
    apply Reads.advance_one
    apply (parses_skipSpaces r₄).bind
    rintro _ c r₅ hText₅ hValueSpaces
    have hLength : r₅.length < r.length := by
      rw [hText₁, hText₂, hText₃, hText₅]
      simp only [length_append, length_cons]
      omega
    apply (hParse r₅ (Nat.lt_trans hLength hDepth)).bind
    rintro value u r₆ hText₆ ⟨c', v, rfl, hMoreSpaces, hValue⟩
    apply (parses_skipSpaces r₆).bind
    rintro _ e r₇ hText₇ hAfter
    apply Reads.deref
    by_cases hClose : r₇.headD nul = '\x7d'
    · obtain ⟨r₈, rfl⟩ := eq_cons_of_headD hClose (by decide)
      rw [if_pos hClose]
      apply Reads.advance_one
      refine Reads.pure ⟨[(key, value)], a ++ (k ++ (b ++ ':' :: ((c ++ c') ++ (v ++ e)))), rfl, ?_,
        .last hBefore hKey hColonSpaces (spaces_append hValueSpaces hMoreSpaces) hValue hAfter⟩
      simp only [append_assoc, cons_append]
    rw [if_neg hClose]
    by_cases hComma : r₇.headD nul = ','
    · obtain ⟨r₈, rfl⟩ := eq_cons_of_headD hComma (by decide)
      rw [if_neg (not_not.mpr hComma)]
      apply Reads.advance_one
      have hShorter : r₈.length < r₅.length := by
        rw [hText₆, hText₇]
        simp only [length_append, length_cons]
        omega
      apply (ih (by omega) (by omega) (entries ++ [(key, value)])).mono
      rintro w u rest _ ⟨more, t, rfl, rfl, hEntries⟩
      refine ⟨(key, value) :: more, a ++ (k ++ (b ++ ':' :: ((c ++ c') ++ (v ++ (e ++ ',' :: t))))), ?_, ?_,
        .more hBefore hKey hColonSpaces (spaces_append hValueSpaces hMoreSpaces) hValue hAfter hEntries⟩
      · rw [append_assoc, List.singleton_append]
      · simp only [append_assoc, cons_append]
    · rw [if_pos hComma]
      exact Reads.fail nofun

theorem parses_object {r : Text} (hDepth : r.length ≤ depth) :
    Parses (parseObject p) r fun v u _ => IsValue d asciiOnly v u := by
  rw [parseObject]
  apply Reads.deref
  by_cases hOpen : r.headD nul = '\x7b'
  · obtain ⟨r, rfl⟩ := eq_cons_of_headD hOpen (by decide)
    rw [if_neg (not_not.mpr hOpen)]
    apply Reads.advance_one
    apply (parses_skipSpaces r).bind
    rintro _ w r₁ hText₁ hSpaces
    apply Reads.deref
    have hLength := length_rest hText₁
    rw [length_cons] at hDepth
    by_cases hClose : r₁.headD nul = '\x7d'
    · obtain ⟨r₁, rfl⟩ := eq_cons_of_headD hClose (by decide)
      rw [if_pos hClose]
      apply Reads.advance_one
      exact Reads.pure (.emptyObject hSpaces)
    · rw [if_neg hClose]
      apply Reads.here
      apply (parses_objectLoop hParse (Nat.lt_succ_self _) (by omega) []).mono
      rintro v u rest _ ⟨more, t, rfl, rfl, hEntries⟩
      have hObject := IsValue.object (hEntries.after_spaces hSpaces)
      rw [append_assoc] at hObject
      exact hObject
  · rw [if_pos hOpen]
    exact .fail nofun

end Loops

theorem parses_value (d : Double ν) {depth : Nat} {r : Text} (hDepth : r.length < depth) :
    Parses (parseValue d depth) r fun v u _ => ValueAfterSpaces d v u := by
  induction depth generalizing r with
  | zero => exact nomatch hDepth
  | succ depth ih =>
    rw [parseValue]
    apply (parses_skipSpaces r).bind
    rintro _ a r₁ hText₁ hSpaces
    apply Reads.deref
    have hLength : r₁.length ≤ depth := Nat.le_trans (length_rest hText₁) (Nat.le_of_lt_succ hDepth)
    have hAfter : ∀ v u rest, r₁ = u ++ rest → IsValue d asciiOnly v u → ValueAfterSpaces d v (a ++ u) :=
      fun v u _ _ hValue => ⟨a, u, rfl, hSpaces, hValue⟩
    split
    · exact (parses_object (fun _ => ih) hLength).mono hAfter
    split
    · exact (parses_array (fun _ => ih) hLength).mono hAfter
    split
    · exact (parses_stringValue d r₁).mono hAfter
    split
    · apply (parses_number d r₁).mono
      rintro v u rest hText ⟨x, rfl, hNumber⟩
      exact hAfter _ u rest hText (.number hNumber)
    split
    · exact (parses_literal d r₁).mono hAfter
    · exact .fail nofun

end OpenXJ380.Json
