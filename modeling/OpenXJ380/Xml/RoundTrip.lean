import OpenXJ380.Xml.AnyText
import OpenXJ380.Xml.Layout

/-! # Reading the text of a tree -/

namespace OpenXJ380.Xml

open List (append_assoc append_nil cons_append length_append length_cons mem_append mem_cons nil_append)
open TextCursor
open Json (isspace Spaces)

variable {w rest a name u t : Text} {ch : Char} {attributes : List (Text × Text)} {tree : XmlTree}

theorem isspace_of_spaces (h : Spaces w) (hSome : w ≠ []) : ∃ ch t, w = ch :: t ∧ isspace ch := by
  cases w with
  | nil => exact absurd rfl hSome
  | cons ch t => exact ⟨ch, t, rfl, h ch (.head _)⟩

theorem isspace_cases (h : isspace ch) : isNameChar ch = false ∧ ch ≠ nul ∧ ch ≠ '<' := by
  simp only [isspace, Bool.or_eq_true, decide_eq_true_eq] at h
  obtain ((((rfl | rfl) | rfl) | rfl) | rfl) | rfl := h <;> decide

theorem isNameStart_ne (h : isNameStart ch) {c : Char} (hNot : isNameStart c = false) : ch ≠ c := by
  rintro rfl
  rw [hNot] at h
  cases h

theorem isNameStart_isspace (h : isNameStart ch) : isspace ch = false := by
  cases hSpace : isspace ch with
  | false => rfl
  | true =>
    have hNot := (isspace_cases hSpace).1
    rw [isNameChar, h] at hNot
    cases hNot

def EndsName (rest : Text) : Prop := ∀ ch ∈ rest.head?, isNameChar ch = false

theorem endsName_cons (h : isNameChar ch = false) (rest : Text) : EndsName (ch :: rest) := by
  rintro ch ⟨⟩
  exact h

theorem endsName_spaces (hSpaces : Spaces w) (hEnd : EndsName rest) : EndsName (w ++ rest) := by
  cases w with
  | nil => exact hEnd
  | cons ch w => exact endsName_cons (isspace_cases (hSpaces ch (.head _))).1 _

theorem skipSpaces_to (hSpaces : Spaces a) (hStop : isspace ch = false) (rest : Text) :
    skipSpaces (some (a ++ ch :: rest)) = .ok ⟨⟩ (some (ch :: rest)) := by
  apply skipWhile_append hSpaces
  rintro ch ⟨⟩
  exact hStop

theorem name_head (h : IsName name) : ∃ ch t, name = ch :: t ∧ isNameStart ch := by
  obtain ⟨hStart, -⟩ := h
  exact ⟨_, _, rfl, hStart⟩

theorem parseName_append (h : IsName name) (hEnd : EndsName rest) :
    parseName (some (name ++ rest)) = .ok name (some rest) := by
  obtain ⟨hStart, hRest⟩ := h
  rename_i ch t
  have hFirst : isNameChar ch := by rw [isNameChar, hStart]; rfl
  have hSpan := spanWhile_append (ε := ParseResult) (List.forall_mem_cons.mpr ⟨hFirst, hRest⟩) hEnd
  rw [cons_append] at hSpan ⊢
  rw [parseName, deref_bind, if_pos hStart]
  exact hSpan

theorem not_prefix_second {x y : Char} (h : x ≠ y) (pattern r : Text) : ¬ '<' :: x :: pattern <+: '<' :: y :: r := by
  intro hPrefix
  exact h (List.cons_prefix_cons.mp (List.cons_prefix_cons.mp hPrefix).2).1

theorem not_prefix_first {x y : Char} (h : x ≠ y) (pattern r : Text) : ¬ x :: pattern <+: y :: r :=
  fun hPrefix => h (List.cons_prefix_cons.mp hPrefix).1

theorem skipComment_comment (h : IsComment u) (hText : nul ∉ u) (rest : Text) :
    skipComment (some (u ++ rest)) = .ok ⟨⟩ (some rest) := by
  obtain ⟨hBody⟩ := h
  rename_i body
  have hNul : nul ∉ body := fun h => hText (List.mem_append_right _ (List.mem_append_left _ h))
  have hAdvance : (advance 4 : Parser PUnit) (some (['<', '!', '-', '-'] ++ (body ++ (['-', '-', '>'] ++ rest)))) =
      .ok ⟨⟩ (some (body ++ (['-', '-', '>'] ++ rest))) := advance_append ['<', '!', '-', '-'] _
  have hThrough : through ['-', '-', '>'] ParseResult.syntaxError (some (body ++ (['-', '-', '>'] ++ rest))) =
      .ok body (some rest) :=
    @through_append ParseResult ['-', '-'] body rest '>' .syntaxError (by decide) (by decide) hBody hNul
  rw [append_assoc, append_assoc]
  rw [skipComment, bind_ok hAdvance, bind_ok hThrough, pure_eq]

theorem skipInstruction_instruction (h : IsInstruction u) (hText : nul ∉ u) (rest : Text) :
    skipInstruction (some (u ++ rest)) = .ok ⟨⟩ (some rest) := by
  obtain ⟨hBody⟩ := h
  rename_i body
  have hNul : nul ∉ body := fun h => hText (List.mem_append_right _ (List.mem_append_left _ h))
  have hAdvance : (advance 2 : Parser PUnit) (some (['<', '?'] ++ (body ++ (['?', '>'] ++ rest)))) =
      .ok ⟨⟩ (some (body ++ (['?', '>'] ++ rest))) := advance_append ['<', '?'] _
  have hThrough : through ['?', '>'] ParseResult.syntaxError (some (body ++ (['?', '>'] ++ rest))) =
      .ok body (some rest) :=
    @through_append ParseResult ['?'] body rest '>' .syntaxError (by decide) (by decide) hBody hNul
  rw [append_assoc, append_assoc]
  rw [skipInstruction, bind_ok hAdvance, bind_ok hThrough, pure_eq]

structure NoMisc (rest : Text) : Prop where
  noSpace : ∀ ch ∈ rest.head?, isspace ch = false
  noComment : ¬ ['<', '!', '-', '-'] <+: rest
  noInstruction : ¬ ['<', '?'] <+: rest
  noDeclaration : ¬ ['<', '!'] <+: rest

theorem noMisc_nil : NoMisc [] where
  noSpace := nofun
  noComment := fun h => nomatch List.prefix_nil.mp h
  noInstruction := fun h => nomatch List.prefix_nil.mp h
  noDeclaration := fun h => nomatch List.prefix_nil.mp h

theorem noMisc_tag (h : isNameStart ch) (rest : Text) : NoMisc ('<' :: ch :: rest) where
  noSpace := by
    rintro ch ⟨⟩
    rfl
  noComment := not_prefix_second (isNameStart_ne h rfl).symm _ _
  noInstruction := not_prefix_second (isNameStart_ne h rfl).symm _ _
  noDeclaration := not_prefix_second (isNameStart_ne h rfl).symm _ _

theorem miscLoop_misc (h : IsMisc a) (hText : nul ∉ a) (hEnd : NoMisc rest) {rounds : Nat}
    (hRounds : a.length < rounds) : miscLoop rounds (some (a ++ rest)) = .ok ⟨⟩ (some rest) := by
  induction rounds generalizing a with
  | zero => exact nomatch hRounds
  | succ rounds ih =>
    rw [miscLoop]
    cases h with
    | spaces hSpaces =>
      have hSkip := @skipWhile_append ParseResult isspace a rest hSpaces hEnd.noSpace
      rw [skipSpaces, bind_ok hSkip, startsWith_else (by decide) hEnd.noComment,
        startsWith_else (by decide) hEnd.noInstruction, startsWith_else (by decide) hEnd.noDeclaration, pure_eq]
    | @markup w u t hSpaces hMarkup hRest =>
      simp only [mem_append, not_or] at hText
      obtain ⟨-, hMarkupText, hRestText⟩ := hText
      simp only [length_append] at hRounds
      simp only [append_assoc]
      obtain hComment | hInstruction := hMarkup
      · have hSkipped := skipComment_comment hComment hMarkupText (t ++ rest)
        obtain ⟨body, rfl⟩ : ∃ body, u = '<' :: '!' :: '-' :: '-' :: body := by
          obtain ⟨-⟩ := hComment
          exact ⟨_, rfl⟩
        have hLess : t.length < rounds := by
          simp only [length_cons] at hRounds
          omega
        simp only [cons_append] at hSkipped ⊢
        rw [bind_ok (skipSpaces_to hSpaces rfl _), startsWith_then (by decide) (by exact ⟨_, rfl⟩), bind_ok hSkipped]
        exact ih hRest hRestText hLess
      · have hSkipped := skipInstruction_instruction hInstruction hMarkupText (t ++ rest)
        obtain ⟨body, rfl⟩ : ∃ body, u = '<' :: '?' :: body := by
          obtain ⟨-⟩ := hInstruction
          exact ⟨_, rfl⟩
        have hLess : t.length < rounds := by
          simp only [length_cons] at hRounds
          omega
        simp only [cons_append] at hSkipped ⊢
        rw [bind_ok (skipSpaces_to hSpaces rfl _), startsWith_else (by decide) (not_prefix_second (by decide) _ _),
          startsWith_then (by decide) (by exact ⟨_, rfl⟩), bind_ok hSkipped]
        exact ih hRest hRestText hLess

theorem skipMisc_misc (h : IsMisc a) (hText : nul ∉ a) (hEnd : NoMisc rest) :
    skipMisc (some (a ++ rest)) = .ok ⟨⟩ (some rest) := by
  rw [skipMisc, bind_ok here_eq]
  refine miscLoop_misc h hText hEnd ?_
  rw [rounds, Option.elim_some, length_append]
  omega

theorem parseAttribute_attribute {value : Text} (h : IsAttribute name value u) (hText : nul ∉ u) (node : NodeId)
    (heap : Heap) (rest : Text) :
    parseAttribute node heap (some (u ++ rest)) = .ok (heap.modify node (addAttribute name value)) (some rest) := by
  obtain ⟨hName, hBefore, hAfter, hQuote, hValue⟩ := h
  rename_i a b quote
  simp only [mem_append, mem_cons, not_or] at hText
  obtain ⟨-, -, -, -, hNul, hValueText, -⟩ := hText
  have hSpan : (spanWhile (fun ch => ch ≠ nul && ch ≠ quote) : Parser Text) (some (value ++ quote :: rest)) =
      .ok value (some (quote :: rest)) := by
    apply spanWhile_append
    · intro ch hMem
      simp only [Bool.and_eq_true, decide_eq_true_iff]
      exact ⟨fun h => hValueText (h ▸ hMem), fun h => hValue (h ▸ hMem)⟩
    · rintro ch ⟨⟩
      simp only [ne_eq, not_true_eq_false, decide_false, Bool.and_false]
  have hSpace : isspace quote = false := by
    obtain rfl | rfl := hQuote <;> rfl
  have hQuotes : ¬ (quote ≠ '"' ∧ quote ≠ '\'') := by
    rintro ⟨hDouble, hSingle⟩
    obtain h | h := hQuote
    · exact hDouble h
    · exact hSingle h
  simp only [append_assoc, cons_append, nil_append]
  rw [parseAttribute, bind_ok (parseName_append hName (endsName_spaces hBefore (endsName_cons rfl _))),
    bind_ok (skipSpaces_to hBefore rfl _), deref_bind, if_neg (not_not.mpr rfl),
    advance_bind, bind_ok (skipSpaces_to hAfter hSpace _), deref_bind, if_neg hQuotes,
    advance_bind, bind_ok hSpan, deref_bind, if_neg (not_not.mpr rfl), advance_bind, pure_eq]

def tagEnd : Bool → Text
  | true => ['/', '>']
  | false => ['>']

theorem endsName_tagEnd (closed : Bool) (rest : Text) : EndsName (tagEnd closed ++ rest) := by
  cases closed with
  | true => exact endsName_cons rfl _
  | false => exact endsName_cons rfl _

theorem attributeLoop_end (node : NodeId) (rounds : Nat) (heap : Heap) (hSpaces : Spaces w) (closed : Bool)
    (rest : Text) :
    attributeLoop node (rounds + 1) heap (some (w ++ (tagEnd closed ++ rest))) = .ok (closed, heap) (some rest) := by
  rw [attributeLoop]
  cases closed with
  | true =>
    have hAdvance : (advance 2 : Parser PUnit) (some ('/' :: '>' :: rest)) = .ok ⟨⟩ (some rest) :=
      advance_append ['/', '>'] rest
    simp only [tagEnd, cons_append, nil_append]
    rw [bind_ok (skipSpaces_to hSpaces rfl _), startsWith_then (by decide) (by exact ⟨_, rfl⟩),
      bind_ok hAdvance, pure_eq]
  | false =>
    simp only [tagEnd, cons_append, nil_append]
    rw [bind_ok (skipSpaces_to hSpaces rfl _), startsWith_else (by decide) (not_prefix_first (by decide) _ _),
      deref_bind, if_pos rfl, advance_bind, pure_eq]

theorem attributes_end (h : IsAttributes attributes t) (hEnd : EndsName rest) : EndsName (t ++ rest) := by
  cases h with
  | nil => exact hEnd
  | cons hSpaces hSome hAttribute hRest =>
    obtain ⟨ch, w, rfl, hSpace⟩ := isspace_of_spaces hSpaces hSome
    exact endsName_cons (isspace_cases hSpace).1 _

theorem attributeLoop_attributes {done : List (Text × Text)} (h : IsAttributes attributes t)
    (hText : nul ∉ t) {rounds : Nat} (hRounds : t.length < rounds) (pre : Heap) (name : Text)
    (hSpaces : Spaces w) (closed : Bool) (rest : Text) :
    attributeLoop pre.length rounds (pre ++ layout (.element name done []) pre.length none none)
        (some (t ++ (w ++ (tagEnd closed ++ rest)))) =
      .ok (closed, pre ++ layout (.element name (done ++ attributes) []) pre.length none none) (some rest) := by
  induction h generalizing done rounds with
  | nil =>
    cases rounds with
    | zero => exact nomatch hRounds
    | succ rounds =>
      rw [nil_append, append_nil]
      exact attributeLoop_end pre.length rounds _ hSpaces closed rest
  | @cons attributeName value v u t attributes hBefore hSome hAttribute hRest ih =>
    cases rounds with
    | zero => exact nomatch hRounds
    | succ rounds =>
      simp only [mem_append, not_or] at hText
      obtain ⟨-, hAttributeText, hRestText⟩ := hText
      have hLess : t.length < rounds := by
        have hPositive := List.length_pos_iff.mpr hSome
        simp only [length_append] at hRounds
        omega
      obtain ⟨ch, u', hFirst, hStart⟩ : ∃ ch u', u = ch :: u' ∧ isNameStart ch := by
        obtain ⟨hName⟩ := hAttribute
        obtain ⟨ch, n, rfl, hStart⟩ := name_head hName
        exact ⟨ch, _, rfl, hStart⟩
      have hParse := parseAttribute_attribute hAttribute hAttributeText pre.length
        (pre ++ layout (.element name done []) pre.length none none) (t ++ (w ++ (tagEnd closed ++ rest)))
      have hAdded : (pre ++ layout (.element name done []) pre.length none none).modify pre.length
          (addAttribute attributeName value) =
            pre ++ layout (.element name (done ++ [(attributeName, value)]) []) pre.length none none := by
        rw [layout, modify_at rfl]
        rfl
      rw [hAdded] at hParse
      subst hFirst
      rw [cons_append] at hParse
      rw [attributeLoop]
      simp only [append_assoc, cons_append]
      rw [bind_ok (skipSpaces_to hBefore (isNameStart_isspace hStart) _),
        startsWith_else (by decide) (not_prefix_first (isNameStart_ne hStart rfl).symm _ _), deref_bind,
        if_neg (isNameStart_ne hStart rfl), if_neg (isNameStart_ne hStart (by decide)), bind_ok hParse,
        ih hRestText hLess, append_assoc, List.singleton_append]

theorem content_head {children : List XmlTree} (h : IsContent false children t) (rest : Text) :
    ∃ t', t ++ '<' :: rest = '<' :: t' := by
  cases h with
  | nil => exact ⟨_, rfl⟩
  | markup hMarkup =>
    obtain hComment | hInstruction := hMarkup
    · obtain ⟨-⟩ := hComment
      exact ⟨_, rfl⟩
    · obtain ⟨-⟩ := hInstruction
      exact ⟨_, rfl⟩
  | element hElement =>
    cases hElement <;> exact ⟨_, rfl⟩

theorem contentLoop_chars (p : Heap → Parser (NodeId × Heap)) (node : NodeId) (name : Text) (rounds : Nat) {h h' : Heap}
    {s : Text} (hSome : s ≠ []) (hChars : ∀ ch ∈ s, ch ≠ nul ∧ ch ≠ '<') (r : Text)
    (hNode : (if s.all isspace then pure h else appendText s node h : Parser Heap) (some ('<' :: r)) =
      .ok h' (some ('<' :: r))) :
    contentLoop p node name (rounds + 1) h (some (s ++ '<' :: r)) =
      contentLoop p node name rounds h' (some ('<' :: r)) := by
  have hSpan : (spanWhile (fun ch => ch ≠ nul && ch ≠ '<') : Parser Text) (some (s ++ '<' :: r)) =
      .ok s (some ('<' :: r)) := by
    apply spanWhile_append
    · intro ch hMem
      simp only [Bool.and_eq_true, decide_eq_true_iff]
      exact hChars ch hMem
    · rintro ch ⟨⟩
      rfl
  have hTextNode : parseTextNode node h (some (s ++ '<' :: r)) = .ok h' (some ('<' :: r)) := by
    rw [parseTextNode, bind_ok hSpan]
    exact hNode
  cases s with
  | nil => exact absurd rfl hSome
  | cons ch s =>
    have hMarkup : ch ≠ '<' := (hChars ch (.head _)).2
    rw [contentLoop]
    rw [cons_append] at hTextNode ⊢
    have hNot := fun pattern => @not_prefix_first _ _ hMarkup.symm pattern
    rw [startsWith_else (by decide) (hNot _ _), startsWith_else (by decide) (hNot _ _),
      startsWith_else (by decide) (hNot _ _), startsWith_else (by decide) (hNot _ _),
      deref_bind, if_neg hMarkup, bind_ok hTextNode, deref_bind, if_neg (by decide)]

theorem markup_length (h : IsComment u ∨ IsInstruction u) : 0 < u.length := by
  cases h with
  | inl hComment =>
    cases hComment
    exact Nat.succ_pos _
  | inr hInstruction =>
    cases hInstruction
    exact Nat.succ_pos _

theorem contentLoop_markup (p : Heap → Parser (NodeId × Heap)) (node : NodeId) (name : Text) (rounds : Nat) (h : Heap)
    (hMarkup : IsComment u ∨ IsInstruction u) (hText : nul ∉ u) (rest : Text) :
    contentLoop p node name (rounds + 1) h (some (u ++ rest)) = contentLoop p node name rounds h (some rest) := by
  rw [contentLoop]
  obtain hComment | hInstruction := hMarkup
  · have hSkipped := skipComment_comment hComment hText rest
    obtain ⟨body, rfl⟩ : ∃ body, u = '<' :: '!' :: '-' :: '-' :: body := by
      obtain ⟨-⟩ := hComment
      exact ⟨_, rfl⟩
    simp only [cons_append] at hSkipped ⊢
    rw [startsWith_else (by decide) (not_prefix_second (by decide) _ _),
      startsWith_then (by decide) (by exact ⟨_, rfl⟩), bind_ok hSkipped]
  · have hSkipped := skipInstruction_instruction hInstruction hText rest
    obtain ⟨body, rfl⟩ : ∃ body, u = '<' :: '?' :: body := by
      obtain ⟨-⟩ := hInstruction
      exact ⟨_, rfl⟩
    simp only [cons_append] at hSkipped ⊢
    rw [startsWith_else (by decide) (not_prefix_second (by decide) _ _),
      startsWith_else (by decide) (not_prefix_second (by decide) _ _),
      startsWith_else (by decide) (not_prefix_second (by decide) _ _),
      startsWith_then (by decide) (by exact ⟨_, rfl⟩), bind_ok hSkipped]

theorem element_head (h : IsElement tree u) :
    ∃ ch t, u = '<' :: ch :: t ∧ isNameStart ch := by
  cases h with
  | empty hName | content hName =>
    obtain ⟨ch, n, rfl, hStart⟩ := name_head hName
    exact ⟨ch, _, rfl, hStart⟩

theorem element_length (h : IsElement tree u) : 0 < u.length := by
  obtain ⟨ch, t, rfl, -⟩ := element_head h
  exact Nat.succ_pos _

theorem contentLoop_element (p : Heap → Parser (NodeId × Heap)) (node : NodeId) (name : Text) (rounds : Nat)
    {h h' h'' : Heap} {child : NodeId} (hElement : IsElement tree u)
    (hChild : p h (some (u ++ rest)) = .ok (child, h') (some rest))
    (hAppend : appendChild node child h' (some rest) = .ok h'' (some rest)) :
    contentLoop p node name (rounds + 1) h (some (u ++ rest)) = contentLoop p node name rounds h'' (some rest) := by
  obtain ⟨ch, t, rfl, hStart⟩ := element_head hElement
  rw [contentLoop]
  simp only [cons_append] at hChild ⊢
  rw [startsWith_else (by decide) (not_prefix_second (isNameStart_ne hStart rfl).symm _ _),
    startsWith_else (by decide) (not_prefix_second (isNameStart_ne hStart rfl).symm _ _),
    startsWith_else (by decide) (not_prefix_second (isNameStart_ne hStart rfl).symm _ _),
    startsWith_else (by decide) (not_prefix_second (isNameStart_ne hStart rfl).symm _ _), deref_bind, if_pos rfl,
    bind_ok hChild, bind_ok hAppend]

theorem parseEndTag_name {v : Text} (hName : IsName name) (hSpaces : Spaces v) (rest : Text) :
    parseEndTag name (some (name ++ (v ++ '>' :: rest))) = .ok ⟨⟩ (some rest) := by
  rw [parseEndTag, bind_ok (parseName_append hName (endsName_spaces hSpaces (endsName_cons rfl _))),
    if_neg (not_not.mpr rfl), bind_ok (skipSpaces_to hSpaces rfl _), deref_bind, if_neg (not_not.mpr rfl), advance_one]

theorem appendText_layout (pre : Heap) (name : Text) (attributes : List (Text × Text)) (children : List XmlTree)
    (s : Text) (c : Cursor) :
    appendText s pre.length (pre ++ layout (.element name attributes children) pre.length none none) c =
      .ok (pre ++ layout (.element name attributes (children ++ [.text s])) pre.length none none) c := by
  have hLength : (pre ++ layout (.element name attributes children) pre.length none none).length =
      pre.length + 1 + sizes children := by
    rw [length_append, length_layout, size]
    omega
  have hNew : (createNode .text (pre ++ layout (.element name attributes children) pre.length none none)).modify
      (pre ++ layout (.element name attributes children) pre.length none none).length (setText s) =
        pre ++ (layout (.element name attributes children) pre.length none none ++
          layout (.text s) (pre.length + 1 + sizes children) none none) := by
    rw [createNode, modify_at rfl, append_assoc]
    rfl
  rw [appendText, hNew, hLength]
  exact appendChild_layout children (.text s) rfl rfl c

section Content

variable {p : Heap → Parser (NodeId × Heap)} {depth : Nat}
  (hParse : ∀ {tree : XmlTree} {u : Text}, IsElement tree u → nul ∉ u → u.length < depth → ∀ (h : Heap) (rest : Text),
    p h (some (u ++ rest)) = .ok (h.length, h ++ layout tree h.length none none) (some rest))
include hParse

theorem contentLoop_content {chars : Bool} {children : List XmlTree} {t : Text} (h : IsContent chars children t)
    (hText : nul ∉ t) (hDepth : t.length < depth) {rounds : Nat} (hRounds : t.length < rounds) (pre : Heap)
    {name v : Text} (hName : IsName name) (hSpaces : Spaces v) (attributes : List (Text × Text)) (done : List XmlTree)
    (rest : Text) :
    contentLoop p pre.length name rounds (pre ++ layout (.element name attributes done) pre.length none none)
        (some (t ++ '<' :: '/' :: (name ++ (v ++ '>' :: rest)))) =
      .ok (pre ++ layout (.element name attributes (done ++ children)) pre.length none none) (some rest) := by
  induction rounds generalizing chars children t done with
  | zero => exact nomatch hRounds
  | succ rounds ih =>
    cases h with
    | nil =>
      have hAdvance : (advance 2 : Parser PUnit) (some ('<' :: '/' :: (name ++ (v ++ '>' :: rest)))) =
          .ok ⟨⟩ (some (name ++ (v ++ '>' :: rest))) := advance_append ['<', '/'] _
      rw [contentLoop, nil_append, startsWith_then (by decide) (by exact ⟨_, rfl⟩),
        bind_ok hAdvance, bind_ok (parseEndTag_name hName hSpaces rest), pure_eq, append_nil]
    | @spaces w t _ hWhite hSome hRest =>
      simp only [mem_append, not_or] at hText
      simp only [length_append] at hDepth hRounds
      have hPositive := List.length_pos_iff.mpr hSome
      obtain ⟨t', hTag⟩ := content_head hRest ('/' :: (name ++ (v ++ '>' :: rest)))
      have hAgain := ih hRest hText.2 (by omega) (by omega) done
      rw [append_assoc]
      rw [hTag] at hAgain ⊢
      rw [contentLoop_chars p _ name rounds hSome (fun ch hMem => (isspace_cases (hWhite ch hMem)).2) t', hAgain]
      rw [if_pos (List.all_eq_true.mpr hWhite), pure_eq]
    | @text s t children hData hRest =>
      simp only [mem_append, not_or] at hText
      simp only [length_append] at hDepth hRounds
      have hSome : s ≠ [] := by
        rintro rfl
        cases hData.1
      have hPositive := List.length_pos_iff.mpr hSome
      obtain ⟨t', hTag⟩ := content_head hRest ('/' :: (name ++ (v ++ '>' :: rest)))
      have hAgain := ih hRest hText.2 (by omega) (by omega) (done ++ [.text s])
      rw [append_assoc]
      rw [hTag] at hAgain ⊢
      have hChars : ∀ ch ∈ s, ch ≠ nul ∧ ch ≠ '<' := by
        intro ch hMem
        exact ⟨fun h => hText.1 (h ▸ hMem), fun h => hData.2 (h ▸ hMem)⟩
      rw [contentLoop_chars p _ name rounds hSome hChars t', hAgain, append_assoc, List.singleton_append]
      rw [hData.1, if_neg Bool.false_ne_true, appendText_layout]
    | @markup _ u t _ hMarkup hRest =>
      simp only [mem_append, not_or] at hText
      simp only [length_append] at hDepth hRounds
      have hPositive := markup_length hMarkup
      rw [append_assoc, contentLoop_markup p _ name rounds _ hMarkup hText.1]
      exact ih hRest hText.2 (by omega) (by omega) done
    | @element _ tree u t children hElement hRest =>
      simp only [mem_append, not_or] at hText
      simp only [length_append] at hDepth hRounds
      have hPositive := element_length hElement
      have hChild := hParse hElement hText.1 (by omega)
        (pre ++ layout (.element name attributes done) pre.length none none)
        (t ++ '<' :: '/' :: (name ++ (v ++ '>' :: rest)))
      have hLength : (pre ++ layout (.element name attributes done) pre.length none none).length =
          pre.length + 1 + sizes done := by
        rw [length_append, length_layout, size]
        omega
      have hAppend := @appendChild_layout pre name attributes done tree _ _ rfl rfl
        (some (t ++ '<' :: '/' :: (name ++ (v ++ '>' :: rest))))
      rw [hLength, append_assoc] at hChild
      rw [append_assoc, contentLoop_element p _ name rounds hElement hChild hAppend,
        ih hRest hText.2 (by omega) (by omega), append_assoc, List.singleton_append]

end Content

theorem parseElement_tag (depth : Nat) (hName : IsName name)
    (hAttributes : IsAttributes attributes t) (hText : nul ∉ t) (hSpaces : Spaces w) (closed : Bool) (heap : Heap)
    (rest : Text) :
    parseElement (depth + 1) heap (some ('<' :: (name ++ (t ++ (w ++ (tagEnd closed ++ rest)))))) =
      (if closed then pure (heap.length, heap ++ layout (.element name attributes []) heap.length none none)
        else do
          let cursor ← here
          let h ← contentLoop (parseElement depth) heap.length name (rounds cursor)
            (heap ++ layout (.element name attributes []) heap.length none none)
          pure (heap.length, h) : Parser (NodeId × Heap)) (some rest) := by
  have hNew : (createNode .element heap).modify heap.length (setName name) =
      heap ++ layout (.element name [] []) heap.length none none := by
    rw [createNode, modify_at rfl]
    rfl
  have hEnds := attributes_end hAttributes (endsName_spaces hSpaces (endsName_tagEnd closed rest))
  have hRounds : t.length < rounds (some (t ++ (w ++ (tagEnd closed ++ rest)))) := by
    rw [rounds, Option.elim_some, length_append]
    omega
  have hLoop := @attributeLoop_attributes w t attributes [] hAttributes hText _ hRounds heap name hSpaces closed rest
  rw [nil_append] at hLoop
  rw [parseElement, deref_bind, if_neg (not_not.mpr rfl), advance_bind]
  rw [bind_ok (parseName_append hName hEnds), bind_ok here_eq, hNew, bind_ok hLoop]

theorem parseElement_element {depth : Nat} (h : IsElement tree u) (hText : nul ∉ u)
    (hDepth : u.length < depth) (heap : Heap) (rest : Text) :
    parseElement depth heap (some (u ++ rest)) =
      .ok (heap.length, heap ++ layout tree heap.length none none) (some rest) := by
  induction depth generalizing tree u heap rest with
  | zero => exact nomatch hDepth
  | succ depth ih =>
    cases h with
    | @empty name t w attributes hName hAttributes hSpaces =>
      simp only [mem_cons, mem_append, not_or] at hText
      have hTag := parseElement_tag depth hName hAttributes hText.2.2.1 hSpaces true heap rest
      rw [if_pos rfl, pure_eq] at hTag
      simp only [cons_append, append_assoc]
      exact hTag
    | @content name t w c v attributes children hName hAttributes hSpaces hContent hEnd =>
      simp only [mem_cons, mem_append, not_or] at hText
      simp only [length_cons, length_append] at hDepth
      have hTag := parseElement_tag depth hName hAttributes hText.2.2.1 hSpaces false heap
        (c ++ '<' :: '/' :: (name ++ (v ++ '>' :: rest)))
      have hRounds : c.length < rounds (some (c ++ '<' :: '/' :: (name ++ (v ++ '>' :: rest)))) := by
        rw [rounds, Option.elim_some, length_append]
        omega
      have hLoop := contentLoop_content ih hContent hText.2.2.2.2.2.1 (by omega) hRounds heap hName hEnd attributes []
        rest
      rw [if_neg Bool.false_ne_true, bind_ok here_eq, bind_ok hLoop, pure_eq, nil_append] at hTag
      simp only [cons_append, append_assoc, nil_append]
      exact hTag

theorem parseXml_document {root : XmlTree} {text : Text} (h : IsDocument root text) (hText : nul ∉ text) :
    parseXml text = some (.ok, some 0, layout root 0 none none) := by
  obtain ⟨hBefore, hElement, hAfter⟩ := h
  rename_i a u b
  simp only [mem_append, not_or] at hText
  obtain ⟨ch, t, hHead, hStart⟩ := element_head hElement
  have hNoMisc : NoMisc (u ++ b) := by
    rw [hHead]
    exact noMisc_tag hStart _
  have hDepth : u.length < rounds (some (u ++ b)) := by
    rw [rounds, Option.elim_some, length_append]
    omega
  have hRoot := parseElement_element hElement hText.2.1 hDepth [] b
  rw [nil_append] at hRoot
  have hEpilog := skipMisc_misc hAfter hText.2.2 noMisc_nil
  rw [append_nil] at hEpilog
  rw [parseXml, bind_ok (skipMisc_misc hBefore hText.1 hNoMisc), bind_ok here_eq, hRoot]
  change parseEpilog 0 (layout root 0 none none) (some b) = _
  rw [parseEpilog, bind_ok hEpilog, deref_nil]
  rfl

/-- Parsing undoes printing, whatever has been inserted where it is skipped; and on any text the parser ends, and leaves
no tree with an error. -/
theorem parseXml_print :
    (∀ name attributes children, WellFormed (.element name attributes children) →
        IsDocument (.element name attributes children) (print (.element name attributes children))) ∧
      (∀ root text, IsDocument root text → nul ∉ text →
        ∃ n h, parseXml text = some (.ok, some n, h) ∧ Holds h root n none none) ∧
      ∀ text, NoTreeOnError (parseXml text) := by
  refine ⟨?_, ?_, parseXml_ends⟩
  · intro name attributes children hWellFormed
    have hDocument := IsDocument.text (.spaces spaces_nil) (isElement_print name attributes children hWellFormed)
      (.spaces spaces_nil)
    rw [List.nil_append, List.append_nil] at hDocument
    exact hDocument
  · intro root text hDocument hText
    have hHolds := holds_layout root [] [] none none
    rw [List.append_nil] at hHolds
    exact ⟨0, _, parseXml_document hDocument hText, hHolds⟩

/-- A child between two texts, and an attribute. -/
theorem parseXml_print_mixed :
    ∃ n h, parseXml (print (.element ['a'] [(['k'], ['"'])] [.text ['x'], .element ['b'] [] [], .text ['y']])) =
        some (.ok, some n, h) ∧
      Holds h (.element ['a'] [(['k'], ['"'])] [.text ['x'], .element ['b'] [] [], .text ['y']]) n none none := by
  have hName : ∀ ch, isNameStart ch = true → IsName [ch] := fun ch h => .chars h (by rintro _ ⟨⟩)
  refine parseXml_print.2.1 _ _ (parseXml_print.1 _ _ _ ?_) (by decide)
  simp only [WellFormed, AllWellFormed, NoAdjacentText, List.isChain_cons_cons, List.forall_mem_cons]
  refine ⟨hName _ rfl, ⟨⟨hName _ rfl, .inr (by decide)⟩, by rintro _ ⟨⟩⟩, ⟨by decide, by decide, .singleton _⟩, ?_⟩
  exact ⟨⟨rfl, by decide⟩, ⟨hName _ rfl, by rintro _ ⟨⟩, .nil, trivial⟩, ⟨rfl, by decide⟩, trivial⟩

end OpenXJ380.Xml
