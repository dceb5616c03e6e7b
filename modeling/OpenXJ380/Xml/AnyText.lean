import OpenXJ380.Xml.Model

/-! # Reading any text

The parser ends on every text, reads nothing past the NUL and follows no pointer to
nothing.
-/

namespace OpenXJ380.Xml

open List (length_append length_modify nil_append)
open TextCursor
open Json (isspace)

abbrev Parses {α : Type} (p : Parser α) (r : Text) (Q : α → Text → Text → Prop) : Prop :=
  Reads (fun e => e ≠ ParseResult.ok) p r Q

def Ends (count : Nat) (n : XmlNode) : Prop := n.firstChild ≠ none → ∃ last, n.lastChild = some last ∧ last < count

def Linked (h : Heap) : Prop := ∀ n ∈ h, Ends h.length n

variable {h : Heap} {parent : NodeId} {rounds : Nat} {r : Text}

theorem mem_modify {i : NodeId} {f : XmlNode → XmlNode} {n : XmlNode} (hMem : n ∈ h.modify i f) :
    n ∈ h ∨ ∃ m ∈ h, n = f m := by
  obtain ⟨j, hGet⟩ := List.mem_iff_getElem?.mp hMem
  rw [List.getElem?_modify] at hGet
  cases hAt : h[j]? with
  | none =>
    rw [hAt] at hGet
    cases hGet
  | some m =>
    rw [hAt] at hGet
    cases hGet
    have hThere := List.mem_of_getElem? hAt
    split
    · exact .inr ⟨m, hThere, rfl⟩
    · exact .inl hThere

theorem Linked.modify (hLinked : Linked h) (i : NodeId) {f : XmlNode → XmlNode}
    (hEnds : ∀ n, Ends h.length n → Ends h.length (f n)) : Linked (h.modify i f) := by
  intro n hMem
  rw [length_modify]
  obtain hThere | ⟨m, hThere, rfl⟩ := mem_modify hMem
  · exact hLinked n hThere
  · exact hEnds m (hLinked m hThere)

theorem Ends.grow {count more : Nat} {n : XmlNode} (h : Ends count n) (hMore : count ≤ more) : Ends more n := by
  intro hFirst
  obtain ⟨last, hLast, hLess⟩ := h hFirst
  exact ⟨last, hLast, hLess.trans_le hMore⟩

theorem ends_setLastChild {count child : Nat} (hChild : child < count) (n : XmlNode) :
    Ends count (setLastChild child n) :=
  fun _ => ⟨child, rfl, hChild⟩

theorem Linked.createNode (hLinked : Linked h) (type : XmlNodeType) : Linked (createNode type h) := by
  intro n hMem
  rw [Xml.createNode] at hMem ⊢
  obtain hThere | hNew := List.mem_append.mp hMem
  · exact (hLinked n hThere).grow (by rw [length_append]; omega)
  · rw [List.mem_singleton.mp hNew]
    exact fun hFirst => absurd rfl hFirst

theorem length_createNode (type : XmlNodeType) (h : Heap) : (createNode type h).length = h.length + 1 := by
  rw [createNode, length_append, List.length_singleton]

theorem parses_load {node : NodeId} (hNode : node < h.length) (r : Text) :
    Parses (load h (some node)) r fun n u rest => u = [] ∧ rest = r ∧ n ∈ h := by
  have hGet : (some node).bind (h[·]?) = some h[node] := List.getElem?_eq_getElem hNode
  rw [Parses, Reads, load, hGet]
  exact ⟨[], r, rfl, rfl, rfl, rfl, List.getElem_mem hNode⟩

theorem parses_appendChild {child : NodeId} (hLinked : Linked h) (hParent : parent < h.length)
    (hChild : child < h.length) (r : Text) :
    Parses (appendChild parent child h) r fun h' u _ => u = [] ∧ h'.length = h.length ∧ Linked h' := by
  have hPut := hLinked.modify child (f := setParent parent) fun _ hEnds => hEnds
  have hLength : (h.modify child (setParent parent)).length = h.length := length_modify _ _ _
  rw [appendChild]
  apply (parses_load hChild r).bind
  rintro _ u rest _ ⟨rfl, rfl, -⟩
  apply (parses_load (hLength ▸ hParent) rest).bind
  rintro node u rest _ ⟨rfl, rfl, hThere⟩
  split
  · refine .pure ⟨rfl, by rw [length_modify, hLength], hPut.modify parent ?_⟩
    exact fun n _ => ends_setLastChild (hLength.symm ▸ hChild) _
  · next hFirst =>
    obtain ⟨last, hLast, hLess⟩ := hPut node hThere hFirst
    rw [hLast]
    apply (parses_load hLess rest).bind
    rintro _ u rest _ ⟨rfl, rfl, -⟩
    have hNext := hPut.modify last (f := setNextSibling child) fun _ hEnds => hEnds
    refine .pure ⟨rfl, by rw [length_modify, length_modify, hLength], hNext.modify parent ?_⟩
    exact fun n _ => ends_setLastChild (by rw [length_modify, hLength]; exact hChild) n

theorem parses_skipSpaces (r : Text) : Parses skipSpaces r fun _ _ _ => True :=
  (reads_skipWhile isspace).mono fun _ _ _ _ _ => trivial

theorem parses_skipComment (r : Text) : Parses skipComment (['<', '!', '-', '-'] ++ r) fun _ u _ => 0 < u.length := by
  rw [skipComment]
  apply (reads_advance ['<', '!', '-', '-'] r).bind
  rintro _ u rest _ rfl
  apply (reads_through (by decide) nofun rest).bind
  rintro _ u rest _ _
  exact .pure (Nat.succ_pos _)

theorem parses_skipInstruction (r : Text) : Parses skipInstruction (['<', '?'] ++ r) fun _ u _ => 0 < u.length := by
  rw [skipInstruction]
  apply (reads_advance ['<', '?'] r).bind
  rintro _ u rest _ rfl
  apply (reads_through (by decide) nofun rest).bind
  rintro _ u rest _ _
  exact .pure (Nat.succ_pos _)

theorem parses_declarationLoop (hRounds : r.length < rounds) (squareDepth : Nat) (quote : Char) :
    Parses (declarationLoop rounds squareDepth quote) r fun _ _ _ => True := by
  induction rounds generalizing r squareDepth quote with
  | zero => exact nomatch hRounds
  | succ rounds ih =>
    rw [declarationLoop]
    apply Reads.deref
    cases r with
    | nil => exact Reads.fail nofun
    | cons ch r =>
      have hShorter := Nat.lt_of_succ_lt_succ hRounds
      rw [List.headD_cons]
      split
      · exact .fail nofun
      apply Reads.advance_one
      split
      · exact ih hShorter _ _
      split
      · exact ih hShorter _ _
      split
      · exact ih hShorter _ _
      split
      · exact ih hShorter _ _
      split
      · exact .pure trivial
      · exact ih hShorter _ _

theorem parses_skipDeclaration (r : Text) : Parses skipDeclaration (['<', '!'] ++ r) fun _ u _ => 0 < u.length := by
  rw [skipDeclaration]
  apply (reads_advance ['<', '!'] r).bind
  rintro _ u rest _ rfl
  apply Reads.here
  apply (parses_declarationLoop (Nat.lt_succ_self _) 0 nul).mono
  intro _ u _ _ _
  exact Nat.succ_pos _

theorem shorter {u rest : Text} (h : r = u ++ rest) (hRead : 0 < u.length) : rest.length < r.length := by
  rw [h, length_append]
  omega

theorem not_longer {u rest : Text} (h : r = u ++ rest) : rest.length ≤ r.length := by
  rw [h, length_append]
  omega

theorem parses_miscLoop (hRounds : r.length < rounds) : Parses (miscLoop rounds) r fun _ _ _ => True := by
  induction rounds generalizing r with
  | zero => exact nomatch hRounds
  | succ rounds ih =>
    rw [miscLoop]
    apply (parses_skipSpaces r).bind
    rintro _ a r hSpaces _
    have hBound := not_longer hSpaces
    apply (reads_startsWith (by decide)).bind
    rintro comment u _ _ ⟨rfl, rfl, hComment⟩
    split
    · next hFound =>
      obtain ⟨r', rfl⟩ := of_decide_eq_true (hComment.symm.trans hFound)
      apply (parses_skipComment r').bind
      intro _ u rest hText hRead
      exact ih (by have := shorter hText hRead; omega)
    apply (reads_startsWith (by decide)).bind
    rintro instruction u _ _ ⟨rfl, rfl, hInstruction⟩
    split
    · next hFound =>
      obtain ⟨r', rfl⟩ := of_decide_eq_true (hInstruction.symm.trans hFound)
      apply (parses_skipInstruction r').bind
      intro _ u rest hText hRead
      exact ih (by have := shorter hText hRead; omega)
    apply (reads_startsWith (by decide)).bind
    rintro declaration u _ _ ⟨rfl, rfl, hDeclaration⟩
    split
    · next hFound =>
      obtain ⟨r', rfl⟩ := of_decide_eq_true (hDeclaration.symm.trans hFound)
      apply (parses_skipDeclaration r').bind
      intro _ u rest hText hRead
      exact ih (by have := shorter hText hRead; omega)
    · exact .pure trivial

theorem parses_skipMisc (r : Text) : Parses skipMisc r fun _ _ _ => True := by
  rw [skipMisc]
  apply Reads.here
  exact parses_miscLoop (Nat.lt_succ_self _)

def Grown (h h' : Heap) : Prop := h.length ≤ h'.length ∧ Linked h'

theorem parses_appendText (hLinked : Linked h) (hParent : parent < h.length) (text r : Text) :
    Parses (appendText text parent h) r fun h' u _ => u = [] ∧ Grown h h' := by
  have hNew := (hLinked.createNode .text).modify h.length (f := setText text) fun _ hEnds => hEnds
  have hLength : ((createNode .text h).modify h.length (setText text)).length = h.length + 1 := by
    rw [length_modify, length_createNode]
  rw [appendText]
  have hThere : parent < h.length + 1 := Nat.lt_succ_of_lt hParent
  rw [← hLength] at hThere
  apply (parses_appendChild hNew hThere (by rw [hLength]; exact Nat.lt_succ_self _) r).mono
  rintro h' u rest _ ⟨rfl, hSame, hLinked'⟩
  exact ⟨rfl, by omega, hLinked'⟩

theorem reads_textRun (r : Text) : Parses (spanWhile fun ch => ch ≠ nul && ch ≠ '<') r fun text u rest =>
    text = u ∧ (r.headD nul ≠ '<' → rest.headD nul ≠ nul → 0 < u.length) := by
  apply (reads_spanWhile _).mono
  rintro text u rest hText ⟨rfl, -, hStop⟩
  refine ⟨rfl, ?_⟩
  intro hLess hNul
  cases text with
  | nil =>
    rw [hText, nil_append] at hLess
    cases rest with
    | nil => exact absurd rfl hNul
    | cons ch rest =>
      have hNot := hStop ch rfl
      simp only [Bool.and_eq_false_iff, decide_eq_false_iff_not, not_not] at hNot
      obtain h | h := hNot
      · exact absurd h hNul
      · exact absurd h hLess
  | cons ch text => exact Nat.succ_pos _

theorem parses_textNode (hLinked : Linked h) (hParent : parent < h.length) (r : Text) :
    Parses (parseTextNode parent h) r fun h' u rest =>
      Grown h h' ∧ (r.headD nul ≠ '<' → rest.headD nul ≠ nul → 0 < u.length) := by
  rw [parseTextNode]
  apply (reads_textRun r).bind
  rintro text u rest _ ⟨rfl, hRead⟩
  split
  · refine .pure ⟨⟨le_rfl, hLinked⟩, ?_⟩
    rw [List.append_nil]
    exact hRead
  · apply (parses_appendText hLinked hParent text rest).mono
    rintro h' v rest' hText ⟨rfl, hGrown⟩
    rw [nil_append] at hText
    rw [List.append_nil, ← hText]
    exact ⟨hGrown, hRead⟩

theorem parses_cDataNode (hLinked : Linked h) (hParent : parent < h.length) (r : Text) :
    Parses (parseCDataNode parent h) (['<', '!', '[', 'C', 'D', 'A', 'T', 'A', '['] ++ r) fun h' u _ =>
      Grown h h' ∧ 0 < u.length := by
  rw [parseCDataNode]
  apply (reads_advance ['<', '!', '[', 'C', 'D', 'A', 'T', 'A', '['] r).bind
  rintro _ u rest _ rfl
  apply (reads_through (by decide) nofun rest).bind
  rintro text u rest _ _
  apply (parses_appendText hLinked hParent text rest).mono
  rintro h' v rest' _ ⟨rfl, hGrown⟩
  exact ⟨hGrown, Nat.succ_pos _⟩

theorem parses_name (r : Text) : Parses parseName r fun _ u _ => 0 < u.length := by
  rw [parseName]
  apply Reads.deref
  split
  · next hStart =>
    have hNul : r.headD nul ≠ nul := by
      rintro hNul
      rw [hNul] at hStart
      exact absurd hStart (by decide)
    obtain ⟨r', hText⟩ := eq_cons_of_headD rfl hNul
    apply (reads_spanWhile isNameChar).mono
    rintro name u rest hParts ⟨rfl, -, hStop⟩
    cases name with
    | nil =>
      have hNot := hStop (r.headD nul) (by rw [← nil_append rest, ← hParts, hText]; rfl)
      rw [isNameChar, hStart] at hNot
      cases hNot
    | cons ch name => exact Nat.succ_pos _
  · exact .fail nofun

theorem parses_attribute (hLinked : Linked h) (node : NodeId) (r : Text) :
    Parses (parseAttribute node h) r fun h' u _ => (h'.length = h.length ∧ Linked h') ∧ 0 < u.length := by
  rw [parseAttribute]
  apply (parses_name r).bind
  rintro name u r₁ _ hRead
  apply (parses_skipSpaces r₁).bind
  rintro _ a r₂ _ _
  apply Reads.deref
  split
  · exact Reads.fail nofun
  next hEquals =>
  obtain ⟨r₃, rfl⟩ := eq_cons_of_headD (not_not.mp hEquals) (by decide)
  apply Reads.advance_one
  apply (parses_skipSpaces r₃).bind
  rintro _ b r₄ _ _
  apply Reads.deref
  split
  · exact Reads.fail nofun
  next hQuotes =>
  have hNul : r₄.headD nul ≠ nul := by
    rintro hNul
    rw [hNul] at hQuotes
    exact hQuotes (by decide)
  obtain ⟨r₅, hText⟩ := eq_cons_of_headD rfl hNul
  generalize r₄.headD nul = quote at hNul hText
  subst hText
  apply Reads.advance_one
  apply (reads_spanWhile _).bind
  rintro value v r₆ _ _
  apply Reads.deref
  split
  · exact Reads.fail nofun
  next hQuote =>
  obtain ⟨r₇, rfl⟩ := eq_cons_of_headD (not_not.mp hQuote) hNul
  apply Reads.advance_one
  refine Reads.pure ⟨⟨length_modify _ _ _, hLinked.modify node fun _ hEnds => hEnds⟩, ?_⟩
  rw [length_append]
  omega

theorem parses_attributeLoop (node : NodeId) (hRounds : r.length < rounds) (hLinked : Linked h) :
    Parses (attributeLoop node rounds h) r fun result _ _ => result.2.length = h.length ∧ Linked result.2 := by
  induction rounds generalizing r h with
  | zero => exact nomatch hRounds
  | succ rounds ih =>
    rw [attributeLoop]
    apply (parses_skipSpaces r).bind
    rintro _ a r hSpaces _
    have hBound := not_longer hSpaces
    apply (reads_startsWith (by decide)).bind
    rintro closed u _ _ ⟨rfl, rfl, hClosed⟩
    split
    · next hFound =>
      obtain ⟨r', rfl⟩ := of_decide_eq_true (hClosed.symm.trans hFound)
      apply (reads_advance ['/', '>'] r').bind
      rintro _ u rest _ rfl
      exact .pure ⟨rfl, hLinked⟩
    apply Reads.deref
    split
    · next hOpen =>
      obtain ⟨r', rfl⟩ := eq_cons_of_headD hOpen (by decide)
      apply Reads.advance_one
      exact Reads.pure ⟨rfl, hLinked⟩
    split
    · exact .fail nofun
    apply (parses_attribute hLinked node _).bind
    rintro h' u rest hText ⟨⟨hSame, hLinked'⟩, hRead⟩
    have hShorter := shorter hText hRead
    apply (ih (by omega) hLinked').mono
    rintro result v rest' _ ⟨hLength, hResult⟩
    exact ⟨hLength.trans hSame, hResult⟩

theorem parses_endTag (name r : Text) : Parses (parseEndTag name) r fun _ _ _ => True := by
  rw [parseEndTag]
  apply (parses_name r).bind
  rintro closingName u rest _ _
  split
  · exact .fail nofun
  apply (parses_skipSpaces rest).bind
  rintro _ a rest' _ _
  apply Reads.deref
  split
  · exact Reads.fail nofun
  next hClose =>
  obtain ⟨r', rfl⟩ := eq_cons_of_headD (not_not.mp hClose) (by decide)
  exact (reads_advance_one '>' r').mono fun _ _ _ _ _ => trivial

section Content

variable {p : Heap → Parser (NodeId × Heap)} {depth : Nat}
  (hParse : ∀ {h : Heap} {r : Text}, Linked h → r.length < depth →
    Parses (p h) r fun result u _ => result.1 < result.2.length ∧ Grown h result.2 ∧ 0 < u.length)
include hParse

theorem parses_contentLoop {node : NodeId} (name : Text) {rounds : Nat} {r : Text} (hRounds : r.length < rounds)
    (hDepth : r.length < depth) {h : Heap} (hNode : node < h.length) (hLinked : Linked h) :
    Parses (contentLoop p node name rounds h) r fun h' _ _ => Grown h h' := by
  induction rounds generalizing r h with
  | zero => exact nomatch hRounds
  | succ rounds ih =>
    have hAgain : ∀ {h' : Heap} {r' : Text}, Grown h h' → r'.length < r.length →
        Parses (contentLoop p node name rounds h') r' fun h'' _ _ => Grown h h'' := by
      intro h' r' hGrown hLess
      apply (ih (by omega) (by omega) (hNode.trans_le hGrown.1) hGrown.2).mono
      intro h'' _ _ _ hMore
      exact ⟨hGrown.1.trans hMore.1, hMore.2⟩
    have hSame : Grown h h := ⟨le_rfl, hLinked⟩
    rw [contentLoop]
    apply (reads_startsWith (by decide)).bind
    rintro endTag u _ _ ⟨rfl, rfl, hEndTag⟩
    split
    · next hFound =>
      obtain ⟨r', rfl⟩ := of_decide_eq_true (hEndTag.symm.trans hFound)
      apply (reads_advance ['<', '/'] r').bind
      rintro _ u rest _ rfl
      apply (parses_endTag name rest).bind
      rintro _ v rest' _ _
      exact .pure hSame
    apply (reads_startsWith (by decide)).bind
    rintro comment u _ _ ⟨rfl, rfl, hComment⟩
    split
    · next hFound =>
      obtain ⟨r', rfl⟩ := of_decide_eq_true (hComment.symm.trans hFound)
      apply (parses_skipComment r').bind
      intro _ u rest hText hRead
      exact hAgain hSame (shorter hText hRead)
    apply (reads_startsWith (by decide)).bind
    rintro cdata u _ _ ⟨rfl, rfl, hCData⟩
    split
    · next hFound =>
      obtain ⟨r', rfl⟩ := of_decide_eq_true (hCData.symm.trans hFound)
      apply (parses_cDataNode hLinked hNode r').bind
      rintro h' u rest hText ⟨hGrown, hRead⟩
      exact hAgain hGrown (shorter hText hRead)
    apply (reads_startsWith (by decide)).bind
    rintro instruction u _ _ ⟨rfl, rfl, hInstruction⟩
    split
    · next hFound =>
      obtain ⟨r', rfl⟩ := of_decide_eq_true (hInstruction.symm.trans hFound)
      apply (parses_skipInstruction r').bind
      intro _ u rest hText hRead
      exact hAgain hSame (shorter hText hRead)
    apply Reads.deref
    split
    · apply (hParse hLinked hDepth).bind
      rintro ⟨child, h'⟩ u rest hText ⟨hChild, hGrown, hRead⟩
      apply (parses_appendChild hGrown.2 (hNode.trans_le hGrown.1) hChild rest).bind
      rintro h'' v rest' hText' ⟨rfl, hLength, hLinked''⟩
      refine hAgain ⟨by rw [hLength]; exact hGrown.1, hLinked''⟩ ?_
      rw [nil_append] at hText'
      rw [← hText']
      exact shorter hText hRead
    · next hLess =>
      apply (parses_textNode hLinked hNode _).bind
      rintro h' u rest hText ⟨hGrown, hRead⟩
      apply Reads.deref
      split
      · exact Reads.fail nofun
      next hMore => exact hAgain hGrown (shorter hText (hRead hLess hMore))

end Content

theorem parses_element {depth : Nat} (hLinked : Linked h) (hDepth : r.length < depth) :
    Parses (parseElement depth h) r fun result u _ => result.1 < result.2.length ∧ Grown h result.2 ∧ 0 < u.length := by
  induction depth generalizing h r with
  | zero => exact nomatch hDepth
  | succ depth ih =>
    rw [parseElement]
    apply Reads.deref
    split
    · exact Reads.fail nofun
    next hOpen =>
    obtain ⟨r, rfl⟩ := eq_cons_of_headD (not_not.mp hOpen) (by decide)
    apply Reads.advance_one
    apply (parses_name r).bind
    rintro name u r₁ hText₁ hRead
    apply Reads.here
    have hNew := (hLinked.createNode .element).modify h.length (f := setName name) fun _ hEnds => hEnds
    have hLength : ((createNode .element h).modify h.length (setName name)).length = h.length + 1 := by
      rw [length_modify, length_createNode]
    apply (parses_attributeLoop h.length (Nat.lt_succ_self _) hNew).bind
    rintro ⟨closed, h₁⟩ v r₂ hText₂ ⟨hSame, hLinked₁⟩
    have hNode : h.length < h₁.length := by
      rw [hSame, hLength]
      exact Nat.lt_succ_self _
    cases closed with
    | true => exact .pure ⟨hNode, ⟨hNode.le, hLinked₁⟩, Nat.succ_pos _⟩
    | false =>
      apply Reads.here
      have hShorter : r₂.length < depth := by
        have hFirst := not_longer hText₁
        have hSecond := not_longer hText₂
        rw [List.length_cons] at hDepth
        omega
      apply (parses_contentLoop ih name (Nat.lt_succ_self _) hShorter hNode hLinked₁).bind
      rintro h₂ w r₃ _ hGrown
      have hAll : Grown h h₂ := ⟨(Nat.le_of_lt hNode).trans hGrown.1, hGrown.2⟩
      exact .pure ⟨hNode.trans_le hGrown.1, hAll, Nat.succ_pos _⟩

def NoTreeOnError (result : Option (ParseResult × Option NodeId × Heap)) : Prop :=
  ∃ e root h, result = some (e, root, h) ∧ (e ≠ .ok → root = none)

theorem parseEpilog_ends (root : NodeId) (h : Heap) (r : Text) : NoTreeOnError (parseEpilog root h (some r)) := by
  have hParses : Parses (do skipMisc; deref) r fun _ _ _ => True := by
    apply (parses_skipMisc r).bind
    intro _ u rest _ _
    exact reads_deref.mono fun _ _ _ _ _ => trivial
  rw [Parses, Reads] at hParses
  rw [parseEpilog]
  revert hParses
  generalize (do skipMisc; deref : Parser Char) (some r) = outcome
  intro hParses
  cases outcome with
  | ok ch c =>
    change NoTreeOnError (if ch ≠ nul then _ else _)
    split
    · exact ⟨_, _, _, rfl, fun _ => rfl⟩
    · exact ⟨_, _, _, rfl, fun hError => absurd rfl hError⟩
  | error e => exact ⟨_, _, _, rfl, fun _ => rfl⟩
  | fault => exact hParses.elim
  | spent => exact hParses.elim

theorem parseXml_ends (xmlText : Text) : NoTreeOnError (parseXml xmlText) := by
  have hParses : Parses (do skipMisc; let cursor ← here; parseElement (rounds cursor) []) xmlText
      fun _ _ _ => True := by
    apply (parses_skipMisc xmlText).bind
    intro _ u rest _ _
    apply Reads.here
    exact (parses_element (fun _ h => absurd h List.not_mem_nil) (Nat.lt_succ_self _)).mono fun _ _ _ _ _ => trivial
  rw [Parses, Reads] at hParses
  rw [parseXml]
  revert hParses
  generalize (do skipMisc; let cursor ← here; parseElement (rounds cursor) [] : Parser (NodeId × Heap)) (some xmlText) =
    outcome
  intro hParses
  cases outcome with
  | ok result c =>
    obtain ⟨u, rest, -, rfl, -⟩ := hParses
    exact parseEpilog_ends result.1 result.2 rest
  | error e => exact ⟨_, _, _, rfl, fun _ => rfl⟩
  | fault => exact hParses.elim
  | spent => exact hParses.elim

end OpenXJ380.Xml
