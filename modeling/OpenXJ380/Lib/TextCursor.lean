import Mathlib.Data.List.TakeWhile

/-! # Reading a text that ends in a NUL

A cursor is what is left of the text; it stands on the NUL when nothing is left, and it
may go one past it, but nothing can be read there. A parser fails with an error of its
own, runs into such a read, or has no rounds left.
-/

namespace TextCursor

open List (append_assoc append_nil cons_append length_append mem_cons nil_append)

universe u v w

abbrev Text := List Char

/-- What is left before the NUL; `none` is past it. -/
abbrev Cursor := Option Text

inductive Outcome (ε : Type u) (α : Type v) where
  | ok (a : α) (cursor : Cursor)
  | error (e : ε)
  | fault
  | spent
deriving DecidableEq

def Parse (ε : Type u) (α : Type v) := Cursor → Outcome ε α

variable {ε : Type u} {α β : Type v}

def Parse.pure (a : α) : Parse ε α := fun c => .ok a c

def Parse.bind (p : Parse ε α) (f : α → Parse ε β) : Parse ε β := fun c =>
  match p c with
  | .ok a c => f a c
  | .error e => .error e
  | .fault => .fault
  | .spent => .spent

instance : Monad (Parse ε) where
  pure := Parse.pure
  bind := Parse.bind

def nul : Char := Char.ofNat 0

def fail (e : ε) : Parse ε α := fun _ => .error e

def outOfRounds : Parse ε α := fun _ => .spent

/-- `*cursor`. -/
def deref : Parse ε Char := fun c =>
  match c with
  | none => .fault
  | some r => .ok (r.headD nul) (some r)

/-- `cursor[i]`. -/
def peek (i : Nat) : Parse ε Char := fun c =>
  match c with
  | none => .fault
  | some r => if i ≤ r.length then .ok (r.getD i nul) (some r) else .fault

/-- `cursor += n`. -/
def advance (n : Nat) : Parse ε PUnit := fun c =>
  .ok ⟨⟩ (c.bind fun r => if n ≤ r.length then some (r.drop n) else none)

def skipWhile (p : Char → Bool) : Parse ε PUnit := fun c =>
  match c with
  | none => .fault
  | some r => .ok ⟨⟩ (some (r.dropWhile p))

def spanWhile (p : Char → Bool) : Parse ε Text := fun c =>
  match c with
  | none => .fault
  | some r => .ok (r.takeWhile p) (some (r.dropWhile p))

/-- Whether the text goes on like a pattern; it is read up to the first difference. -/
def startsWith : Text → Nat → Parse ε Bool
  | [], _ => pure true
  | ch :: pattern, i => do
    let text ← peek i
    if text ≠ ch then pure false else startsWith pattern (i + 1)

def here : Parse ε Cursor := fun c => .ok c c

def between (start stop : Cursor) : Text :=
  match start, stop with
  | some r, some r' => r.take (r.length - r'.length)
  | _, _ => []

def rounds (c : Cursor) : Nat := (c.elim 0 List.length) + 1

def throughLoop (pattern : Text) (e : ε) : Nat → Text → Parse ε Text
  | 0, _ => outOfRounds
  | more + 1, copy => do
    let ch ← deref
    if ch = nul then fail e
    else do
      let found ← startsWith pattern 0
      if found then do
        advance pattern.length
        pure copy
      else do
        advance 1
        throughLoop pattern e more (copy ++ [ch])

/-- Up to the first place where the pattern is and past it, with a copy of what comes before. -/
def through (pattern : Text) (e : ε) : Parse ε Text := do
  let cursor ← here
  throughLoop pattern e (rounds cursor) []

variable {p : Parse ε α} {f : α → Parse ε β} {a : α} {c c' : Cursor} {r : Text}

theorem pure_eq : (pure a : Parse ε α) c = .ok a c := rfl

theorem bind_ok (h : p c = .ok a c') : (p >>= f) c = f a c' := by
  change Parse.bind p f c = f a c'
  rw [Parse.bind, h]

theorem ok_of_bind {b : β} (h : (p >>= f) c = .ok b c') : ∃ a m, p c = .ok a m ∧ f a m = .ok b c' := by
  change Parse.bind p f c = .ok b c' at h
  rw [Parse.bind] at h
  cases hRun : p c with
  | ok a m =>
    rw [hRun] at h
    exact ⟨a, m, rfl, h⟩
  | error | fault | spent =>
    rw [hRun] at h
    cases h

theorem here_eq : (here : Parse ε Cursor) c = .ok c c := rfl

theorem deref_cons (ch : Char) (r : Text) : (deref : Parse ε Char) (some (ch :: r)) = .ok ch (some (ch :: r)) := rfl

theorem deref_nil : (deref : Parse ε Char) (some []) = .ok nul (some []) := rfl

theorem advance_one (ch : Char) (r : Text) : (advance 1 : Parse ε PUnit) (some (ch :: r)) = .ok ⟨⟩ (some r) := by
  rw [advance, Option.bind_some, if_pos (by rw [List.length_cons]; omega)]
  rfl

theorem deref_bind {β : Type} {f : Char → Parse ε β} (ch : Char) (r : Text) :
    (deref >>= f) (some (ch :: r)) = f ch (some (ch :: r)) := bind_ok (deref_cons ch r)

theorem advance_bind {β : Type} {f : PUnit → Parse ε β} (ch : Char) (r : Text) :
    (advance 1 >>= f) (some (ch :: r)) = f ⟨⟩ (some r) := bind_ok (advance_one ch r)

theorem advance_append (u r : Text) : (advance u.length : Parse ε PUnit) (some (u ++ r)) = .ok ⟨⟩ (some r) := by
  rw [advance, Option.bind_some, if_pos (by rw [length_append]; omega), List.drop_left]

theorem peek_of_lt {i : Nat} (h : i < r.length) : (peek i : Parse ε Char) (some r) = .ok r[i] (some r) := by
  rw [peek]
  rw [if_pos h.le, List.getD_eq_getElem?_getD, List.getElem?_eq_getElem h, Option.getD_some]

theorem peek_end : (peek r.length : Parse ε Char) (some r) = .ok nul (some r) := by
  rw [peek]
  rw [if_pos le_rfl, List.getD_eq_getElem?_getD, List.getElem?_eq_none le_rfl, Option.getD_none]

theorem between_append (u r : Text) : between (some (u ++ r)) (some r) = u := by
  rw [between, length_append, Nat.add_sub_cancel, List.take_left]

theorem skipWhile_append {q : Char → Bool} {u r : Text} (hAll : ∀ ch ∈ u, q ch)
    (hStop : ∀ ch ∈ r.head?, q ch = false) : (skipWhile q : Parse ε PUnit) (some (u ++ r)) = .ok ⟨⟩ (some r) := by
  rw [skipWhile]
  rw [List.dropWhile_append_of_pos hAll]
  cases r with
  | nil => rfl
  | cons ch r => rw [List.dropWhile_cons_of_neg (by rw [hStop ch rfl]; exact Bool.noConfusion)]

theorem spanWhile_append {q : Char → Bool} {u r : Text} (hAll : ∀ ch ∈ u, q ch)
    (hStop : ∀ ch ∈ r.head?, q ch = false) : (spanWhile q : Parse ε Text) (some (u ++ r)) = .ok u (some r) := by
  rw [spanWhile]
  rw [List.dropWhile_append_of_pos hAll, List.takeWhile_append_of_pos hAll]
  cases r with
  | nil => rw [List.takeWhile_nil, append_nil, List.dropWhile_nil]
  | cons ch r =>
    have hNot : ¬ q ch := by
      rw [hStop ch rfl]
      exact Bool.noConfusion
    rw [List.takeWhile_cons_of_neg hNot, append_nil, List.dropWhile_cons_of_neg hNot]

theorem startsWith_eq {pattern r : Text} (hText : nul ∉ pattern) {i : Nat} (hi : i ≤ r.length) :
    (startsWith pattern i : Parse ε Bool) (some r) = .ok (decide (pattern <+: r.drop i)) (some r) := by
  induction pattern generalizing i with
  | nil => rw [startsWith, pure_eq, decide_eq_true List.nil_prefix]
  | cons ch pattern ih =>
    rw [mem_cons, not_or] at hText
    obtain ⟨hFirst, hRest⟩ := hText
    rw [startsWith]
    obtain hLess | hEnd := Nat.lt_or_eq_of_le hi
    · rw [bind_ok (peek_of_lt hLess), List.drop_eq_getElem_cons hLess]
      split
      · next hNe => rw [pure_eq, decide_eq_false fun h => hNe (List.cons_prefix_cons.mp h).1.symm]
      · next hEq =>
        rw [ih hRest hLess]
        congr 1
        apply decide_eq_decide.mpr
        rw [List.cons_prefix_cons]
        exact ⟨fun h => ⟨(not_not.mp hEq).symm, h⟩, And.right⟩
    · rw [hEnd, bind_ok peek_end, if_pos hFirst, pure_eq, List.drop_length, decide_eq_false]
      intro h
      cases List.prefix_nil.mp h

theorem startsWith_then {β : Type} {pattern : Text} {yes no : Parse ε β} (hText : nul ∉ pattern)
    (hPrefix : pattern <+: r) : (startsWith pattern 0 >>= fun b => if b then yes else no) (some r) = yes (some r) := by
  rw [bind_ok (startsWith_eq hText (Nat.zero_le _)), List.drop_zero, decide_eq_true hPrefix, if_pos rfl]

theorem startsWith_else {β : Type} {pattern : Text} {yes no : Parse ε β} (hText : nul ∉ pattern)
    (hNot : ¬ pattern <+: r) : (startsWith pattern 0 >>= fun b => if b then yes else no) (some r) = no (some r) := by
  rw [bind_ok (startsWith_eq hText (Nat.zero_le _)), List.drop_zero, decide_eq_false hNot, if_neg Bool.false_ne_true]

theorem not_prefix_before {p w rest : Text} {z : Char} (hLast : z ∉ p) (hNot : ¬ p ++ [z] <:+: w) (hBefore : w ≠ []) :
    ¬ p ++ [z] <+: w ++ (p ++ [z] ++ rest) := by
  rintro ⟨s, hEq⟩
  obtain ⟨a, hPattern, hRest⟩ | ⟨a, hWhole, -⟩ := List.append_eq_append_iff.mp hEq.symm
  · obtain rfl | ⟨a, y, rfl⟩ := List.eq_nil_or_concat a
    · rw [append_nil] at hPattern
      exact hNot ⟨[], [], by rw [hPattern, nil_append, append_nil]⟩
    -- The pattern would end inside itself.
    rw [List.concat_eq_append, ← append_assoc] at hPattern
    obtain ⟨hStart, hEnd⟩ := List.append_inj' hPattern rfl
    cases hEnd
    have hLonger : a.length < p.length := by
      rw [hStart, length_append]
      have hPositive := List.length_pos_iff.mpr hBefore
      omega
    rw [List.concat_eq_append, append_assoc, append_assoc] at hRest
    obtain ⟨c, hLong, -⟩ | ⟨c, hShort, hNext⟩ := List.append_eq_append_iff.mp hRest
    · rw [hLong, length_append] at hLonger
      omega
    · cases c with
      | nil =>
        rw [hShort, append_nil] at hLonger
        omega
      | cons ch c =>
        cases hNext
        exact hLast (by rw [hShort]; exact List.mem_append_right _ (.head _))
  · exact hNot ⟨[], a, by rw [hWhole, nil_append]⟩

theorem throughLoop_append {p body rest : Text} {z : Char} {e : ε} (hLast : z ∉ p) (hPattern : nul ∉ p ++ [z])
    (hNot : ¬ p ++ [z] <:+: body) (hBody : nul ∉ body) {rounds : Nat} (hRounds : body.length < rounds) (copy : Text) :
    throughLoop (p ++ [z]) e rounds copy (some (body ++ (p ++ [z] ++ rest))) = .ok (copy ++ body) (some rest) := by
  induction body generalizing rounds copy with
  | nil =>
    cases rounds with
    | zero => exact nomatch hRounds
    | succ rounds =>
      have hFirst : ∃ ch t, p ++ [z] ++ rest = ch :: t ∧ ch ≠ nul := by
        cases p with
        | nil => exact ⟨z, rest, rfl, fun h => hPattern (by rw [← h]; exact .head _)⟩
        | cons ch p => exact ⟨ch, p ++ [z] ++ rest, rfl, fun h => hPattern (by rw [← h]; exact .head _)⟩
      obtain ⟨ch, t, hText, hNul⟩ := hFirst
      have hDeref : (deref : Parse ε Char) (some (p ++ [z] ++ rest)) = .ok ch (some (p ++ [z] ++ rest)) := by
        rw [hText, deref_cons]
      rw [throughLoop, nil_append, bind_ok hDeref, if_neg hNul,
        startsWith_then hPattern (List.prefix_append _ rest), bind_ok (advance_append _ rest), append_nil, pure_eq]
  | cons ch body ih =>
    cases rounds with
    | zero => exact nomatch hRounds
    | succ rounds =>
      rw [mem_cons, not_or] at hBody
      have hHere := @not_prefix_before p (ch :: body) rest z hLast hNot (List.cons_ne_nil _ _)
      have hThere : ¬ p ++ [z] <:+: body := fun h => hNot (h.trans (List.suffix_cons ch body).isInfix)
      rw [throughLoop, cons_append, deref_bind, if_neg (Ne.symm hBody.1), ← cons_append, startsWith_else hPattern hHere,
        cons_append, advance_bind, ih hThere hBody.2 (Nat.lt_of_succ_lt_succ hRounds), append_assoc,
        List.singleton_append]

theorem through_append {p body rest : Text} {z : Char} {e : ε} (hLast : z ∉ p) (hPattern : nul ∉ p ++ [z])
    (hNot : ¬ p ++ [z] <:+: body) (hBody : nul ∉ body) :
    through (p ++ [z]) e (some (body ++ (p ++ [z] ++ rest))) = .ok body (some rest) := by
  have hRounds : body.length < rounds (some (body ++ (p ++ [z] ++ rest))) := by
    rw [rounds, Option.elim_some, length_append]
    omega
  rw [through, bind_ok here_eq, throughLoop_append hLast hPattern hNot hBody hRounds, nil_append]

/-- The parser ends and reads nothing past the NUL. If it succeeds it has gone over a part of the text of which the
postcondition holds, else its error is one of those allowed. -/
def Reads (E : ε → Prop) (p : Parse ε α) (r : Text) (Q : α → Text → Text → Prop) : Prop :=
  match p (some r) with
  | .ok a c => ∃ u rest, r = u ++ rest ∧ c = some rest ∧ Q a u rest
  | .error e => E e
  | .fault => False
  | .spent => False

variable {E : ε → Prop} {Q : α → Text → Text → Prop} {Q' : β → Text → Text → Prop}

theorem Reads.ok (h : Reads E p r Q) (hOk : p (some r) = .ok a c) :
    ∃ u rest, r = u ++ rest ∧ c = some rest ∧ Q a u rest := by
  rw [Reads, hOk] at h
  exact h

theorem Reads.mono {Q₂ : α → Text → Text → Prop} (h : Reads E p r Q)
    (hPost : ∀ a u rest, r = u ++ rest → Q a u rest → Q₂ a u rest) : Reads E p r Q₂ := by
  rw [Reads] at h ⊢
  cases hRun : p (some r) with
  | ok a c =>
    rw [hRun] at h
    obtain ⟨u, rest, hText, hCursor, hQ⟩ := h
    exact ⟨u, rest, hText, hCursor, hPost a u rest hText hQ⟩
  | error e =>
    rw [hRun] at h
    exact h
  | fault =>
    rw [hRun] at h
    exact h
  | spent =>
    rw [hRun] at h
    exact h

theorem Reads.pure (h : Q a [] r) : Reads E (Pure.pure a : Parse ε α) r Q := ⟨[], r, rfl, rfl, h⟩

theorem Reads.fail {e : ε} (h : E e) : Reads E (fail e : Parse ε α) r Q := h

theorem Reads.bind (h : Reads E p r Q)
    (hNext : ∀ a u rest, r = u ++ rest → Q a u rest → Reads E (f a) rest fun b v rest' => Q' b (u ++ v) rest') :
    Reads E (p >>= f) r Q' := by
  rw [Reads] at h
  change Reads E (.bind p f) r Q'
  rw [Reads, Parse.bind]
  cases hRun : p (some r) with
  | ok a c =>
    rw [hRun] at h
    obtain ⟨u, rest, hText, hCursor, hQ⟩ := h
    subst hCursor
    have hAfter := hNext a u rest hText hQ
    rw [Reads] at hAfter
    simp only
    cases hNextRun : f a (some rest) with
    | ok b c' =>
      rw [hNextRun] at hAfter
      obtain ⟨v, rest', hText', hCursor', hQ'⟩ := hAfter
      refine ⟨u ++ v, rest', ?_, hCursor', hQ'⟩
      rw [hText, hText', append_assoc]
    | error e =>
      rw [hNextRun] at hAfter
      exact hAfter
    | fault =>
      rw [hNextRun] at hAfter
      exact hAfter
    | spent =>
      rw [hNextRun] at hAfter
      exact hAfter
  | error e =>
    rw [hRun] at h
    exact h
  | fault =>
    rw [hRun] at h
    exact h
  | spent =>
    rw [hRun] at h
    exact h

theorem reads_deref : Reads E (deref : Parse ε Char) r fun ch u rest => u = [] ∧ rest = r ∧ ch = r.headD nul :=
  ⟨[], r, rfl, rfl, rfl, rfl, rfl⟩

theorem reads_startsWith {pattern : Text} (hText : nul ∉ pattern) :
    Reads E (startsWith pattern 0 : Parse ε Bool) r fun b u rest => u = [] ∧ rest = r ∧ b = decide (pattern <+: r) := by
  rw [Reads, startsWith_eq hText (Nat.zero_le _)]
  exact ⟨[], r, rfl, rfl, rfl, rfl, rfl⟩

theorem reads_here : Reads E (here : Parse ε Cursor) r fun c u rest => u = [] ∧ rest = r ∧ c = some r :=
  ⟨[], r, rfl, rfl, rfl, rfl, rfl⟩

theorem reads_skipWhile (q : Char → Bool) : Reads E (skipWhile q : Parse ε PUnit) r fun _ u rest =>
      (∀ ch ∈ u, q ch) ∧ ∀ ch ∈ rest.head?, q ch = false := by
  refine ⟨r.takeWhile q, r.dropWhile q, List.takeWhile_append_dropWhile.symm, rfl,
    fun ch h => List.mem_takeWhile_imp h, ?_⟩
  intro ch hHead
  have hNot := List.head?_dropWhile_not q r
  rw [Option.mem_def.mp hHead] at hNot
  exact hNot

theorem reads_spanWhile (q : Char → Bool) : Reads E (spanWhile q : Parse ε Text) r fun copy u rest =>
      copy = u ∧ (∀ ch ∈ u, q ch) ∧ ∀ ch ∈ rest.head?, q ch = false := by
  refine ⟨r.takeWhile q, r.dropWhile q, List.takeWhile_append_dropWhile.symm, rfl, rfl,
    fun ch h => List.mem_takeWhile_imp h, ?_⟩
  intro ch hHead
  have hNot := List.head?_dropWhile_not q r
  rw [Option.mem_def.mp hHead] at hNot
  exact hNot

theorem reads_advance (word rest : Text) :
    Reads E (advance word.length : Parse ε PUnit) (word ++ rest) fun _ u _ => u = word := by
  rw [Reads, advance_append]
  exact ⟨word, rest, rfl, rfl, rfl⟩

theorem reads_advance_one (ch : Char) (r : Text) :
    Reads E (advance 1 : Parse ε PUnit) (ch :: r) fun _ u rest => u = [ch] ∧ rest = r := by
  rw [Reads, advance_one]
  exact ⟨[ch], r, rfl, rfl, rfl, rfl⟩

variable {γ : Type} {P : γ → Text → Text → Prop}

theorem Reads.deref {f : Char → Parse ε γ} (h : Reads E (f (r.headD nul)) r P) : Reads E (deref >>= f) r P := by
  apply reads_deref.bind
  rintro ch u rest _ ⟨rfl, rfl, rfl⟩
  exact h

theorem Reads.here {f : Cursor → Parse ε γ} (h : Reads E (f (some r)) r P) : Reads E (here >>= f) r P := by
  apply reads_here.bind
  rintro c u rest _ ⟨rfl, rfl, rfl⟩
  exact h

theorem Reads.advance_one {f : PUnit → Parse ε γ} {ch : Char}
    (h : Reads E (f ⟨⟩) r fun b v rest => P b (ch :: v) rest) : Reads E (advance 1 >>= f) (ch :: r) P := by
  apply (reads_advance_one ch r).bind
  rintro _ u rest _ ⟨rfl, rfl⟩
  exact h

theorem reads_throughLoop {pattern : Text} {e : ε} (hPattern : nul ∉ pattern) (hError : E e) {rounds : Nat}
    (hRounds : r.length < rounds) (copy : Text) :
    Reads E (throughLoop pattern e rounds copy) r fun _ u _ => pattern.length ≤ u.length := by
  induction rounds generalizing r copy with
  | zero => exact nomatch hRounds
  | succ rounds ih =>
    rw [throughLoop]
    apply Reads.deref
    cases r with
    | nil => exact Reads.fail hError
    | cons ch r =>
      rw [List.headD_cons]
      cases eq_or_ne ch nul with
      | inl hNul =>
        rw [if_pos hNul]
        exact .fail hError
      | inr hNul =>
        rw [if_neg hNul]
        apply (reads_startsWith hPattern).bind
        rintro found u rest _ ⟨rfl, rfl, hFound⟩
        cases found with
        | true =>
          obtain ⟨rest, hText⟩ := of_decide_eq_true hFound.symm
          rw [← hText, if_pos rfl]
          apply (reads_advance pattern rest).bind
          rintro _ u rest' _ rfl
          exact .pure (Nat.le_of_eq (by rw [nil_append, append_nil]))
        | false =>
          rw [if_neg Bool.false_ne_true]
          apply Reads.advance_one
          apply (ih (Nat.lt_of_succ_lt_succ hRounds) (copy ++ [ch])).mono
          intro _ u _ _ hLength
          exact Nat.le_succ_of_le hLength

theorem reads_through {pattern : Text} {e : ε} (hPattern : nul ∉ pattern) (hError : E e) (r : Text) :
    Reads E (through pattern e) r fun _ u _ => pattern.length ≤ u.length := by
  rw [through]
  apply Reads.here
  exact reads_throughLoop hPattern hError (Nat.lt_succ_self _) []

theorem Reads.advance_end {f : PUnit → Parse ε γ} {e : ε} (h : f ⟨⟩ none = .error e) (hError : E e) :
    Reads E (advance 1 >>= f) [] P := by
  have hRun : (advance 1 >>= f) (some []) = f ⟨⟩ none := rfl
  rw [Reads, hRun, h]
  exact hError

theorem eq_cons_of_headD {ch : Char} (h : r.headD nul = ch) (hNe : ch ≠ nul) : ∃ rest, r = ch :: rest := by
  cases r with
  | nil => exact absurd h.symm hNe
  | cons first rest => exact ⟨rest, by rw [← h]; rfl⟩

end TextCursor
