import Mathlib.Data.List.TakeWhile

/-! # The command line (`arch/arm32/include/arch/shell.h`, `arch/arm32/src/shell.c`)

A line of 63 characters at most is edited, split into a word and its arguments, and the word
is looked up among the commands. A line that did not fit is not executed.
-/

namespace OpenXJ380.Shell

open Function

abbrev Memory := Nat → Char

def nul : Char := '\x00'

def shellLineMax : Nat := 64

structure ShellLine where
  buf : Memory
  len : Nat
  overflow : Bool

inductive ShellAct where
  | ignored
  | echo
  | erase
  | submit
  | cancel
  deriving DecidableEq

def charCR : Char := '\x0d'

def charLF : Char := '\x0a'

def charBS : Char := '\x08'

def charDEL : Char := '\x7f'

def charCtrlC : Char := '\x03'

def charCtrlU : Char := '\x15'

def shellLineReset (line : ShellLine) : ShellLine where
  buf := update line.buf 0 nul
  len := 0
  overflow := false

def shellLineFeed (line : ShellLine) (c : Char) : ShellLine × ShellAct :=
  if c = charCR ∨ c = charLF then ({ line with buf := update line.buf line.len nul }, .submit)
  else if c = charBS ∨ c = charDEL then
    if line.len = 0 then (line, .ignored)
    else ({ line with buf := update line.buf (line.len - 1) nul, len := line.len - 1 }, .erase)
  else if c = charCtrlC ∨ c = charCtrlU then (shellLineReset line, .cancel)
  else if c.toNat < 0x20 ∨ 0x7e < c.toNat then (line, .ignored)
  else if shellLineMax - 1 ≤ line.len then ({ line with overflow := true }, .ignored)
  else
    ({ line with
      buf := update (update line.buf line.len c) (line.len + 1) nul
      len := line.len + 1 }, .echo)

def blank (c : Char) : Bool := c = ' ' ∨ c = '\t'

def wordChar (c : Char) : Bool := c ≠ nul ∧ blank c = false

def scan (buf : Memory) (inside : Char → Bool) : Nat → Nat → Nat
  | 0, p => p
  | rounds + 1, p => if inside (buf p) then scan buf inside rounds (p + 1) else p

/-- The memory afterwards, the name and the arguments. No loop takes more rounds than the line has characters. -/
def shellSplit (rounds : Nat) (line : Memory) : Memory × Nat × Nat :=
  let name := scan line blank rounds 0
  let p := scan line wordChar rounds name
  if line p ≠ nul then
    let line := update line p nul
    (line, name, scan line blank rounds (p + 1))
  else (line, name, p)

def textAt (buf : Memory) : Nat → Nat → List Char
  | 0, _ => []
  | rounds + 1, p => if buf p = nul then [] else buf p :: textAt buf rounds (p + 1)

structure ShellCmd where
  name : Option (List Char)
  help : List Char

def sameText : List Char → List Char → Bool
  | [], [] => true
  | a :: as, b :: bs => if a = b then sameText as bs else false
  | _, _ => false

def shellLookup (cmds : List ShellCmd) (name : List Char) : Option ShellCmd :=
  if name = [] then none
  else
    cmds.find? fun cmd =>
      match cmd.name with
      | none => false
      | some a => sameText a name

inductive Outcome where
  | tooLong
  | empty
  | unknown (name : List Char)
  | run (cmd : ShellCmd) (args : List Char)

def shellExecute (commands : List ShellCmd) (line : ShellLine) : ShellLine × Outcome :=
  if line.overflow then (line, .tooLong)
  else
    let (buf, name, args) := shellSplit shellLineMax line.buf
    let line := { line with buf }
    let name := textAt buf shellLineMax name
    if name = [] then (line, .empty)
    else
      match shellLookup commands name with
      | none => (line, .unknown name)
      | some cmd => (line, .run cmd (textAt buf shellLineMax args))

/-- One round of `shell_poll`, which resets the line after a cancel and after a submit. -/
def shellPollChar (commands : List ShellCmd) (line : ShellLine) (c : Char) : ShellLine × Option Outcome :=
  match shellLineFeed line c with
  | (line, .submit) => (shellLineReset (shellExecute commands line).1, some (shellExecute commands line).2)
  | (line, .cancel) => (shellLineReset line, none)
  | (line, _) => (line, none)

def shellPoll (commands : List ShellCmd) (line : ShellLine) (input : List Char) : ShellLine :=
  input.foldl (fun line c => (shellPollChar commands line c).1) line

/-! # A line is executed whole or not at all

The line of the shell is compared with that of an editor that has no bound.
-/

variable {buf : Memory} {p k rounds : Nat} {t w : List Char} {line : ShellLine} {c : Char}

def TextAt (buf : Memory) : Nat → List Char → Prop
  | p, [] => buf p = nul
  | p, c :: t => (buf p = c ∧ c ≠ nul) ∧ TextAt buf (p + 1) t

theorem textAt_eq (h : TextAt buf p t) (hRounds : t.length ≤ rounds) : textAt buf rounds p = t := by
  induction rounds generalizing p t with
  | zero =>
    rw [List.eq_nil_of_length_eq_zero (Nat.le_zero.mp hRounds)]
    rfl
  | succ rounds ih =>
    rw [textAt]
    cases t with
    | nil => exact if_pos h
    | cons c t =>
      obtain ⟨⟨hChar, hNul⟩, hRest⟩ := h
      rw [if_neg (hChar ▸ hNul), hChar, ih hRest (Nat.le_of_succ_le_succ hRounds)]

theorem TextAt.after (h : TextAt buf p t) (hk : k < p) (c : Char) : TextAt (update buf k c) p t := by
  induction t generalizing p with
  | nil => exact (update_of_ne (by omega) _ _).trans h
  | cons d t ih => exact ⟨⟨(update_of_ne (by omega) _ _).trans h.1.1, h.1.2⟩, ih h.2 (by omega)⟩

theorem TextAt.cut (h : TextAt buf p (w ++ t)) : TextAt (update buf (p + w.length) nul) p w := by
  induction w generalizing p with
  | nil => exact update_self ..
  | cons c w ih =>
    obtain ⟨⟨hChar, hNul⟩, hRest⟩ := h
    have hPlace : p + (c :: w).length = p + 1 + w.length := by
      rw [List.length_cons]
      omega
    rw [hPlace]
    exact ⟨⟨(update_of_ne (by omega) _ _).trans hChar, hNul⟩, ih hRest⟩

theorem textAt_of_chars (h : ∀ i (hi : i < t.length), buf (p + i) = t[i]) (hNul : nul ∉ t)
    (hEnd : buf (p + t.length) = nul) : TextAt buf p t := by
  induction t generalizing p with
  | nil => exact hEnd
  | cons c t ih =>
    have hPlace (i : Nat) : p + 1 + i = p + (i + 1) := by omega
    refine ⟨⟨h 0 (Nat.succ_pos _), fun hc => hNul (hc ▸ (.head _))⟩, ih ?_ ?_ ?_⟩
    · intro i hi
      rw [hPlace]
      exact h (i + 1) (Nat.succ_lt_succ hi)
    · exact fun hMem => hNul (.tail c hMem)
    · rw [hPlace]
      exact hEnd

theorem scan_spec {inside : Char → Bool} (hInside : inside nul = false) (h : TextAt buf p t)
    (hRounds : t.length ≤ rounds) :
    scan buf inside rounds p = p + (t.takeWhile inside).length ∧
      TextAt buf (scan buf inside rounds p) (t.dropWhile inside) := by
  induction rounds generalizing p t with
  | zero =>
    obtain rfl := List.eq_nil_of_length_eq_zero (Nat.le_zero.mp hRounds)
    exact ⟨rfl, h⟩
  | succ rounds ih =>
    rw [scan]
    cases t with
    | nil =>
      have hStop : inside (buf p) = false := (congrArg inside h).trans hInside
      rw [hStop]
      exact ⟨rfl, h⟩
    | cons c t =>
      rw [h.1.1]
      cases hc : inside c with
      | true =>
        obtain ⟨hPlace, hRest⟩ := ih h.2 (Nat.le_of_succ_le_succ hRounds)
        rw [List.takeWhile_cons_of_pos hc, List.dropWhile_cons_of_pos hc, List.length_cons]
        refine ⟨hPlace.trans ?_, hRest⟩
        omega
      | false =>
        have hNot : ¬ inside c := fun hTrue => Bool.noConfusion (hTrue.symm.trans hc)
        rw [List.takeWhile_cons_of_neg hNot, List.dropWhile_cons_of_neg hNot]
        exact ⟨rfl, h⟩

def firstWord (text : List Char) : List Char := (text.dropWhile blank).takeWhile fun c => blank c = false

def restOf (text : List Char) : List Char :=
  ((text.dropWhile blank).dropWhile fun c => blank c = false).dropWhile blank

theorem TextAt.word (h : TextAt buf p t) :
    t.takeWhile wordChar = (t.takeWhile fun c => blank c = false) ∧
      t.dropWhile wordChar = t.dropWhile fun c => blank c = false := by
  induction t generalizing p with
  | nil => exact ⟨rfl, rfl⟩
  | cons c t ih =>
    have hNul := h.1.2
    simp only [List.takeWhile_cons, List.dropWhile_cons, wordChar, hNul, ne_eq, not_false_eq_true, true_and]
    rw [(ih h.2).1, (ih h.2).2]
    exact ⟨rfl, rfl⟩

theorem shellSplit_spec (h : TextAt buf 0 t) (hRounds : t.length ≤ rounds) :
    TextAt (shellSplit rounds buf).1 (shellSplit rounds buf).2.1 (firstWord t) ∧
      TextAt (shellSplit rounds buf).1 (shellSplit rounds buf).2.2 (restOf t) := by
  have hBlankEnd : blank nul = false := by decide
  obtain ⟨-, hName⟩ := scan_spec hBlankEnd h hRounds
  have hNameRounds : (t.dropWhile blank).length ≤ rounds := (List.length_dropWhile_le ..).trans hRounds
  have hWordEnd : wordChar nul = false := by decide
  obtain ⟨hPlace, hRest⟩ := scan_spec hWordEnd hName hNameRounds
  rw [hName.word.2] at hRest
  rw [hName.word.1] at hPlace
  rw [shellSplit, firstWord, restOf]
  dsimp only
  generalize scan buf wordChar rounds (scan buf blank rounds 0) = q at hPlace hRest ⊢
  generalize scan buf blank rounds 0 = name at hPlace hName ⊢
  have hWhole := List.takeWhile_append_dropWhile (p := fun c => blank c = false) (l := t.dropWhile blank)
  cases hMore : (t.dropWhile blank).dropWhile fun c => blank c = false with
  | nil =>
    rw [hMore] at hRest hWhole
    rw [List.append_nil] at hWhole
    have hEnd : buf q = nul := hRest
    rw [if_neg (not_not.mpr hEnd), hWhole]
    exact ⟨hName, hRest⟩
  | cons c rest =>
    rw [hMore] at hRest hWhole
    obtain ⟨⟨hChar, hNul⟩, hAfter⟩ := hRest
    have hBlank : blank c := by
      have hStop := List.head?_dropWhile_not (fun c => blank c = false) (t.dropWhile blank)
      rw [hMore] at hStop
      simpa using hStop
    rw [if_pos (hChar ▸ hNul), List.dropWhile_cons_of_pos hBlank]
    constructor
    · rw [hPlace]
      rw [← hWhole] at hName
      exact hName.cut
    · have hLength : rest.length ≤ rounds := by
        have hAll := congrArg List.length hWhole
        rw [List.length_append, List.length_cons] at hAll
        omega
      exact (scan_spec hBlankEnd (hAfter.after (Nat.lt_succ_self q) nul) hLength).2

theorem sameText_iff (a b : List Char) : sameText a b ↔ a = b := by
  induction a generalizing b with
  | nil => cases b <;> simp [sameText]
  | cons x a ih =>
    cases b with
    | nil => simp [sameText]
    | cons y b =>
      rw [sameText]
      split
      · next hEq => rw [ih, hEq, List.cons.injEq, and_iff_right rfl]
      · next hNe => simp [hNe]

theorem shellLookup_exact {cmds : List ShellCmd} {name : List Char} {cmd : ShellCmd}
    (h : shellLookup cmds name = some cmd) : cmd ∈ cmds ∧ cmd.name = some name := by
  rw [shellLookup] at h
  split at h
  · cases h
  · refine ⟨List.mem_of_find?_eq_some h, ?_⟩
    have hSame := List.find?_some h
    split at hSame
    · cases hSame
    · next a hName => rw [hName, (sameText_iff a name).mp hSame]

def edit (text : List Char) (c : Char) : List Char :=
  if c = charCR ∨ c = charLF then []
  else if c = charBS ∨ c = charDEL then text.dropLast
  else if c = charCtrlC ∨ c = charCtrlU then []
  else if c.toNat < 0x20 ∨ 0x7e < c.toNat then text
  else text ++ [c]

/-- The line ends inside its array. A line that has not overflowed is that of the editor without a bound. -/
structure Edited (line : ShellLine) (text : List Char) : Prop where
  bound : line.len ≤ 63
  ended : line.buf line.len = nul
  length : line.overflow = false → line.len = text.length
  chars : line.overflow = false → ∀ i (hi : i < text.length), line.buf i = text[i]
  nonzero : nul ∉ text

theorem reset_edited (line : ShellLine) : Edited (shellLineReset line) [] where
  bound := Nat.zero_le _
  ended := by simp only [shellLineReset, update_self]
  length _ := rfl
  chars _ i hi := nomatch hi
  nonzero := List.not_mem_nil

theorem Edited.textAt (h : Edited line t) (hWhole : line.overflow = false) : TextAt line.buf 0 t := by
  refine textAt_of_chars (fun i hi => ?_) h.nonzero ?_
  · rw [Nat.zero_add]
    exact h.chars hWhole i hi
  · rw [Nat.zero_add, ← h.length hWhole]
    exact h.ended

theorem Edited.erase_empty (h : Edited line t) (hZero : line.len = 0) : Edited line t.dropLast where
  __ := h
  length hWhole := by
    rw [List.length_dropLast, ← h.length hWhole]
    omega
  chars hWhole i hi := by
    rw [List.length_dropLast, ← h.length hWhole] at hi
    omega
  nonzero hMem := h.nonzero (List.dropLast_subset t hMem)

theorem Edited.erase (h : Edited line t) :
    Edited { line with buf := update line.buf (line.len - 1) nul, len := line.len - 1 } t.dropLast where
  bound := (Nat.sub_le ..).trans h.bound
  ended := update_self (line.len - 1) nul line.buf
  length hWhole := by
    rw [List.length_dropLast, ← h.length hWhole]
  chars hWhole i hi := by
    rw [List.length_dropLast, ← h.length hWhole] at hi
    rw [List.getElem_dropLast, ← h.chars hWhole]
    exact update_of_ne (by omega) _ _
  nonzero hMem := h.nonzero (List.dropLast_subset t hMem)

theorem nul_notMem_concat (h : nul ∉ t) (hc : c ≠ nul) : nul ∉ t ++ [c] := by
  rw [List.mem_append, List.mem_singleton]
  rintro (hMem | hMem)
  · exact h hMem
  · exact hc hMem.symm

theorem Edited.overflow (h : Edited line t) (hc : c ≠ nul) : Edited { line with overflow := true } (t ++ [c]) where
  __ := h
  length hWhole := Bool.noConfusion hWhole
  chars hWhole := Bool.noConfusion hWhole
  nonzero := nul_notMem_concat h.nonzero hc

theorem Edited.echo (h : Edited line t) (hc : c ≠ nul) (hRoom : line.len < shellLineMax - 1) :
    Edited { line with
      buf := update (update line.buf line.len c) (line.len + 1) nul
      len := line.len + 1 } (t ++ [c]) where
  bound := hRoom
  ended := by simp only [update_self]
  length hWhole := by
    rw [List.length_append, ← h.length hWhole]
    rfl
  chars hWhole i hi := by
    have hLen := h.length hWhole
    rw [List.length_append, List.length_singleton] at hi
    change update (update line.buf line.len c) (line.len + 1) nul i = _
    rw [update_of_ne (by omega)]
    by_cases hLast : i = t.length
    · subst hLast
      rw [hLen, update_self, List.getElem_concat_length rfl]
    · rw [update_of_ne (by omega), List.getElem_append_left (by omega), h.chars hWhole]
  nonzero := nul_notMem_concat h.nonzero hc

theorem Edited.feed (h : Edited line t) (c : Char) :
    ((shellLineFeed line c).2 = .submit ∧ Edited (shellLineFeed line c).1 t ∧ edit t c = []) ∨
      ((shellLineFeed line c).2 = .cancel ∧ Edited (shellLineFeed line c).1 (edit t c) ∧ edit t c = []) ∨
      ((shellLineFeed line c).2 ≠ .submit ∧ (shellLineFeed line c).2 ≠ .cancel ∧
        Edited (shellLineFeed line c).1 (edit t c)) := by
  by_cases hEnter : c = charCR ∨ c = charLF
  · left
    have hSame : update line.buf line.len nul = line.buf := by
      rw [← h.ended]
      exact update_eq_self ..
    simp only [shellLineFeed, edit, if_pos hEnter, hSame]
    exact ⟨trivial, h, trivial⟩
  · right
    by_cases hErase : c = charBS ∨ c = charDEL
    · right
      simp only [shellLineFeed, edit, if_neg hEnter, if_pos hErase]
      split
      · next hZero => exact ⟨nofun, nofun, h.erase_empty hZero⟩
      · exact ⟨nofun, nofun, h.erase⟩
    · by_cases hCancel : c = charCtrlC ∨ c = charCtrlU
      · left
        simp only [shellLineFeed, edit, if_neg hEnter, if_neg hErase, if_pos hCancel]
        exact ⟨trivial, reset_edited line, trivial⟩
      · right
        by_cases hControl : c.toNat < 0x20 ∨ 0x7e < c.toNat
        · simp only [shellLineFeed, edit, if_neg hEnter, if_neg hErase, if_neg hCancel, if_pos hControl]
          exact ⟨nofun, nofun, h⟩
        · have hNul : c ≠ nul := by
            rintro rfl
            exact hControl (.inl (by decide))
          simp only [shellLineFeed, edit, if_neg hEnter, if_neg hErase, if_neg hCancel, if_neg hControl]
          split
          · exact ⟨nofun, nofun, h.overflow hNul⟩
          · next hRoom => exact ⟨nofun, nofun, h.echo hNul (not_le.mp hRoom)⟩

theorem Edited.poll (h : Edited line t) (commands : List ShellCmd) (c : Char) :
    Edited (shellPollChar commands line c).1 (edit t c) := by
  rw [shellPollChar]
  obtain ⟨hAct, -, hEdit⟩ | ⟨hAct, -, hEdit⟩ | ⟨hSubmit, hCancel, hFed⟩ := h.feed c
  · cases hStep : shellLineFeed line c with
    | mk fed act =>
      rw [hStep] at hAct
      obtain rfl : act = .submit := hAct
      rw [hEdit]
      exact reset_edited _
  · cases hStep : shellLineFeed line c with
    | mk fed act =>
      rw [hStep] at hAct
      obtain rfl : act = .cancel := hAct
      rw [hEdit]
      exact reset_edited _
  · cases hStep : shellLineFeed line c with
    | mk fed act =>
      rw [hStep] at hSubmit hCancel hFed
      cases act with
      | ignored => exact hFed
      | echo => exact hFed
      | erase => exact hFed
      | submit => exact absurd rfl hSubmit
      | cancel => exact absurd rfl hCancel

def unbounded (input : List Char) : List Char := input.foldl edit []

theorem edited_run (commands : List ShellCmd) (input : List Char) (h : Edited line t) :
    Edited (shellPoll commands line input) (input.foldl edit t) := by
  induction input generalizing line t with
  | nil => exact h
  | cons c input ih => exact ih (h.poll commands c)

theorem execute_run (h : Edited line t) {commands : List ShellCmd} {cmd : ShellCmd} {args : List Char}
    (hRun : (shellExecute commands line).2 = .run cmd args) :
    line.overflow = false ∧ cmd ∈ commands ∧ cmd.name = some (firstWord t) ∧ args = restOf t := by
  rw [shellExecute] at hRun
  split at hRun
  · cases hRun
  · next hFits =>
    have hWhole : line.overflow = false := Bool.eq_false_iff.mpr hFits
    have hLength : t.length ≤ shellLineMax := by
      rw [← h.length hWhole]
      exact h.bound.trans (by decide)
    obtain ⟨hWord, hRest⟩ := shellSplit_spec (h.textAt hWhole) hLength
    have hWordLength : (firstWord t).length ≤ shellLineMax :=
      (List.takeWhile_sublist _).length_le.trans ((List.length_dropWhile_le ..).trans hLength)
    have hRestLength : (restOf t).length ≤ shellLineMax := (List.length_dropWhile_le ..).trans
        ((List.length_dropWhile_le ..).trans ((List.length_dropWhile_le ..).trans hLength))
    dsimp only at hRun
    rw [textAt_eq hWord hWordLength, textAt_eq hRest hRestLength] at hRun
    split at hRun
    · cases hRun
    · split at hRun
      · cases hRun
      · next hLookup =>
        cases hRun
        exact ⟨hWhole, (shellLookup_exact hLookup).1, (shellLookup_exact hLookup).2, rfl⟩

/-- A command line is executed as it was typed, or not at all. -/
theorem shellLine_whole (commands : List ShellCmd) (start : ShellLine) (input : List Char) (c : Char) :
    let line := shellPoll commands (shellLineReset start) input
    let fed := shellLineFeed line c
    let text := unbounded input
    (line.len ≤ 63 ∧ line.buf line.len = nul) ∧ (fed.1.len ≤ 63 ∧ fed.1.buf fed.1.len = nul) ∧
    (fed.2 = .submit → fed.1.overflow = false →
      fed.1.len = text.length ∧ TextAt fed.1.buf 0 text ∧
      TextAt (shellSplit shellLineMax fed.1.buf).1 (shellSplit shellLineMax fed.1.buf).2.1 (firstWord text) ∧
      TextAt (shellSplit shellLineMax fed.1.buf).1 (shellSplit shellLineMax fed.1.buf).2.2 (restOf text)) ∧
    (∀ cmd args, (shellPollChar commands line c).2 = some (.run cmd args) →
      fed.1.overflow = false ∧ cmd.name = some (firstWord text) ∧ args = restOf text) ∧
    ∀ cmds name cmd, shellLookup cmds name = some cmd → cmd ∈ cmds ∧ cmd.name = some name := by
  have hLine : Edited (shellPoll commands (shellLineReset start) input) (unbounded input) :=
    edited_run commands input (reset_edited start)
  generalize shellPoll commands (shellLineReset start) input = line at hLine
  generalize unbounded input = text at hLine
  have hFed := hLine.feed c
  refine ⟨⟨hLine.bound, hLine.ended⟩, ?_, ?_, ?_, fun cmds name cmd => shellLookup_exact⟩
  · obtain ⟨-, hFed, -⟩ | ⟨-, hFed, -⟩ | ⟨-, -, hFed⟩ := hFed
    · exact ⟨hFed.bound, hFed.ended⟩
    · exact ⟨hFed.bound, hFed.ended⟩
    · exact ⟨hFed.bound, hFed.ended⟩
  · intro hSubmit hWhole
    obtain ⟨-, hFed, -⟩ | ⟨hAct, -, -⟩ | ⟨hAct, -, -⟩ := hFed
    · have hLength : text.length ≤ shellLineMax := by
        rw [← hFed.length hWhole]
        exact hFed.bound.trans (by decide)
      exact ⟨hFed.length hWhole, hFed.textAt hWhole, shellSplit_spec (hFed.textAt hWhole) hLength⟩
    · exact absurd (hAct.symm.trans hSubmit) (by decide)
    · exact absurd hSubmit hAct
  · intro cmd args hRun
    rw [shellPollChar] at hRun
    split at hRun
    · next fed hStep =>
      obtain ⟨-, hFed, -⟩ | ⟨hAct, -, -⟩ | ⟨hAct, -, -⟩ := hFed
      · rw [hStep] at hFed
        obtain ⟨hWhole, -, hName, hArgs⟩ := execute_run hFed (Option.some.inj hRun)
        rw [hStep]
        exact ⟨hWhole, hName, hArgs⟩
      · rw [hStep] at hAct
        cases hAct
      · rw [hStep] at hAct
        exact absurd rfl hAct
    · cases hRun
    · cases hRun

end OpenXJ380.Shell
