import OpenXJ380.Krlibc.Strings

/-! # Arguments on one line (`kernel/task/pcb.cpp`, `cmd_parse_limit` of `kernel/krlibc.cpp`)

`execve` writes the arguments one behind the other into a buffer, and the way into the
program takes them apart again.
-/

namespace OpenXJ380.Krlibc

open Function

def execveVectorMax : Nat := 128

def space : Byte := 0x20

def singleQuote : Byte := 0x27

def doubleQuote : Byte := 0x22

def backslash : Byte := 0x5C

structure Cmdline where
  memory : Nat → Byte
  cursor : Nat

def appendCmdlineChar (cmdlineSize : Nat) (cmdline : Cmdline) (ch : Byte) : Bool × Cmdline :=
  let used := cmdline.cursor
  if used + 1 ≥ cmdlineSize then (false, cmdline)
  else (true, ⟨update (update cmdline.memory used ch) (used + 1) nul, used + 1⟩)

def needsQuote (arg : List Byte) : Bool :=
  arg = [] || arg.any fun p => p = space || p = singleQuote || p = doubleQuote || p = backslash

def appendCmdlineChars (cmdlineSize : Nat) (quote : Bool) : List Byte → Cmdline → Bool × Cmdline
  | [], cmdline => (true, cmdline)
  | p :: arg, cmdline =>
    let (escaped, cmdline) :=
      if quote && (p = doubleQuote || p = backslash) then appendCmdlineChar cmdlineSize cmdline backslash
      else (true, cmdline)
    if !escaped then (false, cmdline)
    else
      let (appended, cmdline) := appendCmdlineChar cmdlineSize cmdline p
      if !appended then (false, cmdline) else appendCmdlineChars cmdlineSize quote arg cmdline

def appendCmdlineQuote (cmdlineSize : Nat) (quote : Bool) (cmdline : Cmdline) : Bool × Cmdline :=
  if quote then appendCmdlineChar cmdlineSize cmdline doubleQuote else (true, cmdline)

def appendCmdlineArg (cmdlineSize : Nat) (cmdline : Cmdline) (arg : List Byte) : Bool × Cmdline :=
  let quote := needsQuote arg
  let (opened, cmdline) := appendCmdlineQuote cmdlineSize quote cmdline
  if !opened then (false, cmdline)
  else
    let (appended, cmdline) := appendCmdlineChars cmdlineSize quote arg cmdline
    if !appended then (false, cmdline)
    else
      let (closed, cmdline) := appendCmdlineQuote cmdlineSize quote cmdline
      if !closed then (false, cmdline) else appendCmdlineChar cmdlineSize cmdline space

/-- The loop of `execve` over its arguments, which gives up with the first that does not fit. -/
def appendCmdlineArgs (cmdlineSize : Nat) : List (List Byte) → Cmdline → Bool × Cmdline
  | [], cmdline => (true, cmdline)
  | arg :: args, cmdline =>
    let (appended, cmdline) := appendCmdlineArg cmdlineSize cmdline arg
    if !appended then (false, cmdline) else appendCmdlineArgs cmdlineSize args cmdline

def stringIn (size : Nat) (memory : Nat → Byte) : List Byte :=
  ((List.range size).map memory).takeWhile (· ≠ nul)

/-- The inner loop of `cmd_parse_limit`: an argument, and where the next one is looked for. -/
def parseArg (token : Byte) : Byte → List Byte → List Byte × List Byte
  | _, [] => ([], [])
  | quote, c :: next =>
    if quote ≠ nul ∧ c = quote then parseArg token nul next
    else if quote = nul ∧ c = token then ([], c :: next)
    else if quote = nul ∧ (c = singleQuote ∨ c = doubleQuote) then parseArg token c next
    else if c = backslash then
      match next with
      | d :: rest =>
        let (arg, next) := parseArg token quote rest
        (d :: arg, next)
      | [] => ([c], [])
    else
      let (arg, next) := parseArg token quote next
      (c :: arg, next)

/-- `left` is how many arguments `max_argc` still allows; `memory` says whether there is memory for an argument. -/
def cmdParseLoop (memory : Nat → Bool) (token : Byte) : Nat → Nat → List Byte → Option (List (List Byte))
  | 0, _, _ => some []
  | left + 1, argc, next =>
    let next := next.dropWhile (· = token)
    if next = [] then some []
    else if !memory argc then none
    else
      let (arg, next) := parseArg token nul next
      (cmdParseLoop memory token left (argc + 1) next).map (arg :: ·)

/-- The arguments, or nothing for the `-1` with which all of them are freed. -/
def cmdParseLimit (memory : Nat → Bool) (cmdStr : List Byte) (token : Byte) (maxArgc : Int) :
    Option (List (List Byte)) :=
  if maxArgc ≤ 0 then some [] else cmdParseLoop memory token maxArgc.toNat 0 cmdStr

def escaped (quote : Bool) (p : Byte) : List Byte :=
  if quote && (p = doubleQuote || p = backslash) then [backslash, p] else [p]

def quoteMark (quote : Bool) : List Byte := if quote then [doubleQuote] else []

def written (arg : List Byte) : List Byte :=
  let quote := needsQuote arg
  quoteMark quote ++ arg.flatMap (escaped quote) ++ quoteMark quote ++ [space]

/-- The buffer holds a text, the cursor is at its end, and nothing is written behind the buffer. -/
structure Holds (size : Nat) (start : Nat → Byte) (text : List Byte) (cmdline : Cmdline) : Prop where
  cursor : cmdline.cursor = text.length
  bytes : ∀ i (h : i < text.length), cmdline.memory i = text[i]
  ended : text.length < size → cmdline.memory text.length = nul
  fits : text = [] ∨ text.length < size
  behind : ∀ i, size ≤ i → cmdline.memory i = start i

variable {size : Nat} {start : Nat → Byte} {text : List Byte} {cmdline cmdline' : Cmdline}

section

variable (h : Holds size start text cmdline)

include h

theorem Holds.char {ch : Byte}
    (hAppend : appendCmdlineChar size cmdline ch = (true, cmdline')) : Holds size start (text ++ [ch]) cmdline' := by
  simp only [appendCmdlineChar, h.cursor] at hAppend
  split at hAppend
  next => cases hAppend
  next hroom =>
    obtain ⟨-, rfl⟩ := Prod.mk.inj hAppend
    refine ⟨by simp, fun i hi => ?_, fun _ => by simp, .inr (by simp; omega), fun i hi => ?_⟩
    · simp only [List.length_append, List.length_singleton] at hi
      obtain hlt | rfl := Nat.lt_succ_iff_lt_or_eq.mp hi
      · simp [update_of_ne (show i ≠ text.length + 1 by omega), update_of_ne hlt.ne,
          List.getElem_append_left hlt, h.bytes i hlt]
      · simp
    · exact (update_of_ne (by omega) _ _).trans ((update_of_ne (by omega) _ _).trans (h.behind i hi))

theorem Holds.quoteMark {quote : Bool} (hAppend : appendCmdlineQuote size quote cmdline = (true, cmdline')) :
    Holds size start (text ++ Krlibc.quoteMark quote) cmdline' := by
  cases quote with
  | false =>
    obtain ⟨-, rfl⟩ := Prod.mk.inj hAppend
    simpa [Krlibc.quoteMark] using h
  | true => exact h.char hAppend

theorem Holds.chars {quote : Bool} {arg : List Byte}
    (hAppend : appendCmdlineChars size quote arg cmdline = (true, cmdline')) :
    Holds size start (text ++ arg.flatMap (escaped quote)) cmdline' := by
  induction arg generalizing text cmdline with
  | nil =>
    obtain ⟨-, rfl⟩ := Prod.mk.inj hAppend
    simpa using h
  | cons p arg ih =>
    have hOne {text' : List Byte} {c : Cmdline} (h : Holds size start text' c)
        (hAppend : (let (appended, cmdline) := appendCmdlineChar size c p
          if !appended then (false, cmdline) else appendCmdlineChars size quote arg cmdline) = (true, cmdline')) :
        Holds size start (text' ++ p :: arg.flatMap (escaped quote)) cmdline' := by
      obtain ⟨appended, c', hc⟩ : ∃ a c', appendCmdlineChar size c p = (a, c') := ⟨_, _, rfl⟩
      rw [hc] at hAppend
      cases appended with
      | false => cases hAppend
      | true => simpa using ih (h.char hc) hAppend
    rw [appendCmdlineChars] at hAppend
    rw [List.flatMap_cons, escaped]
    split at hAppend
    next escaped' c hc =>
      split at hc
      next hquote =>
        cases escaped' with
        | false => cases hAppend
        | true => simpa [hquote] using hOne (h.char hc) hAppend
      next hquote =>
        obtain ⟨rfl, rfl⟩ := Prod.mk.inj hc
        simpa [hquote] using hOne h hAppend

theorem Holds.arg {arg : List Byte} (hAppend : appendCmdlineArg size cmdline arg = (true, cmdline')) :
    Holds size start (text ++ written arg) cmdline' := by
  unfold appendCmdlineArg at hAppend
  obtain ⟨opened, c, hc⟩ : ∃ a c, appendCmdlineQuote size (needsQuote arg) cmdline = (a, c) := ⟨_, _, rfl⟩
  obtain ⟨appended, d, hd⟩ : ∃ a d, appendCmdlineChars size (needsQuote arg) arg c = (a, d) := ⟨_, _, rfl⟩
  obtain ⟨closed, e, he⟩ : ∃ a e, appendCmdlineQuote size (needsQuote arg) d = (a, e) := ⟨_, _, rfl⟩
  simp only [hc, hd, he] at hAppend
  cases opened with
  | false => cases hAppend
  | true =>
    cases appended with
    | false => cases hAppend
    | true =>
      cases closed with
      | false => cases hAppend
      | true => simpa [written] using (((h.quoteMark hc).chars hd).quoteMark he).char hAppend

theorem Holds.args {args : List (List Byte)} (hAppend : appendCmdlineArgs size args cmdline = (true, cmdline')) :
    Holds size start (text ++ args.flatMap written) cmdline' := by
  induction args generalizing text cmdline with
  | nil =>
    obtain ⟨-, rfl⟩ := Prod.mk.inj hAppend
    simpa using h
  | cons arg args ih =>
    obtain ⟨appended, c, hc⟩ : ∃ a c, appendCmdlineArg size cmdline arg = (a, c) := ⟨_, _, rfl⟩
    rw [appendCmdlineArgs, hc] at hAppend
    cases appended with
    | false => cases hAppend
    | true => simpa using ih (h.arg hc) hAppend

theorem Holds.stringIn (hfree : nul ∉ text) : stringIn size cmdline.memory = text := by
  have hall : ∀ b ∈ text, (b ≠ nul : Bool) := fun b hb => by
    simpa using fun he : b = nul => hfree (he ▸ hb)
  have hprefix : (List.range text.length).map cmdline.memory = text :=
    List.ext_getElem (by simp) fun i hi hi' => by simpa using h.bytes i hi'
  obtain hempty | hlt := h.fits
  · subst hempty
    cases size with
    | zero => rfl
    | succ size =>
      have hEnd : cmdline.memory 0 = nul := h.ended (Nat.succ_pos size)
      simp [Krlibc.stringIn, List.range_succ_eq_map, hEnd]
  · obtain ⟨k, rfl⟩ := Nat.exists_eq_add_of_lt hlt
    have hsplit : List.range (text.length + k + 1) =
        List.range text.length ++ text.length :: (List.range k).map (text.length + 1 + ·) := by
      rw [add_assoc, List.range_add, add_comm k 1, List.range_add]
      simp [add_assoc]
    rw [Krlibc.stringIn, hsplit, List.map_append, hprefix, List.takeWhile_append_of_pos hall]
    simp [h.ended hlt]

end

theorem parseArg_cons (token quote c : Byte) (next : List Byte) : parseArg token quote (c :: next) =
      if quote ≠ nul ∧ c = quote then parseArg token nul next else if quote = nul ∧ c = token then ([], c :: next)
      else if quote = nul ∧ (c = singleQuote ∨ c = doubleQuote) then parseArg token c next else if c = backslash then
        match next with
        | d :: rest => (d :: (parseArg token quote rest).1, (parseArg token quote rest).2)
        | [] => ([c], []) else (c :: (parseArg token quote next).1, (parseArg token quote next).2) := by
  rw [parseArg.eq_def]

theorem parseArg_subset (token quote : Byte) (next : List Byte) :
    (parseArg token quote next).1 ⊆ next ∧ (parseArg token quote next).2 ⊆ next := by
  fun_induction parseArg token quote next with
  | case1 => exact ⟨.refl _, List.Subset.refl _⟩
  | case2 quote c next _ ih => exact ⟨List.subset_cons_of_subset c ih.1, List.subset_cons_of_subset c ih.2⟩
  | case3 => exact ⟨List.nil_subset _, List.Subset.refl _⟩
  | case4 quote c next _ _ _ ih => exact ⟨List.subset_cons_of_subset c ih.1, List.subset_cons_of_subset c ih.2⟩
  | case5 quote d rest arg next' hRest _ _ _ ih =>
    rw [hRest] at ih
    exact ⟨List.subset_cons_of_subset _ (List.cons_subset_cons d ih.1),
      List.subset_cons_of_subset _ (List.subset_cons_of_subset d ih.2)⟩
  | case6 => exact ⟨.refl _, List.nil_subset _⟩
  | case7 quote c next _ _ _ _ arg next' hNext ih =>
    rw [hNext] at ih
    exact ⟨List.cons_subset_cons c ih.1, List.subset_cons_of_subset c ih.2⟩

theorem cmdParseLoop_subset {memory : Nat → Bool} {token : Byte} {left argc : Nat} {next : List Byte}
    {args : List (List Byte)} (h : cmdParseLoop memory token left argc next = some args) :
    ∀ arg ∈ args, arg ⊆ next := by
  induction left generalizing argc next args with
  | zero =>
    cases h
    exact fun arg hMem => nomatch hMem
  | succ left ih =>
    rw [cmdParseLoop] at h
    have hDrop : next.dropWhile (· = token) ⊆ next := (List.dropWhile_sublist _).subset
    split at h
    next =>
      cases h
      exact fun arg hMem => nomatch hMem
    next =>
      split at h
      next => cases h
      next =>
        obtain ⟨later, hLater, rfl⟩ := Option.map_eq_some_iff.mp h
        obtain ⟨hArg, hRest⟩ := parseArg_subset token nul (next.dropWhile (· = token))
        intro arg hMem
        obtain rfl | hMem := List.mem_cons.mp hMem
        · exact List.Subset.trans hArg hDrop
        · exact List.Subset.trans (ih hLater arg hMem) (List.Subset.trans hRest hDrop)

theorem cmdParseLimit_subset {memory : Nat → Bool} {token : Byte} {maxArgc : Int} {cmdStr : List Byte}
    {args : List (List Byte)} (h : cmdParseLimit memory cmdStr token maxArgc = some args) :
    ∀ arg ∈ args, arg ⊆ cmdStr := by
  rw [cmdParseLimit] at h
  split at h
  next =>
    cases h
    exact fun arg hMem => nomatch hMem
  next => exact cmdParseLoop_subset h

theorem parseArg_plain {arg : List Byte} (h : ∀ p ∈ arg, p ≠ space ∧ p ≠ singleQuote ∧ p ≠ doubleQuote ∧ p ≠ backslash)
    (rest : List Byte) : parseArg space nul (arg ++ space :: rest) = (arg, space :: rest) := by
  induction arg with
  | nil => simp [parseArg_cons]
  | cons p arg ih =>
    obtain ⟨hspace, hsingle, hdouble, hback⟩ := h p (.head _)
    simp [parseArg_cons, hspace, hsingle, hdouble, hback, ih fun q hq => h q (.tail p hq)]

theorem parseArg_escaped (arg rest : List Byte) :
    parseArg space doubleQuote (arg.flatMap (escaped true) ++ doubleQuote :: space :: rest) = (arg, space :: rest) := by
  induction arg with
  | nil => simp [parseArg_cons, doubleQuote, nul]
  | cons p arg ih =>
    rw [List.flatMap_cons, escaped]
    split
    next => simp [parseArg_cons, ih, show doubleQuote ≠ nul by decide, show backslash ≠ doubleQuote by decide]
    next hplain =>
      simp only [Bool.true_and, Bool.or_eq_true, decide_eq_true_eq, not_or] at hplain
      simp [parseArg_cons, ih, show doubleQuote ≠ nul by decide, hplain.1, hplain.2]

theorem parseArg_written (arg rest : List Byte) : parseArg space nul (written arg ++ rest) = (arg, space :: rest) := by
  rw [written]
  cases hquote : needsQuote arg with
  | true =>
    have h := parseArg_escaped arg rest
    simp [quoteMark, parseArg_cons, h, show doubleQuote ≠ space by decide]
  | false =>
    simp only [needsQuote, Bool.or_eq_false_iff, decide_eq_false_iff_not, List.any_eq_false, Bool.or_eq_true,
      decide_eq_true_eq, not_or] at hquote
    have hplain : arg.flatMap (escaped false) = arg := by
      simp [show escaped false = fun p => [p] from rfl]
    simp [quoteMark, hplain, parseArg_plain (fun p hp => by simpa [and_assoc] using hquote.2 p hp)]

theorem written_head (arg : List Byte) : ∃ p text, written arg = p :: text ∧ p ≠ space := by
  cases hquote : needsQuote arg with
  | true => exact ⟨doubleQuote, _, by rw [written, hquote]; rfl, by decide⟩
  | false =>
    cases arg with
    | nil => simp [needsQuote] at hquote
    | cons p arg =>
      have hp : p ≠ space := by
        rintro rfl
        simp [needsQuote] at hquote
      exact ⟨p, _, by rw [written, hquote]; rfl, hp⟩

theorem dropWhile_gap {gap : List Byte} (hgap : ∀ p ∈ gap, p = space) (rest : List Byte) :
    (gap ++ rest).dropWhile (· = space) = rest.dropWhile (· = space) :=
  List.dropWhile_append_of_pos fun p hp => decide_eq_true (hgap p hp)

theorem cmdParseLoop_written (memory : Nat → Bool) (args : List (List Byte)) {left : Nat} (hleft : args.length ≤ left)
    (argc : Nat) (gap : List Byte) (hgap : ∀ p ∈ gap, p = space) :
    cmdParseLoop memory space left argc (gap ++ args.flatMap written) =
      if ∀ i < args.length, memory (argc + i) = true then some args else none := by
  induction args generalizing left argc gap with
  | nil =>
    cases left with
    | zero => simp [cmdParseLoop]
    | succ left =>
      have hnone := dropWhile_gap hgap []
      simp only [List.flatMap_nil, cmdParseLoop, hnone, List.dropWhile_nil, if_true, List.length_nil]
      simp
  | cons arg args ih =>
    obtain ⟨left, rfl⟩ : ∃ n, left = n + 1 := ⟨left - 1, by simp only [List.length_cons] at hleft; omega⟩
    obtain ⟨p, text, htext, hp⟩ := written_head arg
    have hstart : (gap ++ (arg :: args).flatMap written).dropWhile (· = space) =
      written arg ++ args.flatMap written := by
      rw [dropWhile_gap hgap, List.flatMap_cons, htext, List.cons_append,
        List.dropWhile_cons_of_neg (by simpa using hp)]
    have hne : written arg ++ args.flatMap written ≠ [] := by simp [htext]
    have hlater := ih (Nat.le_of_succ_le_succ hleft) (argc + 1) [space] (by simp)
    simp only [cmdParseLoop, hstart, if_neg hne, parseArg_written]
    rw [List.singleton_append] at hlater
    have hshift : (∀ i < (arg :: args).length, memory (argc + i)) ↔
        memory argc ∧ ∀ i < args.length, memory (argc + 1 + i) := by
      rw [List.length_cons, Nat.forall_lt_succ_left]
      simp [add_assoc, add_comm 1]
    rw [hlater]
    cases hmemory : memory argc with
    | false =>
      have hnot : ¬ ∀ i < (arg :: args).length, memory (argc + i) := fun hall =>
        absurd (hshift.mp hall).1 (by simp [hmemory])
      rw [if_neg hnot]
      rfl
    | true =>
      have hiff := hshift.trans (and_iff_right hmemory)
      rw [if_congr hiff rfl rfl]
      simp only [Bool.not_true, Bool.false_eq_true, if_false]
      split <;> rfl

theorem nul_notMem_written {arg : List Byte} (h : nul ∉ arg) : nul ∉ written arg := by
  have hmark (quote : Bool) : nul ∉ quoteMark quote := by cases quote <;> decide
  have hescaped (quote : Bool) : nul ∉ arg.flatMap (escaped quote) := by
    rw [List.mem_flatMap]
    rintro ⟨p, hp, hin⟩
    have hne : p ≠ nul := fun he => h (he ▸ hp)
    rw [escaped] at hin
    split at hin <;> simp [hne.symm, show nul ≠ backslash by decide] at hin
  simp [written, hmark, hescaped, show nul ≠ space by decide]

/-- The buffer of `execve`, all of whose bytes are zero. -/
def emptyCmdline (start : Nat → Byte) (size : Nat) : Cmdline where
  memory i := if i < size then nul else start i
  cursor := 0

theorem holds_emptyCmdline (start : Nat → Byte) (size : Nat) : Holds size start [] (emptyCmdline start size) where
  cursor := rfl
  bytes _ hi := nomatch hi
  ended h := if_pos h
  fits := .inl rfl
  behind _ hi := if_neg (not_lt.mpr hi)

/-- What fits is read back as it was written, unless there is no memory for an argument, and it stays in the buffer. -/
theorem cmdline_reads_back (start : Nat → Byte) (size : Nat) (args : List CString)
    (hargs : args.length ≤ execveVectorMax)
    {cmdline : Cmdline}
    (h : appendCmdlineArgs size (args.map CString.bytes) (emptyCmdline start size) = (true, cmdline))
    (memory : Nat → Bool) :
    cmdParseLimit memory (stringIn size cmdline.memory) space execveVectorMax =
        (if ∀ i < args.length, memory i = true then some (args.map CString.bytes) else none) ∧
      cmdline.cursor = (stringIn size cmdline.memory).length ∧ (args = [] ∨ cmdline.cursor < size) ∧
      ∀ i, size ≤ i → cmdline.memory i = start i := by
  have hholds := (holds_emptyCmdline start size).args h
  have hfree : nul ∉ (args.map CString.bytes).flatMap written := by
    rw [List.mem_flatMap]
    rintro ⟨arg, harg, hin⟩
    obtain ⟨a, -, rfl⟩ := List.mem_map.mp harg
    exact nul_notMem_written a.nulFree hin
  rw [List.nil_append] at hholds
  rw [hholds.stringIn hfree]
  refine ⟨?_, hholds.cursor, ?_, hholds.behind⟩
  · have hread := cmdParseLoop_written memory (args.map CString.bytes) (by simpa using hargs) 0 [] (by simp)
    simpa [cmdParseLimit, execveVectorMax] using hread
  · obtain hempty | hlt := hholds.fits
    · left
      cases args with
      | nil => rfl
      | cons arg args =>
        obtain ⟨p, text, htext, -⟩ := written_head arg.bytes
        simp [htext] at hempty
    · exact .inr (hholds.cursor ▸ hlt)

theorem cmdline_reads_back_two :
    cmdParseLimit (fun _ => true)
      (stringIn 16 (appendCmdlineArgs 16 [[], [0x61, 0x22]] (emptyCmdline (fun _ => 0xFF) 16)).2.memory) space
      execveVectorMax = some [[], [0x61, 0x22]] := by
  have h := cmdline_reads_back (fun _ => 0xFF) 16 [⟨[], by decide⟩, ⟨[0x61, 0x22], by decide⟩] (by decide)
    (Prod.ext (by decide) rfl) fun _ => true
  exact h.1.trans (if_pos fun _ _ => rfl)

end OpenXJ380.Krlibc
