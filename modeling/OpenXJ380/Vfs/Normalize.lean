import OpenXJ380.Krlibc.Strtok
import OpenXJ380.Vfs.Model

/-! # Normal paths (`normalize_path` of `driver/fs/vfs/vfs.cpp`)

The result is built in place in a buffer, and every write is checked against its end.
-/

namespace OpenXJ380.Vfs

open Option (bind_eq_bind bind_some map map_some)
open List (cons_ne_nil eq_nil_or_concat length_append length_cons length_nil mem_cons_of_mem tail_cons)

open Strtok (Client Token Memory strtok token next left words)

def store (capacity : Nat) (s : Text) : Option Text := if s.length + 1 ≤ capacity then some s else none

def strrchr : Text → Char → Option Nat
  | [], _ => none
  | b :: s, c =>
    match strrchr s c with
    | some i => some (i + 1)
    | none => if b = c then some 0 else none

/-- A round of the loop of `normalize_path`; no result stands for a fault. -/
def appendToken (capacity : Nat) (result token : Text) : Option Text :=
  if token = dot then some result
  else if token = dotDot then
    match strrchr result '/' with
    | none => none
    | some lastSlash => some (if lastSlash ≠ 0 then result.take lastSlash else result.take 1)
  else do
    let result ← if result.getLast? ≠ some '/' then store capacity (result ++ ['/']) else some result
    store capacity (result ++ token)

def normalizeLoop (capacity : Nat) : Nat → Option Token → Memory → Text → Option Text
  | _, none, _, result => some result
  | 0, some _, _, _ => none
  | rounds + 1, some token, m, result => do
    let result ← appendToken capacity result token.text
    let (token, m) := strtok ['/'] none m
    normalizeLoop capacity rounds token m result

/-- The copy of the path is the buffer of one client of `strtok`. -/
def duplicate (start : Text) : Memory := ⟨fun _ => start, none⟩

/-- `normalize_path`, where `resultMemory` and `dupMemory` say whether there is memory for the result and for a copy;
`some none` is the `NULL` it returns, and no result stands for a fault. -/
def normalize (resultMemory dupMemory : Bool) (path : Text) : Option (Option Text) :=
  let capacity := path.length + 1
  if !resultMemory then some none
  else if !dupMemory then some none
  else do
    let result ← store capacity ['/']
    if path = ['/'] then some (some result)
    else
      let start := if path.head? = some '/' then path.tail else path
      let (token, m) := strtok ['/'] (some ⟨.first, 0⟩) (duplicate start)
      (normalizeLoop capacity (path.length + 1) token m result).map some

def push (stack : List Text) (component : Text) : List Text :=
  if component = dot then stack else if component = dotDot then stack.dropLast else stack ++ [component]

def onStack (components : List Text) : List Text := components.foldl push []

def joined (stack : List Text) : Text := stack.flatMap ('/' :: ·)

def rendered (stack : List Text) : Text := if stack = [] then ['/'] else joined stack

structure Plain (component : Text) : Prop where
  ne_nil : component ≠ []
  ne_dot : component ≠ dot
  ne_dotDot : component ≠ dotDot
  noSlash : '/' ∉ component

/-- An absolute path of plain names without a slash at its end, or the root. -/
structure Canonical (path : Text) : Prop where
  absolute : path.head? = some '/'
  plain : path ≠ ['/'] → ∀ component ∈ path.tail.splitOn '/', Plain component
  noTrailing : path ≠ ['/'] → path.getLast? ≠ some '/'

section

variable {stack : List Text} {component word : Text} {capacity : Nat}

@[simp] theorem joined_nil : joined [] = [] := rfl

@[simp] theorem joined_cons (component : Text) (stack : List Text) :
    joined (component :: stack) = '/' :: (component ++ joined stack) := rfl

@[simp] theorem joined_append (stack rest : List Text) : joined (stack ++ rest) = joined stack ++ joined rest :=
  List.flatMap_append

theorem joined_length (stack : List Text) : (joined stack).length = (stack.map fun c => c.length + 1).sum := by
  simp [joined, List.length_flatMap]

theorem splitOn_joined (h : ∀ c ∈ component :: stack, '/' ∉ c) :
    (component ++ joined stack).splitOn '/' = component :: stack := by
  induction stack generalizing component with
  | nil => simp [List.splitOn_eq_singleton (h component (.head _))]
  | cons d stack ih =>
    rw [joined_cons, List.splitOn_append_cons_self_of_not_mem (h component (.head _)),
      ih fun c hc => h c (.tail component hc)]

theorem words_eq_splitOn (text : Text) : words ['/'] text = (text.splitOn '/').filter (· ≠ []) := by
  have hsame : (fun c : Char => decide (c ∈ ['/'])) = (· == '/') := by
    funext c
    simp [beq_eq_decide]
  rw [words, hsame, List.splitOn_eq_splitOnP]

section

variable (h : ∀ c ∈ stack, Plain c)

include h

theorem words_joined : words ['/'] (joined stack) = stack := by
  cases stack with
  | nil => rfl
  | cons component stack =>
    rw [joined_cons, Strtok.words_cons_delim (.head _), words_eq_splitOn,
      splitOn_joined fun c hc => (h c hc).noSlash, List.filter_eq_self]
    exact fun c hc => decide_eq_true (h c hc).ne_nil

theorem words_rendered : words ['/'] (rendered stack) = stack := by
  rw [rendered]
  split
  next hempty =>
    rw [hempty]
    rfl
  next => exact words_joined h

theorem canonical_rendered : Canonical (rendered stack) := by
  cases stack with
  | nil => exact ⟨rfl, fun hne => absurd rfl hne, fun hne => absurd rfl hne⟩
  | cons component stack =>
    refine ⟨rfl, fun _ c hc => h c ?_, fun _ => ?_⟩
    · rwa [rendered, if_neg (cons_ne_nil _ _), joined_cons, tail_cons,
        splitOn_joined fun c hc => (h c hc).noSlash] at hc
    · obtain ⟨init, last, hlast⟩ := eq_nil_or_concat (component :: stack) |>.resolve_left (cons_ne_nil _ _)
      rw [List.concat_eq_append] at hlast
      have hplain := h last (by simp [hlast])
      obtain ⟨start, c, hc⟩ := eq_nil_or_concat last |>.resolve_left hplain.ne_nil
      rw [List.concat_eq_append] at hc
      have hslash : c ≠ '/' := fun he => hplain.noSlash (by simp [hc, he])
      rw [rendered, if_neg (cons_ne_nil _ _), hlast, joined_append, joined_cons, joined_nil, List.append_nil, hc,
        ← List.cons_append, ← List.append_assoc, List.getLast?_concat]
      exact fun he => hslash (Option.some.inj he)

theorem push_plain (hword : word ≠ [] ∧ '/' ∉ word) : ∀ c ∈ push stack word, Plain c := by
  intro c hc
  rw [push] at hc
  split_ifs at hc with hdot hdotDot
  · exact h c hc
  · exact h c ((List.dropLast_sublist stack).subset hc)
  · obtain hc | hc := List.mem_append.mp hc
    · exact h c hc
    · rw [List.mem_singleton.mp hc]
      exact ⟨hword.1, hdot, hdotDot, hword.2⟩

end

variable {components : List Text}

theorem foldl_push_plain (h : ∀ c ∈ stack, Plain c)
    (hcomponents : ∀ c ∈ components, c ≠ [] ∧ '/' ∉ c) : ∀ c ∈ components.foldl push stack, Plain c := by
  induction components generalizing stack with
  | nil => exact h
  | cons word components ih =>
    exact ih (push_plain h (hcomponents word (.head _))) fun c hc =>
      hcomponents c (.tail word hc)

theorem mem_foldl_push (h : component ∈ components.foldl push stack) : component ∈ stack ∨ component ∈ components := by
  induction components generalizing stack with
  | nil => exact .inl h
  | cons word components ih =>
    obtain hstack | hrest := ih h
    · rw [push] at hstack
      split_ifs at hstack
      · exact .inl hstack
      · exact .inl ((List.dropLast_sublist stack).subset hstack)
      · exact (List.mem_append.mp hstack).imp_right fun hword => List.mem_cons.mpr (.inl (List.mem_singleton.mp hword))
    · exact .inr (.tail word hrest)

theorem foldl_push_of_plain (h : ∀ c ∈ components, Plain c) (stack : List Text) :
    components.foldl push stack = stack ++ components := by
  induction components generalizing stack with
  | nil => simp
  | cons word components ih =>
    have hword := h word (.head _)
    rw [List.foldl_cons, push, if_neg hword.ne_dot, if_neg hword.ne_dotDot,
      ih (fun c hc => h c (.tail word hc)), List.append_assoc]
    rfl

theorem joined_push_length (stack : List Text) (word : Text) :
    (joined (push stack word)).length ≤ (joined stack).length + (word.length + 1) := by
  rw [push]
  split_ifs
  · omega
  · obtain rfl | ⟨init, last, rfl⟩ := eq_nil_or_concat stack
    · simp
    · simp
      omega
  · simp

theorem strrchr_append {c : Char} {s : Text} (start : Text) (h : c ∉ s) :
    strrchr (start ++ c :: s) c = some start.length := by
  have hnone : strrchr s c = none := by
    induction s with
    | nil => rfl
    | cons b s ih =>
      have hne : b ≠ c := fun he => h (he ▸ (.head _))
      simp [strrchr, ih fun hc => h (.tail b hc), hne]
  induction start with
  | nil => simp [strrchr, hnone]
  | cons b start ih => simp [strrchr, ih]

section

variable (h : ∀ c ∈ stack, Plain c)

include h

theorem appendToken_dotDot : appendToken capacity (rendered stack) dotDot = some (rendered stack.dropLast) := by
  rw [appendToken, if_neg (by decide), if_pos rfl]
  obtain rfl | ⟨init, last, rfl⟩ := eq_nil_or_concat stack
  · rfl
  · rw [List.concat_eq_append] at h ⊢
    have hslash : strrchr (rendered (init ++ [last])) '/' = some (joined init).length := by
      rw [rendered, if_neg (by simp), joined_append, joined_cons, joined_nil, List.append_nil]
      exact strrchr_append (joined init) (h last (by simp)).noSlash
    rw [hslash, List.dropLast_concat, rendered, if_neg (by simp), joined_append]
    cases init with
    | nil => rfl
    | cons component init =>
      simp only
      rw [if_pos (by simp), List.take_left, rendered, if_neg (cons_ne_nil _ _)]

theorem appendToken_word (hdot : word ≠ dot) (hdotDot : word ≠ dotDot)
    (hfits : (joined stack).length + (word.length + 1) < capacity) :
    appendToken capacity (rendered stack) word = some (rendered (stack ++ [word])) := by
  rw [appendToken, if_neg hdot, if_neg hdotDot]
  cases stack with
  | nil =>
    have hword : store capacity (['/'] ++ word) = some (['/'] ++ word) := if_pos (by simp at hfits ⊢; omega)
    have hroot : rendered [] = ['/'] := rfl
    simp only [hroot, List.getLast?_singleton, ne_eq, not_true_eq_false, if_false, bind_eq_bind, bind_some, hword]
    simp [rendered]
  | cons component stack =>
    have hne := (h component (.head _)).ne_nil
    have hlast := (canonical_rendered h).noTrailing (by simp [rendered, hne])
    have hstack : rendered (component :: stack) = joined (component :: stack) := if_neg (cons_ne_nil _ _)
    rw [hstack] at hlast ⊢
    have hslash : store capacity (joined (component :: stack) ++ ['/']) = some (joined (component :: stack) ++ ['/']) :=
      if_pos (by rw [length_append, List.length_singleton]; omega)
    have hword : store capacity (joined (component :: stack) ++ ['/'] ++ word) =
        some (joined (component :: stack) ++ ['/'] ++ word) :=
      if_pos (by rw [length_append, length_append, List.length_singleton]; omega)
    rw [if_pos hlast, hslash, bind_eq_bind, bind_some]
    refine hword.trans ?_
    rw [rendered, if_neg (by simp)]
    simp

theorem appendToken_push (hfits : (joined stack).length + (word.length + 1) < capacity) :
    appendToken capacity (rendered stack) word = some (rendered (push stack word)) := by
  rw [push]
  split_ifs with hdot hdotDot
  · rw [appendToken, if_pos hdot]
  · rw [hdotDot, appendToken_dotDot h]
  · exact appendToken_word h hdot hdotDot hfits

theorem foldlM_appendToken (hcomponents : ∀ c ∈ components, c ≠ [] ∧ '/' ∉ c)
    (hfits : (joined stack).length + (joined components).length < capacity) :
    components.foldlM (appendToken capacity) (rendered stack) = some (rendered (components.foldl push stack)) := by
  induction components generalizing stack with
  | nil => rfl
  | cons word components ih =>
    have hword := hcomponents word (.head _)
    have hlength := joined_push_length stack word
    simp only [joined_cons, length_cons, length_append] at hfits
    rw [List.foldlM_cons, appendToken_push h (by omega), bind_eq_bind, bind_some]
    exact ih (push_plain h hword) (fun c hc => hcomponents c (.tail word hc)) (by omega)

end

theorem normalizeLoop_eq {start result : Text} (hfree : Strtok.nul ∉ start) (rounds : Nat) (pos : Option Nat)
    {m : Memory} (hlast : m.last = (next ['/'] start pos).2.map (Strtok.Pointer.mk .first))
    (hkept : ∀ p, (next ['/'] start pos).2 = some p → (m.buffers .first).drop p = start.drop p)
    (hrounds : (left ['/'] start pos).length ≤ rounds) :
    normalizeLoop capacity rounds (token .first (next ['/'] start pos).1) m result =
      (left ['/'] start pos).foldlM (appendToken capacity) result := by
  induction rounds generalizing pos m result with
  | zero =>
    have hleft := List.eq_nil_of_length_eq_zero (Nat.le_zero.mp hrounds)
    rw [(Strtok.next_eq_none_iff _ _ _).mpr hleft, hleft]
    rfl
  | succ rounds ih =>
    cases hleft : left ['/'] start pos with
    | nil =>
      rw [(Strtok.next_eq_none_iff _ _ _).mpr hleft]
      rfl
    | cons word rest =>
      obtain ⟨hhead, htail⟩ := Strtok.left_next ['/'] start pos
      rw [hleft] at hhead htail hrounds
      obtain ⟨⟨offset, text⟩, hfirst, rfl⟩ := Option.map_eq_some_iff.mp hhead
      have hfrom : (none <|> m.last) = (next ['/'] start pos).2.map (.mk .first) := by simpa using hlast
      obtain ⟨hanswer, hlast', -, hkept'⟩ := Strtok.strtok_next ['/'] hfrom hkept hfree
      rw [hfirst, List.foldlM_cons, token, map_some, normalizeLoop]
      cases appendToken capacity result text with
      | none => rfl
      | some result' =>
        simp only [bind_eq_bind, bind_some]
        rw [hanswer, ih _ hlast' hkept' (by rw [htail]; simpa using hrounds), htail]
        rfl

end

section

variable {path : Text}

theorem mem_components {component : Text} (h : component ∈ words ['/'] path) : component ≠ [] ∧ '/' ∉ component := by
  obtain ⟨hne, hchars⟩ := Strtok.mem_words h
  exact ⟨hne, fun hc => (hchars '/' hc).1 (.head _)⟩

theorem onStack_plain (path : Text) : ∀ c ∈ onStack (words ['/'] path), Plain c :=
  foldl_push_plain (by simp) fun _ hc => mem_components hc

theorem nul_notMem_rendered (hfree : Strtok.nul ∉ path) : Strtok.nul ∉ rendered (onStack (words ['/'] path)) := by
  rw [rendered]
  split
  next => decide
  next =>
    rw [joined, List.mem_flatMap]
    rintro ⟨component, hcomponent, hin⟩
    have hwords := (mem_foldl_push hcomponent).resolve_left List.not_mem_nil
    obtain heq | hin := List.mem_cons.mp hin
    · exact absurd heq (by decide)
    · exact hfree ((Strtok.mem_words hwords).2 _ hin).2

theorem joined_words_length (path : Text) : (joined (words ['/'] path)).length ≤ path.length + 1 := by
  rw [joined_length]
  exact Strtok.sum_words_le ['/'] path

theorem length_le_joined (stack : List Text) : stack.length ≤ (joined stack).length := by
  induction stack with
  | nil => exact le_rfl
  | cons component stack ih =>
    simp only [joined_cons, length_cons, length_append]
    omega

theorem joined_foldl_push_length (components stack : List Text) :
    (joined (components.foldl push stack)).length ≤ (joined stack).length + (joined components).length := by
  induction components generalizing stack with
  | nil => exact le_rfl
  | cons word components ih =>
    have hpush := joined_push_length stack word
    have hrest := ih (push stack word)
    simp only [List.foldl_cons, joined_cons, length_cons, length_append] at hrest ⊢
    omega

theorem normalize_eq (hfree : Strtok.nul ∉ path) (habsolute : path.head? = some '/') :
    normalize true true path = some (some (rendered (onStack (words ['/'] path)))) := by
  obtain ⟨start, rfl⟩ : ∃ start, path = '/' :: start := by
    cases path with
    | nil => cases habsolute
    | cons c start => exact ⟨start, congrArg (· :: start) (Option.some.inj habsolute)⟩
  have hfree' : Strtok.nul ∉ start := fun h => hfree (mem_cons_of_mem '/' h)
  have hroot : store ('/' :: start).length.succ ['/'] = some ['/'] := if_pos (by simp)
  rw [Strtok.words_cons_delim (.head _)]
  simp only [normalize, Bool.not_true, Bool.false_eq_true, if_false, ← Nat.succ_eq_add_one, hroot, bind_eq_bind,
    bind_some]
  split
  next hslash =>
    rw [List.cons.injEq] at hslash
    rw [hslash.2]
    rfl
  next hslash =>
    have hfrom : ((some ⟨.first, 0⟩ : Option Strtok.Pointer) <|> (duplicate start).last) =
        (some 0 : Option Nat).map (.mk .first) := rfl
    obtain ⟨hanswer, hlast, -, hkept⟩ := Strtok.strtok_next ['/'] hfrom (fun _ hp => Option.some.inj hp ▸ rfl) hfree'
    have hlength := joined_words_length start
    have hcount := length_le_joined (words ['/'] start)
    have hfold : (words ['/'] start).foldlM (appendToken ('/' :: start).length.succ) (rendered []) =
        some (rendered (onStack (words ['/'] start))) :=
      foldlM_appendToken (by simp) (fun c hc => mem_components hc)
        (by simp only [joined_nil, length_nil, length_cons]; omega)
    simp only [tail_cons, hanswer]
    rw [normalizeLoop_eq hfree' _ _ hlast hkept (by simp only [left, List.drop_zero, length_cons]; omega)]
    exact congrArg (map some) hfold

/-- The result is canonical, it is the stack of the components and fits in the buffer, and it is its own result. -/
theorem normalize_canonical (hfree : Strtok.nul ∉ path) (habsolute : path.head? = some '/')
    (resultMemory dupMemory : Bool) :
    normalize resultMemory dupMemory path =
        some (if resultMemory && dupMemory then some (rendered (onStack (words ['/'] path))) else none) ∧
      Canonical (rendered (onStack (words ['/'] path))) ∧
      (rendered (onStack (words ['/'] path))).length + 1 ≤ path.length + 1 ∧
      normalize true true (rendered (onStack (words ['/'] path))) =
        some (some (rendered (onStack (words ['/'] path)))) := by
  have hplain := onStack_plain path
  have hcanonical := canonical_rendered hplain
  refine ⟨?_, hcanonical, Nat.succ_le_succ ?_, ?_⟩
  · cases resultMemory with
    | false => rfl
    | true =>
      cases dupMemory with
      | false => rfl
      | true => exact normalize_eq hfree habsolute
  · obtain ⟨start, rfl⟩ : ∃ start, path = '/' :: start := by
      cases path with
      | nil => cases habsolute
      | cons c start => exact ⟨start, congrArg (· :: start) (Option.some.inj habsolute)⟩
    have hpushed := joined_foldl_push_length (words ['/'] ('/' :: start)) []
    have hwords := joined_words_length start
    rw [Strtok.words_cons_delim (.head _), joined_nil, length_nil, Nat.zero_add] at hpushed
    rw [rendered]
    split
    next => simp
    next =>
      rw [Strtok.words_cons_delim (.head _)]
      exact hpushed.trans hwords
  · rw [normalize_eq (nul_notMem_rendered hfree) hcanonical.absolute, words_rendered hplain]
    have hstays : onStack (onStack (words ['/'] path)) = onStack (words ['/'] path) := by
      rw [onStack, foldl_push_of_plain hplain, List.nil_append]
    rw [hstays]

theorem normalize_canonical_up :
    normalize true true ['/', 'a', '/', '.', '.', '/', 'b', '/'] = some (some ['/', 'b']) ∧ Canonical ['/', 'b'] := by
  obtain ⟨hresult, hcanonical, -⟩ := @normalize_canonical ['/', 'a', '/', '.', '.', '/', 'b', '/']
    (by decide) rfl true true
  exact ⟨hresult, hcanonical⟩

end

variable {texts : Client → Text}

/-- What `normalize_path` makes of the answers that it receives, up to the first `NULL`. -/
def normalizedFrom (capacity : Nat) (answers : List (Option Token)) : Option Text :=
  ((answers.takeWhile Option.isSome).filterMap fun token => token.map Token.text).foldlM (appendToken capacity) ['/']

theorem texts_alone (text : Text) (c : Client) (calls : Nat) (pos : Option Nat) :
    ((Strtok.alone ['/'] text c calls pos).takeWhile Option.isSome).filterMap (fun token => token.map Token.text) =
      (left ['/'] text pos).take calls := by
  induction calls generalizing pos with
  | zero => rfl
  | succ calls ih =>
    obtain ⟨hhead, htail⟩ := Strtok.left_next ['/'] text pos
    rw [Strtok.alone]
    cases hnext : (next ['/'] text pos).1 with
    | none => rw [(Strtok.next_eq_none_iff _ _ _).mp hnext]; rfl
    | some found =>
      cases hleft : left ['/'] text pos with
      | nil => rw [hleft, hnext] at hhead; cases hhead
      | cons word rest =>
        rw [hleft, hnext, map_some, List.head?_cons, Option.some.injEq] at hhead
        rw [hleft, tail_cons] at htail
        have hlater := ih (next ['/'] text pos).2
        rw [htail] at hlater
        simp [token, ← hhead, hlater]

/-- Each client receives what it would on its own exactly where no call of it goes on in the string of the other
one, and then every path that has been taken apart is normalised as if there were no other. -/
theorem normalize_alone_iff (delim : List Char) (hfree : ∀ c, Strtok.nul ∉ texts c) (schedule : List Client) :
    ((∀ c, Strtok.answers c (Strtok.run delim schedule (Strtok.start texts)) =
        Strtok.answers c (Strtok.run delim (schedule.filter (· = c)) (Strtok.start texts))) ↔
      Strtok.Undisturbed delim texts schedule) ∧
    (Strtok.Undisturbed ['/'] texts schedule → ∀ c, (words ['/'] (texts c)).length ≤ schedule.count c →
      normalizedFrom ((texts c).length + 2) (Strtok.answers c (Strtok.run ['/'] schedule (Strtok.start texts))) =
        some (rendered (onStack (words ['/'] (texts c))))) := by
  refine ⟨Strtok.answers_alone_iff hfree schedule, fun hcalm c hcalls => ?_⟩
  rw [(Strtok.answers_iff_undisturbed hfree schedule).mpr hcalm c, normalizedFrom, texts_alone]
  have hlength := joined_words_length (texts c)
  rw [left, List.drop_zero, List.take_of_length_le hcalls]
  have hfold : (words ['/'] (texts c)).foldlM (appendToken ((texts c).length + 2)) (rendered []) =
      some (rendered (onStack (words ['/'] (texts c)))) :=
    foldlM_appendToken (by simp) (fun d hd => mem_components hd) (by simp only [joined_nil, length_nil]; omega)
  exact hfold

def bothPaths : Client → Text
  | .first => ['a', '/', 'b']
  | .second => ['c', '/', 'd']

theorem normalize_alone_iff_both :
    (∀ c, Strtok.answers c (Strtok.run ['/'] [.first, .second, .second] (Strtok.start bothPaths)) =
        Strtok.answers c (Strtok.run ['/'] ([.first, .second, .second].filter (· = c)) (Strtok.start bothPaths))) ↔
      Strtok.Undisturbed ['/'] bothPaths [.first, .second, .second] :=
  (normalize_alone_iff ['/'] (fun c => by cases c <;> decide) _).1

/-- The second component of one path becomes the last one of the other path. -/
theorem normalize_interferes :
    Strtok.answers .first (Strtok.run ['/'] [.first, .second, .first, .first] (Strtok.start bothPaths)) ≠
        Strtok.answers .first (Strtok.run ['/'] [.first, .first, .first] (Strtok.start bothPaths)) ∧
      normalizedFrom 5 (Strtok.answers .first
        (Strtok.run ['/'] [.first, .second, .first, .first] (Strtok.start bothPaths))) = some ['/', 'a', '/', 'd'] ∧
      normalizedFrom 5 (Strtok.answers .first
        (Strtok.run ['/'] [.first, .first, .first] (Strtok.start bothPaths))) = some ['/', 'a', '/', 'b'] := by
  decide

end OpenXJ380.Vfs
