import Mathlib.Algebra.GroupWithZero.Nat
import Mathlib.Algebra.Order.BigOperators.Group.List
import Mathlib.Algebra.Order.Group.Nat
import Mathlib.Data.List.TakeWhile

/-! # Taking strings apart (`strtok` of `kernel/krlibc.cpp`)

The pointer from which the next call goes on is one variable for the whole kernel. Two
clients call `strtok`, each on a string of its own.
-/

namespace OpenXJ380.Strtok

open Function

inductive Client where
  | first
  | second
  deriving DecidableEq

structure Pointer where
  owner : Client
  offset : Nat
  deriving DecidableEq

structure Token where
  start : Pointer
  text : List Char
  deriving DecidableEq

/-- The bytes of both strings up to where they ended at first, and the static variable. -/
structure Memory where
  buffers : Client → List Char
  last : Option Pointer

def nul : Char := '\x00'

def strtok (delim : List Char) (str : Option Pointer) (m : Memory) : Option Token × Memory :=
  match str <|> m.last with
  | none => (none, m)
  | some last =>
    let buffer := m.buffers last.owner
    let rest := (buffer.drop last.offset).takeWhile (· ≠ nul)
    let start := last.offset + (rest.takeWhile (· ∈ delim)).length
    let found := rest.dropWhile (· ∈ delim)
    if found = [] then (none, { m with last := none })
    else
      let word := found.takeWhile (· ∉ delim)
      let stop := start + word.length
      let token := some ⟨⟨last.owner, start⟩, word⟩
      if word.length < found.length then
        (token, ⟨update m.buffers last.owner (buffer.set stop nul), some ⟨last.owner, stop + 1⟩⟩)
      else (token, { m with last := none })

structure World where
  memory : Memory
  started : Client → Bool

def start (texts : Client → List Char) : World := ⟨⟨texts, none⟩, fun _ => false⟩

/-- The first call of a client passes its string, and the later ones pass `NULL`. -/
def call (delim : List Char) (c : Client) (w : World) : Option Token × World :=
  let (token, memory) := strtok delim (if w.started c then none else some ⟨c, 0⟩) w.memory
  (token, ⟨memory, update w.started c true⟩)

def run (delim : List Char) : List Client → World → List (Client × Option Token)
  | [], _ => []
  | c :: schedule, w => (c, (call delim c w).1) :: run delim schedule (call delim c w).2

def answers (c : Client) (r : List (Client × Option Token)) : List (Option Token) :=
  r.filterMap fun x => if x.1 = c then some x.2 else none

def words (delim text : List Char) : List (List Char) :=
  (text.splitOnP (· ∈ delim)).filter (· ≠ [])

/-- A client that goes on was the last one to call, or both strings have been taken apart. -/
def Undisturbed (delim : List Char) (texts : Client → List Char) (schedule : List Client) : Prop :=
  ∀ before c after, schedule = before ++ c :: after → c ∈ before →
    before.getLast? = some c ∨ ∀ d, (words delim (texts d)).length ≤ before.count d

section

variable {delim text : List Char}

/-- The next word from a place in a text on, where it begins, and the place behind it. -/
def next (delim text : List Char) : Option Nat → Option (Nat × List Char) × Option Nat
  | none => (none, none)
  | some pos =>
    let rest := text.drop pos
    let found := rest.dropWhile (· ∈ delim)
    let start := pos + (rest.takeWhile (· ∈ delim)).length
    if found = [] then (none, none)
    else
      let word := found.takeWhile (· ∉ delim)
      (some (start, word), if word.length < found.length then some (start + word.length + 1) else none)

def left (delim text : List Char) : Option Nat → List (List Char)
  | none => []
  | some pos => words delim (text.drop pos)

theorem words_cons_delim {d : Char} (hd : d ∈ delim) (text : List Char) :
    words delim (d :: text) = words delim text := by
  simp [words, List.splitOnP_cons_eq_if_modifyHead, hd]

theorem words_dropWhile (text : List Char) : words delim (text.dropWhile (· ∈ delim)) = words delim text := by
  induction text with
  | nil => rfl
  | cons d text ih =>
    rw [List.dropWhile_cons]
    split
    next hd => rw [ih, words_cons_delim (of_decide_eq_true hd)]
    next => rfl

theorem words_eq_cons {c : Char} (hc : c ∉ delim) (found : List Char) :
    words delim (c :: found) = (c :: found).takeWhile (· ∉ delim) ::
      words delim ((c :: found).drop (((c :: found).takeWhile (· ∉ delim)).length + 1)) := by
  obtain ⟨word, hword⟩ : ∃ word, (c :: found).takeWhile (· ∉ delim) = word := ⟨_, rfl⟩
  obtain ⟨rest, hrest⟩ : ∃ rest, (c :: found).dropWhile (· ∉ delim) = rest := ⟨_, rfl⟩
  have hsplit : word ++ rest = c :: found := by rw [← hword, ← hrest, List.takeWhile_append_dropWhile]
  have hplain : ∀ d ∈ word, decide (d ∈ delim) = false := fun d hd => by
    have hd := List.mem_takeWhile_imp (hword ▸ hd)
    simpa using hd
  have hne : word ≠ [] := by
    rw [← hword, List.takeWhile_cons_of_pos (by simpa using hc)]
    exact List.cons_ne_nil _ _
  rw [hword, ← hsplit, words]
  cases rest with
  | nil =>
    have hdone : word.drop (word.length + 1) = [] := List.drop_of_length_le (Nat.le_succ _)
    simp [List.splitOnP_eq_singleton hplain, hne, words, List.splitOnP_nil, hdone]
  | cons d rest =>
    have hd : decide (d ∈ delim) := by
      have hhead := List.head?_dropWhile_not (· ∉ delim) (c :: found)
      rw [hrest] at hhead
      simpa using hhead
    rw [List.splitOnP_append_cons_of_forall_mem hplain d hd]
    simp [hne, words]

theorem mem_splitOnP {p : Char → Bool} {text word : List Char} (h : word ∈ text.splitOnP p) {c : Char} (hc : c ∈ word) :
    p c = false ∧ c ∈ text := by
  induction text generalizing word with
  | nil =>
    rw [List.splitOnP_nil, List.mem_singleton] at h
    cases h ▸ hc
  | cons d text ih =>
    rw [List.splitOnP_cons_eq_if_modifyHead] at h
    split at h
    next =>
      obtain rfl | h := List.mem_cons.mp h
      · cases hc
      · exact (ih h hc).imp_right (List.mem_cons_of_mem d)
    next hd =>
      obtain ⟨w, ws, hw⟩ := List.exists_cons_of_ne_nil (List.splitOnP_ne_nil p text)
      rw [hw, List.modifyHead_cons, List.mem_cons] at h
      obtain rfl | h := h
      · obtain rfl | hc := List.mem_cons.mp hc
        · exact ⟨Bool.eq_false_iff.mpr hd, .head _⟩
        · exact (ih (hw ▸ (.head _)) hc).imp_right (List.mem_cons_of_mem d)
      · exact (ih (hw ▸ .tail w h) hc).imp_right (List.mem_cons_of_mem d)

theorem mem_words {word : List Char} (h : word ∈ words delim text) :
    word ≠ [] ∧ ∀ c ∈ word, c ∉ delim ∧ c ∈ text := by
  obtain ⟨hsplit, hne⟩ := List.mem_filter.mp h
  refine ⟨of_decide_eq_true hne, fun c hc => ?_⟩
  exact (mem_splitOnP hsplit hc).imp_left of_decide_eq_false

theorem sum_splitOnP (p : Char → Bool) (text : List Char) :
    ((text.splitOnP p).map fun word => word.length + 1).sum = text.length + 1 := by
  induction text with
  | nil => rfl
  | cons d text ih =>
    rw [List.splitOnP_cons_eq_if_modifyHead]
    split
    next =>
      simp only [List.map_cons, List.sum_cons, ih, List.length_nil, List.length_cons]
      omega
    next =>
      obtain ⟨w, ws, hw⟩ := List.exists_cons_of_ne_nil (List.splitOnP_ne_nil p text)
      simp only [hw, List.map_cons, List.sum_cons, List.modifyHead_cons, List.length_cons] at ih ⊢
      omega

theorem sum_words_le (delim text : List Char) :
    ((words delim text).map fun word => word.length + 1).sum ≤ text.length + 1 := by
  rw [← sum_splitOnP (· ∈ delim) text]
  exact (List.filter_sublist.map _).sum_le_sum fun _ _ => Nat.zero_le _

theorem left_next (delim text : List Char) (pos : Option Nat) :
    (next delim text pos).1.map Prod.snd = (left delim text pos).head? ∧
      left delim text (next delim text pos).2 = (left delim text pos).tail := by
  cases pos with
  | none => exact ⟨rfl, rfl⟩
  | some pos =>
    obtain ⟨found, hfound⟩ : ∃ found, (text.drop pos).dropWhile (· ∈ delim) = found := ⟨_, rfl⟩
    obtain ⟨skipped, hskipped⟩ : ∃ skipped, (text.drop pos).takeWhile (· ∈ delim) = skipped := ⟨_, rfl⟩
    have hrest : skipped ++ found = text.drop pos := by
      rw [← hskipped, ← hfound, List.takeWhile_append_dropWhile]
    have hwords : words delim (text.drop pos) = words delim found := by rw [← hfound, words_dropWhile]
    simp only [next, left, hfound, hskipped, hwords]
    cases found with
    | nil => simp [words, List.splitOnP_nil]
    | cons c found =>
      have hc : c ∉ delim := by
        have hhead := List.head?_dropWhile_not (· ∈ delim) (text.drop pos)
        rw [hfound] at hhead
        simpa using hhead
      rw [words_eq_cons hc, if_neg (List.cons_ne_nil c found)]
      obtain ⟨word, hword⟩ : ∃ word, (c :: found).takeWhile (· ∉ delim) = word := ⟨_, rfl⟩
      rw [hword]
      refine ⟨rfl, ?_⟩
      obtain hmore | hmore := lt_or_ge word.length (c :: found).length
      · have hdrop : text.drop (pos + skipped.length + word.length + 1) = (c :: found).drop (word.length + 1) := by
          rw [add_assoc, add_assoc, ← List.drop_drop, ← hrest, ← List.drop_drop, List.drop_left]
        simp only [if_pos hmore, hdrop, List.tail_cons]
      · simp only [if_neg (not_lt.mpr hmore), List.drop_of_length_le (Nat.le_succ_of_le hmore)]
        rfl

theorem next_eq_none_iff (delim text : List Char) (pos : Option Nat) :
    (next delim text pos).1 = none ↔ left delim text pos = [] := by
  rw [← Option.map_eq_none_iff, (left_next delim text pos).1, List.head?_eq_none_iff]

end

section

variable {delim : List Char} {texts : Client → List Char} {pos : Client → Option Nat} {m : Memory} {w : World}
  {c o : Client}

def token (c : Client) (found : Option (Nat × List Char)) : Option Token :=
  found.map fun x => ⟨⟨c, x.1⟩, x.2⟩

theorem next_snd_of_fst {text : List Char} {pos : Option Nat} (h : (next delim text pos).1 = none) :
    (next delim text pos).2 = none := by
  cases pos with
  | none => rfl
  | some pos =>
    simp only [next] at h ⊢
    split at h
    next hnone => rw [if_pos hnone]
    next => cases h

theorem strtok_next (delim : List Char) {str : Option Pointer} {pos : Option Nat} {text : List Char}
    (hfrom : (str <|> m.last) = pos.map (Pointer.mk o))
    (hkept : ∀ p, pos = some p → (m.buffers o).drop p = text.drop p) (hfree : nul ∉ text) :
    (strtok delim str m).1 = token o (next delim text pos).1 ∧
      (strtok delim str m).2.last = (next delim text pos).2.map (Pointer.mk o) ∧
      (∀ d, d ≠ o ∨ (next delim text pos).1 = none → (strtok delim str m).2.buffers d = m.buffers d) ∧
      ∀ q, (next delim text pos).2 = some q → ((strtok delim str m).2.buffers o).drop q = text.drop q := by
  cases pos with
  | none =>
    have hlast : m.last = none := by
      cases str with
      | none => exact hfrom
      | some p => cases hfrom
    have hnone : (str <|> m.last) = none := hfrom
    rw [strtok, hnone]
    exact ⟨rfl, hlast, fun _ _ => rfl, nofun⟩
  | some p =>
    have hstart := hkept p rfl
    have hstring : (text.drop p).takeWhile (· ≠ nul) = text.drop p := List.takeWhile_eq_self_iff.mpr fun d hd => by
      simpa using fun he : d = nul => hfree (he ▸ List.mem_of_mem_drop hd)
    have hlater (k : Nat) : (m.buffers o).drop (p + k) = text.drop (p + k) := by
      rw [← List.drop_drop, hstart, List.drop_drop]
    simp only [strtok, hfrom, Option.map_some, hstart, hstring, next]
    split
    next => exact ⟨rfl, rfl, fun _ _ => rfl, nofun⟩
    next =>
      split
      next =>
        refine ⟨rfl, rfl, fun d hd => ?_, fun q hq => ?_⟩
        · obtain hne | hnone := hd
          · exact update_of_ne hne _ _
          · cases hnone
        · cases hq
          simp only [update_self]
          rw [List.drop_set_of_lt (Nat.lt_succ_self _), Nat.succ_eq_add_one, Nat.add_assoc, Nat.add_assoc]
          exact hlater _
      next => exact ⟨rfl, rfl, fun _ _ => rfl, nofun⟩

/-- Where each client would be on its own: nothing from there on has been written to. -/
structure Follows (texts : Client → List Char) (pos : Client → Option Nat) (w : World) : Prop where
  free : ∀ c, nul ∉ texts c
  kept : ∀ c p, pos c = some p → (w.memory.buffers c).drop p = (texts c).drop p
  fresh : ∀ c, w.started c = false → pos c = some 0

def moved (delim : List Char) (texts : Client → List Char) (pos : Client → Option Nat) (c : Client) :
    Client → Option Nat :=
  update pos c (next delim (texts c) (pos c)).2

variable (h : Follows texts pos w)

include h

theorem Follows.step {w' : World} (hstarted : w'.started = update w.started c true)
    (hothers : ∀ d, d ≠ c → w'.memory.buffers d = w.memory.buffers d)
    (hown : ∀ q, (next delim (texts c) (pos c)).2 = some q → (w'.memory.buffers c).drop q = (texts c).drop q) :
    Follows texts (moved delim texts pos c) w' where
  free := h.free
  kept d p hd := by
    obtain rfl | hne := eq_or_ne d c
    · exact hown p (by simpa [moved] using hd)
    · rw [hothers d hne]
      exact h.kept d p (by simpa [moved, hne] using hd)
  fresh d hd := by
    rw [hstarted] at hd
    obtain rfl | hne := eq_or_ne d c
    · simp at hd
    · rw [update_of_ne hne] at hd
      rw [moved, update_of_ne hne]
      exact h.fresh d hd

theorem Follows.call_own (hown : w.started c → w.memory.last = (pos c).map (Pointer.mk c)) :
    (call delim c w).1 = token c (next delim (texts c) (pos c)).1 ∧ Follows texts (moved delim texts pos c)
    (call delim c w).2 ∧
      (call delim c w).2.memory.last = (moved delim texts pos c c).map (Pointer.mk c) := by
  have hfrom : ((if w.started c then none else some ⟨c, 0⟩) <|> w.memory.last) = (pos c).map (.mk c) := by
    cases hstarted : w.started c with
    | false => simp [h.fresh c hstarted]
    | true => simp [hown hstarted]
  obtain ⟨hanswer, hlast, hothers, hrest⟩ := strtok_next delim hfrom (h.kept c) (h.free c)
  refine ⟨hanswer, h.step rfl (fun d hd => hothers d (.inl hd)) hrest, ?_⟩
  rw [moved, update_self]
  exact hlast

theorem Follows.call_other (hstarted : w.started c)
    (hother : w.memory.last = (pos o).map (Pointer.mk o)) :
    (call delim c w).1 = token o (next delim (texts o) (pos o)).1 := by
  rw [call, hstarted]
  exact (strtok_next delim (by simpa using hother) (h.kept o) (h.free o)).1

theorem Follows.call_done (hstarted : w.started c)
    (hother : w.memory.last = (pos o).map (Pointer.mk o)) (hdone : ∀ d, left delim (texts d) (pos d) = []) :
    Follows texts (moved delim texts pos c) (call delim c w).2 ∧
      (call delim c w).2.memory.last = (moved delim texts pos c c).map (Pointer.mk c) := by
  have hnone (d : Client) := (next_eq_none_iff delim (texts d) (pos d)).mpr (hdone d)
  have hfrom : (none <|> w.memory.last) = (pos o).map (.mk o) := by simpa using hother
  obtain ⟨-, hlast, hothers, -⟩ := strtok_next delim hfrom (h.kept o) (h.free o)
  rw [next_snd_of_fst (hnone o)] at hlast
  rw [call, hstarted]
  refine ⟨h.step rfl (fun d _ => hothers d (.inr (hnone o))) fun q hq => ?_, ?_⟩
  · rw [next_snd_of_fst (hnone c)] at hq
    cases hq
  · rw [moved, update_self, next_snd_of_fst (hnone c)]
    exact hlast

end

variable {delim : List Char} {texts : Client → List Char}

def alone (delim text : List Char) (c : Client) : Nat → Option Nat → List (Option Token)
  | 0, _ => []
  | calls + 1, pos => token c (next delim text pos).1 :: alone delim text c calls (next delim text pos).2

def Calm (delim : List Char) (texts : Client → List Char) :
    List Client → (Client → Bool) → Option Client → (Client → Option Nat) → Prop
  | [], _, _, _ => True
  | c :: schedule, started, last, pos =>
    (started c = true → last = some c ∨ ∀ d, left delim (texts d) (pos d) = []) ∧
      Calm delim texts schedule (update started c true) (some c) (moved delim texts pos c)

theorem answers_cons (c d : Client) (answer : Option Token) (r : List (Client × Option Token)) :
    answers d ((c, answer) :: r) = if c = d then answer :: answers d r else answers d r := by
  by_cases h : c = d <;> simp [answers, h]

theorem token_eq_iff {c o : Client} (hne : o ≠ c) (x y : Option (Nat × List Char)) :
    token o x = token c y ↔ x = none ∧ y = none := by
  cases x <;> cases y <;> simp [token, hne]

theorem answers_run_cons (c : Client) (schedule : List Client) (w : World) (pos : Client → Option Nat) :
    (∀ d, answers d (run delim (c :: schedule) w) = alone delim (texts d) d ((c :: schedule).count d) (pos d)) ↔
      (call delim c w).1 = token c (next delim (texts c) (pos c)).1 ∧
        ∀ d, answers d (run delim schedule (call delim c w).2) =
          alone delim (texts d) d (schedule.count d) (moved delim texts pos c d) := by
  have hself : answers c (run delim (c :: schedule) w) = alone delim (texts c) c ((c :: schedule).count c) (pos c) ↔
      (call delim c w).1 = token c (next delim (texts c) (pos c)).1 ∧
        answers c (run delim schedule (call delim c w).2) =
          alone delim (texts c) c (schedule.count c) (moved delim texts pos c c) := by
    rw [run, answers_cons, if_pos rfl, List.count_cons_self, alone, List.cons.injEq, moved, update_self]
  have hother {d : Client} (hne : d ≠ c) :
      answers d (run delim (c :: schedule) w) = alone delim (texts d) d ((c :: schedule).count d) (pos d) ↔
        answers d (run delim schedule (call delim c w).2) =
          alone delim (texts d) d (schedule.count d) (moved delim texts pos c d) := by
    rw [run, answers_cons, if_neg hne.symm, List.count_cons_of_ne hne.symm, moved, update_of_ne hne]
  constructor
  · intro h
    refine ⟨(hself.mp (h c)).1, fun d => ?_⟩
    obtain rfl | hne := eq_or_ne d c
    · exact (hself.mp (h d)).2
    · exact (hother hne).mp (h d)
  · rintro ⟨hanswer, h⟩ d
    obtain rfl | hne := eq_or_ne d c
    · exact hself.mpr ⟨hanswer, h d⟩
    · exact (hother hne).mpr (h d)

theorem answers_iff_calm (schedule : List Client) {pos : Client → Option Nat} {w : World} {last : Option Client}
    (h : Follows texts pos w) (hlast : ∀ c, last = some c → w.memory.last = (pos c).map (Pointer.mk c))
    (hstarted : ∀ c, w.started c → last ≠ none) :
    (∀ d, answers d (run delim schedule w) = alone delim (texts d) d (schedule.count d) (pos d)) ↔
      Calm delim texts schedule w.started last pos := by
  induction schedule generalizing pos w last with
  | nil => simp [run, answers, alone, Calm]
  | cons c schedule ih =>
    have hlater (hfollows : Follows texts (moved delim texts pos c) (call delim c w).2)
        (hlast : (call delim c w).2.memory.last = (moved delim texts pos c c).map (.mk c)) :=
      @ih _ _ (some c) hfollows (fun d hd => Option.some.inj hd ▸ hlast) fun _ _ => Option.some_ne_none c
    rw [answers_run_cons, Calm]
    by_cases hown : w.started c → last = some c
    · obtain ⟨hanswer, hfollows, hpointer⟩ := h.call_own fun hs => hlast c (hown hs)
      exact and_congr (iff_of_true hanswer fun hs => .inl (hown hs)) (hlater hfollows hpointer)
    · obtain ⟨hs, hne⟩ := Classical.not_imp.mp hown
      obtain ⟨o, rfl⟩ := Option.ne_none_iff_exists'.mp (hstarted c hs)
      have hoc : o ≠ c := fun he => hne (congrArg some he)
      have hboth (hdone : left delim (texts o) (pos o) = [] ∧ left delim (texts c) (pos c) = []) (d : Client) :
          left delim (texts d) (pos d) = [] := by
        have hd : d = o ∨ d = c := by cases d <;> cases o <;> cases c <;> simp at hoc ⊢
        obtain rfl | rfl := hd
        · exact hdone.1
        · exact hdone.2
      have hanswer : (call delim c w).1 = token c (next delim (texts c) (pos c)).1 ↔
          ∀ d, left delim (texts d) (pos d) = [] := by
        rw [h.call_other hs (hlast o rfl), token_eq_iff hoc, next_eq_none_iff, next_eq_none_iff]
        exact ⟨hboth, fun hall => ⟨hall o, hall c⟩⟩
      have hfirst : (w.started c → some o = some c ∨ ∀ d, left delim (texts d) (pos d) = []) ↔
          ∀ d, left delim (texts d) (pos d) = [] :=
        ⟨fun hall => (hall hs).resolve_left hne, fun hall _ => .inr hall⟩
      rw [hanswer, hfirst]
      refine and_congr_right fun hdone => ?_
      obtain ⟨hfollows, hpointer⟩ := h.call_done hs (hlast o rfl) hdone
      exact hlater hfollows hpointer

theorem calm_iff (schedule before : List Client) {started : Client → Bool} {pos : Client → Option Nat}
    (hstarted : ∀ c, started c ↔ c ∈ before)
    (hpos : ∀ d, left delim (texts d) (pos d) = (words delim (texts d)).drop (before.count d)) :
    Calm delim texts schedule started before.getLast? pos ↔
      ∀ middle c after, schedule = middle ++ c :: after → c ∈ before ++ middle →
        (before ++ middle).getLast? = some c ∨ ∀ d, (words delim (texts d)).length ≤ (before ++ middle).count d := by
  induction schedule generalizing before started pos with
  | nil => simp [Calm]
  | cons c schedule ih =>
    have hlast : (before ++ [c]).getLast? = some c := List.getLast?_concat
    have hstarted' (d : Client) : update started c true d ↔ d ∈ before ++ [c] := by
      obtain rfl | hne := eq_or_ne d c
      · simp
      · simp [hne, hstarted d]
    have hpos' (d : Client) : left delim (texts d) (moved delim texts pos c d) =
        (words delim (texts d)).drop ((before ++ [c]).count d) := by
      obtain rfl | hne := eq_or_ne d c
      · rw [moved, update_self, (left_next delim _ _).2, hpos, List.tail_drop, List.count_append,
          List.count_singleton_self]
      · rw [moved, update_of_ne hne, hpos, List.count_append, List.count_singleton, if_neg (by simpa using hne.symm)]
        rfl
    have hlater := ih (before ++ [c]) hstarted' hpos'
    rw [hlast] at hlater
    have hdone : (∀ d, left delim (texts d) (pos d) = []) ↔ ∀ d, (words delim (texts d)).length ≤ before.count d :=
      forall_congr' fun d => by rw [hpos, List.drop_eq_nil_iff]
    rw [Calm, hlater, hstarted, hdone]
    constructor
    · rintro ⟨hfirst, hrest⟩ middle d after heq hmem
      cases middle with
      | nil =>
        obtain ⟨rfl, rfl⟩ := List.cons.inj heq
        simpa using hfirst (by simpa using hmem)
      | cons e middle =>
        obtain ⟨rfl, rfl⟩ := List.cons.inj heq
        simpa using hrest middle d after rfl (by simpa using hmem)
    · intro h
      refine ⟨fun hmem => by simpa using h [] c schedule rfl (by simpa using hmem), fun middle d after heq hmem => ?_⟩
      simpa using h (c :: middle) d after (congrArg (c :: ·) heq) (by simpa using hmem)

theorem follows_start (hfree : ∀ c, nul ∉ texts c) : Follows texts (fun _ => some 0) (start texts) where
  free := hfree
  kept _ _ hp := Option.some.inj hp ▸ rfl
  fresh _ _ := rfl

theorem answers_iff_undisturbed (hfree : ∀ c, nul ∉ texts c) (schedule : List Client) :
    (∀ c, answers c (run delim schedule (start texts)) = alone delim (texts c) c (schedule.count c) (some 0)) ↔
      Undisturbed delim texts schedule := by
  have hcalm : Calm delim texts schedule (fun _ => false) none (fun _ => some 0) ↔ Undisturbed delim texts schedule :=
    calm_iff schedule [] (fun c => by simp) fun d => by simp [left]
  exact (answers_iff_calm schedule (follows_start hfree) (fun c hc => by cases hc) fun c hc => by cases hc).trans hcalm

theorem undisturbed_filter (schedule : List Client) (c : Client) :
    Undisturbed delim texts (schedule.filter (· = c)) := by
  intro before d after heq hmem
  have hall (e : Client) (he : e ∈ before ++ d :: after) : e = c := by
    rw [← heq] at he
    simpa using (List.mem_filter.mp he).2
  obtain ⟨init, e, rfl⟩ := List.eq_nil_or_concat before |>.resolve_left (List.ne_nil_of_mem hmem)
  left
  rw [List.concat_eq_append, List.getLast?_concat, hall e (by simp), hall d (by simp)]

theorem answers_alone_iff (hfree : ∀ c, nul ∉ texts c) (schedule : List Client) :
    (∀ c, answers c (run delim schedule (start texts)) =
      answers c (run delim (schedule.filter (· = c)) (start texts))) ↔ Undisturbed delim texts schedule := by
  have hown (c : Client) : answers c (run delim (schedule.filter (· = c)) (start texts)) =
      alone delim (texts c) c (schedule.count c) (some 0) := by
    rw [(answers_iff_undisturbed hfree _).mpr (undisturbed_filter schedule c) c, List.count_filter (by simp)]
  rw [forall_congr' fun c => by rw [hown c], answers_iff_undisturbed hfree]

end OpenXJ380.Strtok
