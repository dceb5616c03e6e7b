import OpenXJ380.Pty.Output

/-! # A pair in canonical mode

The slave may read when a byte of its buffer ends a line, and the master may write
when the buffer is not full. The settings matter to both, so they stay as they are here.
-/

namespace OpenXJ380.Pty

open LinearBuffer Transition

def Wedged (pair : PtyHandle) : Prop := pair.ptrSlave = ptyBuffSize ∧ ptsDataAvailable pair = 0

def KeepsSettings : Act → Prop
  | .tcsets _ => False
  | _ => True

def LeavesLine (w : World) : Act → Prop
  | .copyIn t => ∀ data, w.pc t = .copyingIn .master data →
      data.length < ptyBuffSize - w.pair.ptrSlave ∨ 0 < ptsDataAvailable w.pair ∨
        ∃ ch ∈ data.take (ptyBuffSize - w.pair.ptrSlave), endsLine w.pair.term (crToLf w.pair.term ch) = true
  | _ => True

structure Canonical (w : World) : Prop where
  fine : ¬ Wedged w.pair
  reads : ∀ size before ch rest, (ptsReadCopy w.pair size).1 = before ++ ch :: rest →
    endsLine w.pair.term ch = true → rest = []

section

variable {pair p q : PtyHandle} {data : List Byte}

theorem length_held (pair : PtyHandle) : (held pair .slave).length = pair.ptrSlave := length_contents

theorem mem_held {ch : Byte} : ch ∈ held pair .slave ↔ ∃ i < pair.ptrSlave, pair.slaveBuffer i = ch := by
  simp only [held, contents, List.mem_map, List.mem_range]

section

variable (hCanon : pair.term.cLflag &&& ICANON ≠ 0)

include hCanon

theorem ptsDataAvailable_eq_zero :
    ptsDataAvailable pair = 0 ↔ ∀ ch ∈ held pair .slave, endsLine pair.term ch = false := by
  rw [ptsDataAvailable, if_neg hCanon]
  cases hFind : (List.range pair.ptrSlave).find? fun i => endsLine pair.term (pair.slaveBuffer i) with
  | none =>
    have hNone : ∀ i < pair.ptrSlave, endsLine pair.term (pair.slaveBuffer i) = false := by simpa using hFind
    refine ⟨fun _ => ?_, fun _ => rfl⟩
    rintro ch hMem
    obtain ⟨i, hi, rfl⟩ := mem_held.mp hMem
    exact hNone i hi
  | some i =>
    have hEnds : endsLine pair.term (pair.slaveBuffer i) := by simpa using List.find?_some hFind
    have hLess : i < pair.ptrSlave := List.mem_range.mp (List.mem_of_find?_eq_some hFind)
    constructor
    · exact (absurd · (Nat.succ_ne_zero i))
    · intro hAll
      rw [hAll _ (mem_held.mpr ⟨i, hLess, rfl⟩)] at hEnds
      cases hEnds

theorem ptsDataAvailable_line {i : Nat}
    (hi : i + 1 < ptsDataAvailable pair) : endsLine pair.term (pair.slaveBuffer i) = false := by
  rw [ptsDataAvailable, if_neg hCanon] at hi
  cases hFind : (List.range pair.ptrSlave).find? fun i => endsLine pair.term (pair.slaveBuffer i) with
  | none =>
    rw [hFind] at hi
    cases hi
  | some k =>
    rw [hFind] at hi
    have hFirst := (List.find?_range_eq_some.mp hFind).2.2 i (by change i + 1 < k + 1 at hi; omega)
    simpa using hFirst

theorem ptsReadCopy_line {size : Nat} {before rest : List Byte}
    {ch : Byte} (hRead : (ptsReadCopy pair size).1 = before ++ ch :: rest) (hEnds : endsLine pair.term ch) :
    rest = [] := by
  have hLength : before.length + (rest.length + 1) = min size (ptsDataAvailable pair) := by
    rw [← @length_contents _ pair.slaveBuffer (min size (ptsDataAvailable pair)), ← List.length_cons (a := ch),
      ← List.length_append]
    exact congrArg List.length hRead.symm
  have hCell : pair.slaveBuffer before.length = ch := by
    have hSome := congrArg (fun chs => chs[before.length]?) hRead
    have hIn : before.length < min size (ptsDataAvailable pair) := by omega
    simpa [ptsReadCopy, contents, hIn] using hSome
  cases rest with
  | nil => rfl
  | cons next rest =>
    rw [List.length_cons] at hLength
    have hInside := ptsDataAvailable_line hCanon (i := before.length) (by omega)
    rw [hCell, hEnds] at hInside
    cases hInside

theorem wedged_iff : Wedged pair ↔
    (held pair .slave).length = ptyBuffSize ∧ ∀ ch ∈ held pair .slave, endsLine pair.term ch = false := by
  rw [length_held, ← ptsDataAvailable_eq_zero hCanon]
  rfl

end

theorem wedged_congr (hCanon : p.term.cLflag &&& ICANON ≠ 0) (hTerm : q.term = p.term)
    (hHeld : held q .slave = held p .slave) : Wedged q ↔ Wedged p := by
  rw [wedged_iff hCanon, wedged_iff (hTerm ▸ hCanon), hTerm, hHeld]

theorem ptsWriteInner_term (translate : Bool) (pair : PtyHandle) (data : List Byte) :
    (ptsWriteInner translate pair data).1.term = pair.term := by
  induction data generalizing pair with
  | nil => rfl
  | cons ch rest ih =>
    rw [ptsWriteInner]
    split
    · split
      · rfl
      · exact ih _
    · split
      · rfl
      · exact ih _

theorem writeCopy_term (pair : PtyHandle) (data : List Byte) (side : Side) :
    (writeCopy pair data side).1.term = pair.term := by
  cases side with
  | master => rfl
  | slave => exact ptsWriteInner_term _ pair data

theorem readCopy_term (pair : PtyHandle) (size : Nat) (side : Side) : (readCopy pair size side).2.term = pair.term := by
  cases side <;> rfl

theorem readCopy_fine (hCanon : pair.term.cLflag &&& ICANON ≠ 0) (hBound : pair.ptrSlave ≤ ptyBuffSize)
    (hFine : ¬ Wedged pair) (size : Nat) (side : Side) : ¬ Wedged (readCopy pair size side).2 := by
  obtain ⟨hTaken, hCount, hOther, hMaster, hSlave⟩ := readCopy_takesOut pair size side
  cases side with
  | master => exact (wedged_congr hCanon (readCopy_term pair size .master) hOther).not.mpr hFine
  | slave =>
    cases hRead : (readCopy pair size .slave).1 with
    | nil =>
      rw [hRead, List.nil_append] at hTaken
      exact (wedged_congr hCanon (readCopy_term pair size .slave) hTaken.symm).not.mpr hFine
    | cons ch rest =>
      rintro ⟨hFull, _⟩
      have hLength := congrArg List.length hTaken
      rw [length_held, hRead, List.length_append, List.length_cons, length_held] at hLength
      omega

theorem held_ptmxWriteCopy (pair : PtyHandle) (data : List Byte) : held (ptmxWriteCopy pair data).1 .slave =
      held pair .slave ++ (data.take (ptyBuffSize - pair.ptrSlave)).map (crToLf pair.term) := by
  have hPut := (ptmxWriteCopy_putsIn pair data).put
  have hTake : data.take (min data.length (ptyBuffSize - pair.ptrSlave)) = data.take (ptyBuffSize - pair.ptrSlave) := by
    rw [Nat.min_comm, ← List.take_take, List.take_length]
  change held (ptmxWriteCopy pair data).1 .slave = held pair .slave ++
    ((data.take (min data.length (ptyBuffSize - pair.ptrSlave))).map _).flatMap input at hPut
  rw [flatMap_input, hTake] at hPut
  exact hPut

theorem ptmxWriteCopy_wedged (hCanon : pair.term.cLflag &&& ICANON ≠ 0) (hBound : pair.ptrSlave ≤ ptyBuffSize) :
    Wedged (ptmxWriteCopy pair data).1 ↔ ptyBuffSize - pair.ptrSlave ≤ data.length ∧ ptsDataAvailable pair = 0 ∧
      ∀ ch ∈ data.take (ptyBuffSize - pair.ptrSlave), endsLine pair.term (crToLf pair.term ch) = false := by
  have hLength : (held (ptmxWriteCopy pair data).1 .slave).length = ptyBuffSize ↔
      ptyBuffSize - pair.ptrSlave ≤ data.length := by
    rw [held_ptmxWriteCopy, List.length_append, List.length_map, List.length_take, length_held]
    omega
  have hTerm : (ptmxWriteCopy pair data).1.term = pair.term := rfl
  rw [wedged_iff (hTerm ▸ hCanon), hLength, held_ptmxWriteCopy, ptsDataAvailable_eq_zero hCanon, hTerm]
  refine and_congr_right fun _ => ?_
  simp only [List.mem_append, List.mem_map, or_imp, forall_and, forall_exists_index, and_imp, forall_apply_eq_imp_iff₂]

end

/-- The settings are those of the start, and no step so far has wedged the pair. -/
structure Unwedged (term : Termios) (w : World) : Prop where
  settings : w.pair.term = term
  bounded : w.pair.ptrMaster ≤ ptyBuffSize ∧ w.pair.ptrSlave ≤ ptyBuffSize
  fine : ¬ Wedged w.pair

section

variable {w w' : World} {t : ThreadId} {term : Termios} {data : List Byte} {a : Act}

theorem copyIn_wedged (hCanon : term.cLflag &&& ICANON ≠ 0) (h : Unwedged term w) :
    Wedged (ptmxWriteCopy w.pair data).1 ↔ ¬ (data.length < ptyBuffSize - w.pair.ptrSlave ∨
      0 < ptsDataAvailable w.pair ∨
        ∃ ch ∈ data.take (ptyBuffSize - w.pair.ptrSlave), endsLine w.pair.term (crToLf w.pair.term ch)) := by
  rw [ptmxWriteCopy_wedged (h.settings ▸ hCanon) h.bounded.2]
  simp only [not_or, not_lt, Nat.le_zero, not_exists, not_and, Bool.not_eq_true]

theorem Unwedged.setFds (h : Unwedged term w) (hCanon : term.cLflag &&& ICANON ≠ 0) (n : Nat) (side : Side) :
    Unwedged term { w with pair := Pty.setFds w.pair n side } := by
  obtain ⟨hMaster, hSlave⟩ := setFds_bounds w.pair n side
  have hTerm : (Pty.setFds w.pair n side).term = w.pair.term := by cases side <;> rfl
  refine ⟨hTerm.trans h.settings, ?_, ?_⟩
  · exact ⟨hMaster ▸ h.bounded.1, hSlave ▸ h.bounded.2⟩
  · have hSame := wedged_congr (h.settings ▸ hCanon) hTerm (held_setFds w.pair n side .slave)
    exact hSame.not.mpr h.fine

theorem Unwedged.step_iff (h : Unwedged term w) (hCanon : term.cLflag &&& ICANON ≠ 0) (hKeeps : KeepsSettings a)
    (hStep : Acts w a w') : w'.pair.term = term ∧ (w'.pair.ptrMaster ≤ ptyBuffSize ∧ w'.pair.ptrSlave ≤ ptyBuffSize) ∧
      (¬ Wedged w'.pair ↔ LeavesLine w a) := by
  have hSettings : w.pair.term.cLflag &&& ICANON ≠ 0 := h.settings ▸ hCanon
  cases hStep with
  | callRead hIdle => exact ⟨h.settings, h.bounded, iff_of_true h.fine trivial⟩
  | finds hReading hData => exact ⟨h.settings, h.bounded, iff_of_true h.fine trivial⟩
  | hungUp hReading hNone hGone => exact ⟨h.settings, h.bounded, iff_of_true h.fine trivial⟩
  | readWaits hReading hNone hOther => exact ⟨h.settings, h.bounded, iff_of_true h.fine trivial⟩
  | @copyOut t side size hCopying =>
    obtain ⟨hMaster, hSlave⟩ := (readCopy_takesOut w.pair size side).bounds
    refine ⟨(readCopy_term w.pair size side).trans h.settings, ?_, iff_of_true ?_ trivial⟩
    · exact ⟨hMaster.trans h.bounded.1, hSlave.trans h.bounded.2⟩
    · exact readCopy_fine hSettings h.bounded.2 h.fine size side
  | writeNothing hIdle => exact ⟨h.settings, h.bounded, iff_of_true h.fine trivial⟩
  | callWrite hIdle hSome => exact ⟨h.settings, h.bounded, iff_of_true h.fine trivial⟩
  | fails hWriting hFails => exact ⟨h.settings, h.bounded, iff_of_true h.fine trivial⟩
  | goesOn hWriting hGoesOn hRoom => exact ⟨h.settings, h.bounded, iff_of_true h.fine trivial⟩
  | writeWaits hWriting hGoesOn hFull => exact ⟨h.settings, h.bounded, iff_of_true h.fine trivial⟩
  | @copyIn t side data hCopying =>
    have hPuts := writeCopy_putsIn w.pair data side
    have hTerm := writeCopy_term w.pair data side
    refine ⟨hTerm.trans h.settings, hPuts.bounds h.bounded.1 h.bounded.2, ?_⟩
    cases side with
    | master =>
      constructor
      · intro hFine data' hPc
        cases hCopying.symm.trans hPc
        exact not_not.mp ((copyIn_wedged hCanon h).not.mp hFine)
      · intro hLine
        exact (copyIn_wedged hCanon h).not.mpr (not_not.mpr (hLine data hCopying))
    | slave =>
      refine iff_of_true ?_ ?_
      · exact (wedged_congr hSettings hTerm hPuts.own).not.mpr h.fine
      · intro data' hPc
        cases hCopying.symm.trans hPc
  | tcsets => exact hKeeps.elim
  | @dup side =>
    have hDup := h.setFds hCanon (fds w.pair side + 1) side
    exact ⟨hDup.settings, hDup.bounded, iff_of_true hDup.fine trivial⟩
  | @close side hOpen =>
    have hClosed := h.setFds hCanon (fds w.pair side - 1) side
    exact ⟨hClosed.settings, hClosed.bounded, iff_of_true hClosed.fine trivial⟩

theorem Unwedged.init : Unwedged term (World.init term) := by
  refine ⟨rfl, ⟨Nat.zero_le _, Nat.zero_le _⟩, ?_⟩
  rintro ⟨hFull, _⟩
  cases hFull

theorem Unwedged.canonical (h : Unwedged term w) (hCanon : term.cLflag &&& ICANON ≠ 0) : Canonical w :=
  ⟨h.fine, fun _ _ _ _ hRead hEnds => ptsReadCopy_line (h.settings ▸ hCanon) hRead hEnds⟩

theorem canonical_run (hCanon : term.cLflag &&& ICANON ≠ 0) {acts : List Act}
    (hRun : Run (ptySystem.restrict fun w a => KeepsSettings a ∧ LeavesLine w a) (World.init term) acts w) :
    Unwedged term w := by
  have hStep : ∀ s a s', Unwedged term s →
      (ptySystem.restrict fun w a => KeepsSettings a ∧ LeavesLine w a).step s a s' → Unwedged term s' := by
    rintro s a s' hs ⟨⟨hKeeps, hLine⟩, _, hActs⟩
    obtain ⟨hSettings, hBounded, hFine⟩ := hs.step_iff hCanon hKeeps hActs
    exact ⟨hSettings, hBounded, hFine.mpr hLine⟩
  exact hRun.invariant hStep Unwedged.init

end

/-- Up to the first write that fills the buffer without a line in it the pair goes on, and with it it is wedged. -/
theorem canonical_pty_goes_on {term : Termios} (hCanon : term.cLflag &&& ICANON ≠ 0) {acts : List Act} {w : World}
    (hRun : Run (ptySystem.restrict fun w a => KeepsSettings a ∧ LeavesLine w a) (World.init term) acts w) :
    Canonical w ∧ ∀ a w', KeepsSettings a → ptySystem.step w a w' → (Canonical w' ↔ LeavesLine w a) := by
  have h := canonical_run hCanon hRun
  refine ⟨h.canonical hCanon, ?_⟩
  rintro a w' hKeeps ⟨_, hActs⟩
  obtain ⟨hSettings, hBounded, hFine⟩ := h.step_iff hCanon hKeeps hActs
  constructor
  · exact fun hCanonical => hFine.mp hCanonical.fine
  · exact fun hLine => Unwedged.canonical ⟨hSettings, hBounded, hFine.mpr hLine⟩ hCanon

/-- `pty_termios_default`. -/
def ptyTermiosDefault : Termios where
  cIflag := 0x532
  cOflag := OPOST ||| ONLCR
  cLflag := 0x3b
  cCc i := [3, 28, 127, 21, 4, 0, 1, 0, 17, 19, 26].getD i 0

def typed (data : List Byte) : World :=
  (((World.init ptyTermiosDefault).enter 0 (.writing .master data 2)).enter 0 (.copyingIn .master data)).copyIn 0
    .master data

theorem canonical_pty_goes_on_line : Canonical (typed [65, CR]) := by
  have hCall : (ptySystem.restrict fun w a => KeepsSettings a ∧ LeavesLine w a).step (World.init ptyTermiosDefault)
      (.callWrite 0 .master [65, CR]) ((World.init ptyTermiosDefault).enter 0 (.writing .master [65, CR] 2)) :=
    ⟨⟨trivial, trivial⟩, rfl, Acts.callWrite rfl (by decide)⟩
  have hGoesOn : (ptySystem.restrict fun w a => KeepsSettings a ∧ LeavesLine w a).step
      ((World.init ptyTermiosDefault).enter 0 (.writing .master [65, CR] 2)) (.writeSection 0)
      (((World.init ptyTermiosDefault).enter 0 (.writing .master [65, CR] 2)).enter 0
        (.copyingIn .master [65, CR])) := ⟨⟨trivial, trivial⟩, rfl, Acts.goesOn rfl rfl rfl⟩
  have hLine : LeavesLine (((World.init ptyTermiosDefault).enter 0 (.writing .master [65, CR] 2)).enter 0
      (.copyingIn .master [65, CR])) (.copyIn 0) := by
    intro data hPc
    cases hPc
    exact .inl (by decide)
  exact (canonical_pty_goes_on (by decide) (((Run.single hCall).snoc hGoesOn).snoc
    (l := Act.copyIn 0) ⟨⟨trivial, hLine⟩, rfl, Acts.copyIn rfl⟩)).1

/-- As many letters as the buffer takes. -/
theorem canonical_pty_wedged :
    Run ptySystem (World.init ptyTermiosDefault)
        [.callWrite 0 .master (List.replicate ptyBuffSize 65), .writeSection 0, .copyIn 0]
        (typed (List.replicate ptyBuffSize 65)) ∧
      ptyTermiosDefault.cLflag &&& ICANON ≠ 0 ∧ Wedged (typed (List.replicate ptyBuffSize 65)).pair := by
  refine ⟨?_, by decide, ?_⟩
  · have hRun := (Run.nil (M := ptySystem) (World.init ptyTermiosDefault)).snoc
      (l := Act.callWrite 0 .master (List.replicate ptyBuffSize 65))
      ⟨rfl, Acts.callWrite rfl (List.ne_nil_of_length_eq_add_one List.length_replicate)⟩
    have hRun := hRun.snoc (l := Act.writeSection 0) ⟨rfl, Acts.goesOn rfl rfl rfl⟩
    exact hRun.snoc ⟨rfl, Acts.copyIn rfl⟩
  · refine (ptmxWriteCopy_wedged (by decide) (by decide)).mpr ⟨?_, by decide, ?_⟩
    · exact List.length_replicate.ge
    · intro ch hMem
      cases List.eq_of_mem_replicate (List.mem_of_mem_take hMem)
      decide

end OpenXJ380.Pty
