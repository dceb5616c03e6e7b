import OpenXJ380.Pty.Model

/-! # Output of a pseudo-terminal is a FIFO

Each side reads from a buffer that the other side fills. A section takes from the front
of one buffer or puts behind the other, and leaves the rest of the pair.
-/

namespace OpenXJ380.Pty

open Function

open Errno LinearBuffer Transition

def held (pair : PtyHandle) : Side → List Byte
  | .master => contents pair.masterBuffer pair.ptrMaster
  | .slave => contents pair.slaveBuffer pair.ptrSlave

def passed : Side → Accepted → List Byte
  | .master => expand
  | .slave => input

section

variable {pair : PtyHandle} {data chs : List Byte} {size : Nat} {side : Side}

theorem ptsDataAvailable_le (pair : PtyHandle) : ptsDataAvailable pair ≤ pair.ptrSlave := by
  rw [ptsDataAvailable]
  split
  · exact le_rfl
  · cases hFind : (List.range pair.ptrSlave).find? fun i => endsLine pair.term (pair.slaveBuffer i) with
    | none => exact Nat.zero_le _
    | some i => exact List.mem_range.mp (List.mem_of_find?_eq_some hFind)

structure TakesOut (pair : PtyHandle) (size : Nat) (side : Side) (r : List Byte × PtyHandle) : Prop where
  taken : held pair side = r.1 ++ held r.2 side
  count : r.1.length = min size (available pair side)
  other : held r.2 side.other = held pair side.other
  bounds : r.2.ptrMaster ≤ pair.ptrMaster ∧ r.2.ptrSlave ≤ pair.ptrSlave

theorem contents_split {buf : Nat → Byte} {n k : Nat} (hLe : k ≤ n) :
    contents buf n = contents buf k ++ contents (move buf 0 k (n - k)) (n - k) := by
  rw [contents_move, ← contents_take hLe, List.take_append_drop]

theorem readCopy_takesOut (pair : PtyHandle) (size : Nat) (side : Side) :
    TakesOut pair size side (readCopy pair size side) := by
  cases side with
  | master =>
    refine ⟨?_, length_contents, rfl, Nat.sub_le _ _, le_rfl⟩
    exact contents_split (min_le_right _ _)
  | slave =>
    refine ⟨?_, length_contents, rfl, le_rfl, Nat.sub_le _ _⟩
    exact contents_split ((min_le_right _ _).trans (ptsDataAvailable_le pair))

structure PutsIn (pair : PtyHandle) (data : List Byte) (side : Side) (r : PtyHandle × Nat) : Prop where
  put : held r.1 side.other =
    held pair side.other ++ ((data.take r.2).map fun ch => ⟨ch, pair.term⟩).flatMap (passed side.other)
  count : r.2 ≤ data.length
  some : data ≠ [] → fits pair data side → 1 ≤ r.2
  own : held r.1 side = held pair side
  bounds : pair.ptrMaster ≤ ptyBuffSize → pair.ptrSlave ≤ ptyBuffSize →
    r.1.ptrMaster ≤ ptyBuffSize ∧ r.1.ptrSlave ≤ ptyBuffSize

theorem put_map (f : Byte → Byte) (buf : Nat → Byte) (pos : Nat) (xs : List Byte) :
    (fun i => if pos ≤ i ∧ i < pos + xs.length then f (LinearBuffer.put buf pos xs i)
      else LinearBuffer.put buf pos xs i) = LinearBuffer.put buf pos (xs.map f) := by
  funext i
  simp only [LinearBuffer.put]
  split
  · next hIn =>
    obtain ⟨hLe, hLess⟩ := hIn
    have hIndex : i - pos < xs.length := by omega
    rw [if_pos hLe, if_pos hLe, List.getD_eq_getElem _ _ hIndex,
      List.getD_eq_getElem _ _ (by rwa [List.length_map]), List.getElem_map]
  · next hOut =>
    split
    · next hLe =>
      have hIndex : xs.length ≤ i - pos := by omega
      rw [List.getD_eq_default _ _ hIndex, List.getD_eq_default _ _ (by rwa [List.length_map])]
    · rfl

theorem flatMap_input (term : Termios) (chs : List Byte) :
    (chs.map fun ch => Accepted.mk ch term).flatMap input = chs.map (crToLf term) := by
  induction chs with
  | nil => rfl
  | cons ch rest ih =>
    rw [List.map_cons, List.flatMap_cons, ih]
    rfl

section

variable (pair : PtyHandle)

theorem ptmxWriteCopy_putsIn (data : List Byte) : PutsIn pair data .master (ptmxWriteCopy pair data) := by
  have hLength : (data.take (min data.length (ptyBuffSize - pair.ptrSlave))).length =
      min data.length (ptyBuffSize - pair.ptrSlave) := List.length_take_of_le (min_le_left _ _)
  constructor
  · have hCells : (ptmxWriteCopy pair data).1.slaveBuffer = LinearBuffer.put pair.slaveBuffer pair.ptrSlave
        ((data.take (min data.length (ptyBuffSize - pair.ptrSlave))).map (crToLf pair.term)) := by
      rw [← put_map, hLength]
      rfl
    have hPut := @contents_put _ pair.slaveBuffer pair.ptrSlave
      ((data.take (min data.length (ptyBuffSize - pair.ptrSlave))).map (crToLf pair.term))
    rw [List.length_map, hLength, ← hCells] at hPut
    change contents _ _ = _ ++ ((data.take (min data.length (ptyBuffSize - pair.ptrSlave))).map _).flatMap input
    rw [flatMap_input]
    exact hPut
  · exact min_le_left _ _
  · intro hSome hFits
    have hPos := List.length_pos_of_ne_nil hSome
    have hRoom : pair.ptrSlave < ptyBuffSize := hFits
    exact Nat.le_min.mpr ⟨hPos, by omega⟩
  · rfl
  · intro hMaster hSlave
    refine ⟨hMaster, ?_⟩
    change pair.ptrSlave + min data.length (ptyBuffSize - pair.ptrSlave) ≤ ptyBuffSize
    omega

theorem held_store (chs : List Byte) : held (pair.store chs) .master = held pair .master ++ chs :=
  contents_put

theorem ptsWriteInner_putsIn (data : List Byte) :
    PutsIn pair data .slave (ptsWriteInner (translates pair.term) pair data) := by
  induction data generalizing pair with
  | nil =>
    refine ⟨?_, le_rfl, fun hSome => absurd rfl hSome, rfl, fun hMaster hSlave => ⟨hMaster, hSlave⟩⟩
    exact (List.append_nil _).symm
  | cons ch rest ih =>
    have hStop : ¬ pair.ptrMaster + (expand ⟨ch, pair.term⟩).length ≤ ptyBuffSize →
        PutsIn pair (ch :: rest) .slave (pair, 0) := by
      intro hFull
      refine ⟨?_, Nat.zero_le _, ?_, rfl, fun hMaster hSlave => ⟨hMaster, hSlave⟩⟩
      · exact (List.append_nil _).symm
      · exact fun _ hFits => absurd (hFits ch rfl) hFull
    have hGoOn : ∀ p : PtyHandle, p.term = pair.term → held p .slave = held pair .slave →
        p.ptrSlave = pair.ptrSlave → held p .master = held pair .master ++ expand ⟨ch, pair.term⟩ →
        p.ptrMaster ≤ ptyBuffSize →
        PutsIn pair (ch :: rest) .slave ((ptsWriteInner (translates pair.term) p rest).1,
          (ptsWriteInner (translates pair.term) p rest).2 + 1) := by
      intro p hTerm hSlave hPtr hMaster hBound
      have h := ih p
      rw [hTerm] at h
      constructor
      · rw [List.take_succ_cons, List.map_cons, List.flatMap_cons, ← List.append_assoc]
        change held _ .master = held pair .master ++ expand ⟨ch, pair.term⟩ ++ _
        rw [← hMaster, ← hTerm]
        exact hTerm ▸ h.put
      · exact Nat.succ_le_succ h.count
      · exact fun _ _ => Nat.succ_le_succ (Nat.zero_le _)
      · exact h.own.trans hSlave
      · exact fun _ hSlaveBound => h.bounds hBound (hPtr ▸ hSlaveBound)
    rw [ptsWriteInner]
    split
    · next hLine =>
      have hTwo : expand ⟨ch, pair.term⟩ = [CR, LF] := if_pos hLine
      split
      · next hFull => exact hStop (by rw [hTwo]; exact not_le.mpr hFull)
      · next hRoom =>
        refine hGoOn _ rfl rfl rfl ?_ (not_lt.mp hRoom)
        rw [held_store, held_store, hTwo, List.append_assoc]
        rfl
    · next hPlain =>
      have hOne : expand ⟨ch, pair.term⟩ = [ch] := if_neg hPlain
      split
      · next hFull => exact hStop (by rw [hOne]; exact not_le.mpr hFull)
      · next hRoom =>
        refine hGoOn _ rfl rfl rfl ?_ (not_lt.mp hRoom)
        rw [held_store, hOne]

theorem writeCopy_putsIn (data : List Byte) (side : Side) :
    PutsIn pair data side (writeCopy pair data side) := by
  cases side with
  | master => exact ptmxWriteCopy_putsIn pair data
  | slave => exact ptsWriteInner_putsIn pair data

theorem held_setFds (n : Nat) (side side' : Side) : held (setFds pair n side) side' = held pair side' := by
  cases side <;> cases side' <;> rfl

theorem setFds_bounds (n : Nat) (side : Side) :
    (setFds pair n side).ptrMaster = pair.ptrMaster ∧ (setFds pair n side).ptrSlave = pair.ptrSlave := by
  cases side <;> exact ⟨rfl, rfl⟩

end

theorem Side.other_other (side : Side) : side.other.other = side := by
  cases side <;> rfl

theorem Side.other_ne (side : Side) : side.other ≠ side := by
  cases side <;> decide

theorem Side.cases_of (side side' : Side) : side' = side ∨ side' = side.other := by
  cases side <;> cases side' <;> decide

end

structure Flowing (w : World) : Prop where
  bounded : w.pair.ptrMaster ≤ ptyBuffSize ∧ w.pair.ptrSlave ≤ ptyBuffSize
  fifo : ∀ side, w.returned side ++ held w.pair side = (w.accepted side.other).flatMap (passed side)
  some : ∀ t side data, (∃ space, w.pc t = .writing side data space) ∨ w.pc t = .copyingIn side data → data ≠ []
  writes : ∀ length ret count, (length, ret, count) ∈ w.writes →
    (0 ≤ ret → ret = count ∧ count ≤ length ∧ (0 < length → 1 ≤ count)) ∧ (ret < 0 → count = 0)
  hangUp : ∀ size got others, (size, got, others) ∈ w.reads → 0 < size → got = 0 → others = 0

section

variable {w w' : World} {t : ThreadId} {side : Side} {size space : Nat} {data : List Byte}

theorem enter_pc (w : World) (t : ThreadId) (pc : Pc) (j : ThreadId) :
    (w.enter t pc).pc j = if j = t then pc else w.pc j := update_apply _ _ _ _

section

variable (h : Flowing w)

include h

theorem Flowing.enter {pc : Pc}
    (hSome : ∀ side data, (∃ space, pc = .writing side data space) ∨ pc = .copyingIn side data → data ≠ []) :
    Flowing (w.enter t pc) := by
  refine { h with some := ?_ }
  intro j side data hj
  rw [enter_pc] at hj
  split at hj
  · exact hSome side data hj
  · exact h.some j side data hj

theorem Flowing.idle : Flowing (w.enter t .idle) := by
  apply h.enter
  rintro side data (⟨space, hPc⟩ | hPc) <;> cases hPc

theorem Flowing.answerRead {got others : Nat} (hHangUp : 0 < size → got = 0 → others = 0) :
    Flowing { w with reads := w.reads ++ [(size, got, others)] } := by
  refine { h with hangUp := ?_ }
  intro size' got' others' hMem
  obtain hOld | hNew := List.mem_append.mp hMem
  · exact h.hangUp size' got' others' hOld
  · cases List.mem_singleton.mp hNew
    exact hHangUp

theorem Flowing.answerWrite {length count : Nat} {ret : Int}
    (hReturned : 0 ≤ ret → ret = count ∧ count ≤ length ∧ (0 < length → 1 ≤ count)) (hFailed : ret < 0 → count = 0) :
    Flowing { w with writes := w.writes ++ [(length, ret, count)] } := by
  refine { h with writes := ?_ }
  intro length' ret' count' hMem
  obtain hOld | hNew := List.mem_append.mp hMem
  · exact h.writes length' ret' count' hOld
  · cases List.mem_singleton.mp hNew
    exact ⟨hReturned, hFailed⟩

theorem Flowing.copyOut (hCopying : w.pc t = .copyingOut side size)
    (hThere : StillThere w (.copyOut t)) : Flowing (w.copyOut t side size) := by
  obtain ⟨hTaken, hCount, hOther, hMaster, hSlave⟩ := readCopy_takesOut w.pair size side
  have hRead : Flowing { w with
      pair := (readCopy w.pair size side).2
      returned := update w.returned side (w.returned side ++ (readCopy w.pair size side).1) } := by
    refine ⟨⟨hMaster.trans h.bounded.1, hSlave.trans h.bounded.2⟩, ?_, h.some, h.writes, h.hangUp⟩
    intro side'
    change update w.returned side _ side' ++ held (readCopy w.pair size side).2 side' = _
    rw [update_apply]
    obtain rfl | rfl := Side.cases_of side side'
    · rw [if_pos rfl, List.append_assoc, ← hTaken, h.fifo]
    · rw [if_neg side.other_ne, hOther, h.fifo]
  refine hRead.idle.answerRead ?_
  intro hSize hNone
  obtain hZero | hSome | hGone := hThere side size hCopying
  · omega
  · omega
  · exact hGone

theorem Flowing.copyIn (hCopying : w.pc t = .copyingIn side data)
    (hThere : StillThere w (.copyIn t)) : Flowing (w.copyIn t side data) := by
  have hData := h.some t side data (.inr hCopying)
  obtain ⟨hPut, hCount, hSome, hOwn, hBounds⟩ := writeCopy_putsIn w.pair data side
  have hWritten : Flowing { w with
      pair := (writeCopy w.pair data side).1
      accepted := update w.accepted side
        (w.accepted side ++ (data.take (writeCopy w.pair data side).2).map fun ch => ⟨ch, w.pair.term⟩) } := by
    refine ⟨hBounds h.bounded.1 h.bounded.2, ?_, h.some, h.writes, h.hangUp⟩
    intro side'
    change w.returned side' ++ held (writeCopy w.pair data side).1 side' =
      (update w.accepted side _ side'.other).flatMap (passed side')
    rw [update_apply]
    obtain rfl | rfl := Side.cases_of side side'
    · rw [if_neg (Side.other_ne _), hOwn, h.fifo]
    · rw [if_pos (Side.other_other _), hPut, List.flatMap_append, ← List.append_assoc, h.fifo, Side.other_other]
  refine hWritten.idle.answerWrite ?_ ?_
  · exact fun _ => ⟨rfl, hCount, fun _ => hSome hData (hThere side data hCopying)⟩
  · exact (absurd · (Int.not_lt.mpr (Int.natCast_nonneg _)))

theorem Flowing.setFds (n : Nat) : Flowing { w with pair := setFds w.pair n side } := by
  obtain ⟨hMaster, hSlave⟩ := setFds_bounds w.pair n side
  refine ⟨?_, ?_, h.some, h.writes, h.hangUp⟩
  · rw [hMaster, hSlave]
    exact h.bounded
  · intro side'
    rw [held_setFds]
    exact h.fifo side'

end

theorem Flowing.step {a : Act} (hStep : Acts w a w') (hThere : StillThere w a) (h : Flowing w) : Flowing w' := by
  cases hStep with
  | callRead hIdle =>
    apply h.enter
    rintro side data (⟨space, hPc⟩ | hPc) <;> cases hPc
  | finds hReading hData =>
    apply h.enter
    rintro side data (⟨space, hPc⟩ | hPc) <;> cases hPc
  | hungUp hReading hNone hGone => exact h.idle.answerRead fun _ _ => hGone
  | readWaits hReading hNone hOther => exact h
  | copyOut hCopying => exact h.copyOut hCopying hThere
  | writeNothing hIdle =>
    refine h.answerWrite ?_ ?_
    · exact fun _ => ⟨rfl, Nat.le_refl _, (absurd · (Nat.lt_irrefl _))⟩
    · exact fun _ => rfl
  | callWrite hIdle hSome =>
    apply h.enter
    rintro side data (⟨space, hPc⟩ | hPc)
    · cases hPc
      exact hSome
    · cases hPc
  | fails hWriting hFails =>
    refine h.idle.answerWrite ?_ ?_
    · exact fun hNonneg => absurd hNonneg (by decide)
    · exact fun _ => rfl
  | @goesOn t side data space hWriting hFine hRoom =>
    apply h.enter
    rintro side' data' (⟨space', hPc⟩ | hPc)
    · cases hPc
    · cases hPc
      exact h.some t side data (.inl ⟨space, hWriting⟩)
  | writeWaits hWriting hFine hFull => exact h
  | copyIn hCopying => exact h.copyIn hCopying hThere
  | tcsets => exact { h with fifo := fun side => by cases side <;> exact h.fifo _ }
  | dup => exact h.setFds _
  | @close side hOpen =>
    have hClosed := @Flowing.setFds w side h (fds w.pair side - 1)
    exact ⟨hClosed.bounded, hClosed.fifo, h.some, h.writes, h.hangUp⟩

theorem Flowing.init (term : Termios) : Flowing (World.init term) where
  bounded := ⟨Nat.zero_le _, Nat.zero_le _⟩
  fifo side := by cases side <;> rfl
  some _ _ _ hPc := by obtain ⟨_, hPc⟩ | hPc := hPc <;> cases hPc
  writes _ _ _ hMem := nomatch hMem
  hangUp _ _ _ hMem := nomatch hMem

end

def plainTerm : Termios := { cIflag := 0, cOflag := OPOST ||| ONLCR, cLflag := 0, cCc := fun _ => 0 }

def opened : World :=
  { World.init plainTerm with pair := setFds (World.init plainTerm).pair 1 .slave }

end OpenXJ380.Pty
