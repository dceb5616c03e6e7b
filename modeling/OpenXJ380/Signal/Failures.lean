import OpenXJ380.Signal.Nesting

/-! # Deliveries that fail

The signal is taken out of the pending ones before the frame is written, and put back if it cannot be written. The
alternate stack is marked in between.
-/

namespace OpenXJ380.Signal

open WordMemory

section

variable {m : Machine} {pages : Nat → Nat → Bool}

/-- There is a handler, but it cannot be entered: nothing to return by is set, or the frame or the return address
cannot be written. -/
structure Undeliverable (pages : Nat → Nat → Bool) (m : Machine) : Prop where
  user : m.regs.cs &&& 3 = 3
  pending : findDeliverableSignal m.task ≠ 0
  notIgnored : (nextAction m).saHandler ≠ SIG_IGN
  notDefault : (nextAction m).saHandler ≠ SIG_DFL
  fails : (nextAction m).saRestorer = 0 ∨
    userRangeMapped pages (frameAddr (stackTop m (nextAction m))) frameSize = false ∨
    userRangeMapped pages (retAddr (stackTop m (nextAction m))) 8 = false

structure Unchanged (m m' : Machine) : Prop where
  signal : m'.task.signal = m.task.signal
  blocked : m'.task.blocked = m.task.blocked
  flags : m'.task.sasSsFlags = m.task.sasSsFlags
  actions : m'.task.actions = m.task.actions
  regs : m'.regs = m.regs

def LeavesAll (pages : Nat → Nat → Bool) (m : Machine) : Prop :=
  Undeliverable pages m → ∃ m', signalDeliverPending pages m = some (m', false) ∧ Unchanged m m'

theorem pend_again {x : Word} {sig : Nat} (hSig : sig < 64) (hSet : x &&& sigmask sig ≠ 0) :
    (x &&& ~~~sigmask sig) ||| sigmask sig = x := by
  have hBit := mt (Bits.masked_iff x hSig).mpr hSet
  apply BitVec.eq_of_getLsbD_eq
  intro i hi
  rw [BitVec.getLsbD_or, BitVec.getLsbD_and, BitVec.getLsbD_not, sigmask, Bits.bit_getLsbD]
  grind

theorem findDeliverableSignal_spec {task : Tcb} (h : findDeliverableSignal task ≠ 0) :
    findDeliverableSignal task < 64 ∧ task.signal &&& sigmask (findDeliverableSignal task) ≠ 0 := by
  rw [findDeliverableSignal] at *
  cases hFind : (List.range' MINSIG MAXSIG).find? fun sig => (task.signal &&& ~~~task.blocked) &&& sigmask sig ≠ 0 with
  | none =>
    rw [hFind] at h
    exact absurd rfl h
  | some sig =>
    have hRange := List.mem_range'_1.mp (List.mem_of_find?_eq_some hFind)
    have hDeliverable := List.find?_some hFind
    refine ⟨lt_of_lt_of_le hRange.2 (by decide), fun hClear => ?_⟩
    refine absurd ?_ (of_decide_eq_true hDeliverable)
    rw [BitVec.and_assoc, BitVec.and_comm (~~~task.blocked), ← BitVec.and_assoc]
    exact (congrArg (· &&& ~~~task.blocked) hClear).trans BitVec.zero_and

theorem chosenFlags_eq_iff {task : Tcb} {action : SigAction} :
    chosenFlags task action = task.sasSsFlags ↔ useAltstack task action = false := by
  rw [chosenFlags]
  cases hAlt : useAltstack task action with
  | false => exact ⟨fun _ => rfl, fun _ => rfl⟩
  | true =>
    refine ⟨fun hSame => ?_, by rintro ⟨⟩⟩
    have hOn := or_onstack task.sasSsFlags
    rw [if_pos rfl] at hSame
    rw [hSame] at hOn
    exact absurd (useAltstack_off hAlt) hOn

structure Failed (sig : Nat) (action : SigAction) (m : Machine) (r : Machine × Bool) : Prop where
  failed : r.2 = false
  signal : r.1.task.signal = m.task.signal ||| sigmask sig
  blocked : r.1.task.blocked = m.task.blocked
  flags : r.1.task.sasSsFlags = chosenFlags m.task action
  actions : r.1.task.actions = m.task.actions
  regs : r.1.regs = m.regs

theorem deliverFrame_failed (sig : Nat) {action : SigAction}
    (hFails : userRangeMapped pages (frameAddr (stackTop m action)) frameSize = false ∨
      userRangeMapped pages (retAddr (stackTop m action)) 8 = false) :
    Failed sig action m (deliverFrame pages sig action m) := by
  have hFlags : (if useAltstack m.task action then { m.task with sasSsFlags := m.task.sasSsFlags ||| SS_ONSTACK }
      else m.task) = { m.task with sasSsFlags := chosenFlags m.task action } := by
    rw [chosenFlags]
    split <;> rfl
  rw [deliverFrame]
  simp only [hFlags]
  split
  next hFrame =>
    split
    next hRet => exact absurd hFails (by simp [hFrame, hRet])
    next hRet => exact ⟨rfl, rfl, rfl, rfl, rfl, rfl⟩
  next hFrame => exact ⟨rfl, rfl, rfl, rfl, rfl, rfl⟩

theorem Undeliverable.deliver_eq (h : Undeliverable pages m) : signalDeliverPending pages m =
      let task := { m.task with signal := m.task.signal &&& ~~~sigmask (findDeliverableSignal m.task) }
      if (nextAction m).saRestorer = 0 then some ({ m with task := task.pend (findDeliverableSignal m.task) }, false)
      else some (deliverFrame pages (findDeliverableSignal m.task) (nextAction m) { m with task := task }) := by
  rw [signalDeliverPending, if_neg (not_not.mpr h.user)]
  simp only
  rw [if_neg h.pending]
  exact (if_neg h.notIgnored).trans (if_neg h.notDefault)

theorem Undeliverable.returns (h : Undeliverable pages m) :
    ∃ m', signalDeliverPending pages m = some (m', false) ∧ m'.task.signal = m.task.signal ∧
      m'.task.blocked = m.task.blocked ∧ m'.task.actions = m.task.actions ∧ m'.regs = m.regs ∧ m'.task.sasSsFlags =
        if (nextAction m).saRestorer = 0 then m.task.sasSsFlags else chosenFlags m.task (nextAction m) := by
  obtain ⟨hSig, hSet⟩ := findDeliverableSignal_spec h.pending
  have hSignal := pend_again hSig hSet
  rw [h.deliver_eq]
  split
  next hNone => exact ⟨_, rfl, hSignal, rfl, rfl, rfl, rfl⟩
  next hRestorer =>
    have hWrite := h.fails.resolve_left hRestorer
    have hFailed := deliverFrame_failed (findDeliverableSignal m.task)
      (m := { m with task := { m.task with signal := m.task.signal &&& ~~~sigmask (findDeliverableSignal m.task) } })
      hWrite
    refine ⟨_, congrArg some (Prod.ext rfl hFailed.failed), ?_⟩
    exact ⟨hFailed.signal.trans hSignal, hFailed.blocked, hFailed.actions, hFailed.regs, hFailed.flags⟩

/-- A delivery that fails changes nothing exactly where it does not get as far as the alternate stack. -/
theorem failed_delivery_unchanged_iff (pages : Nat → Nat → Bool) (m : Machine) :
    LeavesAll pages m ↔
      (Undeliverable pages m → (nextAction m).saRestorer = 0 ∨ useAltstack m.task (nextAction m) = false) := by
  constructor
  · intro hLeaves h
    obtain ⟨m', hReturns, hUnchanged⟩ := hLeaves h
    obtain ⟨left, hLeft, -, -, -, -, hFlags⟩ := h.returns
    have hSame : left = m' := congrArg Prod.fst (Option.some.inj (hLeft.symm.trans hReturns))
    rw [hSame, hUnchanged.flags] at hFlags
    by_cases hRestorer : (nextAction m).saRestorer = 0
    · exact .inl hRestorer
    · rw [if_neg hRestorer] at hFlags
      exact .inr (chosenFlags_eq_iff.mp hFlags.symm)
  · intro hMeets h
    obtain ⟨m', hReturns, hSignal, hBlocked, hActions, hRegs, hFlags⟩ := h.returns
    refine ⟨m', hReturns, hSignal, hBlocked, hFlags.trans ?_, hActions, hRegs⟩
    split
    next hNone => rfl
    next hRestorer => exact chosenFlags_eq_iff.mpr ((hMeets h).resolve_left hRestorer)

end

def noPages : Nat → Nat → Bool := fun _ _ => false

theorem failed_delivery_marks_stack :
    Undeliverable noPages oneSignal ∧
      (signalDeliverPending noPages oneSignal).map (fun r => (r.1.task.sasSsFlags, r.2)) = some (SS_ONSTACK, false) ∧
      oneSignal.task.sasSsFlags = 0 ∧ ¬LeavesAll noPages oneSignal := by
  have hFails : Undeliverable noPages oneSignal :=
    ⟨by decide, by decide, by decide, by decide, .inr (.inl (by decide))⟩
  have hDeliver : (signalDeliverPending noPages oneSignal).map (fun r => (r.1.task.sasSsFlags, r.2)) =
      some (SS_ONSTACK, false) := by decide
  refine ⟨hFails, hDeliver, rfl, fun hLeaves => ?_⟩
  obtain ⟨m', hReturns, hUnchanged⟩ := hLeaves hFails
  rw [hReturns] at hDeliver
  have hFlags : m'.task.sasSsFlags = SS_ONSTACK := congrArg Prod.fst (Option.some.inj hDeliver)
  exact absurd (hUnchanged.flags.symm.trans hFlags) (by decide)

end OpenXJ380.Signal
