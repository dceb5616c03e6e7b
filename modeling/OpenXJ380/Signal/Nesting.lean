import OpenXJ380.Lib.Bits
import OpenXJ380.Signal.Model

/-! # Nested signal handlers

The frames of the handlers that have not returned stand on two stacks. On each they go
downwards, and once a handler is on the alternate stack so are all those inside it.
-/

namespace OpenXJ380.Signal

open Transition WordMemory

section

variable {m : Machine} {task : Tcb} {action : SigAction} {pages : Nat → Nat → Bool} {sp : Word}

theorem clear_four (x : Word) : (x &&& ~~~0xF#64).toNat = x.toNat / 16 * 16 := Bits.clear_low_toNat (k := 4) x rfl

theorem userRangeMapped_bounds {start : Word} {size : Nat} (h : userRangeMapped pages start size) :
    start ≠ 0 ∧ start.toNat + size ≤ KERNEL_AREA_MEM := by
  simp only [userRangeMapped, Bool.and_eq_true, decide_eq_true_eq] at h
  obtain ⟨⟨⟨hSome, hBelow⟩, hSize⟩, -⟩ := h
  exact ⟨hSome, by omega⟩

theorem frame_bounds (h : userRangeMapped pages (frameAddr sp) frameSize) :
    (frameAddr sp).toNat + frameSize ≤ sp.toNat ∧ (retAddr sp).toNat + 8 = (frameAddr sp).toNat := by
  obtain ⟨hSome, hEnd⟩ := userRangeMapped_bounds h
  have hAligned : (frameAddr sp).toNat = (sp - 216).toNat / 16 * 16 := clear_four _
  have hSub : (sp - 216).toNat = (2 ^ 64 - 216 + sp.toNat) % 2 ^ 64 := BitVec.toNat_sub _ _
  have hPos : (frameAddr sp).toNat ≠ 0 := fun hZero => hSome (BitVec.eq_of_toNat_eq hZero)
  have hRet : (retAddr sp).toNat = (2 ^ 64 - 8 + (frameAddr sp).toNat) % 2 ^ 64 := BitVec.toNat_sub _ _
  simp only [KERNEL_AREA_MEM, frameSize] at *
  omega

def chosenFlags (task : Tcb) (action : SigAction) : BitVec 32 :=
  if useAltstack task action then task.sasSsFlags ||| SS_ONSTACK else task.sasSsFlags

structure SameStack (task task' : Tcb) : Prop where
  sp : task'.sasSsSp = task.sasSsSp
  size : task'.sasSsSize = task.sasSsSize

theorem SameStack.altTop (h : SameStack task m.task) : altTop m.task = Signal.altTop task := by
  rw [Signal.altTop, Signal.altTop, h.sp, h.size]

def Holds (memory : Memory) (a : Active) : Prop :=
  loadWord memory a.frame = signalFrameMagic ∧ loadWord memory (a.frame + 8 * 2) = a.blocked ∧
    X64Regs.ofWords (fun i => loadWord memory (a.frame + 8 * (3 + i))) = a.regs

theorem ofWords_congr {f g : Nat → Word} (h : ∀ i, i < 24 → f i = g i) : X64Regs.ofWords f = X64Regs.ofWords g := by
  rw [X64Regs.ofWords, X64Regs.ofWords]
  rw [h 0 (by decide), h 1 (by decide), h 2 (by decide), h 3 (by decide), h 4 (by decide), h 5 (by decide),
    h 6 (by decide), h 7 (by decide), h 8 (by decide), h 9 (by decide), h 10 (by decide), h 11 (by decide),
    h 12 (by decide), h 13 (by decide), h 14 (by decide), h 15 (by decide), h 16 (by decide), h 17 (by decide),
    h 18 (by decide), h 19 (by decide), h 20 (by decide), h 21 (by decide), h 22 (by decide), h 23 (by decide)]

theorem Holds.agree {memory memory' : Memory} {a : Active} (h : Holds memory a)
    (hAgree : Agree memory memory' a.frame (a.frame + frameSize)) : Holds memory' a := by
  have hWord : ∀ i, i < 27 → loadWord memory' (a.frame + 8 * i) = loadWord memory (a.frame + 8 * i) := by
    intro i hi
    apply loadWord_congr
    intro x hLow hHigh
    exact hAgree x (by omega) (by rw [frameSize]; omega)
  obtain ⟨hMagic, hBlocked, hRegs⟩ := h
  refine ⟨?_, ?_, ?_⟩
  · exact (hWord 0 (by decide)).trans hMagic
  · exact (hWord 2 (by decide)).trans hBlocked
  · rw [← hRegs]
    exact ofWords_congr fun i hi => hWord (3 + i) (by omega)

theorem holds_frame (memory : Memory) (a : Active) (sig : Nat) :
    Holds (storeWords memory a.frame (frameWords sig a.blocked a.regs)) a := by
  have hLength : (frameWords sig a.blocked a.regs).length = 27 := rfl
  have hWord : ∀ i (hi : i < 27), loadWord (storeWords memory a.frame (frameWords sig a.blocked a.regs))
      (a.frame + 8 * i) = (frameWords sig a.blocked a.regs).getD i 0 := by
    intro i hi
    rw [loadWord_storeWords memory a.frame (hLength ▸ hi), List.getD_eq_getElem]
  refine ⟨hWord 0 (by decide), hWord 2 (by decide), ?_⟩
  exact ofWords_congr (g := fun i => (frameWords sig a.blocked a.regs).getD (3 + i) 0) fun i hi =>
    hWord (3 + i) (by omega)

/-- A delivery writes no further than from the return address to the end of the frame, and a handler finds there what
held before. -/
structure Delivered (m : Machine) (action : SigAction) (r : Machine × Bool) : Prop where
  stack : SameStack m.task r.1.task
  flags : r.1.task.sasSsFlags = chosenFlags m.task action
  blocked : m.task.blocked &&& unblockable = 0 → r.1.task.blocked &&& unblockable = 0
  memory : ∀ lo hi, ((frameAddr (stackTop m action)).toNat + frameSize ≤ (stackTop m action).toNat →
    (retAddr (stackTop m action)).toNat + 8 = (frameAddr (stackTop m action)).toNat →
      hi ≤ (retAddr (stackTop m action)).toNat ∨ (frameAddr (stackTop m action)).toNat + frameSize ≤ lo) →
    Agree m.memory r.1.memory lo hi
  frame : r.2 = true → (frameAddr (stackTop m action)).toNat + frameSize ≤ (stackTop m action).toNat ∧
    (retAddr (stackTop m action)).toNat + 8 = (frameAddr (stackTop m action)).toNat
  holds : r.2 = true → ∀ a : Active, a.frame = (frameAddr (stackTop m action)).toNat → a.blocked = m.task.blocked →
    a.regs = m.regs → Holds r.1.memory a

theorem clear_bits {n : Nat} (x y : BitVec n) : (x &&& ~~~y) &&& y = 0 := by
  rw [BitVec.and_assoc, BitVec.and_comm (~~~y), BitVec.and_not_self]
  exact BitVec.and_zero

theorem chosen_stack (task : Tcb) (action : SigAction) :
    SameStack task
      (if useAltstack task action then { task with sasSsFlags := task.sasSsFlags ||| SS_ONSTACK } else task) := by
  split <;> exact ⟨rfl, rfl⟩

theorem deliverFrame_delivered (pages : Nat → Nat → Bool) (sig : Nat) (action : SigAction) (m : Machine) :
    Delivered m action (deliverFrame pages sig action m) := by
  have hStack := chosen_stack m.task action
  have hFlags : (if useAltstack m.task action then { m.task with sasSsFlags := m.task.sasSsFlags ||| SS_ONSTACK }
      else m.task).sasSsFlags = chosenFlags m.task action := by
    rw [chosenFlags]
    split <;> rfl
  have hBlocked : (if useAltstack m.task action then { m.task with sasSsFlags := m.task.sasSsFlags ||| SS_ONSTACK }
      else m.task).blocked = m.task.blocked := by
    split <;> rfl
  rw [deliverFrame]
  generalize (if useAltstack m.task action then { m.task with sasSsFlags := m.task.sasSsFlags ||| SS_ONSTACK }
    else m.task) = task at *
  simp only
  split
  · next hFrame =>
    obtain ⟨hBelow, hRet⟩ := frame_bounds hFrame
    have hFrameAgree : ∀ lo hi, hi ≤ (retAddr (stackTop m action)).toNat ∨
        (frameAddr (stackTop m action)).toNat + frameSize ≤ lo →
        Agree m.memory (storeWords m.memory (frameAddr (stackTop m action)).toNat
          (frameWords sig m.task.blocked m.regs)) lo hi := by
      intro lo hi hApart
      apply storeWords_agree
      have hSize : 8 * (frameWords sig m.task.blocked m.regs).length = frameSize := rfl
      omega
    split
    · refine ⟨{ hStack with }, hFlags, fun _ => clear_bits _ _, ?_, fun _ => ⟨hBelow, hRet⟩, ?_⟩
      · intro lo hi hApart
        have hApart := hApart hBelow hRet
        refine (hFrameAgree lo hi hApart).trans (storeWords_agree _ _ ?_)
        rw [List.length_singleton]
        omega
      · rintro - a hAddr hMask hRegs
        have hHolds := holds_frame m.memory a sig
        rw [hAddr, hMask, hRegs] at hHolds
        refine hHolds.agree (storeWords_agree _ _ ?_)
        rw [List.length_singleton]
        omega
    · refine ⟨{ hStack with }, hFlags, fun hZero => ?_, ?_, nofun, nofun⟩
      · exact (congrArg (· &&& unblockable) hBlocked).trans hZero
      · exact fun lo hi hApart => hFrameAgree lo hi (hApart hBelow hRet)
  · refine ⟨{ hStack with }, hFlags, fun hZero => ?_, fun lo hi _ => Agree.refl _ _ _, nofun, nofun⟩
    exact (congrArg (· &&& unblockable) hBlocked).trans hZero

theorem signalDeliverPending_cases {r : Machine × Bool} (h : signalDeliverPending pages m = some r) :
    (r.2 = false ∧ r.1.memory = m.memory ∧ SameStack m.task r.1.task ∧ r.1.task.sasSsFlags = m.task.sasSsFlags ∧
      r.1.task.blocked = m.task.blocked) ∨ Catches m ∧ Delivered m (nextAction m) r := by
  simp only [signalDeliverPending] at h
  split at h
  · cases h
    exact .inl ⟨rfl, rfl, ⟨rfl, rfl⟩, rfl, rfl⟩
  next hUser =>
  split at h
  · cases h
    exact .inl ⟨rfl, rfl, ⟨rfl, rfl⟩, rfl, rfl⟩
  next hSignal =>
  split at h
  · cases h
    exact .inl ⟨rfl, rfl, ⟨rfl, rfl⟩, rfl, rfl⟩
  next hNotIgn =>
  split at h
  · split at h <;> cases h <;> exact .inl ⟨rfl, rfl, ⟨rfl, rfl⟩, rfl, rfl⟩
  next hNotDfl =>
  split at h
  · cases h
    exact .inl ⟨rfl, rfl, ⟨rfl, rfl⟩, rfl, rfl⟩
  next hRestorer =>
  cases h
  have hDelivered := deliverFrame_delivered pages (findDeliverableSignal m.task) (nextAction m)
    { m with task := { m.task with signal := m.task.signal &&& ~~~sigmask (findDeliverableSignal m.task) } }
  refine .inr ⟨⟨not_not.mp hUser, hSignal, hNotIgn, hNotDfl, hRestorer⟩, ?_⟩
  exact { hDelivered with stack := ⟨hDelivered.stack.sp, hDelivered.stack.size⟩ }

theorem sysSigret_restores {a : Active} (hFrame : m.regs.rsp.toNat = a.frame) (hHolds : Holds m.memory a)
    (hMapped : userRangeMapped pages m.regs.rsp frameSize) :
    sysSigret pages m =
      { m with
        task :=
          { m.task with
            blocked := a.blocked &&& ~~~unblockable
            sasSsFlags := m.task.sasSsFlags &&& ~~~SS_ONSTACK }
        regs := a.regs } := by
  obtain ⟨hMagic, hBlocked, hRegs⟩ := hHolds
  have hReturn : signalReturn pages m = ({ m with
          task := { m.task with
              blocked := a.blocked &&& ~~~unblockable
              sasSsFlags := m.task.sasSsFlags &&& ~~~SS_ONSTACK }
          regs := a.regs }, a.regs.rax) := by
    have hWord : ¬ loadWord m.memory (a.frame + 8 * 0) ≠ signalFrameMagic := not_not.mpr hMagic
    simp only [signalReturn]
    rw [if_neg (by rw [hMapped]; exact Bool.noConfusion), hFrame, if_neg hWord, hBlocked, hRegs]
  rw [sysSigret, hReturn]

end

def Inside (task : Tcb) (a : Active) : Prop := task.sasSsSp.toNat ≤ a.frame ∧ a.frame + frameSize ≤ altTop task

/-- A handler `a` that runs inside a handler `b`. -/
structure Nests (a b : Active) : Prop where
  below : a.alt = b.alt → a.frame + frameSize ≤ b.frame
  alt : b.alt = true → a.alt = true
  flags : b.alt = true → a.flags &&& SS_ONSTACK ≠ 0

structure Nested (w : World) : Prop where
  holds : ∀ a ∈ w.active, Holds w.machine.memory a
  blocked : w.machine.task.blocked &&& unblockable = 0
  saved : ∀ a ∈ w.active, a.blocked &&& unblockable = 0
  flags : ∀ a ∈ w.active, a.flags &&& ~~~SS_ONSTACK = w.machine.task.sasSsFlags &&& ~~~SS_ONSTACK
  on : (∃ a ∈ w.active, a.alt = true) → w.machine.task.sasSsFlags &&& SS_ONSTACK ≠ 0
  nests : w.active.Pairwise Nests
  areas : (∃ a ∈ w.active, a.alt = true) → ∀ b ∈ w.active,
    (b.alt = true → Inside w.machine.task b) ∧ (b.alt = false → Outside w.machine.task b)
  restored : ∀ a m, (a, m) ∈ w.returned → m.regs = a.regs ∧ m.task.blocked = a.blocked ∧ m.task.sasSsFlags = a.flags

section

variable {w w' : World} {m : Machine} {pages : Nat → Nat → Bool} {a : Active}

theorem or_bits {n : Nat} (x y : BitVec n) : (x ||| y) &&& ~~~y = x &&& ~~~y := by
  ext i hi
  simp only [BitVec.getElem_and, BitVec.getElem_or, BitVec.getElem_not]
  cases x[i] <;> cases y[i] <;> rfl

theorem or_onstack (x : BitVec 32) : (x ||| SS_ONSTACK) &&& SS_ONSTACK ≠ 0 := by
  intro hZero
  have hBit := congrArg (fun z : BitVec 32 => z.getLsbD 0) hZero
  simp [SS_ONSTACK] at hBit

theorem chosenFlags_rest (task : Tcb) (action : SigAction) :
    chosenFlags task action &&& ~~~SS_ONSTACK = task.sasSsFlags &&& ~~~SS_ONSTACK := by
  rw [chosenFlags]
  split
  · exact or_bits _ _
  · rfl

theorem chosenFlags_on {task : Tcb} {action : SigAction}
    (h : useAltstack task action ∨ task.sasSsFlags &&& SS_ONSTACK ≠ 0) :
    chosenFlags task action &&& SS_ONSTACK ≠ 0 := by
  rw [chosenFlags]
  split
  · exact or_onstack _
  · next hNot => exact h.resolve_left hNot

theorem useAltstack_off {task : Tcb} {action : SigAction} (h : useAltstack task action) :
    task.sasSsFlags &&& SS_ONSTACK = 0 := by
  simp only [useAltstack, Bool.and_eq_true, decide_eq_true_eq] at h
  exact h.2

theorem Nested.put (h : Nested w) (hStack : SameStack w.machine.task m.task)
    (hMemory : ∀ a ∈ w.active, Agree w.machine.memory m.memory a.frame (a.frame + frameSize))
    (hBlocked : m.task.blocked &&& unblockable = 0)
    (hRest : m.task.sasSsFlags &&& ~~~SS_ONSTACK = w.machine.task.sasSsFlags &&& ~~~SS_ONSTACK)
    (hOn : w.machine.task.sasSsFlags &&& SS_ONSTACK ≠ 0 → m.task.sasSsFlags &&& SS_ONSTACK ≠ 0) : Nested (w.put m) := by
  have hSp := hStack.sp
  have hTop : altTop m.task = altTop w.machine.task := hStack.altTop
  constructor
  · exact fun a ha => (h.holds a ha).agree (hMemory a ha)
  · exact hBlocked
  · exact h.saved
  · exact fun a ha => (h.flags a ha).trans hRest.symm
  · exact fun hAlt => hOn (h.on hAlt)
  · exact h.nests
  · intro hAlt b hb
    obtain ⟨hIn, hOut⟩ := h.areas hAlt b hb
    change (b.alt → Inside m.task b) ∧ (b.alt = false → Outside m.task b)
    rw [Inside, Outside, hSp, hTop]
    exact ⟨hIn, hOut⟩
  · exact h.restored

theorem Nested.apart (h : Nested w) (hMeets : Meets w (.deliver pages)) (hCatches : Catches w.machine)
    (hBelow : (frameAddr (stackTop w.machine (nextAction w.machine))).toNat + frameSize ≤
      (stackTop w.machine (nextAction w.machine)).toNat)
    (hRet : (retAddr (stackTop w.machine (nextAction w.machine))).toNat + 8 =
      (frameAddr (stackTop w.machine (nextAction w.machine))).toNat) :
    ∀ b ∈ w.active, b.frame + frameSize ≤ (retAddr (stackTop w.machine (nextAction w.machine))).toNat ∨
      (frameAddr (stackTop w.machine (nextAction w.machine))).toNat + frameSize ≤ b.frame := by
  intro b hb
  have hMeets := hMeets hCatches
  split at hMeets
  · next hAlt =>
    have hTop : stackTop w.machine (nextAction w.machine) = w.machine.task.sasSsSp + w.machine.task.sasSsSize :=
      if_pos hAlt
    obtain ⟨hFits, hOutside⟩ := hMeets
    have hOff : b.alt = false := by
      cases hb' : b.alt with
      | false => rfl
      | true => exact absurd (useAltstack_off hAlt) (h.on ⟨b, hb, hb'⟩)
    have hOutside := hOutside b hb hOff
    rw [Outside, altTop, ← hTop] at hOutside
    omega
  · next hNot =>
    have hTop : stackTop w.machine (nextAction w.machine) = w.machine.regs.rsp := if_neg hNot
    obtain ⟨top, rest, hActive⟩ : ∃ top rest, w.active = top :: rest :=
      List.exists_cons_of_ne_nil (List.ne_nil_of_mem hb)
    obtain ⟨hSp, hFits⟩ := hMeets top (by rw [hActive]; rfl)
    rw [hTop] at hBelow
    have hUnder : b.alt = top.alt → w.machine.regs.rsp.toNat ≤ b.frame := by
      intro hSame
      rw [hActive] at hb
      obtain rfl | hRest := List.mem_cons.mp hb
      · exact hSp
      · have hNests := (List.pairwise_cons.mp (hActive ▸ h.nests)).1 b hRest
        have hLess := hNests.below hSame.symm
        omega
    cases eq_or_ne b.alt top.alt with
    | inl hSame =>
      rw [hTop]
      have hLess := hUnder hSame
      omega
    | inr hDiffer =>
      have hTopMem : top ∈ w.active := hActive ▸ (.head _)
      cases hTopAlt : top.alt with
      | true =>
        have hFits := hFits hTopAlt
        have hbAlt : b.alt = false := by
          cases hb' : b.alt with
          | false => rfl
          | true => exact absurd (hb'.trans hTopAlt.symm) hDiffer
        have hAreas := h.areas ⟨top, hTopMem, hTopAlt⟩
        have hIn := (hAreas top hTopMem).1 hTopAlt
        have hOut := (hAreas b hb).2 hbAlt
        rw [hTop] at hFits ⊢
        rw [Inside] at hIn
        rw [Outside] at hOut
        omega
      | false =>
        have hbAlt : b.alt := by
          cases hb' : b.alt with
          | true => rfl
          | false => exact absurd (hb'.trans hTopAlt.symm) hDiffer
        rw [hActive] at hb
        obtain rfl | hRest := List.mem_cons.mp hb
        · exact absurd rfl hDiffer
        · have hNests := (List.pairwise_cons.mp (hActive ▸ h.nests)).1 b hRest
          rw [hNests.alt hbAlt] at hTopAlt
          cases hTopAlt

theorem Nested.delivered (h : Nested w) (hMeets : Meets w (.deliver pages)) (hCatches : Catches w.machine)
    {r : Machine × Bool} (hDelivered : Delivered w.machine (nextAction w.machine) r) : Nested (w.put r.1) := by
  refine h.put hDelivered.stack ?_ (hDelivered.blocked h.blocked) ?_ ?_
  · intro b hb
    apply hDelivered.memory
    intro hBelow hRet
    exact (h.apart hMeets hCatches hBelow hRet b hb)
  · rw [hDelivered.flags]
    exact chosenFlags_rest _ _
  · intro hOn
    rw [hDelivered.flags]
    exact chosenFlags_on (.inr hOn)

theorem onAlt_mem {active : List Active} (h : onAlt active) : ∃ a ∈ active, a.alt := by
  cases active with
  | nil => cases h
  | cons a rest => exact ⟨a, .head _, h⟩

theorem Nested.onAlt_of_mem (h : Nested w) {b : Active} (hb : b ∈ w.active) (hAlt : b.alt) :
    onAlt w.active := by
  obtain ⟨top, rest, hActive⟩ : ∃ top rest, w.active = top :: rest := List.exists_cons_of_ne_nil (List.ne_nil_of_mem hb)
  have hNests := h.nests
  rw [hActive] at hb hNests ⊢
  obtain rfl | hRest := List.mem_cons.mp hb
  · exact hAlt
  · exact ((List.pairwise_cons.mp hNests).1 b hRest).alt hAlt

theorem Nested.nests_entered (h : Nested w) (hMeets : Meets w (.deliver pages)) (hCatches : Catches w.machine)
    (hBelow : (frameAddr (stackTop w.machine (nextAction w.machine))).toNat + frameSize ≤
      (stackTop w.machine (nextAction w.machine)).toNat) :
    ∀ b ∈ w.active, Nests
      { frame := (frameAddr (stackTop w.machine (nextAction w.machine))).toNat
        regs := w.machine.regs
        blocked := w.machine.task.blocked
        flags := w.machine.task.sasSsFlags
        alt := useAltstack w.machine.task (nextAction w.machine) || onAlt w.active } b := by
  have hMeets := hMeets hCatches
  intro b hb
  constructor
  · intro hSame
    split at hMeets
    · next hAlt =>
      rw [hAlt, Bool.true_or] at hSame
      exact absurd (useAltstack_off hAlt) (h.on ⟨b, hb, hSame.symm⟩)
    · next hNot =>
      have hStackTop : stackTop w.machine (nextAction w.machine) = w.machine.regs.rsp := if_neg hNot
      obtain ⟨top, rest, hActive⟩ : ∃ top rest, w.active = top :: rest :=
        List.exists_cons_of_ne_nil (List.ne_nil_of_mem hb)
      obtain ⟨hStack, -⟩ := hMeets top (by rw [hActive]; rfl)
      have hTopAlt : top.alt = b.alt := by
        rw [Bool.eq_false_iff.mpr hNot, Bool.false_or, hActive] at hSame
        exact hSame
      rw [hStackTop] at hBelow ⊢
      rw [hActive] at hb
      obtain rfl | hRest := List.mem_cons.mp hb
      · exact hBelow.trans hStack
      · have hLess := ((List.pairwise_cons.mp (hActive ▸ h.nests)).1 b hRest).below hTopAlt
        change _ ≤ b.frame
        simp only [frameSize] at *
        omega
  · intro hAlt
    rw [h.onAlt_of_mem hb hAlt, Bool.or_true]
  · exact fun hAlt => h.on ⟨b, hb, hAlt⟩

theorem Nested.inside_entered (h : Nested w) (hMeets : Meets w (.deliver pages)) (hCatches : Catches w.machine)
    (hBelow : (frameAddr (stackTop w.machine (nextAction w.machine))).toNat + frameSize ≤
      (stackTop w.machine (nextAction w.machine)).toNat)
    (hRet : (retAddr (stackTop w.machine (nextAction w.machine))).toNat + 8 =
      (frameAddr (stackTop w.machine (nextAction w.machine))).toNat)
    (hOn : (useAltstack w.machine.task (nextAction w.machine) || onAlt w.active)) :
    w.machine.task.sasSsSp.toNat ≤ (frameAddr (stackTop w.machine (nextAction w.machine))).toNat ∧
      (frameAddr (stackTop w.machine (nextAction w.machine))).toNat + frameSize ≤ altTop w.machine.task ∧
      ∀ b ∈ w.active, (b.alt → Inside w.machine.task b) ∧ (b.alt = false → Outside w.machine.task b) := by
  have hMeets := hMeets hCatches
  split at hMeets
  · next hAlt =>
    obtain ⟨hFits, hOutside⟩ := hMeets
    have hStackTop : stackTop w.machine (nextAction w.machine) = w.machine.task.sasSsSp + w.machine.task.sasSsSize :=
      if_pos hAlt
    refine ⟨by omega, ?_, ?_⟩
    · rw [altTop, ← hStackTop]
      exact hBelow
    · exact fun b hb => ⟨fun hb' => absurd (useAltstack_off hAlt) (h.on ⟨b, hb, hb'⟩), hOutside b hb⟩
  · next hNot =>
    have hStackTop : stackTop w.machine (nextAction w.machine) = w.machine.regs.rsp := if_neg hNot
    rw [Bool.eq_false_iff.mpr hNot, Bool.false_or] at hOn
    cases hActive : w.active with
    | nil =>
      rw [hActive] at hOn
      cases hOn
    | cons top rest =>
      have hTopMem : top ∈ w.active := hActive ▸ (.head _)
      have hTopAlt : top.alt := by
        rw [hActive] at hOn
        exact hOn
      obtain ⟨hStack, hFits⟩ := hMeets top (by rw [hActive]; rfl)
      have hAreas := h.areas ⟨top, hTopMem, hTopAlt⟩
      have hTopIn := (hAreas top hTopMem).1 hTopAlt
      have hFits := hFits hTopAlt
      rw [Inside] at hTopIn
      rw [hStackTop] at hBelow hRet hFits ⊢
      refine ⟨by omega, by omega, hActive ▸ hAreas⟩

theorem Nested.entered (h : Nested w) (hMeets : Meets w (.deliver pages)) (hCatches : Catches w.machine)
    (hDelivered : Delivered w.machine (nextAction w.machine) (m, true)) : Nested (w.entered m) := by
  obtain ⟨hBelow, hRet⟩ := hDelivered.frame rfl
  have hPut := h.delivered hMeets hCatches hDelivered
  have hNests := h.nests_entered hMeets hCatches hBelow
  have hSp : m.task.sasSsSp = w.machine.task.sasSsSp := hDelivered.stack.sp
  have hTop : altTop m.task = altTop w.machine.task := hDelivered.stack.altTop
  have hFlags : m.task.sasSsFlags = chosenFlags w.machine.task (nextAction w.machine) := hDelivered.flags
  constructor
  · intro a ha
    obtain rfl | hOld := List.mem_cons.mp ha
    · exact hDelivered.holds rfl _ rfl rfl rfl
    · exact hPut.holds a hOld
  · exact hPut.blocked
  · intro a ha
    obtain rfl | hOld := List.mem_cons.mp ha
    · exact h.blocked
    · exact h.saved a hOld
  · intro a ha
    obtain rfl | hOld := List.mem_cons.mp ha
    · change _ = m.task.sasSsFlags &&& _
      rw [hFlags]
      exact (chosenFlags_rest _ _).symm
    · exact hPut.flags a hOld
  · rintro ⟨a, ha, hAlt⟩
    change m.task.sasSsFlags &&& _ ≠ 0
    rw [hFlags]
    apply chosenFlags_on
    obtain rfl | hOld := List.mem_cons.mp ha
    · obtain hUse | hOn := Bool.or_eq_true_iff.mp hAlt
      · exact .inl hUse
      · exact .inr (h.on (onAlt_mem hOn))
    · exact .inr (h.on ⟨a, hOld, hAlt⟩)
  · exact List.pairwise_cons.mpr ⟨hNests, h.nests⟩
  · rintro ⟨a, ha, hAlt⟩ b hb
    have hOn : (useAltstack w.machine.task (nextAction w.machine) || onAlt w.active) := by
      obtain rfl | hOld := List.mem_cons.mp ha
      · exact hAlt
      · rw [h.onAlt_of_mem hOld hAlt, Bool.or_true]
    obtain ⟨hLow, hHigh, hOthers⟩ := h.inside_entered hMeets hCatches hBelow hRet hOn
    change (b.alt → Inside m.task b) ∧ (b.alt = false → Outside m.task b)
    rw [Inside, Outside, hSp, hTop]
    obtain rfl | hOld := List.mem_cons.mp hb
    · exact ⟨fun _ => ⟨hLow, hHigh⟩, fun hFalse => absurd (hOn.symm.trans hFalse) Bool.noConfusion⟩
    · exact hOthers b hOld
  · exact h.restored

theorem Nested.left (h : Nested w) {top : Active} {rest : List Active} (hActive : w.active = top :: rest)
    (hFrame : w.machine.regs.rsp.toNat = top.frame)
    (hMapped : userRangeMapped pages w.machine.regs.rsp frameSize) (hMeets : Meets w (.sigret pages)) :
    Nested (w.left top rest (sysSigret pages w.machine)) := by
  have hTopMem : top ∈ w.active := hActive ▸ (.head _)
  have hRestMem : ∀ a ∈ rest, a ∈ w.active := fun a ha => hActive ▸ .tail top ha
  have hNests : (top :: rest).Pairwise Nests := hActive ▸ h.nests
  obtain ⟨hInner, hRest⟩ := List.pairwise_cons.mp hNests
  have hOff : top.flags &&& SS_ONSTACK = 0 := hMeets top (by rw [hActive]; rfl)
  have hNoAlt : ∀ a ∈ rest, a.alt ≠ true := fun a ha hAlt => (hInner a ha).flags hAlt hOff
  have hClear : ∀ x : BitVec 32, x &&& SS_ONSTACK = 0 → x &&& ~~~SS_ONSTACK = x := by
    intro x hx
    have hSplit : (x &&& ~~~SS_ONSTACK) ||| (x &&& SS_ONSTACK) = x := by
      ext i hi
      simp only [BitVec.getElem_or, BitVec.getElem_and, BitVec.getElem_not]
      cases x[i] <;> cases SS_ONSTACK[i] <;> rfl
    rw [hx] at hSplit
    exact BitVec.or_zero.symm.trans hSplit
  have hKept : top.blocked &&& ~~~unblockable = top.blocked := by
    have hSplit : (top.blocked &&& ~~~unblockable) ||| (top.blocked &&& unblockable) = top.blocked := by
      ext i hi
      simp only [BitVec.getElem_or, BitVec.getElem_and, BitVec.getElem_not]
      cases top.blocked[i] <;> cases unblockable[i] <;> rfl
    rw [h.saved top hTopMem] at hSplit
    exact BitVec.or_zero.symm.trans hSplit
  rw [sysSigret_restores hFrame (h.holds top hTopMem) hMapped]
  constructor
  · exact fun a ha => h.holds a (hRestMem a ha)
  · exact clear_bits _ _
  · exact fun a ha => h.saved a (hRestMem a ha)
  · intro a ha
    change _ = (w.machine.task.sasSsFlags &&& ~~~SS_ONSTACK) &&& ~~~SS_ONSTACK
    rw [BitVec.and_assoc, BitVec.and_self]
    exact h.flags a (hRestMem a ha)
  · exact fun ⟨a, ha, hAlt⟩ => absurd hAlt (hNoAlt a ha)
  · exact hRest
  · exact fun ⟨a, ha, hAlt⟩ => absurd hAlt (hNoAlt a ha)
  · intro a m' hMem
    obtain hOld | hNew := List.mem_append.mp hMem
    · exact h.restored a m' hOld
    · cases List.mem_singleton.mp hNew
      refine ⟨rfl, hKept, ?_⟩
      exact (h.flags top hTopMem).symm.trans (hClear _ hOff)

theorem Nested.step {a : Act} (hStep : Acts w a w') (hMeets : Meets w a) (h : Nested w) : Nested w' := by
  cases hStep with
  | killed hKilled => exact { h with }
  | nothing hNothing =>
    obtain ⟨-, hMemory, hStack, hFlags, hBlocked⟩ | ⟨hCatches, hDelivered⟩ := signalDeliverPending_cases hNothing
    · refine h.put hStack ?_ (hBlocked ▸ h.blocked) (congrArg (· &&& ~~~SS_ONSTACK) hFlags) (fun hOn => hFlags ▸ hOn)
      exact fun a _ => hMemory ▸ Agree.refl _ _ _
    · exact h.delivered hMeets hCatches hDelivered
  | entered hEntered =>
    obtain ⟨hFalse, -⟩ | ⟨hCatches, hDelivered⟩ := signalDeliverPending_cases hEntered
    · cases hFalse
    · exact h.entered hMeets hCatches hDelivered
  | sigret hActive hFrame hMapped => exact h.left hActive hFrame hMapped hMeets
  | user hFrames hBlocked hStack =>
    obtain ⟨hSp, hSize, hFlags⟩ := hStack
    exact h.put ⟨hSp, hSize⟩ hFrames hBlocked (congrArg (· &&& ~~~SS_ONSTACK) hFlags) fun hOn => hFlags ▸ hOn
  | sigaltstack hNone =>
    have hBlocked : ∀ sp flags size,
        (syscallSigaltstack w.machine.task sp flags size).blocked = w.machine.task.blocked := by
      intro sp flags size
      rw [syscallSigaltstack]
      split
      · rfl
      · split
        · rfl
        · split <;> rfl
    have hNil : ∀ a, a ∉ w.active := by
      intro a ha
      rw [hNone] at ha
      cases ha
    refine ⟨fun a ha => absurd ha (hNil a), ?_, fun a ha => absurd ha (hNil a), fun a ha => absurd ha (hNil a),
      fun ⟨a, ha, _⟩ => absurd ha (hNil a), h.nests, fun ⟨a, ha, _⟩ => absurd ha (hNil a), h.restored⟩
    change (syscallSigaltstack w.machine.task _ _ _).blocked &&& unblockable = 0
    rw [hBlocked]
    exact h.blocked

theorem Nested.init (hBlocked : m.task.blocked &&& unblockable = 0) : Nested (World.init m) where
  holds _ ha := nomatch ha
  blocked := hBlocked
  saved _ ha := nomatch ha
  flags _ ha := nomatch ha
  on hAlt := by obtain ⟨_, ha, _⟩ := hAlt; cases ha
  nests := List.Pairwise.nil
  areas hAlt := by obtain ⟨_, ha, _⟩ := hAlt; cases ha
  restored _ _ hMem := nomatch hMem

theorem Nested.framesApart (h : Nested w) :
    w.active.Pairwise fun a b => a.frame + frameSize ≤ b.frame ∨ b.frame + frameSize ≤ a.frame := by
  refine h.nests.imp_of_mem ?_
  intro a b ha hb hNests
  cases eq_or_ne a.alt b.alt with
  | inl hSame => exact .inl (hNests.below hSame)
  | inr hDiffer =>
    have hbAlt : b.alt = false := by
      cases hb' : b.alt with
      | false => rfl
      | true => exact absurd ((hNests.alt hb').trans hb'.symm) hDiffer
    have haAlt : a.alt := by
      cases ha' : a.alt with
      | true => rfl
      | false => exact absurd (ha'.trans hbAlt.symm) hDiffer
    have hAreas := h.areas ⟨a, ha, haAlt⟩
    have hIn := (hAreas a ha).1 haAlt
    have hOut := (hAreas b hb).2 hbAlt
    rw [Inside] at hIn
    rw [Outside] at hOut
    omega

end

theorem signal_return_inverse {m : Machine} (hBlocked : m.task.blocked &&& unblockable = 0) {acts : List Act}
    {w : World} (hRun : Run (signalSystem.restrict Meets) (World.init m) acts w) : Inverse w := by
  have h : Nested w :=
    hRun.invariant (fun _ _ _ hNested hStep => hNested.step hStep.2.2 hStep.1) (.init hBlocked)
  exact ⟨h.restored, h.framesApart⟩

def allPages : Nat → Nat → Bool := fun _ _ => true

def zeroRegs : X64Regs := ⟨0, 0, 0, 0, 0, 0, 0, 0, 0, 0, 0, 0, 0, 0, 0, 0, 0, 0, 0, 0, 3, 0, 0x10000, 0⟩

/-- A task with an alternate stack, which the handlers of the pending signals 10 and 16 want and that of 12 does not. -/
def pendingTask (signal : Word) : Tcb where
  signal := signal
  blocked := 0
  actions sig := ⟨0x400000, if sig = 12 then 0 else SA_ONSTACK, 0x401000, 0⟩
  sasSsSp := 0x20000
  sasSsSize := 0x2000
  sasSsFlags := 0
  stopped := false

def deliver (m : Machine) : Machine := ((signalDeliverPending allPages m).getD (m, false)).1

/-- A handler comes to the end, and its return address is gone from the stack. -/
def popReturn (m : Machine) : Machine := { m with regs := { m.regs with rsp := m.regs.rsp + 8 } }

def oneSignal : Machine := ⟨pendingTask (sigmask 10), zeroRegs, fun _ => 0⟩

def oneReturned : World :=
  let w := ((World.init oneSignal).entered (deliver oneSignal)).put (popReturn (deliver oneSignal))
  w.left (w.active.headD ⟨0, zeroRegs, 0, 0, false⟩) [] (sysSigret allPages w.machine)

theorem signal_return_inverse_once : Inverse oneReturned := by
  have hRun := (Run.nil (M := signalSystem.restrict Meets) (World.init oneSignal)).snoc (l := Act.deliver allPages)
    (u := (World.init oneSignal).entered (deliver oneSignal))
    ⟨fun _ => ⟨by decide, nofun⟩, rfl, Acts.entered rfl⟩
  have hRun := hRun.snoc (l := Act.user) ⟨trivial, rfl, Acts.user (m := popReturn (deliver oneSignal))
    (fun _ _ => Agree.refl _ _ _) (by decide) ⟨rfl, rfl, rfl⟩⟩
  refine signal_return_inverse rfl
    (hRun.snoc (l := Act.sigret allPages) ⟨?_, rfl, Acts.sigret rfl (by decide) (by decide)⟩)
  rintro top hTop
  cases hTop
  decide

def World.enter (w : World) : World := w.entered (deliver w.machine)

def threeSignals : World :=
  World.init ⟨pendingTask (sigmask 10 ||| sigmask 12 ||| sigmask 16), zeroRegs, fun _ => 0⟩

def twoDeep : World := threeSignals.enter.enter

def twoReturning : World := twoDeep.put (popReturn twoDeep.machine)

def innerReturned : World :=
  twoReturning.left (twoReturning.active.headD ⟨0, zeroRegs, 0, 0, false⟩) twoReturning.active.tail
    (sysSigret allPages twoReturning.machine)

/-- With the second return the task is off the alternate stack, and the third frame is where the first one is. -/
theorem signal_return_not_inverse :
    Run signalSystem threeSignals
        [.deliver allPages, .deliver allPages, .user, .sigret allPages, .deliver allPages] innerReturned.enter ∧
      innerReturned.returned.map (fun r => (r.1.flags, r.2.task.sasSsFlags)) = [(SS_ONSTACK, 0)] ∧
      innerReturned.enter.active.map Active.frame = [0x21f20, 0x21f20] ∧ ¬ Inverse innerReturned.enter := by
  have hFrames : innerReturned.enter.active.map Active.frame = [0x21f20, 0x21f20] := by decide
  refine ⟨?_, by decide, hFrames, ?_⟩
  · have hRun := (Run.nil (M := signalSystem) threeSignals).snoc (l := Act.deliver allPages) (u := threeSignals.enter)
      ⟨rfl, Acts.entered rfl⟩
    have hRun := hRun.snoc (l := Act.deliver allPages) (u := twoDeep) ⟨rfl, Acts.entered rfl⟩
    have hRun := hRun.snoc (u := twoReturning)
      ⟨rfl, Acts.user (fun _ _ => Agree.refl _ _ _) (by decide) ⟨rfl, rfl, rfl⟩⟩
    have hRun := hRun.snoc (u := innerReturned)
      ⟨rfl, Acts.sigret rfl (by decide) (by decide)⟩
    exact hRun.snoc ⟨rfl, Acts.entered rfl⟩
  · intro h
    have hApart : (innerReturned.enter.active.map Active.frame).Pairwise fun x y =>
      x + frameSize ≤ y ∨ y + frameSize ≤ x := List.pairwise_map.mpr h.apart
    rw [hFrames] at hApart
    revert hApart
    decide

end OpenXJ380.Signal
