import OpenXJ380.Errno
import OpenXJ380.Lib.RecursiveLock

/-! # The yielding mutex of the ARM port (`arch/arm32/src/mutex.c`)

Each definition is the body of one critical section, from `state_enter` to
`state_leave`. The caller's own task pointer is an argument, because the
source reads it once before the section; `none` stands for a NULL pointer.
-/

namespace OpenXJ380.ArmMutex

open Errno RecursiveLock Transition

inductive MutexState where
  | unlocked
  | locked
  | destroyed
  deriving DecidableEq, Repr

structure MutexT (Task : Type) where
  state : MutexState
  owner : Option Task
  rcc : UInt32
  recursive : Bool
  deriving DecidableEq

/-- The return value of a section; `none` is the attempt of `mutex_lock` that yields and retries. -/
abbrev Reply := Option Int

variable {Task : Type} [DecidableEq Task]

def mutexCreate (recursive : Bool) : MutexT Task :=
  { state := .unlocked, owner := none, rcc := 0, recursive := recursive }

/-- `mutex_lock` and `mutex_trylock` differ in what they do when another task owns the lock. -/
def mutexAcquire (contended : Reply) (m : MutexT Task) (current : Option Task) : MutexT Task × Reply :=
  if m.state = .destroyed then (m, some (-EINVAL))
  else if m.owner = current then
    if m.recursive then ({ m with rcc := m.rcc + 1 }, some 0) else (m, some (-EDEADLK))
  else if m.state = .unlocked then
    ({ m with state := .locked, owner := current, rcc := 1 }, some 0)
  else (m, contended)

/-- One round of the `for (;;)` in `mutex_lock`. -/
def mutexLock (m : MutexT Task) (current : Option Task) : MutexT Task × Reply :=
  mutexAcquire none m current

def mutexTrylock (m : MutexT Task) (current : Option Task) : MutexT Task × Reply :=
  mutexAcquire (some (-EBUSY)) m current

def mutexUnlock (m : MutexT Task) (current : Option Task) : MutexT Task × Reply :=
  if m.state = .destroyed then (m, some (-EINVAL))
  else if m.owner ≠ current ∨ m.state ≠ .locked ∨ m.rcc = 0 then (m, some (-EPERM))
  else
    let m := { m with rcc := m.rcc - 1 }
    if m.rcc = 0 then
      let m := { m with owner := none }
      if m.state ≠ .destroyed then ({ m with state := .unlocked }, some 0) else (m, some 0)
    else (m, some 0)

def mutexDestroy (m : MutexT Task) : MutexT Task × Reply :=
  if m.state = .locked then (m, some (-EBUSY))
  else ({ m with state := .destroyed, owner := none, rcc := 0 }, some 0)

def step (m : MutexT Task) (event : Task × Operation) : MutexT Task × Reply :=
  match event.2 with
  | .lock => mutexLock m (some event.1)
  | .trylock => mutexTrylock m (some event.1)
  | .unlock => mutexUnlock m (some event.1)
  | .destroy => mutexDestroy m

def machine : Machine (MutexT Task) (Task × Operation) Reply where
  step := step

end OpenXJ380.ArmMutex

/-! # The yielding mutex of the source kernel (`kernel/task/mutex.cpp`)

The same sections as in the port, here between `spin_lock` and `spin_unlock`
of the mutex's own lock. Two things differ: the counter is a 64-bit `size_t`,
and the object owns a wait queue that only `mutex_destroy` gives up.
-/

namespace OpenXJ380.KernelMutex

open Errno RecursiveLock Transition

inductive MutexState where
  | unlocked
  | locked
  | destroyed
  deriving DecidableEq, Repr

structure MutexT (Task Queue : Type) where
  state : MutexState
  owner : Option Task
  waitQueue : Option Queue
  rcc : UInt64
  recursive : Bool
  deriving DecidableEq

/-- The return value of a section; `none` is the attempt of `mutex_lock` that yields and retries. -/
abbrev Reply := Option Int

variable {Task Queue : Type} [DecidableEq Task]

/-- `queue` is what `queue_init` returned. -/
def mutexCreate (queue : Option Queue) (recursive : Bool) : MutexT Task Queue :=
  { state := .unlocked, owner := none, waitQueue := queue, rcc := 0, recursive := recursive }

/-- `mutex_lock` and `mutex_trylock` differ in what they do when another task owns the lock. -/
def mutexAcquire (contended : Reply) (mutex : MutexT Task Queue) (current : Option Task) :
    MutexT Task Queue × Reply :=
  if mutex.state = .destroyed then (mutex, some (-EINVAL))
  else if mutex.owner = current then
    if mutex.recursive then ({ mutex with rcc := mutex.rcc + 1 }, some 0)
    else (mutex, some (-EDEADLK))
  else if mutex.state = .unlocked then
    ({ mutex with state := .locked, owner := current, rcc := 1 }, some 0)
  else (mutex, contended)

/-- One round of the `for (;;)` in `mutex_lock`. -/
def mutexLock (mutex : MutexT Task Queue) (current : Option Task) : MutexT Task Queue × Reply :=
  mutexAcquire none mutex current

def mutexTrylock (mutex : MutexT Task Queue) (current : Option Task) : MutexT Task Queue × Reply :=
  mutexAcquire (some (-EBUSY)) mutex current

def mutexUnlock (mutex : MutexT Task Queue) (current : Option Task) : MutexT Task Queue × Reply :=
  if mutex.state = .destroyed then (mutex, some (-EINVAL))
  else if mutex.owner ≠ current ∨ mutex.state ≠ .locked ∨ mutex.rcc = 0 then (mutex, some (-EPERM))
  else
    let mutex := { mutex with rcc := mutex.rcc - 1 }
    if mutex.rcc = 0 then
      let mutex := { mutex with owner := none }
      if mutex.state ≠ .destroyed then ({ mutex with state := .unlocked }, some 0)
      else (mutex, some 0)
    else (mutex, some 0)

def mutexDestroy (mutex : MutexT Task Queue) : MutexT Task Queue × Reply :=
  if mutex.state = .locked then (mutex, some (-EBUSY))
  else
    ({ mutex with state := .destroyed, waitQueue := none, owner := none, rcc := 0 }, some 0)

def step (mutex : MutexT Task Queue) (event : Task × Operation) : MutexT Task Queue × Reply :=
  match event.2 with
  | .lock => mutexLock mutex (some event.1)
  | .trylock => mutexTrylock mutex (some event.1)
  | .unlock => mutexUnlock mutex (some event.1)
  | .destroy => mutexDestroy mutex

def machine : Machine (MutexT Task Queue) (Task × Operation) Reply where
  step := step

end OpenXJ380.KernelMutex

/-! # Both mutexes refine the abstract recursive lock

The C fields represent a lock state: `owner` and `rcc` name the holder and its
depth. Each implementation answers as the abstract lock does and keeps the
representation, as long as the nesting depth fits the narrower counter.
-/

namespace OpenXJ380.MutexSafety

open Errno RecursiveLock Transition

variable {Task Queue : Type} [DecidableEq Task]

/-- How both sources report what happened; a repeated attempt reports nothing. -/
def code : Answer → Option Int
  | .ok => some 0
  | .again => none
  | .invalid => some (-EINVAL)
  | .deadlock => some (-EDEADLK)
  | .busy => some (-EBUSY)
  | .notOwner => some (-EPERM)

theorem eq_ok_of_code_eq (a : Answer) (h : code a = code .ok) : a = .ok := by
  cases a with
  | ok => rfl
  | again => cases h
  | invalid => exact absurd h (by decide)
  | deadlock => exact absurd h (by decide)
  | busy => exact absurd h (by decide)
  | notOwner => exact absurd h (by decide)

def Bounded (s : LockState Task) : Prop := ∀ t, depthOf s t < 2 ^ 32

theorem Bounded.depth_lt {owner : Task} {depth : ℕ+} (h : Bounded (.held owner depth)) : (depth : Nat) < 2 ^ 32 := by
  have hOwner := h owner
  simpa [depthOf] using hOwner

section Arm

open ArmMutex

def ArmRepresents (recursive : Bool) (m : ArmMutex.MutexT Task) (s : LockState Task) : Prop :=
  m.recursive = recursive ∧
  match s with
  | .unlocked => m.state = .unlocked ∧ m.owner = none ∧ m.rcc = 0
  | .held owner depth => m.state = .locked ∧ m.owner = some owner ∧ m.rcc.toNat = depth
  | .destroyed => m.state = .destroyed ∧ m.owner = none ∧ m.rcc = 0

omit [DecidableEq Task] in
theorem armRepresents_create (recursive : Bool) :
    ArmRepresents recursive (ArmMutex.mutexCreate recursive : ArmMutex.MutexT Task) .unlocked :=
  ⟨rfl, rfl, rfl, rfl⟩

variable {recursive : Bool} {m : ArmMutex.MutexT Task} {s : LockState Task}

theorem arm_acquire_refines (h : ArmRepresents recursive m s) (answer : Answer) (t : Task) :
    (ArmMutex.mutexAcquire (code answer) m (some t)).2 = code (acquire recursive answer s t).2 ∧
      (Bounded (acquire recursive answer s t).1 →
        ArmRepresents recursive (ArmMutex.mutexAcquire (code answer) m (some t)).1
          (acquire recursive answer s t).1) := by
  obtain ⟨hRecursive, hState⟩ := h
  cases s with
  | unlocked =>
    obtain ⟨hFree, hOwner, -⟩ := hState
    simp [ArmMutex.mutexAcquire, acquire, ArmRepresents, hFree, hOwner, hRecursive, code]
  | destroyed =>
    obtain ⟨hDestroyed, hOwner, hZero⟩ := hState
    simp [ArmMutex.mutexAcquire, acquire, ArmRepresents, hDestroyed, hOwner, hZero, hRecursive, code]
  | held owner depth =>
    obtain ⟨hLocked, hOwner, hDepth⟩ := hState
    obtain rfl | hOther := eq_or_ne owner t
    · cases hRec : recursive with
      | false =>
        simp [ArmMutex.mutexAcquire, acquire, ArmRepresents, hLocked, hOwner, hDepth, hRecursive, hRec, code]
      | true =>
        rw [ArmMutex.mutexAcquire, if_neg (by simp [hLocked]), if_pos hOwner,
          if_pos (hRecursive.trans hRec), acquire, if_pos rfl, if_pos rfl]
        refine ⟨rfl, fun hBound => ⟨hRecursive.trans hRec, hLocked, hOwner, ?_⟩⟩
        have hSmall := hBound.depth_lt
        rw [PNat.add_coe, PNat.one_coe] at hSmall
        simp only [UInt32.toNat_add, hDepth, PNat.add_coe, PNat.one_coe, UInt32.reduceToNat]
        exact Nat.mod_eq_of_lt hSmall
    · simp [ArmMutex.mutexAcquire, acquire, ArmRepresents, hLocked, hOwner, hDepth, hRecursive, hOther]

theorem arm_unlock_refines (h : ArmRepresents recursive m s) (t : Task) :
    (ArmMutex.mutexUnlock m (some t)).2 = code (release s t).2 ∧
      ArmRepresents recursive (ArmMutex.mutexUnlock m (some t)).1 (release s t).1 := by
  obtain ⟨hRecursive, hState⟩ := h
  cases s with
  | unlocked =>
    obtain ⟨hFree, hOwner, hZero⟩ := hState
    simp [ArmMutex.mutexUnlock, release, ArmRepresents, hFree, hOwner, hZero, hRecursive, code]
  | destroyed =>
    obtain ⟨hDestroyed, hOwner, hZero⟩ := hState
    simp [ArmMutex.mutexUnlock, release, ArmRepresents, hDestroyed, hOwner, hZero, hRecursive, code]
  | held owner depth =>
    obtain ⟨hLocked, hOwner, hDepth⟩ := hState
    have hPositive := depth.pos
    have hNonzero : m.rcc ≠ 0 := by
      rintro hZero
      rw [hZero] at hDepth
      exact absurd hDepth.symm hPositive.ne'
    obtain rfl | hOther := eq_or_ne owner t
    · have hLess : (m.rcc - 1).toNat = depth - 1 := by
        rw [UInt32.toNat_sub_of_le _ _ (by rw [UInt32.le_iff_toNat_le]; simp; omega), hDepth]
        rfl
      obtain rfl | hMore := eq_or_ne depth 1
      · have hLast : m.rcc - 1 = 0 := by
          rw [← UInt32.toNat_inj, hLess]
          rfl
        simp [ArmMutex.mutexUnlock, release, ArmRepresents, hLocked, hOwner, hNonzero, hLast, hRecursive, code]
      · have hNotLast : m.rcc - 1 ≠ 0 := by
          rintro hZero
          rw [hZero] at hLess
          rw [UInt32.toNat_zero] at hLess
          exact hMore (PNat.eq (by rw [PNat.one_coe]; omega))
        have hLt : (1 : ℕ+) < depth := lt_of_le_of_ne one_le (.symm hMore)
        have hPred : ((depth - 1 : ℕ+) : Nat) = depth - 1 := by
          rw [PNat.sub_coe, if_pos hLt]
          rfl
        simp [ArmMutex.mutexUnlock, release, ArmRepresents, hLocked, hOwner, hNonzero, hNotLast, hMore,
          hRecursive, hLess, hPred, code]
    · simp [ArmMutex.mutexUnlock, release, ArmRepresents, hLocked, hOwner, hDepth, hRecursive, hOther, code]

omit [DecidableEq Task] in
theorem arm_destroy_refines (h : ArmRepresents recursive m s) : (ArmMutex.mutexDestroy m).2 = code (destroy s).2 ∧
      ArmRepresents recursive (ArmMutex.mutexDestroy m).1 (destroy s).1 := by
  obtain ⟨hRecursive, hState⟩ := h
  cases s with
  | unlocked =>
    simp [ArmMutex.mutexDestroy, destroy, ArmRepresents, hState.1, hRecursive, code]
  | destroyed =>
    simp [ArmMutex.mutexDestroy, destroy, ArmRepresents, hState.1, hRecursive, code]
  | held owner depth =>
    obtain ⟨hLocked, hOwner, hDepth⟩ := hState
    simp [ArmMutex.mutexDestroy, destroy, ArmRepresents, hLocked, hOwner, hDepth, hRecursive, code]

theorem arm_step_refines (h : ArmRepresents recursive m s) (event : Task × Operation) :
    (ArmMutex.step m event).2 = code (RecursiveLock.step recursive s event).2 ∧
      (Bounded (RecursiveLock.step recursive s event).1 →
        ArmRepresents recursive (ArmMutex.step m event).1 (RecursiveLock.step recursive s event).1) := by
  obtain ⟨t, operation⟩ := event
  cases operation with
  | lock => exact arm_acquire_refines h .again t
  | trylock => exact arm_acquire_refines h .busy t
  | unlock => exact ⟨(arm_unlock_refines h t).1, fun _ => (arm_unlock_refines h t).2⟩
  | destroy => exact ⟨(arm_destroy_refines h).1, fun _ => (arm_destroy_refines h).2⟩

omit [DecidableEq Task] in
theorem ArmRepresents.held_of_owner {t : Task} (h : ArmRepresents recursive m s) (hOwner : m.owner = some t) :
    ∃ depth : ℕ+, s = .held t depth ∧ m.state = .locked ∧ m.rcc.toNat = depth := by
  obtain ⟨-, hState⟩ := h
  cases s with
  | unlocked => exact absurd (hState.2.1.symm.trans hOwner) (by simp)
  | destroyed => exact absurd (hState.2.1.symm.trans hOwner) (by simp)
  | held owner depth =>
    obtain ⟨hLocked, hHolder, hDepth⟩ := hState
    have hEq : owner = t := Option.some.inj (hHolder.symm.trans hOwner)
    exact ⟨depth, by rw [hEq], hLocked, hDepth⟩

theorem ArmRepresents.rcc_eq_depthOf {t : Task} (h : ArmRepresents recursive m s) (hOwner : m.owner = some t) :
    m.rcc.toNat = depthOf s t := by
  obtain ⟨depth, rfl, -, hDepth⟩ := h.held_of_owner hOwner
  rw [hDepth, depthOf, if_pos rfl]

theorem ArmRepresents.acquire_answer
    {event : Task × Operation} (h : ArmRepresents recursive m s) (hOwner : m.owner = some event.1)
    (hRecursive : m.recursive) (hOperation : event.2 = .lock ∨ event.2 = .trylock) :
    (ArmMutex.machine.step m event).2 = some 0 := by
  obtain ⟨depth, -, hLocked, -⟩ := h.held_of_owner hOwner
  obtain ⟨t, operation⟩ := event
  rcases hOperation with rfl | rfl <;>
    simp [ArmMutex.machine, ArmMutex.step, ArmMutex.mutexLock, ArmMutex.mutexTrylock,
      ArmMutex.mutexAcquire, hLocked, hOwner, hRecursive]

end Arm

section Kernel

def stateOf : KernelMutex.MutexState → ArmMutex.MutexState
  | .unlocked => .unlocked
  | .locked => .locked
  | .destroyed => .destroyed

structure LockStep (k : KernelMutex.MutexT Task Queue) (m : ArmMutex.MutexT Task) : Prop where
  state : stateOf k.state = m.state
  owner : k.owner = m.owner
  rcc : k.rcc.toNat = m.rcc.toNat
  recursive : k.recursive = m.recursive

omit [DecidableEq Task] in
theorem lockStep_create (queue : Option Queue) (recursive : Bool) :
    LockStep (KernelMutex.mutexCreate queue recursive : KernelMutex.MutexT Task Queue)
      (ArmMutex.mutexCreate recursive) :=
  ⟨rfl, rfl, rfl, rfl⟩

omit [DecidableEq Task] in
variable {k : KernelMutex.MutexT Task Queue} {m : ArmMutex.MutexT Task}

theorem LockStep.state_iff (h : LockStep k m) :
    (k.state = .unlocked ↔ m.state = .unlocked) ∧ (k.state = .locked ↔ m.state = .locked) ∧
      (k.state = .destroyed ↔ m.state = .destroyed) := by
  rw [← h.state]
  cases k.state <;> simp [stateOf]

omit [DecidableEq Task] in
theorem LockStep.rcc_eq_zero_iff (h : LockStep k m) : k.rcc = 0 ↔ m.rcc = 0 := by
  rw [← UInt64.toNat_inj, ← UInt32.toNat_inj, h.rcc, UInt64.toNat_zero, UInt32.toNat_zero]

theorem kernel_acquire_lockStep (h : LockStep k m) (contended : Option Int) (current : Option Task) :
    (KernelMutex.mutexAcquire contended k current).2 = (ArmMutex.mutexAcquire contended m current).2 ∧
      ((m.owner = current → m.recursive → m.rcc.toNat + 1 < 2 ^ 32) →
        LockStep (KernelMutex.mutexAcquire contended k current).1 (ArmMutex.mutexAcquire contended m current).1) := by
  obtain ⟨hUnlocked, -, hDestroyed⟩ := h.state_iff
  simp only [KernelMutex.mutexAcquire, ArmMutex.mutexAcquire, hDestroyed, hUnlocked, h.owner, h.recursive]
  split
  · exact ⟨rfl, fun _ => h⟩
  · split
    · rename_i hOwner
      split
      · rename_i hRecursive
        refine ⟨rfl, fun hRoom => ⟨h.state, rfl, ?_, rfl⟩⟩
        have hSmall := hRoom hOwner hRecursive
        simp only [UInt64.toNat_add, UInt32.toNat_add, h.rcc, UInt64.reduceToNat, UInt32.reduceToNat]
        omega
      · exact ⟨rfl, fun _ => h⟩
    · split
      · exact ⟨rfl, fun _ => ⟨rfl, rfl, rfl, rfl⟩⟩
      · exact ⟨rfl, fun _ => h⟩

theorem kernel_unlock_lockStep (h : LockStep k m) (current : Option Task) :
    (KernelMutex.mutexUnlock k current).2 = (ArmMutex.mutexUnlock m current).2 ∧
      LockStep (KernelMutex.mutexUnlock k current).1 (ArmMutex.mutexUnlock m current).1 := by
  obtain ⟨-, hLocked, hDestroyed⟩ := h.state_iff
  simp only [KernelMutex.mutexUnlock, ArmMutex.mutexUnlock, hDestroyed, hLocked, h.owner, h.rcc_eq_zero_iff, ne_eq]
  split
  · exact ⟨rfl, h⟩
  · split
    · exact ⟨rfl, h⟩
    · rename_i hHeld
      have hNonzero : m.rcc ≠ 0 := fun hZero => hHeld (.inr (.inr hZero))
      have hPositive : 0 < m.rcc.toNat := Nat.pos_of_ne_zero fun hZero => hNonzero (UInt32.toNat_inj.mp hZero)
      have hArm : (m.rcc - 1).toNat = m.rcc.toNat - 1 :=
        UInt32.toNat_sub_of_le _ _ (UInt32.le_iff_toNat_le.mpr hPositive)
      have hKernel : (k.rcc - 1).toNat = k.rcc.toNat - 1 :=
        UInt64.toNat_sub_of_le _ _ (UInt64.le_iff_toNat_le.mpr (h.rcc ▸ hPositive))
      have hNext : LockStep { k with rcc := k.rcc - 1 } { m with rcc := m.rcc - 1 } :=
        { h with rcc := by rw [hArm, hKernel, h.rcc] }
      have hLast := hNext.rcc_eq_zero_iff
      simp only at hLast
      simp only [hLast]
      split
      · exact ⟨rfl, rfl, rfl, hNext.rcc, h.recursive⟩
      · exact ⟨rfl, h.state, rfl, hNext.rcc, h.recursive⟩

omit [DecidableEq Task] in
theorem kernel_destroy_lockStep (h : LockStep k m) : (KernelMutex.mutexDestroy k).2 = (ArmMutex.mutexDestroy m).2 ∧
      LockStep (KernelMutex.mutexDestroy k).1 (ArmMutex.mutexDestroy m).1 := by
  simp only [KernelMutex.mutexDestroy, ArmMutex.mutexDestroy, h.state_iff.2.1]
  split
  · exact ⟨rfl, h⟩
  · exact ⟨rfl, rfl, rfl, rfl, h.recursive⟩

theorem kernel_step_lockStep (h : LockStep k m) (event : Task × Operation) :
    (KernelMutex.step k event).2 = (ArmMutex.step m event).2 ∧ ((m.owner = some event.1 → m.recursive →
          event.2 = .lock ∨ event.2 = .trylock → m.rcc.toNat + 1 < 2 ^ 32) →
        LockStep (KernelMutex.step k event).1 (ArmMutex.step m event).1) := by
  obtain ⟨t, operation⟩ := event
  cases operation with
  | lock =>
    have hAcquire := kernel_acquire_lockStep h none (some t)
    exact ⟨hAcquire.1, fun hRoom => hAcquire.2 fun hOwner hRec => hRoom hOwner hRec (.inl rfl)⟩
  | trylock =>
    have hAcquire := kernel_acquire_lockStep h (some (-EBUSY)) (some t)
    exact ⟨hAcquire.1, fun hRoom => hAcquire.2 fun hOwner hRec => hRoom hOwner hRec (.inr rfl)⟩
  | unlock => exact ⟨(kernel_unlock_lockStep h _).1, fun _ => (kernel_unlock_lockStep h _).2⟩
  | destroy => exact ⟨(kernel_destroy_lockStep h).1, fun _ => (kernel_destroy_lockStep h).2⟩

end Kernel

end OpenXJ380.MutexSafety
