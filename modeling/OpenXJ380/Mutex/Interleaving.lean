import OpenXJ380.Mutex.Safety

/-! # Mutual exclusion over every interleaving

A run is a list of critical sections, each tagged with the task that executes
it. Nesting below `2 ^ 32` keeps the 32-bit counter of the port exact; the
rest follows from the abstract lock that both implementations refine.
-/

namespace OpenXJ380.MutexInterleaving

open Errno RecursiveLock Transition MutexSafety

variable {σ Task Queue : Type} [DecidableEq Task]

/-- What is promised of one implementation after a run: the fields agree with each other and
with the history, failures change nothing, and a destroyed lock stays destroyed. -/
structure SafeAfter (M : Machine σ (Task × Operation) (Option Int)) (init : σ)
    (locked destroyed : σ → Prop) (owner : σ → Option Task) (rcc : σ → Nat)
    (events : List (Task × Operation)) : Prop where
  locked_iff_owner : locked (M.final init events) ↔ owner (M.final init events) ≠ none
  owner_iff_rcc : owner (M.final init events) ≠ none ↔ 0 < rcc (M.final init events)
  rcc_eq_since_taken : ∀ t, owner (M.final init events) = some t →
    ∀ before since, events = before ++ since → owner (M.final init before) ≠ some t →
      (rcc (M.final init events) : Int) = nesting (some 0) (M.history (M.final init before) since) t
  exclusive : ∀ t u, 0 < nesting (some 0) (M.history init events) t →
    0 < nesting (some 0) (M.history init events) u → t = u
  failed_unchanged : ∀ event failure, failure ∈ [-EPERM, -EBUSY, -EDEADLK, -EINVAL] →
    (M.step (M.final init events) event).2 = some failure →
      (M.step (M.final init events) event).1 = M.final init events
  destroyed_absorbing : destroyed (M.final init events) →
    ∀ later, destroyed (M.final init (events ++ later))

variable {failure : Int} {recursive : Bool} {events : List (Task × Operation)} {event : Task × Operation}
  {m : ArmMutex.MutexT Task}

theorem failure_ne_zero (h : failure ∈ [-EPERM, -EBUSY, -EDEADLK, -EINVAL]) : failure ≠ 0 := by
  rintro rfl
  revert h
  decide

theorem bounded_of_nestingBelow
    (h : NestingBelow (2 ^ 32) (some 0) ((machine code recursive).history .unlocked events)) :
    Bounded ((machine code recursive).final (.unlocked : LockState Task) events) := by
  intro t
  have hDepth := depthOf_final eq_ok_of_code_eq recursive events t
  have hNest := h _ (List.prefix_refl _) t
  change nesting (code .ok) _ t < _ at hNest
  omega

theorem arm_run_refines (hNested : NestingBelow (2 ^ 32) (some 0)
      (ArmMutex.machine.history (ArmMutex.mutexCreate recursive) events)) :
    ArmMutex.machine.history (ArmMutex.mutexCreate recursive) events =
        (machine code recursive).history .unlocked events ∧
      ArmRepresents recursive (ArmMutex.machine.final (ArmMutex.mutexCreate recursive) events)
        ((machine code recursive).final .unlocked events) := by
  apply Machine.simulation_along (G := NestingBelow (2 ^ 32) (some 0))
  · exact armRepresents_create recursive
  · intro m s event h
    exact (arm_step_refines h event).1
  · intro before event h hGuard
    have hBound := bounded_of_nestingBelow hGuard
    rw [Machine.final_snoc] at hBound ⊢
    rw [Machine.final_snoc]
    exact (arm_step_refines h event).2 hBound
  · intro pre hPre
    exact hNested.of_prefix (Machine.history_prefix _ _ hPre)

theorem arm_rcc_eq_nesting (hNested : NestingBelow (2 ^ 32) (some 0)
      (ArmMutex.machine.history (ArmMutex.mutexCreate recursive) events)) {t : Task}
    (hOwner : (ArmMutex.machine.final (ArmMutex.mutexCreate recursive) events).owner = some t) :
    ((ArmMutex.machine.final (ArmMutex.mutexCreate recursive) events).rcc.toNat : Int) =
      nesting (some 0) (ArmMutex.machine.history (ArmMutex.mutexCreate recursive) events) t := by
  obtain ⟨hHistory, hRep⟩ := arm_run_refines hNested
  have hDepth := depthOf_final eq_ok_of_code_eq recursive events t
  rw [hHistory]
  change _ = nesting (code .ok) _ t
  rw [← hDepth]
  exact_mod_cast hRep.rcc_eq_depthOf hOwner

theorem arm_counter_room (hNested : NestingBelow (2 ^ 32) (some 0)
      (ArmMutex.machine.history (ArmMutex.mutexCreate recursive) (events ++ [event])))
    (hOwner : (ArmMutex.machine.final (ArmMutex.mutexCreate recursive) events).owner = some event.1)
    (hRecursive : (ArmMutex.machine.final (ArmMutex.mutexCreate recursive) events).recursive)
    (hOperation : event.2 = .lock ∨ event.2 = .trylock) :
    (ArmMutex.machine.final (ArmMutex.mutexCreate recursive) events).rcc.toNat + 1 < 2 ^ 32 := by
  have hBefore := hNested.of_prefix (Machine.history_prefix _ _ (List.prefix_append events [event]))
  have hCount := arm_rcc_eq_nesting hBefore hOwner
  obtain ⟨-, hRep⟩ := arm_run_refines hBefore
  have hLast := hNested _ (List.prefix_refl _) event.1
  rw [Machine.history_snoc, nesting_append, nesting_single] at hLast
  have hAnswer : (ArmMutex.machine.step
      (ArmMutex.machine.final (ArmMutex.mutexCreate recursive) events) event).2 = some 0 :=
    hRep.acquire_answer hOwner hRecursive hOperation
  rw [if_pos ⟨rfl, hAnswer⟩] at hLast
  rcases hOperation with hOperation | hOperation <;> simp only [hOperation] at hLast <;> omega

theorem kernel_run_lockStep (queue : Option Queue) (hNested : NestingBelow (2 ^ 32) (some 0)
      (ArmMutex.machine.history (ArmMutex.mutexCreate recursive) events)) :
    KernelMutex.machine.history (KernelMutex.mutexCreate queue recursive) events =
        ArmMutex.machine.history (ArmMutex.mutexCreate recursive) events ∧
      LockStep (KernelMutex.machine.final (KernelMutex.mutexCreate queue recursive) events)
        (ArmMutex.machine.final (ArmMutex.mutexCreate recursive) events) := by
  induction events using List.reverseRecOn with
  | nil => exact ⟨rfl, lockStep_create queue recursive⟩
  | append_singleton events event ih =>
    have hBefore := hNested.of_prefix (Machine.history_prefix _ _ (List.prefix_append events [event]))
    obtain ⟨hHistory, hLock⟩ := ih hBefore
    obtain ⟨hAnswer, hNext⟩ := kernel_step_lockStep hLock event
    constructor
    · rw [Machine.history_snoc, Machine.history_snoc, hHistory]
      exact congrArg (fun answer => _ ++ [(event, answer)]) hAnswer
    · rw [Machine.final_snoc, Machine.final_snoc]
      apply hNext
      intro hOwner hRecursive hOperation
      exact arm_counter_room hNested hOwner hRecursive hOperation

theorem arm_failed_unchanged (hFailure : failure ≠ 0) (h : (ArmMutex.step m event).2 = some failure) :
    (ArmMutex.step m event).1 = m := by
  have hSuccess : (0 : Int) ≠ failure := hFailure.symm
  obtain ⟨t, operation⟩ := event
  revert h
  cases operation with
  | lock =>
    simp only [ArmMutex.step, ArmMutex.mutexLock, ArmMutex.mutexAcquire]
    split_ifs <;> simp_all
  | trylock =>
    simp only [ArmMutex.step, ArmMutex.mutexTrylock, ArmMutex.mutexAcquire]
    split_ifs <;> simp_all
  | unlock =>
    simp only [ArmMutex.step, ArmMutex.mutexUnlock]
    split_ifs <;> simp_all
  | destroy =>
    simp only [ArmMutex.step, ArmMutex.mutexDestroy]
    split_ifs <;> simp_all

theorem kernel_failed_unchanged {k : KernelMutex.MutexT Task Queue} (hFailure : failure ≠ 0)
    (h : (KernelMutex.step k event).2 = some failure) : (KernelMutex.step k event).1 = k := by
  have hSuccess : (0 : Int) ≠ failure := hFailure.symm
  obtain ⟨t, operation⟩ := event
  revert h
  cases operation with
  | lock =>
    simp only [KernelMutex.step, KernelMutex.mutexLock, KernelMutex.mutexAcquire]
    split_ifs <;> simp_all
  | trylock =>
    simp only [KernelMutex.step, KernelMutex.mutexTrylock, KernelMutex.mutexAcquire]
    split_ifs <;> simp_all
  | unlock =>
    simp only [KernelMutex.step, KernelMutex.mutexUnlock]
    split_ifs <;> simp_all
  | destroy =>
    simp only [KernelMutex.step, KernelMutex.mutexDestroy]
    split_ifs <;> simp_all

theorem arm_destroyed_step (h : m.state = .destroyed)
    (event : Task × Operation) : (ArmMutex.step m event).1.state = .destroyed := by
  obtain ⟨t, operation⟩ := event
  cases operation with
  | lock => simp [ArmMutex.step, ArmMutex.mutexLock, ArmMutex.mutexAcquire, h]
  | trylock => simp [ArmMutex.step, ArmMutex.mutexTrylock, ArmMutex.mutexAcquire, h]
  | unlock => simp [ArmMutex.step, ArmMutex.mutexUnlock, h]
  | destroy => simp [ArmMutex.step, ArmMutex.mutexDestroy, h]

theorem kernel_destroyed_step {k : KernelMutex.MutexT Task Queue} (h : k.state = .destroyed)
    (event : Task × Operation) : (KernelMutex.step k event).1.state = .destroyed := by
  obtain ⟨t, operation⟩ := event
  cases operation with
  | lock => simp [KernelMutex.step, KernelMutex.mutexLock, KernelMutex.mutexAcquire, h]
  | trylock => simp [KernelMutex.step, KernelMutex.mutexTrylock, KernelMutex.mutexAcquire, h]
  | unlock => simp [KernelMutex.step, KernelMutex.mutexUnlock, h]
  | destroy => simp [KernelMutex.step, KernelMutex.mutexDestroy, h]

omit [DecidableEq Task] in
theorem armRepresents_fields {s : LockState Task} (h : ArmRepresents recursive m s) :
    (m.state = .locked ↔ m.owner ≠ none) ∧ (m.owner ≠ none ↔ 0 < m.rcc.toNat) := by
  obtain ⟨-, hState⟩ := h
  cases s with
  | unlocked => simp [hState.1, hState.2.1, hState.2.2]
  | destroyed => simp [hState.1, hState.2.1, hState.2.2]
  | held owner depth =>
    obtain ⟨hLocked, hOwner, hDepth⟩ := hState
    simp [hLocked, hOwner, hDepth]

theorem armRepresents_depth_eq_zero {s : LockState Task}
    {t : Task} (h : ArmRepresents recursive m s) (hOther : m.owner ≠ some t) : depthOf s t = 0 := by
  obtain ⟨-, hState⟩ := h
  cases s with
  | unlocked => rfl
  | destroyed => rfl
  | held owner depth =>
    rw [hState.2.1] at hOther
    exact if_neg fun hEq => hOther (congrArg some hEq)

theorem arm_nesting_eq_depth (hNested : NestingBelow (2 ^ 32) (some 0)
      (ArmMutex.machine.history (ArmMutex.mutexCreate recursive) events)) (t : Task) :
    nesting (some 0) (ArmMutex.machine.history (ArmMutex.mutexCreate recursive) events) t =
      depthOf ((machine code recursive).final .unlocked events) t := by
  rw [(arm_run_refines hNested).1]
  exact (depthOf_final eq_ok_of_code_eq recursive events t).symm

theorem arm_safe (hNested : NestingBelow (2 ^ 32) (some 0)
      (ArmMutex.machine.history (ArmMutex.mutexCreate recursive) events)) :
    SafeAfter ArmMutex.machine (ArmMutex.mutexCreate recursive : ArmMutex.MutexT Task)
      (fun m => m.state = .locked) (fun m => m.state = .destroyed) (fun m => m.owner)
      (fun m => m.rcc.toNat) events := by
  obtain ⟨-, hRep⟩ := arm_run_refines hNested
  obtain ⟨hLocked, hCounted⟩ := armRepresents_fields hRep
  constructor
  · exact hLocked
  · exact hCounted
  · rintro t hOwner before since rfl hOther
    have hPrefix := Machine.history_prefix ArmMutex.machine (ArmMutex.mutexCreate recursive)
      (List.prefix_append before since)
    have hBefore := hNested.of_prefix hPrefix
    have hZero : nesting (some 0) (ArmMutex.machine.history (ArmMutex.mutexCreate recursive) before) t = 0 := by
      rw [arm_nesting_eq_depth hBefore]
      exact_mod_cast armRepresents_depth_eq_zero (arm_run_refines hBefore).2 hOther
    have hAll := arm_rcc_eq_nesting hNested hOwner
    rw [Machine.history_append, nesting_append, hZero, zero_add] at hAll
    exact hAll
  · intro t u ht hu
    rw [arm_nesting_eq_depth hNested] at ht hu
    exact eq_of_depthOf_pos (by exact_mod_cast ht) (by exact_mod_cast hu)
  · intro event failure hMem hReply
    exact arm_failed_unchanged (failure_ne_zero hMem) hReply
  · intro hDestroyed later
    rw [Machine.final_append]
    exact Machine.final_invariant ArmMutex.machine (I := fun m => m.state = .destroyed)
      (fun _ event h => arm_destroyed_step h event) hDestroyed later

theorem kernel_safe (queue : Option Queue) (hNested : NestingBelow (2 ^ 32) (some 0)
      (ArmMutex.machine.history (ArmMutex.mutexCreate recursive) events)) :
    SafeAfter KernelMutex.machine (KernelMutex.mutexCreate queue recursive : KernelMutex.MutexT Task Queue)
      (fun k => k.state = .locked) (fun k => k.state = .destroyed) (fun k => k.owner)
      (fun k => k.rcc.toNat) events := by
  obtain ⟨hHistory, hLock⟩ := kernel_run_lockStep queue hNested
  have hArm := arm_safe hNested
  constructor
  · simp only [hLock.state_iff.2.1, hLock.owner]
    exact hArm.locked_iff_owner
  · simp only [hLock.rcc, hLock.owner]
    exact hArm.owner_iff_rcc
  · rintro t hOwner before since rfl hOther
    have hPrefix := Machine.history_prefix ArmMutex.machine (ArmMutex.mutexCreate recursive)
      (List.prefix_append before since)
    obtain ⟨hBefore, hLockBefore⟩ := kernel_run_lockStep queue (hNested.of_prefix hPrefix)
    rw [hLock.owner] at hOwner
    rw [hLockBefore.owner] at hOther
    have hAll := hArm.rcc_eq_since_taken t hOwner before since rfl hOther
    have hSince : KernelMutex.machine.history
          (KernelMutex.machine.final (KernelMutex.mutexCreate queue recursive) before) since =
        ArmMutex.machine.history (ArmMutex.machine.final (ArmMutex.mutexCreate recursive) before) since := by
      rw [Machine.history_append, Machine.history_append, hBefore] at hHistory
      exact List.append_cancel_left hHistory
    rw [hSince]
    simp only [hLock.rcc]
    exact hAll
  · rw [hHistory]
    exact hArm.exclusive
  · intro event failure hMem hReply
    exact kernel_failed_unchanged (failure_ne_zero hMem) hReply
  · intro hDestroyed later
    rw [Machine.final_append]
    exact Machine.final_invariant KernelMutex.machine (I := fun k => k.state = .destroyed)
      (fun _ event h => kernel_destroyed_step h event) hDestroyed later

/-- Both mutexes are safe after every interleaving, and they answer alike. -/
theorem mutex_safe_any_interleaving (recursive : Bool) (queue : Option Queue)
    (events : List (Task × Operation))
    (hNested : NestingBelow (2 ^ 32) (some 0)
      (ArmMutex.machine.history (ArmMutex.mutexCreate recursive) events)) :
    SafeAfter ArmMutex.machine (ArmMutex.mutexCreate recursive : ArmMutex.MutexT Task)
        (fun m => m.state = .locked) (fun m => m.state = .destroyed) (fun m => m.owner)
        (fun m => m.rcc.toNat) events ∧
      SafeAfter KernelMutex.machine
        (KernelMutex.mutexCreate queue recursive : KernelMutex.MutexT Task Queue)
        (fun k => k.state = .locked) (fun k => k.state = .destroyed) (fun k => k.owner)
        (fun k => k.rcc.toNat) events ∧
      KernelMutex.machine.outputs (KernelMutex.mutexCreate queue recursive) events =
        ArmMutex.machine.outputs (ArmMutex.mutexCreate recursive) events := by
  refine ⟨arm_safe hNested, kernel_safe queue hNested, ?_⟩
  exact congrArg (List.map Prod.snd) (kernel_run_lockStep queue hNested).1

theorem mutex_safe_contended_run :
    (ArmMutex.machine.final (ArmMutex.mutexCreate true) [(1, .lock), (1, .lock), (2, .trylock)]).rcc = 2 ∧
      KernelMutex.machine.outputs (KernelMutex.mutexCreate (some ()) true)
          [(1, .lock), (1, .lock), (2, .trylock)] = [some 0, some 0, some (-EBUSY)] := by
  refine ⟨by decide, ?_⟩
  rw [(mutex_safe_any_interleaving true (some ()) [(1, .lock), (1, .lock), (2, .trylock)]
    (nestingBelow_of_length_lt (by decide))).2.2]
  decide

end OpenXJ380.MutexInterleaving
