import Mathlib.Data.PNat.Basic
import OpenXJ380.Lib.Transition

/-! # An abstract recursive lock

The state carries its owner and its positive nesting depth together, so an
owned lock of depth zero cannot be written down. Depth is recovered from the
history alone: successful acquisitions minus successful releases.
-/

namespace RecursiveLock

open Transition

universe u v

inductive LockState (τ : Type u) where
  | unlocked
  | held (owner : τ) (depth : ℕ+)
  | destroyed
  deriving DecidableEq

inductive Operation where
  | lock
  | trylock
  | unlock
  | destroy
  deriving DecidableEq, Repr

/-- `again` is the answer of a blocking attempt that has to be repeated. -/
inductive Answer where
  | ok
  | again
  | invalid
  | deadlock
  | busy
  | notOwner
  deriving DecidableEq, Repr

variable {τ : Type u} [DecidableEq τ] {ο : Type v} [DecidableEq ο]

def acquire (recursive : Bool) (contended : Answer) (s : LockState τ) (t : τ) : LockState τ × Answer :=
  match s with
  | .destroyed => (s, .invalid)
  | .unlocked => (.held t 1, .ok)
  | .held owner depth =>
    if owner = t then
      if recursive then (.held owner (depth + 1), .ok) else (s, .deadlock)
    else (s, contended)

def release (s : LockState τ) (t : τ) : LockState τ × Answer :=
  match s with
  | .destroyed => (s, .invalid)
  | .unlocked => (s, .notOwner)
  | .held owner depth =>
    if owner = t then
      if depth = 1 then (.unlocked, .ok) else (.held owner (depth - 1), .ok)
    else (s, .notOwner)

def destroy (s : LockState τ) : LockState τ × Answer :=
  match s with
  | .held _ _ => (s, .busy)
  | _ => (.destroyed, .ok)

def step (recursive : Bool) (s : LockState τ) (event : τ × Operation) : LockState τ × Answer :=
  match event.2 with
  | .lock => acquire recursive .again s event.1
  | .trylock => acquire recursive .busy s event.1
  | .unlock => release s event.1
  | .destroy => destroy s

/-- The lock as a machine, answering in the return codes of an implementation. -/
def machine (code : Answer → ο) (recursive : Bool) : Machine (LockState τ) (τ × Operation) ο where
  step s event := ((step recursive s event).1, code (step recursive s event).2)

def depthOf (s : LockState τ) (t : τ) : Nat :=
  match s with
  | .held owner depth => if owner = t then depth else 0
  | _ => 0

def isAcquisition (okCode : ο) (t : τ) (record : (τ × Operation) × ο) : Bool :=
  record.1.1 = t && (record.1.2 = .lock || record.1.2 = .trylock) && record.2 = okCode

def isRelease (okCode : ο) (t : τ) (record : (τ × Operation) × ο) : Bool :=
  record.1.1 = t && record.1.2 = .unlock && record.2 = okCode

def nesting (okCode : ο) (history : List ((τ × Operation) × ο)) (t : τ) : Int :=
  (history.countP (isAcquisition okCode t) : Int) - history.countP (isRelease okCode t)

theorem nesting_append (okCode : ο) (g h : List ((τ × Operation) × ο)) (t : τ) :
    nesting okCode (g ++ h) t = nesting okCode g t + nesting okCode h t := by
  simp only [nesting, List.countP_append]
  omega

def NestingBelow (bound : Nat) (okCode : ο) (history : List ((τ × Operation) × ο)) : Prop :=
  ∀ pre, pre <+: history → ∀ t, nesting okCode pre t < bound

theorem NestingBelow.of_prefix {bound : Nat} {okCode : ο} {g h : List ((τ × Operation) × ο)}
    (hBelow : NestingBelow bound okCode h) (hPrefix : g <+: h) : NestingBelow bound okCode g :=
  fun pre hPre => hBelow pre (hPre.trans hPrefix)

theorem nesting_le_length (okCode : ο) (history : List ((τ × Operation) × ο)) (t : τ) :
    nesting okCode history t ≤ history.length := by
  have hAcquired : history.countP (isAcquisition okCode t) ≤ history.length := List.countP_le_length
  rw [nesting]
  omega

theorem nestingBelow_of_length_lt {bound : Nat} {okCode : ο} {history : List ((τ × Operation) × ο)}
    (h : history.length < bound) : NestingBelow bound okCode history := by
  intro pre hPre t
  have hNest := nesting_le_length okCode pre t
  have hLength := hPre.length_le
  omega

theorem nesting_single (okCode : ο) (event : τ × Operation) (answer : ο) (t : τ) : nesting okCode [(event, answer)] t =
      if event.1 = t ∧ answer = okCode then match event.2 with
        | .lock | .trylock => 1
        | .unlock => -1
        | .destroy => 0 else 0 := by
  obtain ⟨caller, operation⟩ := event
  by_cases hCaller : caller = t <;> by_cases hAnswer : answer = okCode <;> cases operation <;>
    simp [nesting, isAcquisition, isRelease, hCaller, hAnswer]

variable {s : LockState τ} {t : τ}

theorem acquire_unchanged {recursive : Bool} {contended : Answer}
    (h : (acquire recursive contended s t).2 ≠ .ok) : (acquire recursive contended s t).1 = s := by
  cases s with
  | unlocked => exact absurd rfl h
  | destroyed => rfl
  | held owner depth =>
    simp only [acquire] at h ⊢
    split_ifs at h ⊢ with hOwner hRecursive
    · exact absurd rfl h
    · rfl
    · rfl

theorem release_unchanged (h : (release s t).2 ≠ .ok) : (release s t).1 = s := by
  cases s with
  | unlocked => rfl
  | destroyed => rfl
  | held owner depth =>
    simp only [release] at h ⊢
    split_ifs at h ⊢ with hOwner hLast
    · exact absurd rfl h
    · exact absurd rfl h
    · rfl

omit [DecidableEq τ] in
theorem destroy_unchanged (h : (destroy s).2 ≠ .ok) : (destroy s).1 = s := by
  cases s with
  | held owner depth => rfl
  | unlocked => exact absurd rfl h
  | destroyed => exact absurd rfl h

theorem step_unchanged_of_ne_ok {recursive : Bool} {event : τ × Operation}
    (h : (step recursive s event).2 ≠ .ok) : (step recursive s event).1 = s := by
  obtain ⟨t, operation⟩ := event
  cases operation with
  | lock => exact acquire_unchanged h
  | trylock => exact acquire_unchanged h
  | unlock => exact release_unchanged h
  | destroy => exact destroy_unchanged h

theorem depthOf_acquire (recursive : Bool) {contended : Answer} (hContended : contended ≠ .ok)
    (s : LockState τ) (caller t : τ) : depthOf (acquire recursive contended s caller).1 t =
      depthOf s t + if caller = t ∧ (acquire recursive contended s caller).2 = .ok then 1 else 0 := by
  cases s with
  | unlocked => simp [acquire, depthOf]
  | destroyed => simp [acquire, depthOf]
  | held owner depth =>
    by_cases hOwner : owner = caller
    · subst owner
      by_cases hCaller : caller = t <;> cases recursive <;> simp [acquire, depthOf, hCaller]
    · simp [acquire, hOwner, hContended]

theorem depthOf_release (s : LockState τ) (caller t : τ) :
    depthOf (release s caller).1 t + (if caller = t ∧ (release s caller).2 = .ok then 1 else 0) = depthOf s t := by
  cases s with
  | unlocked => simp [release, depthOf]
  | destroyed => simp [release, depthOf]
  | held owner depth =>
    by_cases hOwner : owner = caller
    · subst owner
      by_cases hLast : depth = 1
      · subst depth
        by_cases hCaller : caller = t <;> simp [release, depthOf, hCaller]
      · have hLt : (1 : ℕ+) < depth := lt_of_le_of_ne one_le (.symm hLast)
        have hSucc : ((depth - 1 : ℕ+) : Nat) + 1 = depth := by
          exact_mod_cast PNat.sub_add_of_lt hLt
        by_cases hCaller : caller = t <;> simp [release, depthOf, hLast, hCaller, hSucc]
    · simp [release, hOwner]

theorem depthOf_destroy (s : LockState τ) (t : τ) : depthOf (destroy s).1 t = depthOf s t := by
  cases s <;> rfl

section Codes

variable {code : Answer → ο} (hCode : ∀ a, code a = code .ok → a = .ok)

include hCode

theorem depthOf_step (recursive : Bool) (s : LockState τ) (event : τ × Operation) (t : τ) :
    (depthOf (step recursive s event).1 t : Int) = depthOf s t +
      nesting (code .ok) [(event, code (step recursive s event).2)] t := by
  obtain ⟨caller, operation⟩ := event
  by_cases hOk : (step recursive s (caller, operation)).2 = .ok
  · rw [hOk, nesting_single]
    cases operation with
    | lock =>
      have h := depthOf_acquire recursive (by decide : Answer.again ≠ .ok) s caller t
      have hOk : (acquire recursive .again s caller).2 = .ok := hOk
      simp only [step, h, hOk, and_true]
      split <;> simp
    | trylock =>
      have h := depthOf_acquire recursive (by decide : Answer.busy ≠ .ok) s caller t
      have hOk : (acquire recursive .busy s caller).2 = .ok := hOk
      simp only [step, h, hOk, and_true]
      split <;> simp
    | unlock =>
      have h := depthOf_release s caller t
      have hOk : (release s caller).2 = .ok := hOk
      simp only [hOk, and_true] at h
      simp only [step, and_true, ← h]
      split <;> simp
    | destroy =>
      simp [step, depthOf_destroy]
  · have hFailed : code (step recursive s (caller, operation)).2 ≠ code .ok := fun h => hOk (hCode _ h)
    rw [step_unchanged_of_ne_ok hOk, nesting_single, if_neg (fun h => hFailed h.2)]
    simp

theorem depthOf_final (recursive : Bool) (events : List (τ × Operation)) (t : τ) :
    (depthOf ((machine code recursive).final .unlocked events) t : Int) =
      nesting (code .ok) ((machine code recursive).history .unlocked events) t := by
  induction events using List.reverseRecOn with
  | nil => rfl
  | append_singleton events event ih =>
    rw [Machine.final_snoc, Machine.history_snoc, nesting_append, ← ih]
    exact depthOf_step hCode recursive _ event t

end Codes

theorem eq_of_depthOf_pos {u : τ} (ht : 0 < depthOf s t) (hu : 0 < depthOf s u) : t = u := by
  cases s with
  | held owner depth =>
    simp only [depthOf] at ht hu
    split at ht
    · split at hu
      · exact ‹owner = t›.symm.trans ‹owner = u›
      · cases hu
    · cases ht
  | unlocked => cases ht
  | destroyed => cases ht

end RecursiveLock
