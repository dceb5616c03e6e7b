import Mathlib.Algebra.Group.Nat.Defs
import Mathlib.Data.List.Perm.Subperm
import OpenXJ380.Lib.LinkedList

/-! # What both schedulers know of a task

The two thread control blocks share their policy fields by name. They are one
record here, extended by each port with the fields it adds.
-/

namespace OpenXJ380.Sched

open LinkedList

inductive TaskStatus where
  | create
  | running
  | wait
  | death
  | start
  | futex
  | out
  | zombie
  deriving DecidableEq, Repr

def taskKernelLevel : Int32 := 0
def taskIdleLevel : Int32 := 1
structure Entity where
  taskLevel : Int32
  status : TaskStatus
  wakeupTime : UInt64
  eevdfVruntime : UInt64
  eevdfDeadline : UInt64
  eevdfSlice : UInt64
  eevdfLastStart : UInt64
  runtimeTicks : UInt64
  deriving DecidableEq

/-- What a switch does to the status of the task it leaves; both sources have the same line. -/
def Entity.leave (t : Entity) : Entity :=
  if t.status = .running then { t with status := .start } else t

def Entity.enter (t : Entity) : Entity :=
  if t.status = .start ∨ t.status = .create then { t with status := .running } else t

abbrev TcbT := { address : UInt32 // address ≠ 0 }

instance : LawfulBEq TcbT := inferInstance

theorem firstTcb_ne_zero : (0x1000 : UInt32) ≠ 0 := by decide

theorem secondTcb_ne_zero : (0x2000 : UInt32) ≠ 0 := by decide

theorem roster_length_lt {roster : List TcbT} (h : roster.Nodup) : roster.length < 2 ^ 32 := by
  have hInjective : Function.Injective (fun t : TcbT => t.1.toNat) := by
    intro t u hEq
    exact Subtype.ext (UInt32.toNat_inj.mp hEq)
  have hSubset : roster.map (fun t => t.1.toNat) ⊆ List.range' 1 (2 ^ 32 - 1) := by
    intro n hn
    obtain ⟨t, -, rfl⟩ := List.mem_map.mp hn
    have hBound := t.1.toNat_lt
    have hNonzero : t.1.toNat ≠ 0 := fun hZero => t.2 (UInt32.toNat_inj.mp hZero)
    simp only [List.mem_range'_1]
    omega
  have hLength := ((h.map hInjective).subperm hSubset).length_le
  simp only [List.length_map, List.length_range'] at hLength
  omega

end OpenXJ380.Sched
