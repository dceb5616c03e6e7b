import Mathlib.Algebra.GroupWithZero.Nat
import Mathlib.Data.List.MinMax
import Mathlib.Data.Prod.Lex
import OpenXJ380.Sched.Selection

/-! # The rule of selection

One pass with a shortcut and a second pass where the shortcut fails choose what
the rule in two stages chooses.
-/

namespace OpenXJ380.ArmSched

open List (argmin_concat filter_cons foldl_cons)

open LinkedList Sched

variable {m m' : Memory} {q : SchedQueue} {roster l : List TcbT} {current : Option TcbT} {now : UInt64} {s : Scan}
  {t c : TcbT} {avg : UInt64}

def wokenTcb (m : Memory) (current : Option TcbT) (now : UInt64) (t : TcbT) : Tcb :=
  { m.tcbs t with toEntity := schedWakeIfDue (m.tcbs t).toEntity now (wakeBase m current t) }

def wakeAll (m : Memory) (l : List TcbT) (current : Option TcbT) (now : UInt64) : Memory :=
  { m with tcbs := fun t => if m.gWakeSkip = 0 ∧ t ∈ l then wokenTcb m current now t else m.tcbs t }

def awake (m : Memory) (roster : List TcbT) (current : Option TcbT) (now : UInt64) : Memory :=
  wakeAll (wakeCurrent m current now) roster current now

/-- What counts for the average: the schedulable tasks, and the current task on the queue while it can run. -/
def counts (m : Memory) (current : Option TcbT) (t : TcbT) : Bool :=
  if some t = current then schedCurrentRunnable m (some t) else schedTaskSchedulable m t current

def counted (m : Memory) (roster : List TcbT) (current : Option TcbT) : List TcbT := roster.filter (counts m current)

def vruntimeSum (m : Memory) (roster : List TcbT) (current : Option TcbT) : Nat :=
  ((counted m roster current).map fun t => (m.tcbs t).eevdfVruntime.toNat).sum

def average (m : Memory) (roster : List TcbT) (current : Option TcbT) : Nat :=
  vruntimeSum m roster current / (counted m roster current).length

def urgency (m : Memory) (t : TcbT) : Nat ×ₗ Nat :=
  toLex ((m.tcbs t).eevdfDeadline.toNat, (m.tcbs t).eevdfVruntime.toNat)

def ready (m : Memory) (roster : List TcbT) (current : Option TcbT) : List TcbT :=
  roster.filter fun t => schedTaskSchedulable m t current

def eligible (m : Memory) (roster : List TcbT) (current : Option TcbT) : List TcbT :=
  (ready m roster current).filter fun t => (m.tcbs t).eevdfVruntime.toNat ≤ average m roster current

def idlers (m : Memory) (roster : List TcbT) (current : Option TcbT) : List TcbT :=
  roster.filter fun t => some t ≠ current ∧ (m.tcbs t).taskLevel = taskIdleLevel

/-- The first most urgent of the eligible tasks, else of the ready ones, else the current task, else the last idle
one. -/
def chosen (m : Memory) (roster : List TcbT) (current : Option TcbT) : Option TcbT :=
  ((eligible m roster current).argmin (urgency m)).or
    (((ready m roster current).argmin (urgency m)).or
      (if schedCurrentRunnable m current then current else (idlers m roster current).getLast?))

def Settled (m : Memory) (current : Option TcbT) (now : UInt64) : Prop :=
  ∀ c, current = some c → ∀ base, schedWakeIfDue (m.tcbs c).toEntity now base = (m.tcbs c).toEntity

theorem before_iff : schedDeadlineBefore m (some t) (some c) ↔ urgency m t < urgency m c := by
  rw [urgency, urgency, Prod.Lex.toLex_lt_toLex, schedDeadlineBefore]
  simp only
  split_ifs with hNe
  · rw [decide_eq_true_iff, UInt64.lt_iff_toNat_lt]
    constructor
    · exact .inl
    · rintro (hLess | ⟨hSame, -⟩)
      · exact hLess
      · exact absurd (UInt64.toNat_inj.mp hSame) hNe
  · rw [decide_eq_true_iff, UInt64.lt_iff_toNat_lt]
    have hSame := not_not.mp hNe
    constructor
    · exact fun hLess => .inr ⟨congrArg UInt64.toNat hSame, hLess⟩
    · rintro (hLess | ⟨-, hLess⟩)
      · rw [hSame] at hLess
        exact absurd hLess (lt_irrefl _)
      · exact hLess

theorem foldl_urgent (P : TcbT → Bool) (best : Option TcbT) :
    l.foldl (fun best t => if P t ∧ schedDeadlineBefore m (some t) best then some t else best) best =
      (l.filter P).foldl (List.argAux fun b c => urgency m b < urgency m c) best := by
  induction l generalizing best with
  | nil => rfl
  | cons t l ih =>
    rw [foldl_cons, ih, filter_cons]
    by_cases hIn : P t
    · rw [if_pos hIn, foldl_cons]
      congr 1
      cases best with
      | none => exact if_pos ⟨hIn, rfl⟩
      | some c =>
        change _ = if urgency m t < urgency m c then some t else some c
        simp only [hIn, true_and, before_iff]
    · rw [if_neg hIn, if_neg fun hBoth => hIn hBoth.1]

theorem earliestEligible_eq (hLinks : Linked m.next q.head roster) : earliestEligible m q current avg =
      ((ready m roster current).filter fun t => (m.tcbs t).eevdfVruntime ≤ avg).argmin (urgency m) := by
  rw [earliestEligible, forEach_fixed hLinks (length_le_traversalFuel hLinks), ready, List.filter_filter]
  have hFold := foldl_urgent (m := m) (l := roster)
    (fun t => decide ((m.tcbs t).eevdfVruntime ≤ avg) && schedTaskSchedulable m t current) none
  refine Eq.trans ?_ hFold
  congr 1
  funext best t
  simp only [Bool.and_eq_true, decide_eq_true_eq, and_comm, and_assoc]

theorem argmin_filter {α β : Type*} [LinearOrder β] {f : α → β} {P : α → Bool} {l : List α} {a : α}
    (h : l.argmin f = some a) (ha : P a) : (l.filter P).argmin f = some a := by
  induction l using List.reverseRecOn generalizing a with
  | nil => cases h
  | append_singleton l x ih =>
    rw [argmin_concat] at h
    rw [List.filter_append]
    rcases hBest : l.argmin f with _ | c
    · rw [hBest] at h
      cases h
      rw [List.argmin_eq_none.mp hBest, filter_cons, if_pos ha]
      rfl
    · rw [hBest] at h
      simp only at h
      split_ifs at h with hLess
      · cases h
        rw [filter_cons, if_pos ha, List.filter_nil, argmin_concat]
        rcases hKept : (l.filter P).argmin f with _ | d
        · rfl
        · have hMem := List.mem_of_mem_filter (List.argmin_mem hKept)
          have hLe := List.le_of_mem_argmin hMem hBest
          exact if_pos (lt_of_lt_of_le hLess hLe)
      · cases h
        rw [filter_cons, List.filter_nil]
        split_ifs
        · rw [argmin_concat, ih hBest ha]
          exact if_neg hLess
        · rw [List.append_nil]
          exact ih hBest ha

abbrev Fits (m : Memory) (roster : List TcbT) (current : Option TcbT) : Prop := vruntimeSum m roster current < 2 ^ 64

structure Found (m : Memory) (roster : List TcbT) (current : Option TcbT) (s : Scan) : Prop where
  memory : s.m = m
  average : s.average.toNat = average m roster current
  fallback : s.fallback = (ready m roster current).argmin (urgency m)
  idle : s.idle = (idlers m roster current).getLast?

theorem Found.result (h : Found m roster current s) (hLinks : Linked m.next q.head roster) :
    s.result q current = chosen m roster current := by
  have hEligible : (ready m roster current).filter (fun t => (m.tcbs t).eevdfVruntime ≤ s.average) =
      eligible m roster current := by
    rw [eligible]
    congr 1
    funext t
    rw [← h.average, decide_eq_decide, UInt64.le_iff_toNat_le]
  have hGate : ∀ t, (m.tcbs t).eevdfVruntime ≤ s.average ↔
      (m.tcbs t).eevdfVruntime.toNat ≤ ArmSched.average m roster current := by
    intro t
    rw [← h.average, UInt64.le_iff_toNat_le]
  rw [Scan.result, chosen, h.memory, h.idle, ← Option.or_assoc]
  congr 1
  simp only [Scan.best, h.memory, h.fallback]
  rcases hFirst : (ready m roster current).argmin (urgency m) with _ | f
  · have hNone : ready m roster current = [] := List.argmin_eq_none.mp hFirst
    rw [eligible, hNone]
    rfl
  · by_cases hPass : (m.tcbs f).eevdfVruntime ≤ s.average
    · have hKept := argmin_filter
        (P := fun t => decide ((m.tcbs t).eevdfVruntime.toNat ≤ ArmSched.average m roster current)) hFirst (decide_eq_true ((hGate f).mp hPass))
      rw [eligible, hKept]
      simp [Option.filter, hPass]
    · simp only [Option.filter, hPass, decide_false]
      rw [earliestEligible_eq hLinks, hEligible]
      simp

end OpenXJ380.ArmSched
