import OpenXJ380.Sched.Arm

/-! # What a selection may do

The only status a selection changes is WAIT, to START, and it leaves everything
outside the policy fields alone. What it returns is the current task, a
schedulable member of the roster, or an idle member.
-/

namespace OpenXJ380.ArmSched

open LinkedList Sched

/-- The policy fields may have moved; a status moved from WAIT to START at most. -/
structure Woken (m m' : Memory) : Prop where
  rest : ∀ t, m'.tcbs t = { m.tcbs t with toEntity := (m'.tcbs t).toEntity }
  taskLevel : ∀ t, (m'.tcbs t).taskLevel = (m.tcbs t).taskLevel
  status : ∀ t, (m'.tcbs t).status = (m.tcbs t).status ∨
    ((m.tcbs t).status = .wait ∧ (m'.tcbs t).status = .start)

theorem Woken.refl (m : Memory) : Woken m m :=
  ⟨fun _ => rfl, fun _ => rfl, fun _ => .inl rfl⟩

variable {m m' m₀ : Memory} {t : TcbT} {q : SchedQueue} {roster : List TcbT} {current : Option TcbT} {s : Scan}

theorem Woken.trans {m'' : Memory} (h : Woken m m') (h' : Woken m' m'') : Woken m m'' := by
  refine ⟨?_, ?_, ?_⟩
  · intro t
    rw [h'.rest t, h.rest t]
  · intro t
    rw [h'.taskLevel t, h.taskLevel t]
  · intro t
    obtain hSame | ⟨hWait, hStart⟩ := h'.status t
    · rw [hSame]
      exact h.status t
    · obtain hBefore | ⟨hBefore, -⟩ := h.status t
      · exact .inr ⟨hBefore ▸ hWait, hStart⟩
      · exact .inr ⟨hBefore, hStart⟩

theorem Woken.next_eq (h : Woken m m') : m'.next = m.next := by
  funext t
  rw [Memory.next, h.rest t, Memory.next]

theorem Woken.modify {f : Entity → Entity} (hLevel : (f (m.tcbs t).toEntity).taskLevel = (m.tcbs t).taskLevel)
    (hStatus : (f (m.tcbs t).toEntity).status = (m.tcbs t).status ∨
      ((m.tcbs t).status = .wait ∧ (f (m.tcbs t).toEntity).status = .start)) : Woken m (m.modify t f) := by
  have hSelf : (m.modify t f).tcbs t = { m.tcbs t with toEntity := f (m.tcbs t).toEntity } := by
    simp [Memory.modify]
  refine ⟨?_, ?_, ?_⟩
  all_goals
    intro u
    obtain rfl | hOther := eq_or_ne u t
  · rw [hSelf]
  · rw [Memory.modify_other m f hOther]
  · rw [hSelf]
    exact hLevel
  · rw [Memory.modify_other m f hOther]
  · rw [hSelf]
    exact hStatus
  · rw [Memory.modify_other m f hOther]
    exact .inl rfl

theorem Woken.withSticky (m : Memory) (n : UInt32) : Woken m { m with gPickSticky := n } :=
  ⟨fun _ => rfl, fun _ => rfl, fun _ => .inl rfl⟩

theorem schedApplyWakeupCredit_status (e : Entity) (base : UInt64) : (schedApplyWakeupCredit e base).status = e.status ∧
      (schedApplyWakeupCredit e base).taskLevel = e.taskLevel := by
  simp only [schedApplyWakeupCredit]
  split
  · exact ⟨rfl, rfl⟩
  · split_ifs <;> exact ⟨rfl, rfl⟩

theorem schedWakeIfDue_status (e : Entity) (now base : UInt64) : (schedWakeIfDue e now base).status = e.status ∨
      (e.status = .wait ∧ (schedWakeIfDue e now base).status = .start) := by
  rw [schedWakeIfDue]
  split
  · rename_i hDue
    exact .inr ⟨hDue.1, (schedApplyWakeupCredit_status _ base).1⟩
  · exact .inl rfl

theorem schedWakeIfDue_taskLevel (e : Entity) (now base : UInt64) :
    (schedWakeIfDue e now base).taskLevel = e.taskLevel := by
  rw [schedWakeIfDue]
  split
  · exact (schedApplyWakeupCredit_status _ base).2
  · rfl

theorem schedMarkDispatched_kept (e : Entity) (now : UInt64) : (schedMarkDispatched e now).status = e.status ∧
      (schedMarkDispatched e now).taskLevel = e.taskLevel := by
  simp only [schedMarkDispatched]
  split <;> split <;> exact ⟨rfl, rfl⟩

theorem wakeCurrent_woken (m : Memory) (current : Option TcbT) (now : UInt64) :
    Woken m (wakeCurrent m current now) := by
  cases current with
  | none => exact .refl m
  | some t =>
    change Woken m (m.modify t fun e => schedWakeIfDue e now e.eevdfVruntime)
    exact .modify (schedWakeIfDue_taskLevel _ now _) (schedWakeIfDue_status _ now _)

theorem markDispatched_woken (m : Memory) (t : Option TcbT) (now : UInt64) : Woken m (markDispatched m t now) := by
  cases t with
  | none => exact .refl m
  | some t =>
    obtain ⟨hStatus, hLevel⟩ := schedMarkDispatched_kept (m.tcbs t).toEntity now
    change Woken m (m.modify t fun e => schedMarkDispatched e now)
    exact .modify hLevel (.inl hStatus)

theorem Scan.wake_woken (current : Option TcbT) (now : UInt64) (s : Scan) (candidate : TcbT) :
    Woken s.m (s.wake current now candidate).m := by
  simp only [Scan.wake]
  split
  · exact .modify (schedWakeIfDue_taskLevel _ now _) (schedWakeIfDue_status _ now _)
  · exact .refl s.m

@[simp] theorem Scan.record_memory (current : Option TcbT) (s : Scan) (candidate : TcbT) :
    (s.record current candidate).m = s.m := by
  simp only [Scan.record]
  split_ifs <;> rfl

theorem Scan.visit_woken (current : Option TcbT) (now : UInt64) (s : Scan) (candidate : TcbT) :
    Woken s.m (s.visit current now candidate).m := by
  rw [Scan.visit, Scan.record_memory]
  exact Scan.wake_woken current now s candidate

theorem schedQueueScan_eq_foldl (hLinks : Linked m.next q.head roster) (current : Option TcbT) (now : UInt64) :
    schedQueueScan m q current now = roster.foldl (Scan.visit current now)
      { m := m, sum := 0, count := 0, fallback := none, idle := none } := by
  apply forEach_eq_foldl
  · intro s t u
    rw [(Scan.visit_woken current now s t).next_eq]
  · exact hLinks
  · exact length_le_traversalFuel hLinks

/-- A task that may become `fallback` or `best`. -/
def Candidate (m : Memory) (roster : List TcbT) (current : Option TcbT) (t : TcbT) : Prop :=
  t ∈ roster ∧ some t ≠ current ∧ schedStatusRunnable (m.tcbs t).status = true ∧
    (m.tcbs t).taskLevel ≠ taskIdleLevel

/-- A task that may become `idle`. -/
def IdleMember (m : Memory) (roster : List TcbT) (current : Option TcbT) (t : TcbT) : Prop :=
  t ∈ roster ∧ some t ≠ current ∧ (m.tcbs t).taskLevel = taskIdleLevel

theorem schedTaskSchedulable_eq_true (h : schedTaskSchedulable m t current) :
    some t ≠ current ∧ schedStatusRunnable (m.tcbs t).status ∧ (m.tcbs t).taskLevel ≠ taskIdleLevel := by
  rw [schedTaskSchedulable] at h
  split at h
  · cases h
  · split at h
    · cases h
    · split at h
      · cases h
      · rename_i hOther hRunnable hLevel
        exact ⟨hOther, by simpa using hRunnable, hLevel⟩

theorem Candidate.woken (h : Candidate m roster current t) (hWoken : Woken m m') : Candidate m' roster current t := by
  obtain ⟨hMem, hOther, hRunnable, hLevel⟩ := h
  refine ⟨hMem, hOther, ?_, hWoken.taskLevel t ▸ hLevel⟩
  obtain hSame | ⟨-, hStart⟩ := hWoken.status t
  · rw [hSame]
    exact hRunnable
  · rw [hStart]
    rfl

theorem IdleMember.woken (h : IdleMember m roster current t) (hWoken : Woken m m') : IdleMember m' roster current t :=
  ⟨h.1, h.2.1, hWoken.taskLevel t ▸ h.2.2⟩

structure ScanSound (m₀ : Memory) (roster : List TcbT) (current : Option TcbT) (s : Scan) : Prop where
  woken : Woken m₀ s.m
  fallback : ∀ t, s.fallback = some t → Candidate s.m roster current t
  idle : ∀ t, s.idle = some t → IdleMember s.m roster current t

section

variable (h : ScanSound m₀ roster current s)

include h

theorem ScanSound.wake (now : UInt64) (candidate : TcbT) :
    ScanSound m₀ roster current (s.wake current now candidate) := by
  have hWake := Scan.wake_woken current now s candidate
  refine ⟨h.woken.trans hWake, ?_, ?_⟩
  · intro t ht
    exact (h.fallback t ht).woken hWake
  · intro t ht
    exact (h.idle t ht).woken hWake

theorem ScanSound.noteIdle {candidate : TcbT} (hMem : candidate ∈ roster) :
    ScanSound m₀ roster current (if some candidate ≠ current ∧ (s.m.tcbs candidate).taskLevel = taskIdleLevel then
        { s with idle := some candidate } else s) := by
  split
  · rename_i hIdle
    refine { h with idle := ?_ }
    rintro t hEq
    cases hEq
    exact ⟨hMem, hIdle⟩
  · exact h

theorem ScanSound.record {candidate : TcbT} (hMem : candidate ∈ roster) :
    ScanSound m₀ roster current (s.record current candidate) := by
  simp only [Scan.record]
  have hNoted := h.noteIdle hMem
  revert hNoted
  generalize (if some candidate ≠ current ∧ (s.m.tcbs candidate).taskLevel = taskIdleLevel then
    { s with idle := some candidate } else s) = s'
  intro h
  split
  · split
    · exact { h with }
    · exact h
  · split
    · rename_i hSchedulable
      split
      · refine ⟨h.woken, ?_, h.idle⟩
        rintro t hEq
        cases hEq
        exact ⟨hMem, schedTaskSchedulable_eq_true hSchedulable⟩
      · exact { h with }
    · exact h

end

theorem schedQueueScan_sound (hLinks : Linked m.next q.head roster) (current : Option TcbT) (now : UInt64) :
    ScanSound m roster current (schedQueueScan m q current now) := by
  rw [schedQueueScan_eq_foldl hLinks]
  apply List.foldlRecOn (motive := ScanSound m roster current)
  · refine ⟨.refl m, ?_, ?_⟩
    · rintro t hEq
      cases hEq
    · rintro t hEq
      cases hEq
  · intro s hs candidate hMem
    exact (hs.wake now candidate).record hMem

theorem earliestEligible_candidate (hLinks : Linked m.next q.head roster) {avg : UInt64}
    (h : earliestEligible m q current avg = some t) : Candidate m roster current t := by
  rw [earliestEligible, forEach_fixed hLinks (length_le_traversalFuel hLinks)] at h
  revert t
  apply List.foldlRecOn (motive := fun best => ∀ t, best = some t → Candidate m roster current t)
  · rintro t hEq
    cases hEq
  · intro best hBest candidate hMem t ht
    split at ht
    · rename_i hEligible
      cases ht
      exact ⟨hMem, schedTaskSchedulable_eq_true hEligible.1⟩
    · exact hBest t ht

/-- What a selection returns: a candidate, the current task, or an idle member. -/
def Selectable (m : Memory) (roster : List TcbT) (current : Option TcbT) (t : TcbT) : Prop :=
  Candidate m roster current t ∨ current = some t ∨ IdleMember m roster current t

theorem Scan.result_selectable (h : ScanSound m₀ roster current s)
    (hLinks : Linked s.m.next q.head roster) (hResult : s.result q current = some t) :
    Selectable s.m roster current t := by
  rw [Scan.result, Option.or_eq_some_iff] at hResult
  obtain hBest | ⟨-, hRest⟩ := hResult
  · left
    simp only [Scan.best, Option.or_eq_some_iff] at hBest
    obtain hBest | ⟨-, hFallback⟩ := hBest
    · split at hBest
      · exact earliestEligible_candidate hLinks hBest
      · exact h.fallback t (Option.eq_some_of_filter_eq_some hBest)
    · exact h.fallback t hFallback
  · right
    split at hRest
    · exact .inl hRest
    · exact .inr (h.idle t hRest)

theorem Selectable.woken
    (h : Selectable m roster current t) (hWoken : Woken m m') : Selectable m' roster current t := by
  obtain hCandidate | hCurrent | hIdle := h
  · exact .inl (hCandidate.woken hWoken)
  · exact .inr (.inl hCurrent)
  · exact .inr (.inr (hIdle.woken hWoken))

theorem schedSelectNext_sound (hLinks : Linked m.next q.head roster) (current : Option TcbT) (now : UInt64) :
    Woken m (schedSelectNext m (some q) current now).2 ∧ ∀ t, (schedSelectNext m (some q) current now).1 = some t →
        Selectable (schedSelectNext m (some q) current now).2 roster current t := by
  have hCurrent := wakeCurrent_woken m current now
  have hLinks' : Linked (wakeCurrent m current now).next q.head roster := hCurrent.next_eq ▸ hLinks
  have hScan := schedQueueScan_sound hLinks' current now
  have hWoken := hCurrent.trans hScan.woken
  rw [← hScan.woken.next_eq] at hLinks'
  simp only [schedSelectNext]
  split
  · refine ⟨.refl m, ?_⟩
    intro t ht
    exact .inr (.inl (Option.eq_some_of_filter_eq_some ht))
  · rename_i q' hQueue
    cases Option.eq_some_of_filter_eq_some hQueue
    split
    · refine ⟨?_, fun t ht => .inr (.inl ht)⟩
      exact (hWoken.trans (.withSticky _ _)).trans (markDispatched_woken _ current now)
    · refine ⟨hWoken.trans (markDispatched_woken _ _ now), ?_⟩
      intro t ht
      exact (Scan.result_selectable hScan hLinks' ht).woken (markDispatched_woken _ _ now)

end OpenXJ380.ArmSched
