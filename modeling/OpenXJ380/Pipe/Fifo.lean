import OpenXJ380.Pipe.Waiting

/-! # The calls of `pipefs_write`

The steps of one call come in a fixed order, whatever stands between them, and the
variables of its loops say how much of its data is in the stream.
-/

namespace OpenXJ380.Pipe

open List (append_assoc append_nil flatMap_append flatMap_singleton)

section

open Transition

/-- What one `pipefs_write` may have appended of its data. -/
structure Written (data : List Byte) (chunks : List (List Byte)) : Prop where
  own : chunks.flatten <+: data
  whole : data.length ≤ pipeBuff → chunks = [] ∨ chunks = [data]

/-- The result is the number of bytes appended, or says that there is no reader. -/
def Honest (chunks : List (List Byte)) (result : Nat) : Prop :=
  result = chunks.flatten.length ∨ (result = minusEpipe ∧ chunks.flatten = [])

/-- How a `pipefs_write` stands. -/
inductive CallState where
  | absent
  | writing (t : TcbT) (w : WriteFrame)
  | returning (t : TcbT) (result : Nat)
  | ended

/-- The steps a `pipefs_write` has made, and how it stands after them. -/
inductive Episode (call : Nat) : List Label → CallState → Prop
  | absent : Episode call [] .absent
  | called (t : TcbT) (data : List Byte) :
      Episode call [.callWrite t call data] (.writing t { data := data, i := 0, cycle := 0, ret := 0 })
  | append {steps : List Label} {t : TcbT} {w : WriteFrame} {bytes : List Byte} (h : Episode call steps (.writing t w))
      (hRequest : w.request = some bytes) :
      Episode call (steps ++ [.append call bytes]) (.writing t (w.advance bytes.length))
  | refused {steps : List Label} {t : TcbT} {w : WriteFrame} (h : Episode call steps (.writing t w)) :
      Episode call (steps ++ [.refused call]) (.returning t w.broken)
  | write {steps : List Label} {t : TcbT} {w : WriteFrame} (h : Episode call steps (.writing t w)) :
      Episode call (steps ++ [.write call w.ret]) .ended
  | writeBroken {steps : List Label} {t : TcbT} {result : Nat} (h : Episode call steps (.returning t result)) :
      Episode call (steps ++ [.write call result]) .ended

structure Progress (chunks : List (List Byte)) (w : WriteFrame) : Prop where
  cycle : w.cycle = 0
  ret : w.ret = min (w.i * pipeBuff) w.data.length
  bytes : chunks.flatten = w.data.take w.ret
  whole : w.data.length ≤ pipeBuff → chunks = if w.i = 0 then [] else [w.data]

structure Settled (steps : List Label) (data : List Byte) : Prop where
  data_eq : ∀ t call data', .callWrite t call data' ∈ steps → data' = data
  written : Written data (steps.flatMap Label.chunk)
  honest : ∀ call result, .write call result ∈ steps → Honest (steps.flatMap Label.chunk) result

def CallState.Explains (steps : List Label) : CallState → Prop
  | .absent => steps = []
  | .writing _ w => Settled steps w.data ∧ Progress (steps.flatMap Label.chunk) w
  | .returning _ result => ∃ data, Settled steps data ∧ Honest (steps.flatMap Label.chunk) result
  | .ended => ∃ data, Settled steps data

section

variable {labels steps : List Label} {l : Label} {s s' : PipeState} {call : Nat} {t : TcbT} {w : WriteFrame}
  {chunks : List (List Byte)} {data bytes : List Byte}

section

variable (h : Progress chunks w)

include h

theorem Progress.written : Written w.data chunks := by
  constructor
  · rw [h.bytes]
    exact List.take_prefix _ _
  · intro hShort
    rw [h.whole hShort]
    split
    · exact .inl rfl
    · exact .inr rfl

theorem Progress.length : w.ret = chunks.flatten.length := by
  have hRet := h.ret
  rw [h.bytes, List.length_take]
  omega

theorem Progress.broken : Honest chunks w.broken := by
  rw [WriteFrame.broken]
  split
  · exact .inl h.length
  · next hZero =>
    refine .inr ⟨rfl, ?_⟩
    rw [← List.length_eq_zero_iff, ← h.length]
    omega

theorem Progress.advance (hRequest : w.request = some bytes) :
    (w.advance bytes.length).data = w.data ∧ Progress (chunks ++ [bytes]) (w.advance bytes.length) := by
  obtain ⟨hBytes, hLength, hTarget⟩ := WriteFrame.request_spec h.cycle hRequest
  have hRet := h.ret
  have hMore : w.i * pipeBuff ≤ w.data.length := by
    rw [WriteFrame.request] at hRequest
    split at hRequest
    · next hIndex =>
      simp only [WriteFrame.chunks, WriteFrame.remainder, pipeBuff] at hIndex ⊢
      omega
    · cases hRequest
  rw [min_eq_left hMore] at hRet
  rw [WriteFrame.advance_eq h.cycle hLength]
  refine ⟨rfl, rfl, ?_, ?_, ?_⟩
  · rw [hLength, hRet]
    exact hTarget
  · simp only [List.flatten_append, List.flatten_singleton, h.bytes, hRet, hLength, List.take_add, ← hBytes]
  · intro hShort
    obtain ⟨hFirst, hWhole⟩ := WriteFrame.request_whole h.cycle hRequest hShort
    rw [h.whole hShort, if_pos hFirst, if_neg (Nat.succ_ne_zero _), hWhole]
    rfl

end

theorem Settled.snoc (h : Settled steps data) (hCall : ∀ t call data, l ≠ .callWrite t call data)
    (hWritten : Written data (steps.flatMap Label.chunk ++ l.chunk))
    (hHonest : ∀ call result, .write call result ∈ steps ++ [l] → Honest (steps.flatMap Label.chunk ++ l.chunk) result) :
    Settled (steps ++ [l]) data := by
  refine ⟨?_, ?_, ?_⟩
  · intro t call data' hMem
    obtain hOld | hNew := List.mem_append.mp hMem
    · exact h.data_eq t call data' hOld
    · exact absurd (List.mem_singleton.mp hNew).symm (hCall t call data')
  · rwa [flatMap_append, flatMap_singleton]
  · rwa [flatMap_append, flatMap_singleton]

theorem Episode.open {state : CallState} (h : Episode call steps state) (hOpen : state ≠ .ended) :
    ∀ call' result, .write call' result ∉ steps := by
  induction h with
  | absent => exact nofun
  | called t data => exact fun _ _ hNever => by cases List.mem_singleton.mp hNever
  | append h hRequest ih =>
    intro call' result hMem
    obtain hOld | hNew := List.mem_append.mp hMem
    · exact ih (by rintro ⟨⟩) call' result hOld
    · cases List.mem_singleton.mp hNew
  | refused h ih =>
    intro call' result hMem
    obtain hOld | hNew := List.mem_append.mp hMem
    · exact ih (by rintro ⟨⟩) call' result hOld
    · cases List.mem_singleton.mp hNew
  | write h ih => exact absurd rfl hOpen
  | writeBroken h ih => exact absurd rfl hOpen

theorem Settled.quiet (h : Settled steps data) (hCall : ∀ t call data, l ≠ .callWrite t call data)
    (hChunk : l.chunk = [])
    (hWrite : ∀ call result, l = .write call result → Honest (steps.flatMap Label.chunk) result) :
    Settled (steps ++ [l]) data := by
  apply h.snoc hCall
  · rw [hChunk, append_nil]
    exact h.written
  · intro call result hMem
    rw [hChunk, append_nil]
    obtain hOld | hNew := List.mem_append.mp hMem
    · exact h.honest call result hOld
    · exact hWrite call result (List.mem_singleton.mp hNew).symm

theorem Episode.explains {state : CallState} (h : Episode call steps state) : state.Explains steps := by
  induction h with
  | absent => rfl
  | called t data =>
    refine ⟨⟨?_, ⟨List.nil_prefix, fun _ => .inl rfl⟩, ?_⟩, rfl, ?_, rfl, fun _ => rfl⟩
    · intro t' call' data' hMem
      exact (Label.callWrite.inj (List.mem_singleton.mp hMem)).2.2
    · intro call' result hNever
      cases List.mem_singleton.mp hNever
    · simp only [Nat.zero_mul, Nat.zero_min]
  | @append steps t w bytes h hRequest ih =>
    obtain ⟨hSettled, hProgress⟩ := ih
    obtain ⟨hData, hAfter⟩ := hProgress.advance hRequest
    have hChunks : (steps ++ [Label.append call bytes]).flatMap Label.chunk = steps.flatMap Label.chunk ++ [bytes] := by
      rw [flatMap_append, flatMap_singleton]
      rfl
    have hWritten := hAfter.written
    rw [hData] at hWritten
    rw [CallState.Explains, hData, hChunks]
    refine ⟨hSettled.snoc (by rintro _ _ _ ⟨⟩) hWritten ?_, hAfter⟩
    intro call' result hMem
    obtain hOld | hNew := List.mem_append.mp hMem
    · exact absurd hOld (h.open (by rintro ⟨⟩) call' result)
    · cases List.mem_singleton.mp hNew
  | @refused steps t w h ih =>
    obtain ⟨hSettled, hProgress⟩ := ih
    refine ⟨w.data, hSettled.quiet (by rintro _ _ _ ⟨⟩) rfl (by rintro _ _ ⟨⟩), ?_⟩
    rw [flatMap_append, flatMap_singleton]
    exact (append_nil _).symm ▸ hProgress.broken
  | @write steps t w h ih =>
    obtain ⟨hSettled, hProgress⟩ := ih
    refine ⟨w.data, hSettled.quiet (by rintro _ _ _ ⟨⟩) rfl ?_⟩
    rintro _ _ ⟨⟩
    exact .inl hProgress.length
  | @writeBroken steps t result h ih =>
    obtain ⟨data, hSettled, hHonest⟩ := ih
    refine ⟨data, hSettled.quiet (by rintro _ _ _ ⟨⟩) rfl ?_⟩
    rintro _ _ ⟨⟩
    exact hHonest

theorem Episode.settled {state : CallState} (h : Episode call steps state) : steps =
    [] ∨ ∃ data, Settled steps data := by
  have hExplains := h.explains
  cases state with
  | absent => exact .inl hExplains
  | writing t w => exact .inr ⟨w.data, hExplains.1⟩
  | returning t result => exact .inr ⟨hExplains.choose, hExplains.choose_spec.1⟩
  | ended => exact .inr hExplains

end

def Pc.About (call : Nat) : Pc → Prop
  | .writing call' _ => call' = call
  | .returning call' _ => call' = call
  | _ => False

structure Follows (s : PipeState) (call : Nat) (state : CallState) : Prop where
  writing : ∀ t w, s.tasks t = .writing call w → state = .writing t w
  returning : ∀ t result, s.tasks t = .returning call result → state = .returning t result
  absent : s.calls ≤ call → state = .absent

def Calls (labels : List Label) (s : PipeState) : Prop :=
  ∀ call, ∃ state, Episode call (ofCall call labels) state ∧ Follows s call state

variable {labels : List Label} {l : Label} {s s' : PipeState} {call : Nat} {t u : TcbT} {state state' : CallState} {pc : Pc}

theorem ofCall_other (hNot : l.call ≠ some call) : ofCall call (labels ++ [l]) = ofCall call labels := by
  rw [ofCall, List.filter_append, List.filter_singleton, decide_eq_false hNot]
  exact append_nil _

theorem ofCall_own (hCall : l.call = some call) : ofCall call (labels ++ [l]) = ofCall call labels ++ [l] := by
  rw [ofCall, List.filter_append, List.filter_singleton, decide_eq_true hCall]
  rfl

theorem Follows.about (h : Follows s call state) (hAbout : (s.tasks u).About call) :
    (∃ w, state = .writing u w) ∨ ∃ result, state = .returning u result := by
  cases hTask : s.tasks u with
  | writing call' w =>
    rw [hTask] at hAbout
    obtain rfl : call' = call := hAbout
    exact .inl ⟨w, h.writing u w hTask⟩
  | returning call' result =>
    rw [hTask] at hAbout
    obtain rfl : call' = call := hAbout
    exact .inr ⟨result, h.returning u result hTask⟩
  | idle | reading _ | closing _ _ =>
    rw [hTask] at hAbout
    exact hAbout.elim

theorem Follows.writer {w : WriteFrame} (h : Follows s call (.writing t w)) (u : TcbT)
    (hAbout : (s.tasks u).About call) : u = t := by
  obtain ⟨w', hSame⟩ | ⟨r, hNever⟩ := h.about hAbout
  · cases hSame
    rfl
  · cases hNever

theorem Follows.returner {result : Nat} (h : Follows s call (.returning t result)) (u : TcbT)
    (hAbout : (s.tasks u).About call) : u = t := by
  obtain ⟨w, hNever⟩ | ⟨r, hSame⟩ := h.about hAbout
  · cases hNever
  · cases hSame
    rfl

theorem Follows.frame (h : Follows s call state) (hTasks : s'.tasks = (s.enter t pc).tasks)
    (hCalls : s.calls ≤ s'.calls) (hNot : ¬ pc.About call) : Follows s' call state := by
  have hOther : ∀ u, (s'.tasks u).About call → s.tasks u = s'.tasks u := by
    intro u hAbout
    rw [hTasks] at hAbout ⊢
    by_cases hSame : u = t
    · subst hSame
      rw [PipeState.enter_self] at hAbout
      exact absurd hAbout hNot
    · exact (PipeState.enter_ne s pc hSame).symm
  refine ⟨?_, ?_, ?_⟩
  · intro u w hTask
    exact h.writing u w ((hOther u (by rw [hTask]; exact rfl)).trans hTask)
  · intro u result hTask
    exact h.returning u result ((hOther u (by rw [hTask]; exact rfl)).trans hTask)
  · intro hLe
    exact h.absent (hCalls.trans hLe)

theorem Follows.move (hOwner : ∀ u, (s.tasks u).About call → u = t) (hTasks : s'.tasks = (s.enter t pc).tasks)
    (hWriting : ∀ w, pc = .writing call w → state' = .writing t w)
    (hReturning : ∀ result, pc = .returning call result → state' = .returning t result) (hCalls : call < s'.calls) :
    Follows s' call state' := by
  refine ⟨?_, ?_, (absurd · (Nat.not_le_of_lt hCalls))⟩
  · intro u w hTask
    rw [hTasks] at hTask
    by_cases hSame : u = t
    · subst hSame
      rw [PipeState.enter_self] at hTask
      exact hWriting w hTask
    · rw [PipeState.enter_ne s pc hSame] at hTask
      refine absurd (hOwner u ?_) hSame
      rw [hTask]
      exact rfl
  · intro u result hTask
    rw [hTasks] at hTask
    by_cases hSame : u = t
    · subst hSame
      rw [PipeState.enter_self] at hTask
      exact hReturning result hTask
    · rw [PipeState.enter_ne s pc hSame] at hTask
      refine absurd (hOwner u ?_) hSame
      rw [hTask]
      exact rfl

theorem Follows.below (h : Follows s call state) (hState : state ≠ .absent) : call < s.calls :=
  not_le.mp fun hLe => hState (h.absent hLe)

theorem Calls.quiet (h : Calls labels s) (hNone : l.call = none) (hTasks : s'.tasks = (s.enter t pc).tasks)
    (hCalls : s'.calls = s.calls) (hNot : ∀ call, ¬ pc.About call) : Calls (labels ++ [l]) s' := by
  intro call
  obtain ⟨state, hEpisode, hFollows⟩ := h call
  refine ⟨state, ?_, hFollows.frame hTasks hCalls.symm.le (hNot call)⟩
  rw [ofCall_other (by rw [hNone]; rintro ⟨⟩)]
  exact hEpisode

theorem Calls.still (h : Calls labels s) (hNone : l.call = none) (hTasks : s'.tasks = s.tasks)
    (hCalls : s'.calls = s.calls) : Calls (labels ++ [l]) s' := by
  intro call
  obtain ⟨state, hEpisode, hFollows⟩ := h call
  refine ⟨state, ?_, ?_⟩
  · rw [ofCall_other (by rw [hNone]; rintro ⟨⟩)]
    exact hEpisode
  · constructor
    · rw [hTasks]
      exact hFollows.writing
    · rw [hTasks]
      exact hFollows.returning
    · rw [hCalls]
      exact hFollows.absent

theorem Calls.move (t : TcbT) (pc : Pc) {c : Nat} (h : Calls labels s) (hCall : l.call = some c)
    (hTasks : s'.tasks = (s.enter t pc).tasks) (hCalls : s.calls ≤ s'.calls) (hPc : ∀ call, pc.About call → call = c)
    (hOwn : ∀ state, Episode c (ofCall c labels) state → Follows s c state →
      ∃ state', Episode c (ofCall c labels ++ [l]) state' ∧ Follows s' c state') : Calls (labels ++ [l]) s' := by
  intro call
  obtain ⟨state, hEpisode, hFollows⟩ := h call
  by_cases hSame : call = c
  · subst hSame
    rw [ofCall_own hCall]
    exact hOwn state hEpisode hFollows
  · refine ⟨state, ?_, hFollows.frame hTasks hCalls fun hAbout => hSame (hPc call hAbout)⟩
    rw [ofCall_other (by rw [hCall]; exact fun hEq => hSame (Option.some.inj hEq).symm)]
    exact hEpisode

theorem Calls.step (hBounded : ∀ pipe, s.pipe = some pipe → pipe.ptr ≤ pipeBuff) (h : Calls labels s)
    (hStep : Step s l s') : Calls (labels ++ [l]) s' := by
  cases hStep with
  | callRead size hIdle hSpec => exact h.quiet rfl rfl rfl fun _ => id
  | read current node hReading hPipe hSection => exact h.quiet rfl rfl rfl fun _ => id
  | readWaits current node hReading hPipe hSection => exact h.still rfl rfl rfl
  | @callWrite t e data hIdle hSpec =>
    refine h.move t (.writing s.calls { data := data, i := 0, cycle := 0, ret := 0 }) rfl rfl (Nat.le_succ _)
      (fun call hAbout => Eq.symm hAbout) ?_
    intro state hEpisode hFollows
    obtain rfl := hFollows.absent le_rfl
    have hNothing : ofCall s.calls labels = [] := hEpisode.explains
    rw [hNothing]
    refine ⟨_, .called t data, Follows.move ?_ rfl ?_ ?_ (Nat.lt_succ_self _)⟩
    · intro u hAbout
      obtain ⟨w, hNever⟩ | ⟨r, hNever⟩ := hFollows.about hAbout <;> cases hNever
    · rintro w ⟨⟩
      rfl
    · rintro r ⟨⟩
  | @append t call wrote w bytes pipe pipe' current node hWriting hRequest hPipe hSection hWrote =>
    obtain ⟨hNever, -⟩ | ⟨rfl, -⟩ := writeSection_returned (hBounded _ hPipe) hSection
    · exact absurd hNever hWrote
    refine h.move t (.writing call (w.advance bytes.length)) rfl rfl le_rfl (fun call hAbout => Eq.symm hAbout) ?_
    intro state hEpisode hFollows
    obtain rfl := hFollows.writing t w hWriting
    refine ⟨_, hEpisode.append hRequest, Follows.move hFollows.writer rfl ?_ ?_ (hFollows.below (by rintro ⟨⟩))⟩
    · rintro w' ⟨⟩
      rfl
    · rintro r ⟨⟩
  | @refused t call w bytes pipe pipe' current node hWriting hRequest hPipe hSection =>
    refine h.move t (.returning call w.broken) rfl rfl le_rfl (fun call hAbout => Eq.symm hAbout) ?_
    intro state hEpisode hFollows
    obtain rfl := hFollows.writing t w hWriting
    refine ⟨_, hEpisode.refused, Follows.move hFollows.writer rfl ?_ ?_ (hFollows.below (by rintro ⟨⟩))⟩
    · rintro w' ⟨⟩
    · rintro r ⟨⟩
      rfl
  | writeWaits current node hWriting hRequest hPipe hSection => exact h.still rfl rfl rfl
  | @write t call w hWriting hRequest =>
    refine h.move t .idle rfl rfl le_rfl (fun call => False.elim) ?_
    intro state hEpisode hFollows
    obtain rfl := hFollows.writing t w hWriting
    refine ⟨_, hEpisode.write, Follows.move hFollows.writer rfl ?_ ?_ (hFollows.below (by rintro ⟨⟩))⟩
    · rintro w' ⟨⟩
    · rintro r ⟨⟩
  | @writeBroken t call result hReturning =>
    refine h.move t .idle rfl rfl le_rfl (fun call => False.elim) ?_
    intro state hEpisode hFollows
    obtain rfl := hFollows.returning t result hReturning
    refine ⟨_, hEpisode.writeBroken, Follows.move hFollows.returner rfl ?_ ?_ (hFollows.below (by rintro ⟨⟩))⟩
    · rintro w' ⟨⟩
    · rintro r ⟨⟩
  | close hIdle hSpec hPipe => exact h.quiet rfl rfl rfl fun _ => id
  | closed hClosing => exact h.quiet rfl rfl rfl fun _ => id
  | dup hSpec hPipe => exact h.still rfl rfl rfl

theorem Calls.settled (h : Calls labels s) (hMem : l ∈ labels) (hCall : l.call = some call) :
    ∃ data, Settled (ofCall call labels) data ∧ l ∈ ofCall call labels := by
  obtain ⟨state, hEpisode, -⟩ := h call
  have hOwn : l ∈ ofCall call labels := List.mem_filter.mpr ⟨hMem, decide_eq_true hCall⟩
  obtain hNothing | ⟨data, hSettled⟩ := hEpisode.settled
  · rw [hNothing] at hOwn
    cases hOwn
  · exact ⟨data, hSettled, hOwn⟩

end

/-! # A pipe is a FIFO byte stream

What was appended is what was returned with the queue behind it.
-/

open Transition

structure FifoStream (labels : List Label) (s : PipeState) : Prop where
  bounded : ∀ pipe, s.pipe = some pipe → pipe.ptr ≤ pipeBuff
  fifo : returnedBytes labels <+: appendedBytes labels
  written : ∀ t call data, .callWrite t call data ∈ labels → Written data (chunksOf call labels)
  contiguous : ∀ call data, data ∈ chunksOf call labels → ∃ before after, appendedBytes labels = before ++ data ++ after
  honest : ∀ call result, .write call result ∈ labels → Honest (chunksOf call labels) result
  endOfFile : ∀ t size s', 0 < size → Step s (.read t size []) s' →
    ∃ pipe, s.pipe = some pipe ∧ pipe.ptr = 0 ∧ pipe.writeFds = 0

structure Queue (labels : List Label) (s : PipeState) : Prop where
  bounded : ∀ pipe, s.pipe = some pipe → pipe.ptr ≤ pipeBuff
  exact : ∀ pipe, s.pipe = some pipe → appendedBytes labels = returnedBytes labels ++ pipe.bytes
  fifo : returnedBytes labels <+: appendedBytes labels

section

variable {labels : List Label} {l : Label} {s s' : PipeState}

theorem appendedBytes_snoc : appendedBytes (labels ++ [l]) = appendedBytes labels ++ l.appended := by
  rw [appendedBytes, flatMap_append, flatMap_singleton]
  rfl

theorem returnedBytes_snoc : returnedBytes (labels ++ [l]) = returnedBytes labels ++ l.returned := by
  rw [returnedBytes, flatMap_append, flatMap_singleton]
  rfl

theorem Queue.section {pipe pipe' : PipeInfo} (h : Queue labels s) (hPipe : s.pipe = some pipe)
    (hAfter : s'.pipe = some pipe') (hBound : pipe'.ptr ≤ pipeBuff)
    (hBytes : pipe.bytes ++ l.appended = l.returned ++ pipe'.bytes) : Queue (labels ++ [l]) s' := by
  have hExact : appendedBytes (labels ++ [l]) = returnedBytes (labels ++ [l]) ++ pipe'.bytes := by
    rw [appendedBytes_snoc, returnedBytes_snoc, h.exact pipe hPipe, append_assoc, hBytes, append_assoc]
  refine ⟨?_, ?_, ⟨_, hExact.symm⟩⟩
  · rintro q hq
    rw [hAfter] at hq
    cases hq
    exact hBound
  · rintro q hq
    rw [hAfter] at hq
    cases hq
    exact hExact

theorem Queue.quiet (h : Queue labels s) (hAppended : l.appended = []) (hReturned : l.returned = [])
    (hPipe : ∀ pipe', s'.pipe = some pipe' → ∃ pipe, s.pipe = some pipe ∧ SameBytes pipe pipe') :
    Queue (labels ++ [l]) s' := by
  refine ⟨?_, ?_, ?_⟩
  · intro pipe' hSome
    obtain ⟨pipe, hBefore, hSame⟩ := hPipe pipe' hSome
    rw [hSame.ptr]
    exact h.bounded pipe hBefore
  · intro pipe' hSome
    obtain ⟨pipe, hBefore, hSame⟩ := hPipe pipe' hSome
    rw [appendedBytes_snoc, returnedBytes_snoc, hAppended, hReturned, append_nil, append_nil, hSame.bytes_eq]
    exact h.exact pipe hBefore
  · rw [appendedBytes_snoc, returnedBytes_snoc, hAppended, hReturned, append_nil, append_nil]
    exact h.fifo

theorem Queue.step (h : Queue labels s) (hStep : Step s l s') : Queue (labels ++ [l]) s' := by
  have hKept : ∀ {pipe pipe' : PipeInfo}, s.pipe = some pipe → SameBytes pipe pipe' →
      ∀ q, some pipe' = some q → ∃ p, s.pipe = some p ∧ SameBytes p q := by
    rintro pipe pipe' hPipe hSame q ⟨⟩
    exact ⟨pipe, hPipe, hSame⟩
  have hStays : ∀ q, s.pipe = some q → ∃ p, s.pipe = some p ∧ SameBytes p q := fun q hq => ⟨q, hq, rfl, rfl⟩
  cases hStep with
  | callRead size hIdle hSpec => exact h.quiet rfl rfl hStays
  | read current node hReading hPipe hSection =>
    obtain ⟨hQueue, hLe⟩ := readSection_returned hSection
    apply h.section hPipe rfl ((hLe.trans (h.bounded _ hPipe)))
    exact (append_nil _).trans hQueue
  | readWaits current node hReading hPipe hSection =>
    exact h.quiet rfl rfl (hKept hPipe (readSection_waits hSection))
  | callWrite data hIdle hSpec => exact h.quiet rfl rfl hStays
  | append current node hWriting hRequest hPipe hSection hWrote =>
    obtain ⟨hNever, -⟩ | ⟨-, -, hQueue, hBound⟩ := writeSection_returned (h.bounded _ hPipe) hSection
    · exact absurd hNever hWrote
    · exact h.section hPipe rfl hBound hQueue.symm
  | refused current node hWriting hRequest hPipe hSection =>
    obtain ⟨-, rfl⟩ | ⟨-, hNever, -⟩ := writeSection_returned (h.bounded _ hPipe) hSection
    · exact h.quiet rfl rfl (hKept hPipe ⟨rfl, rfl⟩)
    · exact absurd rfl hNever
  | writeWaits current node hWriting hRequest hPipe hSection =>
    exact h.quiet rfl rfl (hKept hPipe (writeSection_waits hSection))
  | write hWriting hRequest => exact h.quiet rfl rfl hStays
  | writeBroken hReturning => exact h.quiet rfl rfl hStays
  | close hIdle hSpec hPipe => exact h.quiet rfl rfl (hKept hPipe (closeSection_same _ _))
  | closed hClosing =>
    apply h.quiet rfl rfl
    intro q hq
    change (if _ then none else s.pipe) = some q at hq
    split at hq
    · cases hq
    · exact hStays q hq
  | dup hSpec hPipe => exact h.quiet rfl rfl (hKept hPipe (dupSection_same _ _))

end

variable {labels : List Label} {s s' : PipeState} {call : Nat}

end OpenXJ380.Pipe
