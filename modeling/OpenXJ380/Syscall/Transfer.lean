import OpenXJ380.Signal.Model
import OpenXJ380.Vfs.Model

/-! # Reading and writing files (`kernel/syscall/sys.cpp`)

A request goes through a buffer of the kernel, one chunk after the other. Files are callbacks that say how much they
have transferred, or an error number in the same type.
-/

namespace OpenXJ380.Transfer

open BitVec (ofNat ofNat_toNat setWidth_eq toNat_ofNat)

open Signal Vfs WordMemory

abbrev Byte := BitVec 8

variable {φ : Type}

def minusEio : Word := -5#64
def minusEbadf : Word := -9#64
def minusEnomem : Word := -12#64
def minusEpipe : Word := -32#64

/-- How many bytes were transferred, of so many that were asked for, or an error number. -/
inductive Reply (chunk : Nat) where
  | count (n : Nat) (hn : n ≤ chunk)
  | code (e : Nat) (he : 0 < e ∧ e < 4096)

/-- The `size_t` that is returned. -/
def Reply.word {chunk : Nat} : Reply chunk → Word
  | .count n _ => ofNat 64 n
  | .code e _ => -ofNat 64 e

def Reply.transferred {chunk : Nat} : Reply chunk → Nat
  | .count n _ => n
  | .code _ _ => 0

/-- `VFS_STATUS_FAILED`. -/
def statusFailed (chunk : Nat) : Reply chunk := .code 1 (by decide)

def minusOne : Word := (statusFailed 0).word

structure File (φ : Type) where
  type : φ → BitVec 16
  size : φ → Word
  update : φ → φ
  read : φ → Word → (chunk : Nat) → φ × (Nat → Byte) × Reply chunk
  write : φ → Word → (data : List Byte) → φ × Reply data.length

structure Kernel (φ : Type) where
  pages : φ → Nat → Nat → Bool
  malloc : φ → Nat → Bool

/-- The file systems, the memory of the user, the offset of the handle, the bytes that have been transferred so far, and
what has been added to the count of them. -/
structure Io (φ : Type) where
  store : φ
  memory : Memory
  offset : Word
  moved : List Byte
  counted : List Word

/-- The check of `copy_from_user_pagedir` and `copy_to_user_pagedir`. -/
def Kernel.mapped (k : Kernel φ) (s : Io φ) (start : Word) (size : Nat) : Bool :=
  size = 0 || userRangeMapped (k.pages s.store) start size

def vfsRead (f : File φ) (store : φ) (offset : Word) (chunk : Nat) : φ × (Nat → Byte) × Reply chunk :=
  let store := f.update store
  if f.type store = fileDir then (store, fun _ => 0, statusFailed chunk) else f.read store offset chunk

def vfsWrite (f : File φ) (store : φ) (offset : Word) (data : List Byte) : φ × Reply data.length :=
  let store := f.update store
  if f.type store = fileDir then (store, statusFailed data.length)
  else
    let r := f.write store offset data
    (f.update r.1, r.2)

def userIoBounceBytes : Nat := 0x10000

/-- What has become of one chunk: nothing was transferred, or less than all of it, or all of it. -/
inductive Round (φ : Type) where
  | failed (s : Io φ) (code : Word)
  | short (s : Io φ) (n : Nat)
  | full (s : Io φ) (n : Nat)

def bounceLoop (round : Nat → Io φ → Round φ) (finish : Nat → Io φ → Io φ × Word) (size : Nat) :
    Nat → Nat → Io φ → Option (Io φ × Word)
  | 0, _, _ => none
  | rounds + 1, total, s =>
    if total < size then
      match round total s with
      | .failed s code => some (s, if 0 < total then ofNat 64 total else code)
      | .short s n => some (finish ((total + n) % 2 ^ 64) s)
      | .full s n => bounceLoop round finish size rounds ((total + n) % 2 ^ 64) s
    else some (finish total s)

/-- One round of `read_to_user_buffer`. -/
def readRound (k : Kernel φ) (f : File φ) (buffer : Word) (size : Nat) (offset : Word) (bounceBytes total : Nat)
    (s : Io φ) : Round φ :=
  let chunk := min (size - total) bounceBytes
  let r := vfsRead f s.store (offset + ofNat 64 total) chunk
  let got := r.2.2.word
  let s := { s with store := r.1 }
  let target := buffer + ofNat 64 total
  if got = minusOne then .failed s minusEio
  else if got = 0 then .short s 0
  else if k.mapped s target got.toNat = false then .failed s minusEfault
  else
    let data := (List.range got.toNat).map r.2.1
    let s :=
      { s with
        memory := storeBytes s.memory target.toNat data
        moved := s.moved ++ data
        counted := s.counted ++ [got] }
    if got.toNat < chunk then .short s got.toNat else .full s got.toNat

def readFinish (f : File φ) (updateOffset : Bool) (total : Nat) (s : Io φ) : Io φ × Word :=
  let total := ofNat 64 total
  (if updateOffset ∧ f.size s.store ≠ minusOne then { s with offset := s.offset + total } else s, total)

def readToUserBuffer (k : Kernel φ) (f : File φ) (buffer size : Word) (offset : Word) (updateOffset : Bool)
    (rounds : Nat) (s : Io φ) : Option (Io φ × Word) :=
  if buffer = 0 then some (s, minusEinval)
  else if size = 0 then some (s, 0)
  else
    let bounceBytes := min size.toNat userIoBounceBytes
    if k.malloc s.store bounceBytes = false then some (s, minusEnomem)
    else
      bounceLoop (readRound k f buffer size.toNat offset bounceBytes) (readFinish f updateOffset) size.toNat rounds 0 s

/-- One round of `write_from_user_buffer`, without the signal that a broken pipe raises. -/
def writeRound (k : Kernel φ) (f : File φ) (buffer : Word) (size : Nat) (bounceBytes total : Nat) (s : Io φ) :
    Round φ :=
  let chunk := min (size - total) bounceBytes
  let source := buffer + ofNat 64 total
  if k.mapped s source chunk = false then .failed s minusEfault
  else
    let data := loadBytes s.memory source.toNat chunk
    let r := vfsWrite f s.store (if f.type s.store &&& filePipe ≠ 0 then 0 else s.offset) data
    let wrote := r.2.word
    let s := { s with store := r.1 }
    let pipe := f.type s.store &&& filePipe ≠ 0
    if pipe ∧ wrote = minusEpipe then .failed s minusEpipe
    else if wrote = minusOne then .failed s minusEio
    else
      let s :=
        { s with
          offset := if ¬pipe ∧ f.size s.store ≠ minusOne then s.offset + wrote else s.offset
          moved := s.moved ++ data.take r.2.transferred
          counted := s.counted ++ [wrote] }
      if wrote.toNat < chunk then .short s wrote.toNat else .full s wrote.toNat

def writeFinish (f : File φ) (total : Nat) (s : Io φ) : Io φ × Word :=
  ({ s with store := f.update s.store }, ofNat 64 total)

def writeFromUserBuffer (k : Kernel φ) (f : File φ) (buffer size : Word) (rounds : Nat) (s : Io φ) :
    Option (Io φ × Word) :=
  if buffer = 0 then some (s, minusEinval)
  else if size = 0 then some (s, 0)
  else
    let bounceBytes := min size.toNat userIoBounceBytes
    if k.malloc s.store bounceBytes = false then some (s, minusEnomem)
    else bounceLoop (writeRound k f buffer size.toNat bounceBytes) (writeFinish f) size.toNat rounds 0 s

/-- `SYSCALL_FAULT_((int)-ret)` of what is negative. -/
def sysResult (ret : Word) : Word := if ret.toInt < 0 then (-(-ret).setWidth 32).signExtend 64 else ret

/-- `sys_read`; what sockets and pipes do is given, and `handle` is what the table of the process has. -/
def sysRead (k : Kernel φ) (handle : Option (File φ)) (special : Io φ → Option (Io φ × Word)) (fd : Int)
    (buffer size : Word) (rounds : Nat) (s : Io φ) : Option (Io φ × Word) :=
  if fd < 0 ∨ buffer = 0 then some (s, minusEinval)
  else if size = 0 then some (s, 0)
  else
    match handle with
    | none => some (s, minusEbadf)
    | some f =>
      if f.type s.store &&& fileSocket ≠ 0 ∨ f.type s.store &&& filePipe ≠ 0 then special s
      else if f.size s.store ≠ minusOne ∧ (f.size s.store).toNat ≤ s.offset.toNat then some (s, 0)
      else (readToUserBuffer k f buffer size s.offset true rounds s).map fun r => (r.1, sysResult r.2)

/-- `sys_write`; what sockets do is given. -/
def sysWrite (k : Kernel φ) (handle : Option (File φ)) (special : Io φ → Option (Io φ × Word)) (fd : Int)
    (buffer size : Word) (rounds : Nat) (s : Io φ) : Option (Io φ × Word) :=
  if fd < 0 ∨ buffer = 0 then some (s, minusEinval)
  else if size = 0 then some (s, 0)
  else
    match handle with
    | none => some (s, minusEbadf)
    | some f =>
      if f.type s.store &&& fileSocket ≠ 0 then special s
      else (writeFromUserBuffer k f buffer size rounds s).map fun r => (r.1, sysResult r.2)

def IsError (w : Word) : Prop := 2 ^ 64 - 4096 < w.toNat

instance (w : Word) : Decidable (IsError w) := inferInstanceAs (Decidable (_ < _))

/-- What is told is an error, and nothing has happened, or the number of bytes, by which the offset has advanced; and no
error number has been taken for a count. -/
structure Agrees (s s' : Io φ) (ret : Word) : Prop where
  told : IsError ret ∧ s'.moved = [] ∧ s'.offset = s.offset ∨
    ret.toNat = s'.moved.length ∧ s'.offset = s.offset + ret
  counts : ∀ w ∈ s'.counted, ¬IsError w

structure ReadAgrees (buffer : Word) (s s' : Io φ) (ret : Word) : Prop extends Agrees s s' ret where
  memory : s'.memory = storeBytes s.memory buffer.toNat s'.moved

structure WriteAgrees (buffer : Word) (s s' : Io φ) (ret : Word) : Prop extends Agrees s s' ret where
  moved : s'.moved = loadBytes s.memory buffer.toNat s'.moved.length
  memory : s'.memory = s.memory

def Io.fresh (s : Io φ) : Io φ := { s with moved := [], counted := [] }

/-- For every number of rounds that is large enough there is a result, and it is a good one. -/
def Ends {α : Type} (run : Nat → Option α) (Good : α → Prop) : Prop :=
  ∃ enough, ∀ rounds, enough ≤ rounds → ∃ r, run rounds = some r ∧ Good r

structure Seekable (f : File φ) : Prop where
  socket : ∀ store, f.type store &&& fileSocket = 0
  pipe : ∀ store, f.type store &&& filePipe = 0
  size : ∀ store, f.size store ≠ minusOne

section

variable {round : Nat → Io φ → Round φ} {finish : Nat → Io φ → Io φ × Word} {size : Nat} {Failing : Nat → Prop}

/-- The loop ends with less than 2 ^ 63 bytes, takes no error number for a count, and nothing fails but where
`Failing` says. -/
inductive Clean (round : Nat → Io φ → Round φ) (size : Nat) (Failing : Nat → Prop) : Nat → Io φ → Prop
  | finished {total : Nat} {s : Io φ} (hTotal : size ≤ total) (hFits : total < 2 ^ 63) :
    Clean round size Failing total s
  | failed {total : Nat} {s s' : Io φ} {code : Word} (hTotal : total < size) (hRound : round total s = .failed s' code)
      (hFailing : Failing total) : Clean round size Failing total s
  | short {total n : Nat} {s s' : Io φ} (hTotal : total < size) (hRound : round total s = .short s' n)
      (hFits : total + n < 2 ^ 63) : Clean round size Failing total s
  | full {total n : Nat} {s s' : Io φ} (hTotal : total < size) (hRound : round total s = .full s' n)
      (hCount : ¬IsError (ofNat 64 n)) (hRest : Clean round size Failing (total + n) s') :
      Clean round size Failing total s

/-- What each way through a round makes of an invariant of the loop, and when what comes out at the end is good. -/
structure LoopSpec (round : Nat → Io φ → Round φ) (finish : Nat → Io φ → Io φ × Word) (size : Nat)
    (Failing : Nat → Prop)
    (Inv : Nat → Io φ → Prop) (Tainted : Io φ → Prop) (Good : Io φ × Word → Prop) : Prop where
  finished : ∀ total s, Inv total s → size ≤ total → (Good (finish total s) ↔ total < 2 ^ 63)
  failed : ∀ total s s' code, Inv total s → total < size → round total s = .failed s' code →
    (Good (s', if 0 < total then ofNat 64 total else code) ↔ Failing total)
  short : ∀ total s s' n, Inv total s → total < size → round total s = .short s' n →
    total + n < 2 ^ 64 ∧ (Good (finish (total + n) s') ↔ total + n < 2 ^ 63)
  full : ∀ total s s' n, Inv total s → total < size → round total s = .full s' n →
    (IsError (ofNat 64 n) → Tainted s') ∧
      (¬IsError (ofNat 64 n) → 0 < n ∧ total + n < 2 ^ 64 ∧ Inv (total + n) s')
  tainted : ∀ rounds total s r, Tainted s → bounceLoop round finish size rounds total s = some r → ¬Good r

variable {Inv : Nat → Io φ → Prop} {Tainted : Io φ → Prop} {Good : Io φ × Word → Prop}

variable {total : Nat} {s : Io φ}

theorem bounceLoop_finished {rounds : Nat} (h : size ≤ total) :
    bounceLoop round finish size (rounds + 1) total s = some (finish total s) := by
  rw [bounceLoop, if_neg (by omega)]

theorem bounceLoop_step (rounds : Nat) (s : Io φ) (h : total < size) :
    bounceLoop round finish size (rounds + 1) total s =
      match round total s with
      | .failed s code => some (s, if 0 < total then ofNat 64 total else code)
      | .short s n => some (finish ((total + n) % 2 ^ 64) s)
      | .full s n => bounceLoop round finish size rounds ((total + n) % 2 ^ 64) s := by
  rw [bounceLoop, if_pos h]

theorem Ends.const {α : Type} {run : Nat → Option α} {P : α → Prop} {r : α} (h : ∀ rounds, run (rounds + 1) = some r) :
    Ends run P ↔ P r := by
  constructor
  · rintro ⟨enough, hEnough⟩
    obtain ⟨r', hr, hGood⟩ := hEnough (enough + 1) (Nat.le_succ enough)
    rw [h enough] at hr
    exact Option.some.inj hr ▸ hGood
  · intro hGood
    refine ⟨1, fun rounds hRounds => ?_⟩
    obtain ⟨rounds, rfl⟩ := Nat.exists_eq_add_of_le' hRounds
    exact ⟨r, h rounds, hGood⟩

theorem Ends.succ {α : Type} {run run' : Nat → Option α} {P : α → Prop} (h : ∀ rounds, run (rounds + 1) = run' rounds) :
    Ends run P ↔ Ends run' P := by
  constructor
  · rintro ⟨enough, hEnough⟩
    exact ⟨enough, fun rounds hRounds => h rounds ▸ hEnough (rounds + 1) (by omega)⟩
  · rintro ⟨enough, hEnough⟩
    refine ⟨enough + 1, fun rounds hRounds => ?_⟩
    obtain ⟨rounds, rfl⟩ := Nat.exists_eq_add_of_le' (Nat.le_of_add_left_le hRounds)
    exact h rounds ▸ hEnough rounds (by omega)

theorem clean_finished (h : size ≤ total) :
    Clean round size Failing total s ↔ total < 2 ^ 63 := by
  refine ⟨fun hClean => ?_, fun hFits => .finished h hFits⟩
  cases hClean with
  | finished _ hFits => exact hFits
  | failed hTotal => omega
  | short hTotal => omega
  | full hTotal => omega

theorem clean_step (h : total < size) :
    Clean round size Failing total s ↔
      match round total s with
      | .failed _ _ => Failing total
      | .short _ n => total + n < 2 ^ 63
      | .full s' n => ¬IsError (ofNat 64 n) ∧ Clean round size Failing (total + n) s' := by
  constructor
  · intro hClean
    cases hClean with
    | finished hTotal => omega
    | failed _ hRound hFailing => rw [hRound]; exact hFailing
    | short _ hRound hFits => rw [hRound]; exact hFits
    | full _ hRound hCount hRest => rw [hRound]; exact ⟨hCount, hRest⟩
  · intro hMatch
    cases hRound : round total s with
    | failed s' code => rw [hRound] at hMatch; exact .failed h hRound hMatch
    | short s' n => rw [hRound] at hMatch; exact .short h hRound hMatch
    | full s' n => rw [hRound] at hMatch; exact .full h hRound hMatch.1 hMatch.2

theorem Clean.of_full {n : Nat} {s' : Io φ} (h : Clean round size Failing total s) (hTotal : total < size)
    (hRound : round total s = .full s' n) : ¬IsError (ofNat 64 n) ∧ Clean round size Failing (total + n) s' := by
  rw [clean_step hTotal, hRound] at h
  exact h

theorem Clean.of_failed {s' : Io φ} {code : Word} (h : Clean round size Failing total s)
    (hTotal : total < size) (hRound : round total s = .failed s' code) : Failing total := by
  rw [clean_step hTotal, hRound] at h
  exact h

theorem bounceLoop_ends_iff (h : LoopSpec round finish size Failing Inv Tainted Good) (hInv : Inv total s) :
    Ends (fun rounds => bounceLoop round finish size rounds total s) Good ↔ Clean round size Failing total s := by
  induction hLeft : size - total using Nat.strong_induction_on generalizing total s with
  | _ left ih =>
    obtain hTotal | hTotal := le_or_gt size total
    · rw [clean_finished hTotal, ← h.finished total s hInv hTotal]
      exact Ends.const fun rounds => bounceLoop_finished hTotal
    have hRun (rounds : Nat) := @bounceLoop_step _ round finish size total rounds s hTotal
    rw [clean_step hTotal]
    cases hRound : round total s with
    | failed s' code =>
      rw [hRound] at hRun
      exact (Ends.const hRun).trans (h.failed total s s' code hInv hTotal hRound)
    | short s' n =>
      rw [hRound] at hRun
      obtain ⟨hWord, hGood⟩ := h.short total s s' n hInv hTotal hRound
      simp only [Nat.mod_eq_of_lt hWord] at hRun
      exact (Ends.const hRun).trans hGood
    | full s' n =>
      rw [hRound] at hRun
      obtain ⟨hTaint, hOn⟩ := h.full total s s' n hInv hTotal hRound
      rw [Ends.succ hRun]
      obtain hError | hCount := Decidable.em (IsError (ofNat 64 n))
      · refine iff_of_false ?_ fun hRest => hRest.1 hError
        rintro ⟨enough, hEnough⟩
        obtain ⟨r, hr, hGood⟩ := hEnough enough le_rfl
        exact h.tainted _ _ _ r (hTaint hError) hr hGood
      · obtain ⟨hPositive, hWord, hInv'⟩ := hOn hCount
        simp only [Nat.mod_eq_of_lt hWord]
        rw [ih (size - (total + n)) (by omega) hInv' rfl]
        exact ⟨fun hRest => ⟨hCount, hRest⟩, fun hRest => hRest.2⟩

end

section

variable {k : Kernel φ} {f : File φ} {s s₀ s' : Io φ} {buffer : Word} {size bounceBytes total n : Nat}

theorem ofNat_toNat_of_le (h : total ≤ KERNEL_AREA_MEM) : (ofNat 64 total).toNat = total := by
  rw [toNat_ofNat, Nat.mod_eq_of_lt]
  exact h.trans_lt (by decide)

variable {w ret : Word}

theorem counts_append {ws : List Word} (h : ∀ v ∈ ws, ¬IsError v) (hCount : ¬IsError w) :
    ∀ v ∈ ws ++ [w], ¬IsError v := by
  intro v hv
  obtain hv | hv := List.mem_append.mp hv
  · exact h v hv
  · exact List.mem_singleton.mp hv ▸ hCount

theorem Reply.word_spec {chunk : Nat} (r : Reply chunk) (hChunk : chunk ≤ userIoBounceBytes) :
    IsError r.word ∧ r.transferred = 0 ∨
      ¬IsError r.word ∧ r.word.toNat = r.transferred ∧ r.transferred ≤ chunk := by
  have hBounce : userIoBounceBytes = 65536 := rfl
  cases r with
  | count n hn =>
    have hWord : (Reply.count n hn).word.toNat = n := by
      rw [Reply.word, toNat_ofNat, Nat.mod_eq_of_lt (by omega)]
    refine .inr ⟨?_, hWord, hn⟩
    rw [IsError, hWord]
    omega
  | code e he =>
    refine .inl ⟨?_, rfl⟩
    rw [IsError, Reply.word, BitVec.toNat_neg, toNat_ofNat, Nat.mod_eq_of_lt (show e < 2 ^ 64 by omega)]
    omega

theorem sysResult_of_lt (h : w.toNat < 2 ^ 63) : sysResult w = w := by
  have hSign : ¬w.toInt < 0 := by
    rw [BitVec.toInt_eq_toNat_of_lt (by omega)]
    omega
  rw [sysResult, if_neg hSign]

theorem sysResult_ne (hLow : 2 ^ 63 ≤ w.toNat) (hHigh : w.toNat ≤ KERNEL_AREA_MEM) : sysResult w ≠ w := by
  have hArea : KERNEL_AREA_MEM = 0xf000000000000000 := rfl
  have hInt : w.toInt = (w.toNat : Int) - 2 ^ 64 := by
    rw [BitVec.toInt_eq_toNat_cond, if_neg (by omega)]
    rfl
  rw [sysResult, if_pos (by omega)]
  intro he
  have hBack := congrArg BitVec.toInt he
  rw [BitVec.toInt_signExtend_of_le (by decide), hInt] at hBack
  have hSmall := @BitVec.le_toInt 32 (-(-w).setWidth 32)
  omega

theorem isError_fault {code : Word} (h : code = minusEio ∨ code = minusEfault) : IsError (sysResult code) := by
  obtain rfl | rfl := h <;> decide

theorem isError_einval : IsError minusEinval := by decide

theorem isError_enomem : IsError (sysResult minusEnomem) := by decide

theorem mapped_bound (hMapped : k.mapped s buffer n) (hPositive : 0 < n) :
    buffer.toNat + n ≤ KERNEL_AREA_MEM := by
  simp only [Kernel.mapped, userRangeMapped, Bool.or_eq_true, Bool.and_eq_true, decide_eq_true_eq] at hMapped
  omega

theorem toNat_add_ofNat (h : w.toNat + n < 2 ^ 64) : (w + ofNat 64 n).toNat = w.toNat + n := by
  rw [BitVec.toNat_add, toNat_ofNat, Nat.add_mod_mod, Nat.mod_eq_of_lt h]

theorem chunk_toNat (hBound : 0 < total → buffer.toNat + total ≤ KERNEL_AREA_MEM) :
    (buffer + ofNat 64 total).toNat = buffer.toNat + total := by
  have hArea : KERNEL_AREA_MEM = 0xf000000000000000 := rfl
  apply toNat_add_ofNat
  have hBuffer := buffer.isLt
  obtain rfl | hPositive := Nat.eq_zero_or_pos total
  · omega
  · have := hBound hPositive
    omega

theorem agrees_iff (hMoved : s'.moved.length = total) (hBound : total ≤ KERNEL_AREA_MEM)
    (hCounts : ∀ w ∈ s'.counted, ¬IsError w) :
    Agrees s₀ s' (sysResult (ofNat 64 total)) ↔
      total < 2 ^ 63 ∧ s'.offset = s₀.offset + ofNat 64 total := by
  have hWord := ofNat_toNat_of_le hBound
  constructor
  · rintro ⟨⟨hError, hNothing, -⟩ | ⟨hCount, hOffset⟩, -⟩
    · rw [hNothing] at hMoved
      subst hMoved
      exact absurd hError (by decide)
    · have hFits : total < 2 ^ 63 := by
        by_contra hLarge
        refine @sysResult_ne (ofNat 64 total) (by omega) (by omega) (BitVec.eq_of_toNat_eq ?_)
        rw [hCount, hWord, hMoved]
      rw [sysResult_of_lt (by omega)] at hOffset
      exact ⟨hFits, hOffset⟩
  · rintro ⟨hFits, hOffset⟩
    rw [sysResult_of_lt (by omega)]
    exact ⟨.inr ⟨by rw [hWord, hMoved], hOffset⟩, hCounts⟩

structure ReadInv (buffer : Word) (s₀ : Io φ) (total : Nat) (s : Io φ) : Prop where
  moved : s.moved.length = total
  memory : s.memory = storeBytes s₀.memory buffer.toNat s.moved
  offset : s.offset = s₀.offset
  counts : ∀ w ∈ s.counted, ¬IsError w
  bound : 0 < total → buffer.toNat + total ≤ KERNEL_AREA_MEM

theorem ReadInv.total_le (h : ReadInv buffer s₀ total s) : total ≤ KERNEL_AREA_MEM := by
  obtain rfl | hPositive := Nat.eq_zero_or_pos total
  · exact Nat.zero_le _
  · have := h.bound hPositive
    omega

theorem ReadInv.begin (s : Io φ) (buffer : Word) : ReadInv buffer s 0 s.fresh where
  moved := rfl
  memory := (storeBytes_nil _ _).symm
  offset := rfl
  counts := fun _ hw => nomatch hw
  bound := (absurd · (lt_irrefl 0))

theorem ReadInv.withStore (h : ReadInv buffer s₀ total s) (store : φ) :
    ReadInv buffer s₀ total { s with store := store } :=
  { h with }

theorem ReadInv.next (h : ReadInv buffer s₀ total s) {got : Word} {data : List Byte} (hLength : data.length = got.toNat)
    (hBound : buffer.toNat + total + got.toNat ≤ KERNEL_AREA_MEM) (hCount : ¬IsError got) (store : φ) :
    ReadInv buffer s₀ (total + got.toNat)
      { store := store, offset := s.offset, counted := s.counted ++ [got],
        memory := storeBytes s.memory (buffer + ofNat 64 total).toNat data,
        moved := s.moved ++ data } where
  moved := by rw [List.length_append, h.moved, hLength]
  memory := by simp only [chunk_toNat h.bound, h.memory, storeBytes_append, h.moved]
  offset := h.offset
  counts := counts_append h.counts hCount
  bound _ := by omega

theorem readRound_spec (k : Kernel φ) (f : File φ) (size : Nat) (offset : Word) (bounceBytes : Nat)
    (hInv : ReadInv buffer s₀ total s) :
    match readRound k f buffer size offset bounceBytes total s with
    | .failed s' code => ReadInv buffer s₀ total s' ∧ (code = minusEio ∨ code = minusEfault)
    | .short s' n => ReadInv buffer s₀ (total + n) s'
    | .full s' n => ¬IsError (ofNat 64 n) ∧ 0 < n ∧ ReadInv buffer s₀ (total + n) s' := by
  rw [readRound]
  obtain ⟨store, bounce, reply⟩ := vfsRead f s.store (offset + ofNat 64 total) (min (size - total) bounceBytes)
  have hStore := hInv.withStore store
  generalize hGot : reply.word = got
  simp only
  split_ifs with hFailed hNothing hFault hShort
  · exact ⟨hStore, .inl rfl⟩
  · exact hStore
  · exact ⟨hStore, .inr rfl⟩
  all_goals
    have hPositive : 0 < got.toNat := BitVec.toNat_pos_of_ne_zero hNothing
    have hMapped := mapped_bound (eq_true_of_ne_false hFault) hPositive
    rw [chunk_toNat hInv.bound] at hMapped
    have hCount : ¬IsError got := by
      have hArea : KERNEL_AREA_MEM ≤ 2 ^ 64 - 4096 := by decide
      rw [IsError]
      omega
    have hLength : ((List.range got.toNat).map bounce).length = got.toNat := by rw [List.length_map, List.length_range]
    have hNext := hInv.next hLength hMapped hCount store
  · exact hNext
  · exact ⟨by rw [ofNat_toNat, setWidth_eq]; exact hCount, hPositive, hNext⟩

theorem readFinish_good (hSeek : Seekable f) (hInv : ReadInv buffer s₀ total s) :
    ReadAgrees buffer s₀ (readFinish f true total s).1 (sysResult (readFinish f true total s).2) ↔ total < 2 ^ 63 := by
  rw [readFinish, if_pos ⟨rfl, hSeek.size s.store⟩]
  have hAgrees := @agrees_iff _ s₀ { s with offset := s.offset + ofNat 64 total } total hInv.moved hInv.total_le
    hInv.counts
  constructor
  · exact fun h => (hAgrees.mp h.toAgrees).1
  · exact fun hFits => { toAgrees := hAgrees.mpr ⟨hFits, by rw [hInv.offset]⟩, memory := hInv.memory }

theorem read_loopSpec (hSeek : Seekable f) (offset : Word) :
    LoopSpec (readRound k f buffer size offset bounceBytes) (readFinish f true) size (· = 0) (ReadInv buffer s₀)
      (fun _ => False) (fun r => ReadAgrees buffer s₀ r.1 (sysResult r.2)) where
  finished _ _ hInv _ := readFinish_good hSeek hInv
  failed total s s' code hInv _ hRound := by
    have hSpec := readRound_spec k f size offset bounceBytes hInv
    rw [hRound] at hSpec
    obtain ⟨hInv', hCode⟩ := hSpec
    obtain rfl | hPositive := Nat.eq_zero_or_pos total
    · refine iff_of_true ?_ rfl
      rw [if_neg (lt_irrefl 0)]
      exact
        { told := .inl ⟨isError_fault hCode, List.eq_nil_of_length_eq_zero hInv'.moved, hInv'.offset⟩
          counts := hInv'.counts
          memory := hInv'.memory }
    · refine iff_of_false (fun hGood => ?_) hPositive.ne'
      rw [if_pos hPositive] at hGood
      obtain ⟨-, hOffset⟩ := (agrees_iff hInv'.moved hInv'.total_le hInv'.counts).mp hGood.toAgrees
      -- The offset has not advanced.
      have hZero := congrArg BitVec.toNat (left_eq_add.mp (hInv'.offset.symm.trans hOffset))
      rw [ofNat_toNat_of_le hInv'.total_le] at hZero
      exact hPositive.ne' hZero
  short total s s' n hInv _ hRound := by
    have hSpec := readRound_spec k f size offset bounceBytes hInv
    rw [hRound] at hSpec
    exact ⟨hSpec.total_le.trans_lt (by decide), readFinish_good hSeek hSpec⟩
  full total s s' n hInv _ hRound := by
    have hSpec := readRound_spec k f size offset bounceBytes hInv
    rw [hRound] at hSpec
    obtain ⟨hCount, hPositive, hInv'⟩ := hSpec
    exact ⟨fun hError => hCount hError, fun _ => ⟨hPositive, hInv'.total_le.trans_lt (by decide), hInv'⟩⟩
  tainted _ _ _ _ h := h.elim

structure WriteInv (buffer : Word) (s₀ : Io φ) (total : Nat) (s : Io φ) : Prop where
  moved : s.moved = loadBytes s₀.memory buffer.toNat total
  memory : s.memory = s₀.memory
  offset : s.offset = s₀.offset + ofNat 64 total
  counts : ∀ w ∈ s.counted, ¬IsError w
  bound : 0 < total → buffer.toNat + total ≤ KERNEL_AREA_MEM

theorem WriteInv.total_le (h : WriteInv buffer s₀ total s) : total ≤ KERNEL_AREA_MEM := by
  obtain rfl | hPositive := Nat.eq_zero_or_pos total
  · exact Nat.zero_le _
  · have := h.bound hPositive
    omega

theorem WriteInv.length (h : WriteInv buffer s₀ total s) : s.moved.length = total := by
  rw [h.moved, length_loadBytes]

theorem WriteInv.begin (s : Io φ) (buffer : Word) : WriteInv buffer s 0 s.fresh where
  moved := rfl
  memory := rfl
  offset := by simp [Io.fresh]
  counts := fun _ hw => nomatch hw
  bound := (absurd · (lt_irrefl 0))

theorem WriteInv.withStore (h : WriteInv buffer s₀ total s) (store : φ) :
    WriteInv buffer s₀ total { s with store := store } :=
  { h with }

def Tainted (s : Io φ) : Prop := ∃ w ∈ s.counted, IsError w

theorem WriteInv.next (h : WriteInv buffer s₀ total s) {chunk : Nat} {wrote : Word}
    (hBound : buffer.toNat + total + chunk ≤ KERNEL_AREA_MEM) (hBytes : wrote.toNat = n) (hMost : n ≤ chunk)
    (hCount : ¬IsError wrote) (store : φ) :
    WriteInv buffer s₀ (total + wrote.toNat)
      { store := store, memory := s.memory, offset := s.offset + wrote, counted := s.counted ++ [wrote],
        moved := s.moved ++ (loadBytes s.memory (buffer + ofNat 64 total).toNat chunk).take n } where
  moved := by
    obtain ⟨rest, rfl⟩ := Nat.exists_eq_add_of_le hMost
    rw [loadBytes_add, h.moved, hBytes, chunk_toNat h.bound, h.memory, loadBytes_add,
      List.take_left' (length_loadBytes _ _ _)]
  memory := h.memory
  offset := by rw [h.offset, BitVec.ofNat_add, ofNat_toNat, setWidth_eq, BitVec.add_assoc]
  counts := counts_append h.counts hCount
  bound _ := by omega

theorem writeRound_spec (k : Kernel φ) (hSeek : Seekable f) (hTotal : total < size) (hBounce : 0 < bounceBytes)
    (hLarge : bounceBytes ≤ userIoBounceBytes) (hInv : WriteInv buffer s₀ total s) :
    match writeRound k f buffer size bounceBytes total s with
    | .failed s' code => WriteInv buffer s₀ total s' ∧ (code = minusEio ∨ code = minusEfault)
    | .short s' n => WriteInv buffer s₀ (total + n) s'
    | .full s' n =>
      (IsError (ofNat 64 n) → Tainted s') ∧
        (¬IsError (ofNat 64 n) → 0 < n ∧ WriteInv buffer s₀ (total + n) s') := by
  rw [writeRound]
  generalize hChunk : min (size - total) bounceBytes = chunk
  have hPositive : 0 < chunk := by omega
  generalize hData : loadBytes s.memory (buffer + ofNat 64 total).toNat chunk = data
  have hLength : data.length = chunk := hData ▸ length_loadBytes _ _ _
  simp only [hSeek.pipe s.store, ne_eq, not_true_eq_false, if_false]
  generalize vfsWrite f s.store s.offset data = r
  obtain ⟨store, reply⟩ := r
  have hStore := hInv.withStore store
  have hReply := reply.word_spec (by omega)
  have hPipe := hSeek.pipe store
  have hSize := hSeek.size store
  simp only
  generalize reply.word = wrote at hReply ⊢
  generalize reply.transferred = n at hReply ⊢
  simp only [hPipe, not_true_eq_false, false_and, if_false, not_false_eq_true, true_and, hSize, if_true]
  split_ifs with hFault hFailed hShort
  · exact ⟨hInv, .inr rfl⟩
  · exact ⟨hStore, .inl rfl⟩
  all_goals
    have hMapped := mapped_bound (eq_true_of_ne_false hFault) hPositive
    rw [chunk_toNat hInv.bound] at hMapped
    have hNext (hCount : ¬IsError wrote) (hBytes : wrote.toNat = n) (hMost : n ≤ data.length) :=
      hInv.next hMapped hBytes (hLength ▸ hMost) hCount store
    rw [hData] at hNext
  · obtain ⟨hError, -⟩ | ⟨hCount, hBytes, hMost⟩ := hReply
    · rw [IsError] at hError
      have hBytes : userIoBounceBytes = 65536 := rfl
      omega
    · exact hNext hCount hBytes hMost
  · simp only [ofNat_toNat, setWidth_eq]
    refine ⟨fun hError => ⟨wrote, List.mem_append_right _ (.head _), hError⟩, fun hCount => ?_⟩
    obtain ⟨hError, -⟩ | ⟨-, hBytes, hMost⟩ := hReply
    · exact absurd hError hCount
    · exact ⟨by omega, hNext hCount hBytes hMost⟩

theorem writeRound_tainted (k : Kernel φ) (f : File φ) (buffer : Word) (size bounceBytes total : Nat)
    (h : Tainted s) :
    match writeRound k f buffer size bounceBytes total s with
    | .failed s' _ => Tainted s'
    | .short s' _ => Tainted s'
    | .full s' _ => Tainted s' := by
  obtain ⟨w, hw, hError⟩ := h
  rw [writeRound]
  simp only
  split_ifs
  all_goals first
    | exact ⟨w, hw, hError⟩
    | exact ⟨w, List.mem_append_left _ hw, hError⟩

theorem write_tainted (k : Kernel φ) (f : File φ) (buffer : Word) (size bounceBytes rounds total : Nat)
    {r : Io φ × Word}
    (h : Tainted s)
    (hRun : bounceLoop (writeRound k f buffer size bounceBytes) (writeFinish f) size rounds total s = some r) :
    Tainted r.1 := by
  induction rounds generalizing total s with
  | zero => cases hRun
  | succ rounds ih =>
    have hRound := writeRound_tainted k f buffer size bounceBytes total h
    rw [bounceLoop] at hRun
    split at hRun
    · cases hNext : writeRound k f buffer size bounceBytes total s with
      | failed s' code =>
        rw [hNext] at hRun hRound
        exact Option.some.inj hRun ▸ hRound
      | short s' n =>
        rw [hNext] at hRun hRound
        exact Option.some.inj hRun ▸ hRound
      | full s' n =>
        rw [hNext] at hRun hRound
        exact ih _ hRound hRun
    · exact Option.some.inj hRun ▸ h

theorem write_agrees_iff (hInv : WriteInv buffer s₀ total s) :
    WriteAgrees buffer s₀ s (sysResult (ofNat 64 total)) ↔ total < 2 ^ 63 := by
  have hAgrees := @agrees_iff _ s₀ s total hInv.length hInv.total_le hInv.counts
  constructor
  · exact fun h => (hAgrees.mp h.toAgrees).1
  · exact fun hFits =>
      { toAgrees := hAgrees.mpr ⟨hFits, hInv.offset⟩
        moved := by rw [hInv.length, hInv.moved]
        memory := hInv.memory }

theorem write_loopSpec (k : Kernel φ) (hSeek : Seekable f) (hBounce : 0 < bounceBytes)
    (hLarge : bounceBytes ≤ userIoBounceBytes) :
    LoopSpec (writeRound k f buffer size bounceBytes) (writeFinish f) size (· < 2 ^ 63) (WriteInv buffer s₀) Tainted
      (fun r => WriteAgrees buffer s₀ r.1 (sysResult r.2)) where
  finished _ s hInv _ := write_agrees_iff (hInv.withStore (f.update s.store))
  failed total s s' code hInv hTotal hRound := by
    have hSpec := writeRound_spec k hSeek hTotal hBounce hLarge hInv
    rw [hRound] at hSpec
    obtain ⟨hInv', hCode⟩ := hSpec
    obtain rfl | hPositive := Nat.eq_zero_or_pos total
    · refine iff_of_true ?_ (by decide)
      rw [if_neg (lt_irrefl 0)]
      exact
        { told := .inl ⟨isError_fault hCode, hInv'.moved, by rw [hInv'.offset]; simp⟩
          counts := hInv'.counts
          moved := by rw [hInv'.moved, loadBytes_zero]; rfl
          memory := hInv'.memory }
    · rw [if_pos hPositive]
      exact write_agrees_iff hInv'
  short total s s' n hInv hTotal hRound := by
    have hSpec := writeRound_spec k hSeek hTotal hBounce hLarge hInv
    rw [hRound] at hSpec
    exact ⟨hSpec.total_le.trans_lt (by decide), write_agrees_iff (hSpec.withStore (f.update s'.store))⟩
  full total s s' n hInv hTotal hRound := by
    have hSpec := writeRound_spec k hSeek hTotal hBounce hLarge hInv
    rw [hRound] at hSpec
    refine ⟨hSpec.1, fun hCount => ?_⟩
    obtain ⟨hPositive, hInv'⟩ := hSpec.2 hCount
    exact ⟨hPositive, hInv'.total_le.trans_lt (by decide), hInv'⟩
  tainted _ _ _ _ h hRun hGood := by
    obtain ⟨w, hw, hError⟩ := write_tainted k f buffer size bounceBytes _ _ h hRun
    exact hGood.counts w hw hError

/-- Nothing is read, or no chunk but the first one fails and there are less than 2 ^ 63 bytes. -/
def ReadClean (k : Kernel φ) (f : File φ) (fd : Int) (buffer size : Word) (s : Io φ) : Prop :=
  let bounceBytes := min size.toNat userIoBounceBytes
  (fd < 0 ∨ buffer = 0) ∨ size = 0 ∨ (f.size s.store).toNat ≤ s.offset.toNat ∨ k.malloc s.store bounceBytes = false ∨
    Clean (readRound k f buffer size.toNat s.offset bounceBytes) size.toNat (· = 0) 0 s.fresh

/-- Nothing is written, or no file system answers with another error number than that of `VFS_STATUS_FAILED` and there
are less than 2 ^ 63 bytes. -/
def WriteClean (k : Kernel φ) (f : File φ) (fd : Int) (buffer size : Word) (s : Io φ) : Prop :=
  let bounceBytes := min size.toNat userIoBounceBytes
  (fd < 0 ∨ buffer = 0) ∨ size = 0 ∨ k.malloc s.store bounceBytes = false ∨
    Clean (writeRound k f buffer size.toNat bounceBytes) size.toNat (· < 2 ^ 63) 0 s.fresh

theorem agrees_fresh (h : IsError ret ∨ ret = 0) : Agrees s s.fresh ret where
  told := by
    obtain hError | rfl := h
    · exact .inl ⟨hError, rfl, rfl⟩
    · exact .inr ⟨rfl, (BitVec.add_zero _).symm⟩
  counts := fun _ hw => nomatch hw

theorem readAgrees_fresh (h : IsError ret ∨ ret = 0) : ReadAgrees buffer s s.fresh ret where
  toAgrees := agrees_fresh h
  memory := (storeBytes_nil _ _).symm

theorem writeAgrees_fresh (h : IsError ret ∨ ret = 0) : WriteAgrees buffer s s.fresh ret where
  toAgrees := agrees_fresh h
  moved := rfl
  memory := rfl

theorem Ends.always {α : Type} {P : α → Prop} {r : α} (h : P r) : Ends (fun _ => some r) P :=
  ⟨0, fun _ _ => ⟨r, rfl, h⟩⟩

theorem Ends.map {α β : Type} {run : Nat → Option α} {g : α → β} {P : β → Prop} :
    Ends (fun rounds => (run rounds).map g) P ↔ Ends run fun a => P (g a) := by
  constructor
  · rintro ⟨enough, hEnough⟩
    refine ⟨enough, fun rounds hRounds => ?_⟩
    obtain ⟨r, hr, hGood⟩ := hEnough rounds hRounds
    obtain ⟨a, ha, rfl⟩ := Option.map_eq_some_iff.mp hr
    exact ⟨a, ha, hGood⟩
  · rintro ⟨enough, hEnough⟩
    refine ⟨enough, fun rounds hRounds => ?_⟩
    obtain ⟨a, ha, hGood⟩ := hEnough rounds hRounds
    exact ⟨g a, by simp only [ha, Option.map_some], hGood⟩

theorem sysRead_agrees_iff (k : Kernel φ) (hSeek : Seekable f) (special : Io φ → Option (Io φ × Word)) (fd : Int)
    (buffer size : Word) (s : Io φ) :
    Ends (fun rounds => sysRead k (some f) special fd buffer size rounds s.fresh)
      (fun r => ReadAgrees buffer s r.1 r.2) ↔
      ReadClean k f fd buffer size s := by
  have hPlain : ¬(f.type s.fresh.store &&& fileSocket ≠ 0 ∨ f.type s.fresh.store &&& filePipe ≠ 0) := by
    simp [hSeek.socket, hSeek.pipe]
  have hSize := hSeek.size s.fresh.store
  simp only [sysRead, readToUserBuffer, ReadClean, if_neg hPlain, hSize, ne_eq, not_false_eq_true, true_and]
  split_ifs with hArgs hNone hEnd hNull hMemory
  · exact iff_of_true (.always (readAgrees_fresh (.inl isError_einval))) (.inl hArgs)
  · exact iff_of_true (.always (readAgrees_fresh (.inr rfl))) (.inr (.inl hNone))
  · exact iff_of_true (.always (readAgrees_fresh (.inr rfl))) (.inr (.inr (.inl hEnd)))
  · exact absurd (.inr hNull) hArgs
  · exact iff_of_true (.always (readAgrees_fresh (.inl isError_enomem))) (.inr (.inr (.inr (.inl hMemory))))
  · have hSpec : LoopSpec (readRound k f buffer size.toNat s.offset (min size.toNat userIoBounceBytes))
        (readFinish f true) size.toNat (· = 0) (ReadInv buffer s) (fun _ => False)
        (fun r => ReadAgrees buffer s r.1 (sysResult r.2)) := read_loopSpec hSeek s.offset
    rw [Ends.map]
    refine (bounceLoop_ends_iff hSpec (.begin s buffer)).trans ⟨fun hClean => .inr (.inr (.inr (.inr hClean))), ?_⟩
    rintro (h | h | h | h | hClean)
    · exact absurd h hArgs
    · exact absurd h hNone
    · exact absurd h hEnd
    · exact absurd h hMemory
    · exact hClean

theorem sysWrite_agrees_iff (k : Kernel φ) (hSeek : Seekable f) (special : Io φ → Option (Io φ × Word)) (fd : Int)
    (buffer size : Word) (s : Io φ) :
    Ends (fun rounds => sysWrite k (some f) special fd buffer size rounds s.fresh)
        (fun r => WriteAgrees buffer s r.1 r.2) ↔
      WriteClean k f fd buffer size s := by
  have hPlain : ¬f.type s.fresh.store &&& fileSocket ≠ 0 := by simp [hSeek.socket]
  simp only [sysWrite, writeFromUserBuffer, WriteClean, if_neg hPlain]
  split_ifs with hArgs hNone hNull hMemory
  · exact iff_of_true (.always (writeAgrees_fresh (.inl isError_einval))) (.inl hArgs)
  · exact iff_of_true (.always (writeAgrees_fresh (.inr rfl))) (.inr (.inl hNone))
  · exact absurd (.inr hNull) hArgs
  · exact iff_of_true (.always (writeAgrees_fresh (.inl isError_enomem))) (.inr (.inr (.inl hMemory)))
  · have hPositive : 0 < size.toNat := BitVec.toNat_pos_of_ne_zero hNone
    have hBounce : 0 < min size.toNat userIoBounceBytes := Nat.lt_min.mpr ⟨hPositive, by decide⟩
    have hSpec : LoopSpec (writeRound k f buffer size.toNat (min size.toNat userIoBounceBytes)) (writeFinish f)
        size.toNat (· < 2 ^ 63) (WriteInv buffer s) Tainted (fun r => WriteAgrees buffer s r.1 (sysResult r.2)) :=
      write_loopSpec k hSeek hBounce (min_le_right _ _)
    rw [Ends.map]
    refine (bounceLoop_ends_iff hSpec (.begin s buffer)).trans ⟨fun hClean => .inr (.inr (.inr hClean)), ?_⟩
    rintro (h | h | h | hClean)
    · exact absurd h hArgs
    · exact absurd h hNone
    · exact absurd h hMemory
    · exact hClean

/-- When what is told of a read, and of a write, is what has happened. -/
theorem transfer_agrees_iff (k : Kernel φ) (hSeek : Seekable f) (special : Io φ → Option (Io φ × Word)) (fd : Int)
    (buffer size : Word) (s : Io φ) :
    (Ends (fun rounds => sysRead k (some f) special fd buffer size rounds s.fresh)
        (fun r => ReadAgrees buffer s r.1 r.2) ↔ ReadClean k f fd buffer size s) ∧
      (Ends (fun rounds => sysWrite k (some f) special fd buffer size rounds s.fresh)
        (fun r => WriteAgrees buffer s r.1 r.2) ↔ WriteClean k f fd buffer size s) :=
  ⟨sysRead_agrees_iff k hSeek special fd buffer size s, sysWrite_agrees_iff k hSeek special fd buffer size s⟩

end

def failing : File Unit where
  type _ := fileNone
  size _ := 0x20000
  update s := s
  read s offset chunk :=
    (s, fun _ => 0, if offset.toNat < userIoBounceBytes then .count chunk le_rfl else .code 5 (by decide))
  write s _ _ := (s, .code 5 (by decide))

def allMapped : Kernel Unit where
  pages _ _ _ := true
  malloc _ _ := true

def atStart : Io Unit where
  store := ()
  memory _ := 0
  offset := 0
  moved := []
  counted := []

theorem failing_seekable : Seekable failing where
  socket _ := (by decide : fileNone &&& fileSocket = 0)
  pipe _ := (by decide : fileNone &&& filePipe = 0)
  size _ := (by decide : (0x20000 : Word) ≠ minusOne)

theorem transfer_agrees_iff_failing :
    (Ends (fun rounds => sysRead allMapped (some failing) (fun _ => none) 3 0x1000 0x10001 rounds atStart.fresh)
        (fun r => ReadAgrees 0x1000 atStart r.1 r.2) ↔ ReadClean allMapped failing 3 0x1000 0x10001 atStart) ∧
      (Ends (fun rounds => sysWrite allMapped (some failing) (fun _ => none) 3 0x1000 0x10001 rounds atStart.fresh)
        (fun r => WriteAgrees 0x1000 atStart r.1 r.2) ↔ WriteClean allMapped failing 3 0x1000 0x10001 atStart) :=
  transfer_agrees_iff allMapped failing_seekable (fun _ => none) 3 0x1000 0x10001 atStart

/-- A read that fails behind its first chunk tells of the chunk and leaves the offset, and a write that fails adds the
error number to it. -/
theorem transfer_disagrees :
    ¬Ends (fun rounds => sysRead allMapped (some failing) (fun _ => none) 3 0x1000 0x10001 rounds atStart.fresh)
        (fun r => ReadAgrees 0x1000 atStart r.1 r.2) ∧
      ¬Ends (fun rounds => sysWrite allMapped (some failing) (fun _ => none) 3 0x1000 1 rounds atStart.fresh)
        (fun r => WriteAgrees 0x1000 atStart r.1 r.2) := by
  constructor
  · rw [sysRead_agrees_iff allMapped failing_seekable]
    rintro (h | h | h | h | hClean)
    · exact absurd h (by decide)
    · exact absurd h (by decide)
    · exact absurd h (by decide)
    · exact absurd h (by decide)
    · obtain ⟨s', hFirst⟩ : ∃ s', readRound allMapped failing 0x1000 0x10001 0 0x10000 0 atStart.fresh =
        .full s' 0x10000 :=
        ⟨_, rfl⟩
      have hSecond : readRound allMapped failing 0x1000 0x10001 0 0x10000 0x10000 s' = .failed s' minusEfault := rfl
      exact absurd ((hClean.of_full (by decide) hFirst).2.of_failed (by decide) hSecond) (by decide)
  · rw [sysWrite_agrees_iff allMapped failing_seekable]
    rintro (h | h | h | hClean)
    · exact absurd h (by decide)
    · exact absurd h (by decide)
    · exact absurd h (by decide)
    · have hFirst : writeRound allMapped failing 0x1000 1 1 0 atStart.fresh =
          .full
            { store := (), memory := fun _ => 0, offset := -5#64, moved := [], counted := [-5#64] }
            (2 ^ 64 - 5) := rfl
      exact absurd (by decide) (hClean.of_full (by decide) hFirst).1

end OpenXJ380.Transfer
