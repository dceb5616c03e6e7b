import OpenXJ380.User.Load

/-! # What is in an image

A file that passes the checks has its segments in the file and in the span. Where they are
loaded each address has the byte that the last segment there gives to it.
-/

namespace OpenXJ380.User

open Errno

structure Image where
  buf : Bytes
  base : Nat

namespace Image

def bias (img : Image) : Nat := loadBias (ehdrOf img.buf) img.base

def phoff (img : Image) : Nat := (ehdrOf img.buf).phoff

def loads (img : Image) : List Phdr := (phdrsOf img.buf).filter fun p => p.type = ptLoad

def address (img : Image) (p : Phdr) : Nat := img.bias + p.vaddr

def byteOf (img : Image) (p : Phdr) (k : Nat) : UInt8 := if k < p.filesz then img.buf.getD (p.offset + k) 0 else 0

def At (img : Image) (p : Phdr) (a : Nat) : Prop := img.address p ≤ a ∧ a < img.address p + p.memsz

instance (img : Image) (p : Phdr) (a : Nat) : Decidable (img.At p a) := inferInstanceAs (Decidable (_ ∧ _))

def byteFrom (img : Image) (ps : List Phdr) (byte : UInt8) (a : Nat) : UInt8 :=
  ps.foldl (fun byte p => if img.At p a then img.byteOf p (a - img.address p) else byte) byte

def byteAt (img : Image) (a : Nat) : UInt8 := img.byteFrom img.loads 0 a

def Disjoint (img : Image) : Prop :=
  img.loads.Pairwise fun p q => p.vaddr + p.memsz ≤ q.vaddr ∨ q.vaddr + q.memsz ≤ p.vaddr

def span (img : Image) : Except Stop Span := do
  let ehdr ← checkHeader img.buf
  checkSegments ehdr (phdrsOf img.buf) img.buf.length (loadBias ehdr img.base)

end Image

def Memory.Holds (m : Memory) (img : Image) : Prop :=
  ∀ p ∈ img.loads, ∀ k < p.memsz,
    m.mapped ((img.address p + k) / pageSize) = true ∧ m.byte (img.address p + k) = img.byteOf p k

def Stops {α : Type} (P : Stop → Prop) (x : Except Stop α) : Prop := ∀ e, x = .error e → P e

def Failed (e : Stop) : Prop := ∃ n, e = .failed n

section

variable {α β : Type} {P Q : Stop → Prop}

theorem Stops.ok (a : α) : Stops P (.ok a : Except Stop α) := fun _ h => nomatch h

theorem Stops.error {e : Stop} (h : P e) : Stops P (.error e : Except Stop α) := by
  intro e' hEq
  cases hEq
  exact h

theorem Stops.failed (n : Int) : Stops Failed (.error (.failed n) : Except Stop α) := .error ⟨n, rfl⟩

theorem Stops.mono {x : Except Stop α} (h : Stops P x) (hImp : ∀ e, P e → Q e) : Stops Q x :=
  fun e hEq => hImp e (h e hEq)

theorem Stops.bind {x : Except Stop α} {f : α → Except Stop β} (h : Stops P x)
    (hNext : ∀ a, x = .ok a → Stops P (f a)) : Stops P (x >>= f) := by
  cases x with
  | error e =>
    intro e' hEq
    cases hEq
    exact h e rfl
  | ok a => exact hNext a rfl

theorem Stops.ite {c : Prop} [Decidable c] {x y : Except Stop α} (hThen : c → Stops P x) (hElse : ¬ c → Stops P y) :
    Stops P (if c then x else y) := by
  split
  · next h => exact hThen h
  · next h => exact hElse h

theorem Stops.foldlM {f : β → α → Except Stop β} {l : List α} (h : ∀ b, ∀ a ∈ l, Stops P (f b a)) (b : β) :
    Stops P (l.foldlM f b) := by
  induction l generalizing b with
  | nil => exact .ok b
  | cons a l ih =>
    rw [List.foldlM_cons]
    exact (h b a (.head _)).bind fun c _ => ih (fun b a ha => h b a (.tail _ ha)) c

theorem mapM_ok {f : α → Except Stop β} {g : α → β} {l : List α} (h : ∀ a ∈ l, f a = .ok (g a)) :
    l.mapM f = .ok (l.map g) := by
  induction l with
  | nil => rfl
  | cons a l ih =>
    rw [List.mapM_cons, h a (.head _), ih fun a ha => h a (.tail _ ha)]
    rfl

end

theorem pageSize_pos : 0 < pageSize := by decide

theorem paddingDown_le (a : Nat) : paddingDown a ≤ a := Nat.div_mul_le_self ..

theorem pageSize_dvd_paddingDown (a : Nat) : pageSize ∣ paddingDown a := Nat.dvd_mul_left ..

theorem le_paddingUp (a : Nat) : a ≤ paddingUp a := by
  rw [paddingUp, paddingDown, pageSize]
  omega

theorem pageSize_le_paddingDown {a : Nat} (h : pageSize ≤ a) : pageSize ≤ paddingDown a := by
  rw [paddingDown, pageSize] at *
  omega

structure Passes (fileSize bias : Nat) (p : Phdr) : Prop where
  size : p.filesz ≤ p.memsz
  file : p.offset + p.filesz ≤ fileSize
  some : 0 < p.memsz
  above : pageSize ≤ bias + p.vaddr

theorem elfRangeInFile_iff {offset size fileSize : Nat} :
    elfRangeInFile offset size fileSize ↔ offset + size ≤ fileSize := by
  rw [elfRangeInFile, Bool.and_eq_true, decide_eq_true_eq, decide_eq_true_eq]
  omega

structure Widens (ehdr : Ehdr) (fileSize bias : Nat) (s s' : Span) (ps : List Phdr) : Prop where
  start : s'.start ≤ s.start
  stop : s.stop ≤ s'.stop
  startPage : s'.start = s.start ∨ pageSize ∣ s'.start ∧ pageSize ≤ s'.start
  stopPage : s'.stop = s.stop ∨ pageSize ∣ s'.stop
  passes : ∀ p ∈ ps, p.type = ptLoad → Passes fileSize bias p
  within : ∀ p ∈ ps, p.type = ptLoad → s'.start ≤ bias + p.vaddr ∧ bias + p.vaddr + p.memsz ≤ s'.stop
  entry : s'.entryIsExecutable = true → s.entryIsExecutable = true ∨
    ∃ p ∈ ps, p.type = ptLoad ∧ isExecutable p = true ∧ bias + p.vaddr ≤ bias + ehdr.entry ∧
      bias + ehdr.entry < bias + p.vaddr + p.memsz

variable {ehdr : Ehdr} {fileSize bias : Nat} {s s' s'' : Span} {p : Phdr} {ps qs : List Phdr}

theorem Widens.refl : Widens ehdr fileSize bias s s [] :=
  ⟨Nat.le_refl _, Nat.le_refl _, .inl rfl, .inl rfl, nofun, nofun, .inl⟩

theorem Widens.trans (h : Widens ehdr fileSize bias s s' ps) (h' : Widens ehdr fileSize bias s' s'' qs) :
    Widens ehdr fileSize bias s s'' (ps ++ qs) := by
  constructor
  · exact Nat.le_trans h'.start h.start
  · exact Nat.le_trans h.stop h'.stop
  · obtain hSame | hPage := h'.startPage
    · rw [hSame]
      exact h.startPage
    · exact .inr hPage
  · obtain hSame | hPage := h'.stopPage
    · rw [hSame]
      exact h.stopPage
    · exact .inr hPage
  · intro p hp hLoad
    obtain hIn | hIn := List.mem_append.mp hp
    · exact h.passes p hIn hLoad
    · exact h'.passes p hIn hLoad
  · intro p hp hLoad
    obtain hIn | hIn := List.mem_append.mp hp
    · obtain ⟨hFrom, hTo⟩ := h.within p hIn hLoad
      exact ⟨Nat.le_trans h'.start hFrom, Nat.le_trans hTo h'.stop⟩
    · exact h'.within p hIn hLoad
  · intro hExec
    obtain hBefore | ⟨p, hp, hRest⟩ := h'.entry hExec
    · obtain hFirst | ⟨p, hp, hRest⟩ := h.entry hBefore
      · exact .inl hFirst
      · exact .inr ⟨p, List.mem_append_left _ hp, hRest⟩
    · exact .inr ⟨p, List.mem_append_right _ hp, hRest⟩

theorem checkSegment_failed (s : Span) (p : Phdr) : Stops Failed (checkSegment ehdr fileSize bias s p) := by
  rw [checkSegment]
  split
  · exact .ok _
  split
  · exact .failed _
  split
  · exact .failed _
  dsimp only
  split
  · exact .failed _
  · exact .ok _

theorem checkSegment_widens (h : checkSegment ehdr fileSize bias s p = .ok s') :
    Widens ehdr fileSize bias s s' [p] := by
  rw [checkSegment] at h
  split at h
  · next hOther =>
    cases h
    refine ⟨Nat.le_refl _, Nat.le_refl _, .inl rfl, .inl rfl, ?_, ?_, .inl⟩
    · exact fun q hq hLoad => absurd (List.mem_singleton.mp hq ▸ hLoad) hOther
    · exact fun q hq hLoad => absurd (List.mem_singleton.mp hq ▸ hLoad) hOther
  next hLoad =>
  split at h
  · cases h
  next hSizes =>
  split at h
  · cases h
  next hWrap =>
  dsimp only at h
  split at h
  · cases h
  next hPlace =>
  cases h
  rw [not_or, Nat.not_lt, Bool.not_eq_false, elfRangeInFile_iff] at hSizes
  rw [not_or, not_or, Nat.not_lt] at hPlace
  obtain ⟨hSome, -, hAbove⟩ := hPlace
  have hPage := pageSize_le_paddingDown hAbove
  constructor
  · exact Nat.min_le_left ..
  · exact Nat.le_max_left ..
  · obtain hLe | hLe := Nat.le_total s.start (paddingDown (bias + p.vaddr))
    · exact .inl (Nat.min_eq_left hLe)
    · right
      dsimp only
      rw [Nat.min_eq_right hLe]
      exact ⟨pageSize_dvd_paddingDown _, hPage⟩
  · obtain hLe | hLe := Nat.le_total s.stop (paddingUp (bias + p.vaddr + p.memsz))
    · right
      dsimp only
      rw [Nat.max_eq_right hLe]
      exact pageSize_dvd_paddingDown _
    · exact .inl (Nat.max_eq_left hLe)
  · intro q hq _
    rw [List.mem_singleton.mp hq]
    exact ⟨hSizes.1, hSizes.2, Nat.pos_of_ne_zero hSome, hAbove⟩
  · intro q hq _
    rw [List.mem_singleton.mp hq]
    exact ⟨Nat.le_trans (Nat.min_le_right ..) (paddingDown_le _), Nat.le_trans (le_paddingUp _) (Nat.le_max_right ..)⟩
  · intro hExec
    rw [Bool.or_eq_true] at hExec
    refine hExec.symm.imp id fun hHere => ⟨p, List.mem_singleton_self _, Decidable.not_not.mp hLoad, ?_⟩
    simp only [Bool.and_eq_true, decide_eq_true_eq] at hHere
    exact ⟨hHere.1.1.1, hHere.1.2, hHere.2⟩

theorem checkFold_widens (h : ps.foldlM (checkSegment ehdr fileSize bias) s = .ok s') :
    Widens ehdr fileSize bias s s' ps := by
  induction ps generalizing s with
  | nil =>
    cases h
    exact .refl
  | cons p ps ih =>
    rw [List.foldlM_cons] at h
    cases hStep : checkSegment ehdr fileSize bias s p with
    | error e =>
      rw [hStep] at h
      cases h
    | ok t =>
      rw [hStep] at h
      exact (checkSegment_widens hStep).trans (ih h)

structure Checked (img : Image) (s : Span) : Prop where
  header : checkHeader img.buf = .ok (ehdrOf img.buf)
  checks : checkSegments (ehdrOf img.buf) (phdrsOf img.buf) img.buf.length img.bias = .ok s
  table : img.phoff + sizeofPhdr * (ehdrOf img.buf).phnum ≤ img.buf.length
  startPage : pageSize ∣ s.start
  stopPage : pageSize ∣ s.stop
  above : pageSize ≤ s.start
  order : s.start < s.stop
  passes : ∀ p ∈ img.loads, Passes img.buf.length img.bias p
  within : ∀ p ∈ img.loads, s.start ≤ img.address p ∧ img.address p + p.memsz ≤ s.stop
  entry : ∃ p ∈ img.loads, isExecutable p = true ∧ img.At p (img.bias + (ehdrOf img.buf).entry)

theorem readEhdr_ok {buf : Bytes} (h : sizeofEhdr ≤ buf.length) : readEhdr buf = .ok (ehdrOf buf) := by
  have hReadable : readable buf 0 sizeofEhdr = .ok () := if_pos (by
    rw [zero_add]
    exact Nat.le_trans h (le_paddingUp _))
  rw [readEhdr, hReadable]
  rfl

theorem checkHeader_failed (buf : Bytes) : Stops Failed (checkHeader buf) := by
  rw [checkHeader]
  split
  · exact .failed _
  next hSize =>
  rw [Bool.not_eq_false, elfRangeInFile_iff, zero_add] at hSize
  rw [readEhdr_ok hSize]
  dsimp only [Bind.bind, Except.bind]
  split
  · exact .failed _
  split
  · exact .failed _
  · exact .ok _

theorem checkHeader_ok {buf : Bytes} {ehdr : Ehdr} (h : checkHeader buf = .ok ehdr) :
    ehdr = ehdrOf buf ∧ (ehdrOf buf).phentsize = sizeofPhdr ∧
      (ehdrOf buf).phoff + sizeofPhdr * (ehdrOf buf).phnum ≤ buf.length := by
  rw [checkHeader] at h
  split at h
  · cases h
  next hSize =>
  rw [Bool.not_eq_false, elfRangeInFile_iff, zero_add] at hSize
  rw [readEhdr_ok hSize] at h
  dsimp only [Bind.bind, Except.bind] at h
  split at h
  · cases h
  next hFields =>
  split at h
  · cases h
  cases h
  simp only [not_or, Decidable.not_not, Bool.not_eq_false, elfRangeInFile_iff] at hFields
  obtain ⟨-, hSizeof, -, -, hTable⟩ := hFields
  rw [hSizeof, mul_comm] at hTable
  exact ⟨rfl, hSizeof, hTable⟩

theorem checkSegments_failed {phdrs : List Phdr} : Stops Failed (checkSegments ehdr phdrs fileSize bias) := by
  refine (Stops.foldlM (fun s p _ => checkSegment_failed s p) _).bind fun s _ => ?_
  split
  · exact .failed _
  · exact .ok _

theorem Image.span_failed (img : Image) : Stops Failed img.span :=
  (checkHeader_failed _).bind fun _ _ => checkSegments_failed

theorem Image.mem_loads {img : Image} : p ∈ img.loads ↔ p ∈ phdrsOf img.buf ∧ p.type = ptLoad := by
  rw [loads, List.mem_filter, decide_eq_true_eq]

theorem Image.checked {img : Image} (h : img.span = .ok s) : Checked img s := by
  rw [span] at h
  cases hHeader : checkHeader img.buf with
  | error e =>
    rw [hHeader] at h
    cases h
  | ok ehdr =>
    obtain ⟨rfl, -, hTable⟩ := checkHeader_ok hHeader
    rw [hHeader] at h
    replace h : checkSegments (ehdrOf img.buf) (phdrsOf img.buf) img.buf.length img.bias = .ok s := h
    have hChecks := h
    rw [checkSegments] at h
    cases hFold : (phdrsOf img.buf).foldlM (checkSegment (ehdrOf img.buf) img.buf.length img.bias)
        { start := maxU64, stop := 0, entryIsExecutable := false } with
    | error e =>
      rw [hFold] at h
      cases h
    | ok t =>
      rw [hFold] at h
      dsimp only [Bind.bind, Except.bind] at h
      split at h
      · cases h
      next hSpan =>
      cases h
      simp only [not_or, Nat.not_le, Nat.not_lt, Bool.not_eq_false, Bool.not_eq_true] at hSpan
      obtain ⟨hSome, hOrder, -, -, hEntry⟩ := hSpan
      have hWidens := checkFold_widens hFold
      have hStart := hWidens.startPage.resolve_left hSome
      have hStop := hWidens.stopPage.resolve_left (Nat.ne_of_gt (Nat.lt_of_le_of_lt (Nat.zero_le _) hOrder))
      refine ⟨hHeader, hChecks, hTable, hStart.1, hStop, hStart.2, hOrder, ?_, ?_, ?_⟩
      · exact fun p hp => hWidens.passes p (mem_loads.mp hp).1 (mem_loads.mp hp).2
      · exact fun p hp => hWidens.within p (mem_loads.mp hp).1 (mem_loads.mp hp).2
      · obtain hNever | ⟨p, hp, hLoad, hExec, hAt⟩ := hWidens.entry hEntry
        · cases hNever
        · exact ⟨p, mem_loads.mpr ⟨hp, hLoad⟩, hExec, hAt⟩

end OpenXJ380.User
