import OpenXJ380.User.Written

/-! # Programs that are loaded exactly

What a program file and its interpreter must be like for `parse_elf_file` to stay in its
buffers and in the user half, and to leave both images in the memory as they are in the
files.
-/

namespace OpenXJ380.User

open Errno

/-- A segment that has all program headers has the first of them at this address. -/
def Image.LoadsTableAt (img : Image) (addr : Nat) : Prop :=
  ∃ p ∈ img.loads, p.offset ≤ img.phoff ∧
    img.phoff + sizeofPhdr * (ehdrOf img.buf).phnum ≤ p.offset + p.filesz ∧
    addr = img.address p + (img.phoff - p.offset)

structure LoadedExactly (prog : Image) (interp : Option Image) (entry : Nat) (process : Process) : Prop where
  program : prog.Disjoint → process.memory.Holds prog
  interpreter : ∀ img, interp = some img → img.Disjoint → process.memory.Holds img
  entry : ∃ p ∈ (interp.getD prog).loads, isExecutable p = true ∧ (interp.getD prog).At p entry
  phdr : prog.LoadsTableAt process.auxPhdr
  areas : ∀ img, img = prog ∨ interp = some img → ∀ p ∈ img.loads, ∀ a, img.At p a →
    ∃ area ∈ process.areas, area.start ≤ a ∧ a < area.stop

def programImage (buf : Bytes) : Image := ⟨buf, userDynMainBase⟩
def interpImage (buf : Bytes) : Image := ⟨buf, userInterpBase⟩

/-- `parse_elf_file` does what it is for. -/
structure LoadsExactly (w : World) (path : Bytes) : Prop where
  reads : parseElfFile w path ≠ .error .readOutside
  writes : parseElfFile w path ≠ .error .writeOutside
  loaded : ∀ buf interp entry process, readImages w path = .ok (buf, interp) →
    parseElfFile w path = .ok (entry, process) →
    LoadedExactly (programImage buf) (interp.map interpImage) entry process

def typeAt (buf : Bytes) (phoff i : Nat) : Nat := numberAt buf (phoff + sizeofPhdr * i) 4

/-- Of the program headers up to the first `PT_INTERP`, what is looked at is in the pages of the buffer. -/
def LookedAt (buf : Bytes) (phoff start stop : Nat) : Prop :=
  ∀ i, start ≤ i → i < stop → (∀ j, start ≤ j → j < i → typeAt buf phoff j ≠ ptInterp) →
    phoff + sizeofPhdr * i + 4 ≤ paddingUp buf.length ∧
    (typeAt buf phoff i = ptInterp → phoff + sizeofPhdr * i + 40 ≤ paddingUp buf.length)

structure TableClaimed (buf : Bytes) : Prop where
  size : sizeofEhdr ≤ buf.length
  magic : (ehdrOf buf).magic = elfMagic ∨ (ehdrOf buf).magic = epfMagic
  table : elfRangeInFile (ehdrOf buf).phoff ((ehdrOf buf).phnum * (ehdrOf buf).phentsize) buf.length = true

/-- `PT_PHDR` is right where there is one, and otherwise the first segment that has the first byte of the program
headers has all of them. -/
structure Image.PhdrFits (img : Image) : Prop where
  given : ∀ q, ((phdrsOf img.buf).find? fun q => q.type = ptPhdr) = some q → (img.bias + q.vaddr) % 2 ^ 64 ≠ 0 →
    img.LoadsTableAt ((img.bias + q.vaddr) % 2 ^ 64)
  found : (∀ q, ((phdrsOf img.buf).find? fun q => q.type = ptPhdr) = some q → (img.bias + q.vaddr) % 2 ^ 64 = 0) →
    ∃ p, (img.loads.find? fun p => img.Starts p) = some p ∧
      img.LoadsTableAt (img.address p + (img.phoff - p.offset))

def Span.has (s : Span) (page : Nat) : Bool := s.start ≤ page * pageSize && page * pageSize < s.stop

def Image.Within (img : Image) (s : Span) : Prop :=
  ∀ p ∈ img.loads, s.start ≤ img.address p ∧ img.address p + p.memsz ≤ s.stop

def Span.Apart (s t : Span) : Prop := s.stop ≤ t.start ∨ t.stop ≤ s.start

/-- Where the span of the interpreter meets a segment of the program the bytes are the same. -/
def Agree (prog interp : Image) (t : Span) : Prop :=
  ∀ p ∈ prog.loads, ∀ a, prog.At p a → t.start ≤ a → a < t.stop →
    interp.byteAt a = prog.byteOf p (a - prog.address p)

def AreasFit (w : World) (prog interp : Image) (s t : Span) : Prop :=
  if w.program.vma = true then w.interpreter.vma = true ∧ s.Apart t ∨ interp.Within s
  else w.interpreter.vma = true ∧ prog.Within t

/-- A program without an interpreter that passes the checks, and for whose pages there are frames. -/
def FitsAlone (w : World) (prog : Image) : Prop :=
  ∀ s, prog.span = .ok s → MappedIn w.program.frame s.start s.stop →
    s.stop ≤ userEnd ∧ w.program.vma = true ∧ prog.PhdrFits

def FitsWith (w : World) (prog interp : Image) : Prop :=
  ∀ s, prog.span = .ok s → MappedIn w.program.frame s.start s.stop →
    s.stop ≤ userEnd ∧
    ∀ t, interp.span = .ok t → MappedIn (fun page => w.interpreter.frame page || s.has page) t.start t.stop →
      t.stop ≤ userEnd ∧ (prog.Disjoint → Agree prog interp t) ∧ AreasFit w prog interp s t ∧ prog.PhdrFits

structure Fits (w : World) (path : Bytes) : Prop where
  table : ∀ file buf, w.file path = some file → readVfsFile w.program file = .ok buf → TableClaimed buf →
    LookedAt buf (ehdrOf buf).phoff 0 (ehdrOf buf).phnum
  alone : ∀ buf, readImages w path = .ok (buf, none) → FitsAlone w (programImage buf)
  both : ∀ buf interp, readImages w path = .ok (buf, some interp) →
    FitsWith w (programImage buf) (interpImage interp)

section

variable {buf : Bytes} {phoff : Nat}

theorem readNumber_inside {offset n : Nat} (h : offset + n ≤ paddingUp buf.length) :
    readNumber buf offset n = .ok (numberAt buf offset n) := by
  rw [readNumber, readable, if_pos h]
  rfl

theorem readNumber_outside {offset n : Nat} (h : ¬ offset + n ≤ paddingUp buf.length) :
    readNumber buf offset n = .error .readOutside := by
  rw [readNumber, readable, if_neg h]
  rfl

theorem lookedAt_succ {i n : Nat} : LookedAt buf phoff i (i + (n + 1)) ↔
    phoff + sizeofPhdr * i + 4 ≤ paddingUp buf.length ∧
    (typeAt buf phoff i = ptInterp → phoff + sizeofPhdr * i + 40 ≤ paddingUp buf.length) ∧
    (typeAt buf phoff i ≠ ptInterp → LookedAt buf phoff (i + 1) (i + 1 + n)) := by
  constructor
  · intro h
    obtain ⟨hType, hRest⟩ := h i (Nat.le_refl i) (by omega) fun j hFrom hTo => absurd hTo (Nat.not_lt_of_le hFrom)
    refine ⟨hType, hRest, fun hOther k hFrom hTo hNone => h k (by omega) (by omega) ?_⟩
    intro j hFrom' hTo'
    obtain rfl | hLater := Nat.eq_or_lt_of_le hFrom'
    · exact hOther
    · exact hNone j hLater hTo'
  · rintro ⟨hType, hInterp, hRest⟩ k hFrom hTo hNone
    obtain rfl | hLater := Nat.eq_or_lt_of_le hFrom
    · exact ⟨hType, hInterp⟩
    · refine hRest (hNone i (Nat.le_refl i) hLater) k hLater (by omega) ?_
      exact fun j hFrom' hTo' => hNone j (Nat.le_of_succ_le hFrom') hTo'

theorem findInterpFrom_inside (n i : Nat) :
    findInterpFrom buf phoff n i ≠ .error .readOutside ↔ LookedAt buf phoff i (i + n) := by
  induction n generalizing i with
  | zero =>
    refine iff_of_true (by rw [findInterpFrom]; rintro ⟨⟩) ?_
    exact fun k hFrom hTo => absurd hTo (Nat.not_lt_of_le hFrom)
  | succ n ih =>
    rw [findInterpFrom, lookedAt_succ]
    obtain hType | hType := Decidable.em (phoff + sizeofPhdr * i + 4 ≤ paddingUp buf.length)
    · have hTypeAt : numberAt buf (phoff + sizeofPhdr * i) 4 = typeAt buf phoff i := rfl
      rw [readNumber_inside hType, and_iff_right hType]
      dsimp only [Bind.bind, Except.bind]
      rw [hTypeAt]
      obtain hInterp | hOther := Decidable.em (typeAt buf phoff i = ptInterp)
      · rw [if_neg (not_not_intro hInterp), and_iff_left fun h => absurd hInterp h, forall_prop_of_true hInterp]
        obtain hSize | hSize := Decidable.em (phoff + sizeofPhdr * i + 32 + 8 ≤ paddingUp buf.length)
        · refine iff_of_true ?_ hSize
          have hOffset : phoff + sizeofPhdr * i + 8 + 8 ≤ paddingUp buf.length := by omega
          rw [readNumber_inside hSize]
          dsimp only
          split
          · rintro ⟨⟩
          rw [readNumber_inside hOffset]
          dsimp only
          split
          · next hFile =>
            rw [elfRangeInFile_iff] at hFile
            rw [readBytes, readable, if_pos (Nat.le_trans hFile (le_paddingUp _))]
            rintro ⟨⟩
          · rintro ⟨⟩
        · rw [readNumber_outside hSize]
          exact iff_of_false (fun h => h rfl) hSize
      · rw [if_pos hOther, ih, and_iff_right (absurd · hOther)]
        exact ⟨fun h _ => h, fun h => h hOther⟩
    · rw [readNumber_outside hType]
      exact iff_of_false (fun h => h rfl) (fun h => hType h.1)

theorem findElfInterpreter_inside (hSize : sizeofEhdr ≤ buf.length) : findElfInterpreter buf ≠ .error .readOutside ↔
      (elfRangeInFile (ehdrOf buf).phoff ((ehdrOf buf).phnum * (ehdrOf buf).phentsize) buf.length →
        LookedAt buf (ehdrOf buf).phoff 0 (ehdrOf buf).phnum) := by
  rw [findElfInterpreter, readEhdr_ok hSize]
  dsimp only [Bind.bind, Except.bind]
  split
  · next hTable =>
    rw [forall_prop_of_true hTable, ← zero_add (ehdrOf buf).phnum, ← findInterpFrom_inside, zero_add]
    cases findInterpFrom buf (ehdrOf buf).phoff (ehdrOf buf).phnum 0 with
    | error e =>
      refine not_congr ⟨fun h => ?_, fun h => ?_⟩
      · cases h
        rfl
      · cases h
        rfl
    | ok path => exact iff_of_true nofun nofun
  · next hTable => exact iff_of_true nofun (absurd · hTable)

end

theorem readVfsFile_failed (supply : Supply) (file : File) : Stops Failed (readVfsFile supply file) := by
  rw [readVfsFile]
  split
  · exact .failed _
  split
  · exact .failed _
  split
  · exact .failed _
  · exact .ok _

theorem Failed.ne {e f : Stop} (h : Failed e) (hOther : ¬ Failed f) : e ≠ f := by
  rintro rfl
  exact hOther h

theorem not_failed_readOutside : ¬ Failed .readOutside := fun ⟨_, h⟩ => nomatch h

theorem not_failed_writeOutside : ¬ Failed .writeOutside := fun ⟨_, h⟩ => nomatch h

theorem Stops.ne {α : Type} {x : Except Stop α} {e : Stop} (h : Stops (· ≠ e) x) : x ≠ .error e :=
  fun hEq => h e hEq rfl

theorem findInterpFrom_noWrite (buf : Bytes) (phoff n i : Nat) :
    Stops (· ≠ .writeOutside) (findInterpFrom buf phoff n i) := by
  have hReadable : ∀ offset size, Stops (· ≠ .writeOutside) (readable buf offset size) := by
    intro offset size
    rw [readable]
    split
    · exact .ok _
    · exact .error (by rintro ⟨⟩)
  have hNumber : ∀ offset size, Stops (· ≠ .writeOutside) (readNumber buf offset size) :=
    fun offset size => (hReadable offset size).bind fun _ _ => .ok _
  induction n generalizing i with
  | zero => exact .ok _
  | succ n ih =>
    rw [findInterpFrom]
    refine (hNumber _ _).bind fun type _ => ?_
    split
    · exact ih (i + 1)
    refine (hNumber _ _).bind fun size _ => ?_
    split
    · exact .error (by rintro ⟨⟩)
    refine (hNumber _ _).bind fun offset _ => ?_
    split
    · exact (hReadable _ _).bind fun _ _ => .ok _
    · exact .error (by rintro ⟨⟩)

theorem readImages_noWrite (w : World) (path : Bytes) : readImages w path ≠ .error .writeOutside := by
  have hFile : ∀ supply file, Stops (· ≠ .writeOutside) (readVfsFile supply file) :=
    fun supply file => (readVfsFile_failed supply file).mono fun e h => h.ne not_failed_writeOutside
  refine Stops.ne ?_
  rw [readImages]
  split
  · exact .error nofun
  refine (hFile _ _).bind fun buf _ => ?_
  split
  · exact .error nofun
  next hSize =>
  rw [readEhdr_ok (Nat.le_of_not_lt hSize)]
  dsimp only [Bind.bind, Except.bind]
  split
  · exact .error nofun
  refine .bind ?_ fun interpPath _ => ?_
  · rw [findElfInterpreter, readEhdr_ok (Nat.le_of_not_lt hSize)]
    dsimp only [Bind.bind, Except.bind]
    split
    · exact (findInterpFrom_noWrite _ _ _ _).bind fun _ _ => .ok _
    · exact .error nofun
  split
  · exact .ok _
  split
  · exact .error nofun
  · exact (hFile _ _).bind fun _ _ => .ok _

theorem readImages_inside (w : World) (path : Bytes) : readImages w path ≠ .error .readOutside ↔
    ∀ file buf, w.file path = some file → readVfsFile w.program file = .ok buf → TableClaimed buf →
      LookedAt buf (ehdrOf buf).phoff 0 (ehdrOf buf).phnum := by
  have hFile : ∀ supply file, Stops (· ≠ .readOutside) (readVfsFile supply file) :=
    fun supply file => (readVfsFile_failed supply file).mono fun e h => h.ne not_failed_readOutside
  rw [readImages]
  cases hPath : w.file path with
  | none => exact iff_of_true nofun fun file buf h => nomatch h
  | some file =>
    dsimp only
    cases hRead : readVfsFile w.program file with
    | error e =>
      refine iff_of_true (Stops.ne (.error (hFile _ _ e hRead))) ?_
      intro file' buf hSome hOk
      cases hSome
      cases hRead.symm.trans hOk
    | ok buf =>
      have hOnly : (∀ file' buf', some file = some file' → readVfsFile w.program file' = .ok buf' → TableClaimed buf' →
          LookedAt buf' (ehdrOf buf').phoff 0 (ehdrOf buf').phnum) ↔
          (TableClaimed buf → LookedAt buf (ehdrOf buf).phoff 0 (ehdrOf buf).phnum) := by
        constructor
        · exact fun h => h file buf rfl hRead
        · intro h file' buf' hSome hOk
          cases hSome
          cases hRead.symm.trans hOk
          exact h
      rw [hOnly]
      dsimp only [Bind.bind, Except.bind]
      split
      · next hShort => exact iff_of_true nofun fun h => absurd hShort (Nat.not_lt_of_le h.size)
      next hSize =>
      rw [readEhdr_ok (Nat.le_of_not_lt hSize)]
      dsimp only
      split
      · next hMagic => exact iff_of_true nofun fun h => absurd h.magic (not_or.mpr hMagic)
      next hMagic =>
      have hClaimed : TableClaimed buf ↔
          elfRangeInFile (ehdrOf buf).phoff ((ehdrOf buf).phnum * (ehdrOf buf).phentsize) buf.length := by
        refine ⟨TableClaimed.table, fun h => ⟨Nat.le_of_not_lt hSize, ?_, h⟩⟩
        exact Decidable.or_iff_not_not_and_not.mpr hMagic
      rw [hClaimed, ← findElfInterpreter_inside (Nat.le_of_not_lt hSize)]
      cases findElfInterpreter buf with
      | error e =>
        refine not_congr ⟨fun h => ?_, fun h => ?_⟩
        · cases h
          rfl
        · cases h
          rfl
      | ok interpPath =>
        refine iff_of_true (Stops.ne ?_) nofun
        dsimp only
        split
        · exact .ok _
        split
        · exact .error nofun
        · exact (hFile _ _).bind fun _ _ => .ok _

end OpenXJ380.User
