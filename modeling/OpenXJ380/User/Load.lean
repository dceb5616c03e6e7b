import Mathlib.Algebra.Group.Nat.Defs
import OpenXJ380.Errno

/-! # Executables (`kernel/user/user.cpp`, `include/elf.h`)

A file is read into whole pages, with zeros behind it. What is read behind these pages
belongs to somebody else, so that such a read ends here.
-/

namespace OpenXJ380.User

section

open Errno

abbrev Bytes := List UInt8

def pageSize : Nat := 4096

/-- `KERNEL_AREA_MEM`. -/
def kernelAreaMem : Nat := 0xf000000000000000

def userEnd : Nat := 2 ^ 47

/-- `~0ULL`. -/
def maxU64 : Nat := 2 ^ 64 - 1

def userDynMainBase : Nat := 0x40000000
def userInterpBase : Nat := 0x60000000

/-- Why a function does not go on: it returns an error or `NULL`, or an access is not to what it is meant for. -/
inductive Stop where
  | failed (error : Int)
  | null
  | readOutside
  | writeOutside
  | pageFault
deriving DecidableEq

def paddingDown (a : Nat) : Nat := a / pageSize * pageSize
def paddingUp (a : Nat) : Nat := paddingDown (a + pageSize - 1)

def checkUserOverflow (addr size : Nat) : Bool :=
  if size = 0 then false else if kernelAreaMem ≤ addr then true else kernelAreaMem - addr < size

def elfRangeInFile (offset size fileSize : Nat) : Bool := offset ≤ fileSize && size ≤ fileSize - offset

def littleEndian : Bytes → Nat
  | [] => 0
  | b :: bs => b.toNat + 256 * littleEndian bs

/-- The number in `n` bytes of a buffer. -/
def numberAt (buf : Bytes) (offset n : Nat) : Nat :=
  littleEndian ((List.range n).map fun k => buf.getD (offset + k) 0)

def ptLoad : Nat := 1
def ptInterp : Nat := 3
def ptPhdr : Nat := 6
def etExec : Nat := 2
def etDyn : Nat := 3
def elfosabiLinux : Nat := 3
def elfMagic : Nat := 0x464C457F
def epfMagic : Nat := 0x46504524

structure Ehdr where
  magic : Nat
  osabi : Nat
  type : Nat
  entry : Nat
  phoff : Nat
  phentsize : Nat
  phnum : Nat

structure Phdr where
  type : Nat
  flags : Nat
  offset : Nat
  vaddr : Nat
  filesz : Nat
  memsz : Nat

def sizeofEhdr : Nat := 64
def sizeofPhdr : Nat := 56

def ehdrOf (buf : Bytes) : Ehdr where
  magic := numberAt buf 0 4
  osabi := numberAt buf 7 1
  type := numberAt buf 16 2
  entry := numberAt buf 24 8
  phoff := numberAt buf 32 8
  phentsize := numberAt buf 54 2
  phnum := numberAt buf 56 2

def phdrOf (buf : Bytes) (offset : Nat) : Phdr where
  type := numberAt buf offset 4
  flags := numberAt buf (offset + 4) 4
  offset := numberAt buf (offset + 8) 8
  vaddr := numberAt buf (offset + 16) 8
  filesz := numberAt buf (offset + 32) 8
  memsz := numberAt buf (offset + 40) 8

def phdrsOf (buf : Bytes) : List Phdr :=
  (List.range (ehdrOf buf).phnum).map fun i => phdrOf buf ((ehdrOf buf).phoff + sizeofPhdr * i)

def readable (buf : Bytes) (offset n : Nat) : Except Stop Unit :=
  if offset + n ≤ paddingUp buf.length then .ok () else .error .readOutside

def readNumber (buf : Bytes) (offset n : Nat) : Except Stop Nat := do
  readable buf offset n
  return numberAt buf offset n

def readEhdr (buf : Bytes) : Except Stop Ehdr := do
  readable buf 0 sizeofEhdr
  return ehdrOf buf

def readPhdrs (buf : Bytes) (ehdr : Ehdr) : Except Stop (List Phdr) :=
  (List.range ehdr.phnum).mapM fun i => do
    readable buf (ehdr.phoff + sizeofPhdr * i) sizeofPhdr
    return phdrOf buf (ehdr.phoff + sizeofPhdr * i)

/-- The source of a `memcpy`. -/
def readBytes (buf : Bytes) (offset n : Nat) : Except Stop Bytes := do
  readable buf offset n
  return (List.range n).map fun k => buf.getD (offset + k) 0

/-- The size of `interp_path`. -/
def interpSize : Nat := 256

/-- The loop of `find_elf_interpreter` from header `i` on, with `n` headers to go. -/
def findInterpFrom (buf : Bytes) (phoff : Nat) : Nat → Nat → Except Stop Bytes
  | 0, _ => .ok []
  | n + 1, i => do
    let type ← readNumber buf (phoff + sizeofPhdr * i) 4
    if type ≠ ptInterp then findInterpFrom buf phoff n (i + 1)
    else
      let filesz ← readNumber buf (phoff + sizeofPhdr * i + 32) 8
      if filesz = 0 ∨ interpSize ≤ filesz then .error (.failed (-ENAMETOOLONG))
      else
        let offset ← readNumber buf (phoff + sizeofPhdr * i + 8) 8
        if elfRangeInFile offset filesz buf.length then readBytes buf offset filesz
        else .error (.failed (-ENOEXEC))

def findElfInterpreter (buf : Bytes) : Except Stop Bytes := do
  let ehdr ← readEhdr buf
  if elfRangeInFile ehdr.phoff (ehdr.phnum * ehdr.phentsize) buf.length then
    let path ← findInterpFrom buf ehdr.phoff ehdr.phnum 0
    return path.takeWhile (· ≠ 0)
  else .error (.failed (-ENOEXEC))

structure Span where
  start : Nat
  stop : Nat
  entryIsExecutable : Bool

def loadBias (ehdr : Ehdr) (dynBase : Nat) : Nat := if ehdr.type = etDyn then dynBase else 0

def isExecutable (p : Phdr) : Bool := p.flags % 2 = 1

def checkSegment (ehdr : Ehdr) (fileSize bias : Nat) (span : Span) (p : Phdr) : Except Stop Span :=
  if p.type ≠ ptLoad then .ok span
  else if p.memsz < p.filesz ∨ elfRangeInFile p.offset p.filesz fileSize = false then .error (.failed (-ENOEXEC))
  else if maxU64 - bias < p.vaddr then .error (.failed (-ENOEXEC))
  else
    let segStart := bias + p.vaddr
    if p.memsz = 0 ∨ checkUserOverflow segStart p.memsz = true ∨ segStart < pageSize then
      .error (.failed (-ENOEXEC))
    else
      let segEnd := segStart + p.memsz
      let here := isExecutable p && ehdr.entry ≤ maxU64 - bias && segStart ≤ bias + ehdr.entry &&
        bias + ehdr.entry < segEnd
      .ok { start := min span.start (paddingDown segStart)
            stop := max span.stop (paddingUp segEnd)
            entryIsExecutable := here || span.entryIsExecutable }

def maxUserElfSpan : Nat := 2 ^ 30

/-- The checks of `load_user_elf_image` behind those of the header. -/
def checkSegments (ehdr : Ehdr) (phdrs : List Phdr) (fileSize bias : Nat) : Except Stop Span := do
  let span ← phdrs.foldlM (checkSegment ehdr fileSize bias) { start := maxU64, stop := 0, entryIsExecutable := false }
  if span.start = maxU64 ∨ span.stop ≤ span.start ∨ maxUserElfSpan < span.stop - span.start ∨
      checkUserOverflow span.start (span.stop - span.start) = true ∨ span.entryIsExecutable = false then
    .error (.failed (-ENOEXEC))
  else return span

/-- The checks of the header; `e_ident` and the rest are not looked at in a file that is too short. -/
def checkHeader (buf : Bytes) : Except Stop Ehdr := do
  if elfRangeInFile 0 sizeofEhdr buf.length = false then .error (.failed (-ENOEXEC))
  else
    let ehdr ← readEhdr buf
    if ehdr.magic ≠ elfMagic ∨ ehdr.phentsize ≠ sizeofPhdr ∨ ehdr.phnum = 0 ∨
        buf.length / sizeofPhdr < ehdr.phnum ∨
        elfRangeInFile ehdr.phoff (ehdr.phnum * ehdr.phentsize) buf.length = false then .error (.failed (-ENOEXEC))
    else if ehdr.type ≠ etExec ∧ ehdr.type ≠ etDyn then .error (.failed (-ENOEXEC))
    else return ehdr

end

/-! # Loading an executable (`kernel/user/user.cpp`, `kernel/memory/page.cpp`)

The program and its interpreter are written into the user half of the page directory of a
process, one after the other. What is missing outside is a parameter: the files, and whether
there is memory.
-/

open Errno

structure Memory where
  mapped : Nat → Bool
  byte : Nat → UInt8

def Memory.fresh : Memory := ⟨fun _ => false, fun _ => 0⟩

def userPages : Nat := userEnd / pageSize

/-- Every page of the user half in which there is one of the `n` addresses from `start` on is mapped. -/
def Memory.covers (m : Memory) (start n : Nat) : Bool :=
  (List.range' (start / pageSize) ((start + n - 1) / pageSize + 1 - start / pageSize)).all fun page =>
    userPages ≤ page || m.mapped page

/-- `memset` and `memcpy` to `n` addresses from `start` on, upwards. -/
def Memory.write (m : Memory) (start n : Nat) (value : Nat → UInt8) : Except Stop Memory :=
  if n = 0 then .ok m
  else if start < pageSize then .error .writeOutside
  else if m.covers start n = false then .error .pageFault
  else if userEnd < start + n then .error .writeOutside
  else .ok { m with byte := fun a => if start ≤ a ∧ a < start + n then value a else m.byte a }

/-- A page of zeros. A page of the upper half is not followed: the `memset` behind does not get past it. -/
def Memory.map (m : Memory) (page : Nat) : Memory where
  mapped := fun q => if q = page then true else m.mapped q
  byte := fun a => if a / pageSize = page then 0 else m.byte a

/-- The loop of `page_map_range_to_random` from a page on, with `n` pages to go; `frame` says for which of them
`alloc_frames` has a frame. -/
def pageMapRangeToRandom (frame : Nat → Bool) (m : Memory) : Nat → Nat → Memory
  | 0, _ => m
  | n + 1, page => pageMapRangeToRandom frame (if frame page then m.map page else m) n (page + 1)

structure Area where
  start : Nat
  stop : Nat

def Area.intersects (a : Area) (start stop : Nat) : Bool := a.start < stop && start < a.stop

/-- `vma_insert`, behind a `vma_alloc` that may fail. -/
def vmaInsert (alloc : Bool) (areas : List Area) (a : Area) : List Area :=
  if alloc = false then areas
  else if areas.any fun b => b.intersects a.start a.stop then areas
  else (areas.takeWhile fun b => b.start < a.start) ++ a :: areas.dropWhile fun b => b.start < a.start

/-- What a process gets: pages, areas and what the kernel tells the program. -/
structure Process where
  memory : Memory
  areas : List Area
  linuxAbi : Bool
  loadStart : Nat
  auxPhdr : Nat
  auxPhent : Nat
  auxPhnum : Nat
  auxBase : Nat
  auxEntry : Nat
  auxExecfn : Nat
  elfSize : Nat

structure LoadedUserElf where
  mapStart : Nat
  mapEnd : Nat
  loadBias : Nat
  entry : Nat
  phdr : Nat
  phent : Nat
  phnum : Nat

structure Supply where
  frame : Nat → Bool
  vma : Bool
  buffer : Bool

def zeroRest (bias : Nat) (p : Phdr) (m : Memory) : Except Stop Memory :=
  if p.filesz < p.memsz then m.write (bias + p.vaddr + p.filesz) (p.memsz - p.filesz) fun _ => 0 else .ok m

/-- One round of the loop that copies the segments; it looks for the program headers too. -/
def copySegment (buf : Bytes) (phoff bias : Nat) (state : Memory × Nat) (p : Phdr) : Except Stop (Memory × Nat) :=
  if p.type ≠ ptLoad then .ok state
  else do
    let bytes ← readBytes buf p.offset p.filesz
    let m ← state.1.write (bias + p.vaddr) p.filesz fun a => bytes.getD (a - (bias + p.vaddr)) 0
    let m ← zeroRest bias p m
    let phdrAddr :=
      if state.2 = 0 ∧ p.offset ≤ phoff ∧ phoff < p.offset + p.filesz then bias + p.vaddr + (phoff - p.offset)
      else state.2
    return (m, phdrAddr)

/-- What `PT_PHDR` says, or 0. -/
def phdrAddress (phdrs : List Phdr) (bias : Nat) : Nat :=
  match phdrs.find? fun p => p.type = ptPhdr with
  | none => 0
  | some p => (bias + p.vaddr) % 2 ^ 64

def loadUserElfImage (supply : Supply) (buf : Bytes) (dynBase : Nat) (memory : Memory) (areas : List Area) :
    Except Stop (Memory × List Area × LoadedUserElf) := do
  let ehdr ← checkHeader buf
  let phdrs ← readPhdrs buf ehdr
  let bias := loadBias ehdr dynBase
  let span ← checkSegments ehdr phdrs buf.length bias
  let mapped := pageMapRangeToRandom supply.frame memory ((span.stop - span.start) / pageSize) (span.start / pageSize)
  let zeroed ← mapped.write span.start (span.stop - span.start) fun _ => 0
  let copied ← phdrs.foldlM (copySegment buf ehdr.phoff bias) (zeroed, phdrAddress phdrs bias)
  return (copied.1, vmaInsert supply.vma areas ⟨span.start, span.stop⟩,
    { mapStart := span.start, mapEnd := span.stop, loadBias := bias, entry := bias + ehdr.entry, phdr := copied.2
      phent := ehdr.phentsize, phnum := ehdr.phnum })

structure File where
  bytes : Bytes
  short : Bool

/-- What is outside: the files by their paths, and the memory for the program and for its interpreter. -/
structure World where
  file : Bytes → Option File
  program : Supply
  interpreter : Supply

def readVfsFile (supply : Supply) (file : File) : Except Stop Bytes :=
  if file.bytes.length = 0 then .error (.failed (-ENOEXEC))
  else if supply.buffer = false then .error (.failed (-ENOMEM))
  else if file.short then .error (.failed (-Eio))
  else .ok file.bytes

/-- The first half of `parse_elf_file`: the buffers of the program and of its interpreter. -/
def readImages (w : World) (path : Bytes) : Except Stop (Bytes × Option Bytes) := do
  match w.file path with
  | none => .error .null
  | some file =>
    let buf ← readVfsFile w.program file
    if buf.length < sizeofEhdr then .error (.failed (-ENOEXEC))
    else
      let ehdr ← readEhdr buf
      if ehdr.magic ≠ elfMagic ∧ ehdr.magic ≠ epfMagic then .error .null
      else
        let interpPath ← findElfInterpreter buf
        if interpPath = [] then return (buf, none)
        else
          match w.file interpPath with
          | none => .error (.failed (-ENOENT))
          | some interp =>
            let interpBuf ← readVfsFile w.interpreter interp
            return (buf, some interpBuf)

def loadImages (w : World) (memory : Memory) (buf : Bytes) (interp : Option Bytes) : Except Stop (Nat × Process) := do
  let (memory, areas, main) ← loadUserElfImage w.program buf userDynMainBase memory []
  let process : Process :=
    { memory := memory, areas := areas, linuxAbi := (ehdrOf buf).osabi = elfosabiLinux, loadStart := main.mapStart
      auxPhdr := main.phdr, auxPhent := main.phent, auxPhnum := main.phnum, auxBase := 0, auxEntry := main.entry
      auxExecfn := 0, elfSize := buf.length }
  match interp with
  | none => return (main.entry, process)
  | some interpBuf =>
    let (memory, areas, loaded) ← loadUserElfImage w.interpreter interpBuf userInterpBase memory areas
    return (loaded.entry,
      { process with memory := memory, areas := areas, linuxAbi := true, auxBase := loaded.loadBias })

/-- `parse_elf_file` for a process without pages and areas. -/
def parseElfFile (w : World) (path : Bytes) : Except Stop (Nat × Process) := do
  let (buf, interp) ← readImages w path
  loadImages w .fresh buf interp

end OpenXJ380.User
