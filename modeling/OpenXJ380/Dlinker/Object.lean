import Mathlib.Algebra.Group.Nat.Defs
import Mathlib.Data.List.Infix

/-! # Shared objects (`kernel/dlinker.cpp`)

A shared object is what its headers and its tables say: the segments, the symbols, the
libraries that it needs and the relocations. The bytes of the segments are not followed.
-/

namespace OpenXJ380.Dlinker

abbrev Name := List Char

def pageSize : Nat := 4096

/-- `~0ULL`. -/
def maxU64 : Nat := 2 ^ 64 - 1

def kernelModSpaceStart : Nat := 0xffffffffb0000000
def kernelModSpaceEnd : Nat := 0xffffffffc0000000
def userSoBaseStart : Nat := 0x40000000
def userSoBaseEnd : Nat := 0x80000000

def paddingDown (a : Nat) : Nat := a / pageSize * pageSize

/-- `PADDING_UP`, which may wrap. -/
def paddingUp (a : Nat) : Nat := paddingDown ((a + pageSize - 1) % 2 ^ 64)

def ptLoad : Nat := 1
def ptDynamic : Nat := 2
def elfMagic : Nat := 0x464C457F
def etDyn : Nat := 3
def em386 : Nat := 3
def emX8664 : Nat := 62
def evCurrent : Nat := 1
def sizeofEhdr : Nat := 64
def sizeofPhdr : Nat := 56
def sizeofDyn : Nat := 16

structure Ehdr where
  magic : Nat
  version : Nat
  ehsize : Nat
  phentsize : Nat
  machine : Nat
  type : Nat
  phoff : Nat

/-- A program header. For `PT_DYNAMIC`, `terminated` says whether one of the entries in the file is `DT_NULL`. -/
structure Phdr where
  type : Nat
  offset : Nat
  vaddr : Nat
  filesz : Nat
  memsz : Nat
  terminated : Bool

def stbLocal : Nat := 0
def stbGlobal : Nat := 1
def stbWeak : Nat := 2
def sttNotype : Nat := 0
def sttObject : Nat := 1
def sttFunc : Nat := 2
def sttGnuIfunc : Nat := 10
def stvDefault : Nat := 0
def stvInternal : Nat := 1
def stvHidden : Nat := 2
def stvProtected : Nat := 3

/-- A symbol; it has no name if `st_name` is not that of a string in the string table. -/
structure Sym where
  name : Option Name
  value : Nat
  size : Nat
  bind : Nat
  type : Nat
  visibility : Nat
  defined : Bool

structure Rela where
  type : Nat
  sym : Nat
  offset : Nat

/-- A file, whose dynamic section is that of its first `PT_DYNAMIC`. `readable` says that all of it can be read,
`exportable` that the tables of symbols and strings are loaded; there are no `relocations` where their tables are not as
they should be, and no name of a needed library where it is not a string. -/
structure SharedObject where
  size : Nat
  readable : Bool
  ehdr : Ehdr
  phdrs : List Phdr
  symbols : List Sym
  exportable : Bool
  rpath : Option Name
  needed : List (Option Name)
  relocations : Option (List Rela × List Rela)

def elfTestHead (e : Ehdr) : Bool :=
  e.magic = elfMagic && e.version = evCurrent && e.ehsize = sizeofEhdr && e.phentsize = sizeofPhdr &&
    (e.machine = emX8664 || e.machine = em386)

def elfFileRange (offset length fileSize : Nat) : Bool := offset ≤ fileSize && length ≤ fileSize - offset

structure Extent where
  minAddr : Nat
  maxAddr : Nat
  haveLoad : Bool
  haveDynamicTerminator : Bool

/-- One round of the first loop of `validate_shared_object`. -/
def checkPhdr (fileSize base : Nat) (x : Extent) (p : Phdr) : Option Extent :=
  if p.type = ptLoad then
    if p.memsz < p.filesz ∨ elfFileRange p.offset p.filesz fileSize = false ∨ maxU64 - base < p.vaddr ∨
        maxU64 - (base + p.vaddr) < p.memsz then none
    else
      some { x with
        minAddr := min x.minAddr (paddingDown (base + p.vaddr))
        maxAddr := max x.maxAddr (paddingUp (base + p.vaddr + p.memsz))
        haveLoad := true }
  else if p.type = ptDynamic then
    if p.filesz < sizeofDyn ∨ p.filesz % sizeofDyn ≠ 0 ∨ elfFileRange p.offset p.filesz fileSize = false then none
    else some { x with haveDynamicTerminator := x.haveDynamicTerminator || p.terminated }
  else some x

/-- A `PT_DYNAMIC` lies in a segment. -/
def dynamicContained (base : Nat) (phdrs : List Phdr) (d : Phdr) : Bool :=
  phdrs.any fun p =>
    p.type = ptLoad && p.vaddr ≤ maxU64 - base && p.memsz ≤ maxU64 - (base + p.vaddr) &&
      base + p.vaddr ≤ base + d.vaddr && base + d.vaddr ≤ base + p.vaddr + p.memsz &&
      d.memsz ≤ base + p.vaddr + p.memsz - (base + d.vaddr)

/-- `validate_shared_object`, with the size of the image. -/
def validateSharedObject (o : SharedObject) (base : Nat) (isKernel : Bool) : Option Nat := do
  if o.size < sizeofEhdr ∨ elfTestHead o.ehdr = false ∨ o.ehdr.type ≠ etDyn ∨ o.phdrs.length = 0 ∨
      o.size / sizeofPhdr < o.phdrs.length ∨
      elfFileRange o.ehdr.phoff (o.phdrs.length * sizeofPhdr) o.size = false then none
  else
    let x ← o.phdrs.foldlM (checkPhdr o.size base)
      { minAddr := maxU64, maxAddr := 0, haveLoad := false, haveDynamicTerminator := false }
    if x.haveLoad = false ∨ x.haveDynamicTerminator = false ∨ x.maxAddr ≤ x.minAddr then none
    else if o.phdrs.any fun d =>
        d.type = ptDynamic && d.vaddr ≤ maxU64 - base && !dynamicContained base o.phdrs d then none
    else if isKernel = true ∧ (x.minAddr < kernelModSpaceStart ∨ kernelModSpaceEnd < x.maxAddr) then none
    else if isKernel = false ∧ (x.minAddr < userSoBaseStart ∨ userSoBaseEnd < x.maxAddr) then none
    else if x.minAddr < base then none
    else some (x.maxAddr - base)

/-- `handle_range_loaded`. -/
def rangeLoaded (o : SharedObject) (base address length : Nat) : Bool :=
  length ≠ 0 && address ≤ maxU64 - length && o.phdrs.any fun p =>
    p.type = ptLoad && p.vaddr ≤ maxU64 - base && p.memsz ≤ maxU64 - (base + p.vaddr) &&
      base + p.vaddr ≤ address && address + length ≤ base + p.vaddr + p.memsz

/-- The pages that `load_segment` maps. -/
def segmentPages (base : Nat) (p : Phdr) : List Nat :=
  let low := (paddingDown p.vaddr + base) % 2 ^ 64
  let high := (paddingUp ((p.vaddr + p.memsz) % 2 ^ 64) + base) % 2 ^ 64
  (List.range ((high - low + pageSize - 1) / pageSize)).map fun i => low / pageSize + i

def imagePages (o : SharedObject) (base : Nat) : List Nat :=
  (o.phdrs.filter fun p => p.type = ptLoad).flatMap (segmentPages base)

/-- The segments are written to, and the dynamic section is read from, pages of the image. -/
def inOwnPages (o : SharedObject) (base : Nat) : Bool :=
  (o.phdrs.all fun p =>
    p.type ≠ ptLoad || p.memsz = 0 || (segmentPages base p).contains ((base + p.vaddr + p.memsz - 1) / pageSize)) &&
  match o.phdrs.find? fun p => p.type = ptDynamic with
  | none => false
  | some d => (imagePages o base).contains ((base + d.vaddr) / pageSize)

def symbolIsExported (s : Sym) : Bool :=
  s.defined && (s.bind = stbGlobal || s.bind = stbWeak) &&
    (s.type = sttNotype || s.type = sttObject || s.type = sttFunc || s.type = sttGnuIfunc) &&
    (s.visibility = stvDefault || s.visibility = stvProtected)

/-- `dlinker_mangled_global_matches`. -/
def mangledGlobalMatches (mangled exported : Name) : Bool :=
  match mangled with
  | '_' :: 'Z' :: cursor =>
    let digits := cursor.takeWhile Char.isDigit
    let length := digits.foldl (fun n c => (n * 10 + (c.toNat - '0'.toNat)) % 2 ^ 64) 0
    digits ≠ [] && length ≠ 0 && exported.length = length && exported.isPrefixOf (cursor.dropWhile Char.isDigit)
  | _ => false

def nameMatches (name known : Name) : Bool := known = name || mangledGlobalMatches name known

def symbolLoaded (o : SharedObject) (base : Nat) (s : Sym) : Bool :=
  s.value ≤ maxU64 - base && rangeLoaded o base (base + s.value) (if s.size = 0 then 1 else s.size)

def exportsOf (o : SharedObject) (base : Nat) : List (Name × Nat) :=
  if o.exportable then
    o.symbols.filterMap fun s =>
      match s.name with
      | some name => if symbolIsExported s && symbolLoaded o base s then some (name, base + s.value) else none
      | none => none
  else []

/-! # What the checks say

The segments of an object that is accepted lie in the file, and the pages from the first to
the last of them in the window.
-/

structure Spans (fileSize base : Nat) (x y : Extent) (phdrs : List Phdr) : Prop where
  low : y.minAddr ≤ x.minAddr
  high : x.maxAddr ≤ y.maxAddr
  sizes : ∀ p ∈ phdrs, p.type = ptLoad → p.filesz ≤ p.memsz ∧ elfFileRange p.offset p.filesz fileSize = true
  ends : ∀ p ∈ phdrs, p.type = ptLoad → p.vaddr ≤ maxU64 - base ∧ p.memsz ≤ maxU64 - (base + p.vaddr)
  spans : ∀ p ∈ phdrs, p.type = ptLoad →
    y.minAddr ≤ paddingDown (base + p.vaddr) ∧ paddingUp (base + p.vaddr + p.memsz) ≤ y.maxAddr

section

variable {fileSize base : Nat} {x y z : Extent} {p : Phdr} {ps qs : List Phdr}

theorem Spans.nil (x : Extent) : Spans fileSize base x x [] :=
  ⟨le_rfl, le_rfl, nofun, nofun, nofun⟩

theorem Spans.append (h : Spans fileSize base x y ps) (h' : Spans fileSize base y z qs) :
    Spans fileSize base x z (ps ++ qs) := by
  refine ⟨h'.low.trans h.low, h.high.trans h'.high, fun p hp => ?_, fun p hp => ?_, fun p hp hLoad => ?_⟩
  · exact (List.mem_append.mp hp).elim (h.sizes p) (h'.sizes p)
  · exact (List.mem_append.mp hp).elim (h.ends p) (h'.ends p)
  · obtain hp | hp := List.mem_append.mp hp
    · obtain ⟨hLow, hHigh⟩ := h.spans p hp hLoad
      exact ⟨h'.low.trans hLow, hHigh.trans h'.high⟩
    · exact h'.spans p hp hLoad

theorem checkPhdr_spans (h : checkPhdr fileSize base x p = some y) : Spans fileSize base x y [p] := by
  rw [checkPhdr] at h
  split at h
  · split at h
    · cases h
    · next hOk =>
      cases h
      push Not at hOk
      obtain ⟨hSize, hFile, hVaddr, hMemsz⟩ := hOk
      refine ⟨min_le_left _ _, le_max_left _ _, fun q hq _ => ?_, fun q hq _ => ?_, fun q hq _ => ?_⟩
      · cases List.mem_singleton.mp hq
        exact ⟨hSize, (Bool.not_eq_false _).mp hFile⟩
      · cases List.mem_singleton.mp hq
        exact ⟨hVaddr, hMemsz⟩
      · cases List.mem_singleton.mp hq
        exact ⟨min_le_right _ _, le_max_right _ _⟩
  · next hType =>
    have hNone : ∀ q ∈ [p], q.type ≠ ptLoad := by
      intro q hq
      cases List.mem_singleton.mp hq
      exact hType
    have hSame : y.minAddr = x.minAddr ∧ y.maxAddr = x.maxAddr := by
      split at h
      · split at h
        · cases h
        · cases h
          exact ⟨rfl, rfl⟩
      · cases h
        exact ⟨rfl, rfl⟩
    exact ⟨hSame.1.le, hSame.2.symm.le, fun q hq hLoad => absurd hLoad (hNone q hq),
      fun q hq hLoad => absurd hLoad (hNone q hq), fun q hq hLoad => absurd hLoad (hNone q hq)⟩

theorem checkPhdrs_spans (h : ps.foldlM (checkPhdr fileSize base) x = some y) : Spans fileSize base x y ps := by
  induction ps generalizing x with
  | nil =>
    cases h
    exact .nil _
  | cons p ps ih =>
    rw [List.foldlM_cons, Option.bind_eq_bind, Option.bind_eq_some_iff] at h
    obtain ⟨z, hFirst, hRest⟩ := h
    exact (checkPhdr_spans hFirst).append (ih hRest)

end

/-- An object that is accepted: its segments are in the file, and their pages from `lo` up to `hi`. -/
structure Accepted (o : SharedObject) (base size lo hi : Nat) : Prop where
  header : sizeofEhdr ≤ o.size
  above : base ≤ lo
  top : lo ≤ maxU64
  total : base + size = hi
  sizes : ∀ p ∈ o.phdrs, p.type = ptLoad → p.filesz ≤ p.memsz ∧ p.offset + p.filesz ≤ o.size
  ends : ∀ p ∈ o.phdrs, p.type = ptLoad → base + p.vaddr + p.memsz ≤ maxU64
  spans : ∀ p ∈ o.phdrs, p.type = ptLoad →
    lo ≤ paddingDown (base + p.vaddr) ∧ paddingUp (base + p.vaddr + p.memsz) ≤ hi

theorem validateSharedObject_accepted {o : SharedObject} {base size : Nat} {isKernel : Bool}
    (h : validateSharedObject o base isKernel = some size) : ∃ lo hi, Accepted o base size lo hi ∧
      (if isKernel then kernelModSpaceStart else userSoBaseStart) ≤ lo ∧
      hi ≤ if isKernel then kernelModSpaceEnd else userSoBaseEnd := by
  rw [validateSharedObject] at h
  split at h
  · cases h
  next hHead =>
  push Not at hHead
  rw [Option.bind_eq_bind, Option.bind_eq_some_iff] at h
  obtain ⟨x, hFold, h⟩ := h
  have hSpans := checkPhdrs_spans hFold
  split at h
  · cases h
  next hSome =>
  split at h
  · cases h
  split at h
  · cases h
  next hKernel =>
  split at h
  · cases h
  next hUser =>
  split at h
  · cases h
  next hBase =>
  cases h
  push Not at hSome hKernel hUser
  have hTop : base ≤ maxU64 := (not_lt.mp hBase).trans hSpans.low
  refine ⟨x.minAddr, x.maxAddr, ⟨hHead.1, not_lt.mp hBase, hSpans.low, by omega, fun p hp hLoad => ?_,
    fun p hp hLoad => ?_, hSpans.spans⟩, ?_, ?_⟩
  · obtain ⟨hSize, hFile⟩ := hSpans.sizes p hp hLoad
    rw [elfFileRange, Bool.and_eq_true, decide_eq_true_eq, decide_eq_true_eq] at hFile
    omega
  · obtain ⟨hVaddr, hMemsz⟩ := hSpans.ends p hp hLoad
    omega
  · cases isKernel with
    | false => exact (hUser rfl).1
    | true => exact (hKernel rfl).1
  · cases isKernel with
    | false => exact (hUser rfl).2
    | true => exact (hKernel rfl).2

end OpenXJ380.Dlinker
