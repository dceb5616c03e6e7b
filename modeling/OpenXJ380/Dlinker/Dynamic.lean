import OpenXJ380.Dlinker.Load
import OpenXJ380.User.Image

/-! # The bytes of a shared object (`kernel/dlinker.cpp`)

A file is decoded as the linker reads it, and its segments are written to new frames. What
is in a frame that was free is a parameter.
-/

namespace OpenXJ380.Dlinker

open User (Bytes littleEndian numberAt)

def ehdrOf (buf : Bytes) : Ehdr where
  magic := numberAt buf 0 4
  type := numberAt buf 16 2
  machine := numberAt buf 18 2
  version := numberAt buf 20 4
  phoff := numberAt buf 32 8
  ehsize := numberAt buf 52 2
  phentsize := numberAt buf 54 2

def phdrOf (buf : Bytes) (place : Nat) : Phdr where
  type := numberAt buf place 4
  offset := numberAt buf (place + 8) 8
  vaddr := numberAt buf (place + 16) 8
  filesz := numberAt buf (place + 32) 8
  memsz := numberAt buf (place + 40) 8
  terminated := (List.range (numberAt buf (place + 32) 8 / sizeofDyn)).any fun j =>
    numberAt buf (numberAt buf (place + 8) 8 + sizeofDyn * j) 8 = 0

def headersOf (buf : Bytes) : SharedObject where
  size := buf.length
  readable := true
  ehdr := ehdrOf buf
  phdrs := (List.range (numberAt buf 56 2)).map fun i => phdrOf buf ((ehdrOf buf).phoff + sizeofPhdr * i)
  symbols := []
  exportable := false
  rpath := none
  needed := []
  relocations := none

structure Placed where
  buf : Bytes
  base : Nat
  isKernel : Bool

namespace Placed

variable (x : Placed)

def object : SharedObject := headersOf x.buf

def loads : List Phdr := x.object.phdrs.filter fun p => p.type = ptLoad

def address (p : Phdr) : Nat := x.base + p.vaddr

def At (p : Phdr) (a : Nat) : Prop := x.address p ≤ a ∧ a < x.address p + p.memsz

instance (p : Phdr) (a : Nat) : Decidable (x.At p a) := inferInstanceAs (Decidable (_ ∧ _))

def loaded (a : Nat) : Bool := x.loads.any fun p => x.At p a

def byteOf (p : Phdr) (k : Nat) : UInt8 := if k < p.filesz then x.buf.getD (p.offset + k) 0 else 0

def windowStart : Nat := if x.isKernel then kernelModSpaceStart else userSoBaseStart

def windowEnd : Nat := if x.isKernel then kernelModSpaceEnd else userSoBaseEnd

def accepted : Option Nat := validateSharedObject x.object x.base x.isKernel

end Placed

/-- What is done to the directory: a page gets a new frame, or bytes are written. -/
inductive Effect where
  | map (page : Nat)
  | write (start n : Nat) (value : Nat → UInt8)

/-- `load_segment`. -/
def loadSegment (x : Placed) (p : Phdr) : List Effect :=
  let vaddr := (p.vaddr + x.base) % 2 ^ 64
  let filesz := if p.memsz < p.filesz then p.memsz else p.filesz
  (segmentPages x.base p).map Effect.map ++
    (if 0 < filesz then [.write vaddr filesz fun k => x.buf.getD (p.offset + k) 0] else []) ++
    if filesz < p.memsz then [.write ((vaddr + filesz) % 2 ^ 64) (p.memsz - filesz) fun _ => 0] else []

/-- `mmap_phdr_segment`. -/
def mmapPhdrSegment (x : Placed) : List Effect := x.loads.flatMap (loadSegment x)

structure Memory where
  mapped : Nat → Bool
  byte : Nat → UInt8
  frames : Nat

/-- `free` says what is in the frames that are handed out. -/
def Memory.apply (free : Nat → Nat → UInt8) (m : Memory) : Effect → Memory
  | .map page =>
    { mapped := Function.update m.mapped page true
      byte := fun a => if a / pageSize = page then free m.frames (a % pageSize) else m.byte a
      frames := m.frames + 1 }
  | .write start n value => { m with byte :=
      fun a => if start ≤ a ∧ a < start + n then value (a - start) else m.byte a }

def Memory.applyAll (free : Nat → Nat → UInt8) (m : Memory) (effects : List Effect) : Memory :=
  effects.foldl (Memory.apply free) m

def Effect.Within (lo hi : Nat) : Effect → Prop
  | .map page => lo ≤ page * pageSize ∧ page * pageSize + pageSize ≤ hi
  | .write start n _ => lo ≤ start ∧ start + n ≤ hi

def Memory.Holds (m : Memory) (x : Placed) : Prop :=
  ∀ p ∈ x.loads, ∀ k < p.memsz,
    m.mapped ((x.address p + k) / pageSize) = true ∧ m.byte (x.address p + k) = x.byteOf p k

/-- Each address of a segment has the byte that the first segment with it gives. -/
def Placed.image (x : Placed) (a : Nat) : UInt8 :=
  ((x.loads.find? fun p => x.At p a).map fun p => x.byteOf p (a - x.address p)).getD 0

/-! # The dynamic section in the image (`kernel/dlinker.cpp`)

What is read from the image and from the file, number by number. A read of what is neither
in the file nor in a segment ends here, and so does a write.
-/

section

open User (Bytes Stop littleEndian numberAt)

/-- The number in the `n` bytes from an address on. -/
abbrev Reader := Nat → Nat → Except Stop Nat

namespace Placed

variable (x : Placed)

/-- All `n` addresses from `a` on are in segments; addresses wrap. -/
def allLoaded (a n : Nat) : Bool := (List.range n).all fun k => x.loaded ((a + k) % 2 ^ 64)

def number (byte : Nat → UInt8) (a n : Nat) : Nat :=
  littleEndian ((List.range n).map fun k => byte ((a + k) % 2 ^ 64))

def reader (byte : Nat → UInt8) : Reader := fun a n =>
  if x.allLoaded a n then .ok (number byte a n) else .error .readOutside

def readFile (place n : Nat) : Except Stop Nat :=
  if place + n ≤ x.buf.length then .ok (numberAt x.buf place n) else .error .readOutside

/-- `handle_range_loaded`. -/
def rangeLoaded (a n : Nat) : Bool := Dlinker.rangeLoaded x.object x.base a n

/-- `dynamic_ptr`. -/
def dynamicPtr (ptr : Nat) : Option Nat :=
  if ptr = 0 ∨ maxU64 - x.base < ptr then none
  else if x.rangeLoaded (x.base + ptr) 1 then some (x.base + ptr)
  else none

end Placed

def dtNull : Nat := 0
def dtNeeded : Nat := 1
def dtPltrelsz : Nat := 2
def dtHash : Nat := 4
def dtStrtab : Nat := 5
def dtSymtab : Nat := 6
def dtRela : Nat := 7
def dtRelasz : Nat := 8
def dtRelaent : Nat := 9
def dtStrsz : Nat := 10
def dtSyment : Nat := 11
def dtRpath : Nat := 15
def dtPltrel : Nat := 20
def dtJmprel : Nat := 23
def dtRunpath : Nat := 29
def dtGnuHash : Nat := 0x6ffffef5

/-- The loops over the entries, with `n` to go at most. -/
def walkDynamic {σ : Type} (read : Reader) (visit : σ → Nat → Except Stop Nat → Except Stop σ) :
    Nat → Nat → σ → Except Stop σ
  | 0, _, _ => .error .readOutside
  | n + 1, entry, s => do
    let tag ← read entry 8
    if tag = dtNull then return s
    else
      let s ← visit s tag (read (entry + 8) 8)
      walkDynamic read visit n (entry + sizeofDyn) s

def dynamicLimit : Nat := 2 ^ 64 / sizeofDyn

/-- The dynamic section of the first `PT_DYNAMIC`. -/
def Placed.dynamic (x : Placed) : Option Nat :=
  (x.object.phdrs.find? fun p => p.type = ptDynamic).map fun d => (x.base + d.vaddr) % 2 ^ 64

structure Tables where
  symtab : Option Nat
  strtab : Option Nat
  strtabsz : Nat
  symtabsz : Nat
  symCount : Nat

def maxSymbols : Nat := 65536
def sizeofSym : Nat := 24
def sizeofShdr : Nat := 64
def shtDynsym : Nat := 11

def dynsymCountFromSysvHash (x : Placed) (read : Reader) (ptr : Nat) : Except Stop Nat :=
  match x.dynamicPtr ptr with
  | none => .ok 0
  | some hash =>
    if x.rangeLoaded hash 8 = false then .ok 0
    else do
      let count ← read (hash + 4) 4
      return if count ≤ maxSymbols then count else 0

def gnuChain (x : Placed) (read : Reader) (chains symoffset : Nat) : Nat → Nat → Except Stop (Option Nat)
  | 0, _ => .ok none
  | n + 1, sym =>
    let chain := (chains + 4 * (sym - symoffset)) % 2 ^ 64
    if maxSymbols ≤ sym ∨ x.rangeLoaded chain 4 = false then .ok none
    else do
      let value ← read chain 4
      if value % 2 ≠ 0 then return some sym
      else gnuChain x read chains symoffset n (sym + 1)

def gnuBuckets (x : Placed) (read : Reader) (buckets chains symoffset : Nat) : List Nat → Nat → Except Stop Nat
  | [], maxSym => .ok maxSym
  | i :: rest, maxSym => do
    let sym ← read (buckets + 4 * i) 4
    if sym = 0 then gnuBuckets x read buckets chains symoffset rest maxSym
    else if sym < symoffset then return 0
    else
      match ← gnuChain x read chains symoffset (maxSymbols + 1) sym with
      | none => return 0
      | some last => gnuBuckets x read buckets chains symoffset rest (max maxSym (last + 1))

def dynsymCountFromGnuHash (x : Placed) (read : Reader) (ptr : Nat) : Except Stop Nat :=
  match x.dynamicPtr ptr with
  | none => .ok 0
  | some hash =>
    if x.rangeLoaded hash 16 = false then .ok 0
    else do
      let nbuckets ← read hash 4
      let symoffset ← read (hash + 4) 4
      let bloomSize ← read (hash + 8) 4
      if nbuckets = 0 ∨ 65536 < nbuckets ∨ bloomSize = 0 ∨ 65536 < bloomSize then return 0
      else
        let bloom := hash + 16
        let buckets := bloom + 8 * bloomSize
        if x.rangeLoaded bloom (8 * bloomSize) = false ∨ x.rangeLoaded buckets (4 * nbuckets) = false then return 0
        else gnuBuckets x read buckets (buckets + 4 * nbuckets) symoffset (List.range nbuckets) symoffset

def sectionSymbols (x : Placed) (shoff : Nat) : List Nat → Except Stop Nat
  | [] => .ok 0
  | i :: rest => do
    let type ← x.readFile (shoff + sizeofShdr * i + 4) 4
    if type = shtDynsym then
      let entsize ← x.readFile (shoff + sizeofShdr * i + 56) 8
      let size ← x.readFile (shoff + sizeofShdr * i + 32) 8
      return size / if entsize = 0 then sizeofSym else entsize
    else sectionSymbols x shoff rest

def dynsymCountFromSections (x : Placed) : Except Stop Nat := do
  let shoff ← x.readFile 40 8
  let shentsize ← x.readFile 58 2
  if shoff = 0 ∨ shentsize ≠ sizeofShdr then return 0
  else
    let shnum ← x.readFile 60 2
    sectionSymbols x shoff (List.range shnum)

/-- One entry, in the first loop of `extract_exports_from_dynamic`. -/
def visitTables (x : Placed) (read : Reader) (t : Tables) (tag : Nat) (value : Except Stop Nat) :
    Except Stop Tables := do
  if tag = dtSymtab then
    let ptr ← value
    return { t with symtab := x.dynamicPtr ptr }
  else if tag = dtStrtab then
    let ptr ← value
    return { t with strtab := x.dynamicPtr ptr }
  else if tag = dtStrsz then
    let size ← value
    return { t with strtabsz := size }
  else if tag = dtSyment then
    let size ← value
    return { t with symtabsz := size }
  else if tag = dtHash then
    let ptr ← value
    let count ← dynsymCountFromSysvHash x read ptr
    return { t with symCount := count }
  else if tag = dtGnuHash then
    let ptr ← value
    let count ← dynsymCountFromGnuHash x read ptr
    return { t with symCount := count }
  else return t

def Tables.none : Tables := { symtab := .none, strtab := .none, strtabsz := 0, symtabsz := 0, symCount := 0 }

def findTables (x : Placed) (read : Reader) (dynamic : Nat) : Except Stop Tables :=
  walkDynamic read (visitTables x read) dynamicLimit dynamic .none

def countSymbols (x : Placed) (t : Tables) : Except Stop Tables := do
  if t.symCount = 0 then
    let count ← dynsymCountFromSections x
    return { t with symCount := count }
  else return t

/-- `memchr` for the end of a string. -/
def findEnd (read : Reader) : Nat → Nat → Except Stop (Option Nat)
  | 0, _ => .ok none
  | n + 1, a => do
    let byte ← read a 1
    if byte = 0 then return some a
    else findEnd read n (a + 1)

def readBytes (read : Reader) (a n : Nat) : Except Stop Bytes :=
  (List.range n).mapM fun k => do
    let byte ← read (a + k) 1
    return UInt8.ofNat byte

/-- The string of the table, if the place is in the table and the string ends there. -/
def stringAt (read : Reader) (t : Tables) (place : Nat) : Except Stop (Option Bytes) :=
  match t.strtab with
  | none => .ok none
  | some strtab =>
    if t.strtabsz ≤ place then .ok none
    else do
      match ← findEnd read (t.strtabsz - place) (strtab + place) with
      | none => return none
      | some stop =>
        let bytes ← readBytes read (strtab + place) (stop - (strtab + place))
        return some bytes

/-- `symbol_is_exported`. -/
def rawSymbolIsExported (read : Reader) (sym : Nat) : Except Stop Bool := do
  let shndx ← read (sym + 6) 2
  if shndx = 0 then return false
  else
    let info ← read (sym + 4) 1
    let other ← read (sym + 5) 1
    return symbolIsExported
      { name := none, value := 0, size := 0, bind := info / 16, type := info % 16, visibility := other % 4
        defined := true }

def exportName (read : Reader) (t : Tables) (sym : Nat) : Except Stop (Option Bytes) := do
  let exported ← rawSymbolIsExported read sym
  if exported then
    let name ← read sym 4
    stringAt read t name
  else return none

def rawSymbolLoaded (x : Placed) (read : Reader) (sym : Nat) : Except Stop Bool := do
  let value ← read (sym + 8) 8
  if maxU64 - x.base < value then return false
  else
    let size ← read (sym + 16) 8
    return x.rangeLoaded (x.base + value) (if size = 0 then 1 else size)

def countExport (read : Reader) (t : Tables) (symtab : Nat) (count i : Nat) : Except Stop Nat := do
  let name ← exportName read t (symtab + sizeofSym * i)
  return if name = none then count else count + 1

def enterExport (x : Placed) (read : Reader) (t : Tables) (symtab : Nat) (exports : List (Bytes × Nat)) (i : Nat) :
    Except Stop (List (Bytes × Nat)) := do
  match ← exportName read t (symtab + sizeofSym * i) with
  | none => return exports
  | some name =>
    let there ← rawSymbolLoaded x read (symtab + sizeofSym * i)
    if there then
      let value ← read (symtab + sizeofSym * i + 8) 8
      return exports ++ [(name, x.base + value)]
    else return exports

/-- The second half of `extract_exports_from_dynamic`, with how many exports there is room for. -/
def extractExports (x : Placed) (read : Reader) (t : Tables) : Except Stop (List (Bytes × Nat) × Nat) :=
  match t.symtab, t.strtab with
  | some symtab, some strtab =>
    if t.strtabsz ≠ 0 ∧ t.symCount ≠ 0 ∧ t.symCount ≤ maxSymbols ∧
        x.rangeLoaded symtab (t.symCount * sizeofSym) = true ∧ x.rangeLoaded strtab t.strtabsz = true then do
      let count ← (List.range t.symCount).foldlM (countExport read t symtab) 0
      let exports ← (List.range t.symCount).foldlM (enterExport x read t symtab) []
      return (exports, count)
    else .ok ([], 0)
  | _, _ => .ok ([], 0)

end

/-! # Dependencies and relocations (`kernel/dlinker.cpp`)

What is outside is a parameter: whether a library that is needed can be loaded, which
symbols other objects and the kernel have, and what an `IRELATIVE` resolver returns.
-/

open User (Bytes Stop)

/-- `library` says whether a library is loaded, for a search path and a name; `elsewhere` gives the address of a symbol
of another object or of the kernel, or 0; `others` says which addresses are theirs. -/
structure Outside where
  library : Option Bytes → Bytes → Bool
  elsewhere : Bytes → Nat
  resolver : Nat → Nat
  others : Nat → Bool

/-- `DT_RPATH` and `DT_RUNPATH`. -/
structure SearchPath where
  rpath : Option Bytes
  runpath : Option Bytes

def visitRpath (read : Reader) (t : Tables) (s : SearchPath) (tag : Nat) (value : Except Stop Nat) :
    Except Stop SearchPath := do
  if tag = dtRpath ∨ tag = dtRunpath then
    if t.strtab = none then return s
    else
      let place ← value
      match ← stringAt read t place with
      | none => return s
      | some path => return if tag = dtRpath then { s with rpath := some path } else { s with runpath := some path }
  else return s

def findRpath (read : Reader) (t : Tables) (dynamic : Nat) : Except Stop (Option Bytes) := do
  let s ← walkDynamic read (visitRpath read t) dynamicLimit dynamic { rpath := none, runpath := none }
  return s.runpath.or s.rpath

def countNeeded (count tag : Nat) (_ : Except Stop Nat) : Except Stop Nat :=
  if tag = dtNeeded then
    if maxDependencies < count + 1 then .error .null
    else .ok (count + 1)
  else .ok count

def visitNeeded (out : Outside) (read : Reader) (t : Tables) (rpath : Option Bytes) (_ : Unit) (tag : Nat)
    (value : Except Stop Nat) : Except Stop Unit := do
  if tag = dtNeeded then
    if t.strtab = none then .error .null
    else
      let place ← value
      match ← stringAt read t place with
      | none => .error .null
      | some name => if out.library rpath name then return () else .error .null
  else return ()

/-- `resolve_dependencies`; to return `false` is to stop. -/
def resolveDependencies (out : Outside) (read : Reader) (t : Tables) (rpath : Option Bytes) (dynamic : Nat) :
    Except Stop Unit := do
  let count ← walkDynamic read countNeeded dynamicLimit dynamic 0
  if count = 0 then return ()
  else walkDynamic read (visitNeeded out read t rpath) dynamicLimit dynamic ()

structure RelocationTables where
  rela : Option Nat
  relasz : Nat
  relaent : Nat
  jmprel : Option Nat
  pltrelsz : Nat
  pltrel : Nat

def sizeofRela : Nat := 24

/-- What `process_dynamic_relocations` starts from. -/
def RelocationTables.none : RelocationTables :=
  { rela := .none, relasz := 0, relaent := sizeofRela, jmprel := .none, pltrelsz := 0, pltrel := dtRela }

def visitRelocations (x : Placed) (r : RelocationTables) (tag : Nat) (value : Except Stop Nat) :
    Except Stop RelocationTables := do
  if tag = dtRela then
    let ptr ← value
    return { r with rela := x.dynamicPtr ptr }
  else if tag = dtRelasz then
    let size ← value
    return { r with relasz := size }
  else if tag = dtRelaent then
    let size ← value
    return { r with relaent := size }
  else if tag = dtJmprel then
    let ptr ← value
    return { r with jmprel := x.dynamicPtr ptr }
  else if tag = dtPltrelsz then
    let size ← value
    return { r with pltrelsz := size }
  else if tag = dtPltrel then
    let type ← value
    return { r with pltrel := type % 2 ^ 32 }
  else return r

def tableOk (x : Placed) (table : Option Nat) (size : Nat) : Bool :=
  size = 0 || match table with
    | none => false
    | some a => x.rangeLoaded a size

def relocationsOk (x : Placed) (r : RelocationTables) : Bool :=
  r.relaent = sizeofRela && r.pltrel = dtRela && r.relasz % sizeofRela = 0 && r.pltrelsz % sizeofRela = 0 &&
    tableOk x r.rela r.relasz && tableOk x r.jmprel r.pltrelsz

structure Linked where
  placed : Placed
  tables : Tables
  exports : List (Bytes × Nat)
  out : Outside

section

variable (k : Linked) (m : Memory)

def Linked.reader : Reader := k.placed.reader m.byte

def symbolName (sym : Nat) : Except Stop (Option Bytes) := do
  if k.tables.strtab = none then return none
  else
    let place ← k.reader m sym 4
    let name ← stringAt (k.reader m) k.tables place
    return name.filter (· ≠ [])

/-- `find_symbol_internal` and `find_export`. -/
def findSymbol (name : Bytes) : Nat :=
  if k.out.elsewhere name ≠ 0 then k.out.elsewhere name
  else ((k.exports.find? fun f => f.1 = name).map Prod.snd).getD 0

/-- Behind the checks of a symbol that is defined: by its name, or where it is. -/
def resolveByName (sym value : Nat) : Except Stop Nat := do
  let name ← symbolName k m sym
  let known := (name.map (findSymbol k)).getD 0
  return if known ≠ 0 then known else value

/-- `resolve_relocation_symbol`; 0 is `NULL`. -/
def resolveRawSymbol (sym : Nat) : Except Stop Nat := do
  let read := k.reader m
  let shndx ← read (sym + 6) 2
  if shndx = 0 then resolveByName k m sym 0
  else
    let there ← rawSymbolLoaded k.placed read sym
    if there = false then return 0
    else
      let value ← read (sym + 8) 8
      let info ← read (sym + 4) 1
      let other ← read (sym + 5) 1
      if info / 16 = stbLocal ∨ other % 4 = stvHidden ∨ other % 4 = stvInternal ∨ other % 4 = stvProtected then
        return k.placed.base + value
      else resolveByName k m sym (k.placed.base + value)

def neededSymbol (sym : Nat) : Except Stop Nat := do
  let addr ← resolveRawSymbol k m sym
  if addr = 0 then
    let info ← k.reader m (sym + 4) 1
    if info / 16 = stbWeak then return 0 else .error .null
  else return addr

/-- A write of a number to the `n` bytes from an address on. -/
def writeNumber (a n value : Nat) : Except Stop Memory :=
  if k.placed.allLoaded a n then
    .ok { m with byte := fun b =>
      if a ≤ b ∧ b < a + n then UInt8.ofNat (value / 256 ^ (b - a)) else m.byte b }
  else .error .writeOutside

/-- All `n` addresses from `a` on can be copied from. -/
def copyable (a n : Nat) : Bool :=
  (List.range n).all fun i => k.placed.loaded ((a + i) % 2 ^ 64) || k.out.others ((a + i) % 2 ^ 64)

/-- The `memcpy` of a `COPY` relocation. -/
def copyBytes (a source n : Nat) : Except Stop Memory :=
  if copyable k source n = false then .error .readOutside
  else if k.placed.allLoaded a n then
    .ok { m with byte := fun b => if a ≤ b ∧ b < a + n then m.byte ((source + (b - a)) % 2 ^ 64) else m.byte b }
  else .error .writeOutside

structure RawRela where
  offset : Nat
  type : Nat
  sym : Nat
  addend : Nat

def readRela (a : Nat) : Except Stop RawRela := do
  let offset ← k.reader m a 8
  let info ← k.reader m (a + 8) 8
  let addend ← k.reader m (a + 16) 8
  return { offset := offset, type := info % 2 ^ 32, sym := info / 2 ^ 32, addend := addend }

def symbolOf (r : RawRela) : Option Nat := if r.sym = 0 then none else k.tables.symtab.map (· + sizeofSym * r.sym)

def rawTargetSize (r : RawRela) : Except Stop Nat :=
  match symbolOf k r with
  | some sym =>
    if r.type = rX8664Copy then k.reader m (sym + 16) 8
    else .ok (targetSize r.type none)
  | none => .ok (targetSize r.type none)

/-- The switch of `process_dynamic_relocations`, with the address of the target. -/
def applyRela (r : RawRela) (target : Nat) : Except Stop Memory := do
  let type := r.type
  if type = rX8664None then return m
  else if type = rX8664Relative then writeNumber k m target 8 (k.placed.base + r.addend)
  else if type = rX8664Irelative then writeNumber k m target 8 (k.out.resolver ((k.placed.base + r.addend) % 2 ^ 64))
  else if [rX8664GlobDat, rX8664JumpSlot, rX866464, rX8664Copy, rX8664Pc32, rX8664Plt32, rX8664Pc64, rX866432,
      rX866432S].contains type then
    match symbolOf k r with
    | none => return m
    | some sym =>
      let addr ← neededSymbol k m sym
      if type = rX8664GlobDat ∨ type = rX8664JumpSlot then writeNumber k m target 8 addr
      else if type = rX866464 then writeNumber k m target 8 (addr + r.addend)
      else if type = rX8664Pc32 ∨ type = rX8664Plt32 then
        writeNumber k m target 4 (addr + r.addend + (2 ^ 64 - target))
      else if type = rX8664Pc64 then writeNumber k m target 8 (addr + r.addend + (2 ^ 64 - target))
      else if type = rX866432 ∨ type = rX866432S then writeNumber k m target 4 (addr + r.addend)
      else
        let size ← k.reader m (sym + 16) 8
        if addr ≠ 0 ∧ size ≠ 0 then copyBytes k m target addr size else return m
  else if type = rX8664Size32 ∨ type = rX8664Size64 then
    match symbolOf k r with
    | none => return m
    | some sym =>
      let size ← k.reader m (sym + 16) 8
      writeNumber k m target (if type = rX8664Size32 then 4 else 8) (size + r.addend)
  else .error .null

def relocateOne (rela i : Nat) : Except Stop Memory := do
  let r ← readRela k m (rela + sizeofRela * i)
  if maxU64 - k.placed.base < r.offset ∨ (r.sym ≠ 0 ∧ (k.tables.symtab = none ∨ k.tables.symCount ≤ r.sym)) then
    .error .null
  else
    let target := k.placed.base + r.offset
    let size ← rawTargetSize k m r
    if r.type ≠ rX8664None ∧ k.placed.rangeLoaded target size = false then .error .null
    else applyRela k m r target

/-- One round of the loop over the relocations of the procedure linkage table. -/
def relocateOnePlt (jmprel i : Nat) : Except Stop Memory := do
  let r ← readRela k m (jmprel + sizeofRela * i)
  if maxU64 - k.placed.base < r.offset ∨ r.sym = 0 ∨ k.tables.symtab = none ∨ k.tables.symCount ≤ r.sym then
    .error .null
  else
    let target := k.placed.base + r.offset
    if k.placed.rangeLoaded target 8 = false then .error .null
    else
      match symbolOf k r with
      | none => return m
      | some sym =>
        let addr ← neededSymbol k m sym
        writeNumber k m target 8 addr

def relocateAll (one : Memory → Nat → Nat → Except Stop Memory) (table : Option Nat) (size : Nat) :
    Except Stop Memory :=
  match table with
  | none => .ok m
  | some a => (List.range (size / sizeofRela)).foldlM (fun m i => one m a i) m

/-- `process_dynamic_relocations`. -/
def processRelocations (dynamic : Nat) : Except Stop Memory := do
  let r ← walkDynamic (k.reader m) (visitRelocations k.placed) dynamicLimit dynamic .none
  if relocationsOk k.placed r = false then .error .null
  else
    let m ← relocateAll m (relocateOne k) r.rela r.relasz
    relocateAll m (relocateOnePlt k) r.jmprel r.pltrelsz

end

/-- What `load_shared_object_internal` does with the dynamic section. -/
def processDynamic (x : Placed) (out : Outside) (m : Memory) : Except Stop Memory :=
  match x.dynamic with
  | none => .ok m
  | some dynamic => do
    let read := x.reader m.byte
    let found ← findTables x read dynamic
    let t ← countSymbols x found
    let (exports, _) ← extractExports x read t
    let rpath ← findRpath read t dynamic
    resolveDependencies out read t rpath dynamic
    processRelocations { placed := x, tables := t, exports := exports, out := out } m dynamic

end OpenXJ380.Dlinker
