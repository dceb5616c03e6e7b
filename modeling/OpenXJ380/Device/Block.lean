import OpenXJ380.Device.Model
import OpenXJ380.Lib.Triple

/-! # Blocks of a device (`driver/device.cpp`, `driver/fs/vfs/dev.cpp`)

Bytes at any offset are read and written in whole sectors, directly where the memory of the
caller is contiguous and through a buffer elsewhere. What the functions of drivers do
is left to a state.
-/

namespace OpenXJ380.Device

abbrev Bytes := Nat → BitVec 8

inductive Fault where
  | table
  | null
  deriving DecidableEq

abbrev Program (σ : Type) := EStateM Fault σ

/-- The functions that entries point to, memory for a buffer, and the page tables. Reading returns the bytes and a
number of sectors, or of bytes for a stream. -/
structure Functions (σ : Type) where
  read : Driver → Nat → Nat → Nat → Program σ (Bytes × Nat)
  write : Driver → Nat → Bytes → Nat → Nat → Program σ Nat
  acquireBounce : Nat → Nat → Program σ Bool
  pageVirtToPhys : Nat → Program σ Nat
  userBufferValid : Nat → Nat → Program σ Bool
  malloc : Nat → Program σ Bool

variable {σ : Type}

def pageSize : Nat := 4096

def blkBounceMaxBytes : Nat := 0x400000

def blkDirectMinBytes : Nat := 0x10000

def addressLimit : Nat := 2 ^ 64

/-- `memcpy`. -/
def copyBytes (dst : Bytes) (start : Nat) (src : Bytes) (offset n : Nat) : Bytes := fun i =>
  if start ≤ i ∧ i < start + n then src (offset + (i - start)) else dst i

def callRead (fns : Functions σ) (device : DeviceT) (drive number lba : Nat) : Program σ (Bytes × Nat) :=
  match device.read with
  | none => throw .null
  | some f => fns.read f drive number lba

def callWrite (fns : Functions σ) (device : DeviceT) (drive : Nat) (bytes : Bytes) (number lba : Nat) : Program σ Nat :=
  match device.write with
  | none => throw .null
  | some f => fns.write f drive bytes number lba

def blkWindowBytes (device : DeviceT) : Nat :=
  let window :=
    if device.maxSize ≠ 0 ∧ device.maxSize ≠ BitVec.allOnes 64 then min blkBounceMaxBytes device.maxSize.toNat
    else blkBounceMaxBytes
  if window < device.sectorSize.toNat then device.sectorSize.toNat else window

/-- The loop of `blk_direct_span_bytes`. -/
def directSpanLoop (fns : Functions σ) (baseVirt basePhys maxBytes : Nat) : Nat → Nat → Program σ Nat
  | 0, total => pure total
  | rounds + 1, total =>
    if maxBytes ≤ total then pure total
    else do
      let curVirt := (baseVirt + total) % addressLimit
      let curPhys ← fns.pageVirtToPhys curVirt
      if curPhys = 0 ∨ curPhys ≠ (basePhys + total) % addressLimit then pure total
      else
        let pageLeft := pageSize - curVirt % pageSize
        directSpanLoop fns baseVirt basePhys maxBytes rounds (total + min pageLeft (maxBytes - total))

def blkDirectSpanBytes (fns : Functions σ) (buffer maxBytes : Nat) : Program σ Nat :=
  if buffer = 0 ∨ maxBytes = 0 then pure 0
  else do
    let basePhys ← fns.pageVirtToPhys buffer
    if basePhys = 0 ∨ basePhys % pageSize ≠ 0 then pure 0
    else directSpanLoop fns buffer basePhys maxBytes maxBytes 0

/-- How much of what remains goes directly to or from the memory of the caller. -/
def directBytes (fns : Functions σ) (device : DeviceT) (buffer remaining : Nat) : Program σ Nat := do
  let limit := min remaining (blkWindowBytes device)
  let span ← blkDirectSpanBytes fns buffer limit
  let bytes := span - span % device.sectorSize.toNat
  pure (if bytes < device.sectorSize.toNat ∨ (bytes < blkDirectMinBytes ∧ bytes ≠ limit) then 0 else bytes)

def thenDo {c d : Type} (m : Program σ (Option c)) (f : c → Program σ (Option d)) : Program σ (Option d) := do
  match ← m with
  | none => pure none
  | some c => f c

structure Reading where
  dest : Bytes
  done : Nat
  remaining : Nat
  sector : Nat

/-- The next `number` sectors, of which `bytes` from `offset` on go to the memory of the caller. Nothing is returned
where the device has not read them all. -/
def readSectors (fns : Functions σ) (device : DeviceT) (number offset bytes : Nat) (c : Reading) :
    Program σ (Option Reading) := do
  let r ← callRead fns device device.vdiskid number c.sector
  pure
    (if r.2 = number then
      some ⟨copyBytes c.dest c.done r.1 offset bytes, c.done + bytes, c.remaining - bytes, c.sector + number⟩
    else none)

def readHead (fns : Functions σ) (device : DeviceT) (inBlock : Nat) (c : Reading) : Program σ (Option Reading) :=
  if inBlock = 0 then pure (some c)
  else readSectors fns device 1 inBlock (min (device.sectorSize.toNat - inBlock) c.remaining) c

def readDirect (fns : Functions σ) (device : DeviceT) (buffer : Nat) : Nat → Reading → Program σ (Option Reading)
  | 0, c => pure (some c)
  | rounds + 1, c =>
    if c.remaining < device.sectorSize.toNat then pure (some c)
    else do
      let bytes ← directBytes fns device ((buffer + c.done) % addressLimit) c.remaining
      if bytes = 0 then pure (some c)
      else
        thenDo (readSectors fns device (bytes / device.sectorSize.toNat) 0 bytes c)
          (readDirect fns device buffer rounds)

/-- The rest in whole sectors, at most `bn` at a time. -/
def readMiddle (fns : Functions σ) (device : DeviceT) (bn : Nat) : Nat → Reading → Program σ (Option Reading)
  | 0, c => pure (some c)
  | rounds + 1, c =>
    let n := min (c.remaining / device.sectorSize.toNat) bn
    if n = 0 then pure (some c)
    else
      thenDo (readSectors fns device n 0 (n * device.sectorSize.toNat) c) (readMiddle fns device bn rounds)

def readTail (fns : Functions σ) (device : DeviceT) (c : Reading) : Program σ (Option Reading) :=
  if c.remaining = 0 then pure (some c) else readSectors fns device 1 0 c.remaining c

/-- `(size_t)-1`, which stands for a failure. -/
def failed : Nat := addressLimit - 1

def readStream (fns : Functions σ) (device : DeviceT) (drive offset length : Nat) (dest : Bytes) :
    Program σ (Option (Bytes × Nat)) := do
  let r ← callRead fns device drive length offset
  pure (if r.2 = failed then none else some (copyBytes dest 0 r.1 0 r.2, r.2))

def readParts (fns : Functions σ) (device : DeviceT) (buffer offset length : Nat) (dest : Bytes) :
    Program σ (Option Reading) :=
  let sectorSize := device.sectorSize.toNat
  let maxSec := max (blkWindowBytes device / sectorSize) 1
  let head := readHead fns device (offset % sectorSize) ⟨dest, 0, length, offset / sectorSize⟩
  let direct := thenDo head fun c => readDirect fns device buffer c.remaining c
  let middle := thenDo direct fun c =>
    readMiddle fns device (min (c.remaining / sectorSize) maxSec) (c.remaining / sectorSize) c
  thenDo middle (readTail fns device)

/-- Nothing is returned for a failure, after which parts of the memory may have been read. -/
def blkDeviceRead (fns : Functions σ) (ctl : Nat → DeviceT) (drive buffer offset length : Nat) (dest : Bytes) :
    Program σ (Option (Bytes × Nat)) :=
  if haveVdisk ctl drive = false ∨ length = 0 then pure (some (dest, 0))
  else if (ctl drive).type = .stream then readStream fns (ctl drive) drive offset length dest
  else if (ctl drive).sectorSize = 0 ∨ (ctl drive).read = none then pure none
  else do
    if ← fns.acquireBounce drive (blkWindowBytes (ctl drive)) then
      thenDo (readParts fns (ctl drive) buffer offset length dest) fun c => pure (some (c.dest, c.done))
    else pure none

structure Writing where
  done : Nat
  remaining : Nat
  sector : Nat

/-- `bytes` of what is written to the next `number` sectors are those of the caller. -/
def writeSectors (fns : Functions σ) (device : DeviceT) (data : Bytes) (number bytes : Nat) (c : Writing) :
    Program σ (Option Writing) := do
  let r ← callWrite fns device device.vdiskid data number c.sector
  pure (if r = number then some ⟨c.done + bytes, c.remaining - bytes, c.sector + number⟩ else none)

def writePart (fns : Functions σ) (device : DeviceT) (src : Bytes) (offset bytes : Nat) (c : Writing) :
    Program σ (Option Writing) :=
  if device.read = none then pure none
  else do
    let r ← callRead fns device device.vdiskid 1 c.sector
    if r.2 ≠ 1 then pure none
    else writeSectors fns device (copyBytes r.1 offset src c.done bytes) 1 bytes c

def writeHead (fns : Functions σ) (device : DeviceT) (src : Bytes) (inBlock : Nat) (c : Writing) :
    Program σ (Option Writing) :=
  if inBlock = 0 then pure (some c)
  else writePart fns device src inBlock (min (device.sectorSize.toNat - inBlock) c.remaining) c

def writeDirect (fns : Functions σ) (device : DeviceT) (src : Bytes) (buffer : Nat) :
    Nat → Writing → Program σ (Option Writing)
  | 0, c => pure (some c)
  | rounds + 1, c =>
    if c.remaining < device.sectorSize.toNat then pure (some c)
    else do
      let bytes ← directBytes fns device ((buffer + c.done) % addressLimit) c.remaining
      if bytes = 0 then pure (some c)
      else
        thenDo (writeSectors fns device (fun i => src (c.done + i)) (bytes / device.sectorSize.toNat) bytes c)
          (writeDirect fns device src buffer rounds)

def writeMiddle (fns : Functions σ) (device : DeviceT) (src : Bytes) (bn : Nat) :
    Nat → Writing → Program σ (Option Writing)
  | 0, c => pure (some c)
  | rounds + 1, c =>
    let n := min (c.remaining / device.sectorSize.toNat) bn
    if n = 0 then pure (some c)
    else
      thenDo (writeSectors fns device (fun i => src (c.done + i)) n (n * device.sectorSize.toNat) c)
        (writeMiddle fns device src bn rounds)

def writeTail (fns : Functions σ) (device : DeviceT) (src : Bytes) (c : Writing) : Program σ (Option Writing) :=
  if c.remaining = 0 then pure (some c) else writePart fns device src 0 c.remaining c

def writeParts (fns : Functions σ) (device : DeviceT) (buffer offset length : Nat) (src : Bytes) :
    Program σ (Option Writing) :=
  let sectorSize := device.sectorSize.toNat
  let maxSec := max (blkWindowBytes device / sectorSize) 1
  let head := writeHead fns device src (offset % sectorSize) ⟨0, length, offset / sectorSize⟩
  let direct := thenDo head fun c => writeDirect fns device src buffer c.remaining c
  let middle := thenDo direct fun c =>
    writeMiddle fns device src (min (c.remaining / sectorSize) maxSec) (c.remaining / sectorSize) c
  thenDo middle (writeTail fns device src)

def blkDeviceWrite (fns : Functions σ) (device : DeviceT) (buffer offset length : Nat) (src : Bytes) :
    Program σ (Option Nat) :=
  if length = 0 then pure (some 0)
  else do
    if ← fns.userBufferValid buffer length then
      if device.type = .stream then do
        let r ← callWrite fns device device.vdiskid src length offset
        pure (if r = failed then none else some r)
      else if device.sectorSize = 0 ∨ device.write = none then pure none
      else do
        if ← fns.acquireBounce device.vdiskid (blkWindowBytes device) then
          thenDo (writeParts fns device buffer offset length src) fun c => pure (some c.done)
        else pure none
    else pure none

def clampSize (device : DeviceT) (offset size : Nat) : Nat := min size (device.size.toNat - offset)

def devfsRead (fns : Functions σ) (ctl : Nat → DeviceT) (handle : DeviceHandle) (addr offset size : Nat)
    (dest : Bytes) :
    Program σ (Option (Bytes × Nat)) :=
  if handle.isDir then pure none
  else
    match handle.device with
    | none => throw .null
    | some id =>
      let device := ctl id
      if device.flag = 0 then pure none
      else if device.type = .stream then do
        if ← fns.malloc (if size = 0 then 1 else size) then readStream fns device device.vdiskid offset size dest
        else pure none
      else if device.size.toNat < offset then pure (some (dest, 0))
      else blkDeviceRead fns ctl device.vdiskid addr offset (clampSize device offset size) dest

def devfsWrite (fns : Functions σ) (ctl : Nat → DeviceT) (handle : DeviceHandle) (addr offset size : Nat)
    (src : Bytes) :
    Program σ (Option Nat) :=
  if handle.isDir then pure none
  else
    match handle.device with
    | none => throw .null
    | some id =>
      let device := ctl id
      if device.flag = 0 then pure none
      else if device.type = .stream then do
        let r ← callWrite fns device device.vdiskid src size offset
        pure (if r = failed then none else some r)
      else if device.size.toNat < offset then pure (some 0)
      else blkDeviceWrite fns device addr offset (clampSize device offset size) src

end OpenXJ380.Device
