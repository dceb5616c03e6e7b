import OpenXJ380.Device.Block

/-! # Partition tables (`driver/fs/partition.cpp`)

The entries of an MBR or of a GPT that are found on a disk. What is read from the disk
goes into buffers of known size; a look beyond a buffer, or beyond the table of
partitions, is a fault.
-/

namespace OpenXJ380.Partition

open Device

abbrev Byte := BitVec 8

def maxPartitionsNum : Nat := 128

def mbrMaxPartitionNum : Nat := 4

inductive PartitionType where
  | unset
  | mbr
  | gpt
  deriving DecidableEq

structure PartitionT where
  vdiskId : Nat
  startingLba : Nat
  endingLba : Nat
  sectorSize : Nat
  type : PartitionType
  isUsed : Bool
  partitionName : List Byte
  partitionTypeGuid : List Byte
  uniquePartitionGuid : List Byte
  diskGuid : List Byte
  deriving DecidableEq

structure Request where
  offset : Nat
  bytes : Nat
  memory : Nat
  deriving DecidableEq

/-- The node of a disk, and memory. Reading returns the bytes that are in the memory then, and how many were read. -/
structure Medium (ω : Type) where
  vfsRead : ω → Nat → Nat → ω × Bytes × Nat
  malloc : ω → Nat → ω × Bool

structure Parser (ω : Type) where
  world : ω
  partitions : Nat → PartitionT
  partitionNum : Nat
  requests : List Request

abbrev Parsing (ω : Type) := EStateM Fault (Parser ω)

variable {ω : Type}

def mul64 (a b : Nat) : Nat := a * b % addressLimit

structure Buffer where
  size : Nat
  bytes : Bytes

def sliceOf (bytes : Bytes) (start n : Nat) : List Byte := (List.range n).map fun k => bytes (start + k)

def Buffer.slice (b : Buffer) (start n : Nat) : Parsing ω (List Byte) :=
  if start + n ≤ b.size then pure (sliceOf b.bytes start n) else throw .table

def littleEndian : List Byte → Nat
  | [] => 0
  | b :: bytes => b.toNat + 256 * littleEndian bytes

def Buffer.number (b : Buffer) (start n : Nat) : Parsing ω Nat := do
  let bytes ← b.slice start n
  pure (littleEndian bytes)

def malloc (io : Medium ω) (n : Nat) : Parsing ω Bool := do
  let p ← get
  let r := io.malloc p.world n
  set { p with world := r.1 }
  pure r.2

/-- Memory of some size, and whether all of it has been read from the offset. -/
def partitionReadExact (io : Medium ω) (offset bytes : Nat) : Parsing ω (Buffer × Bool) := do
  let p ← get
  let r := io.vfsRead p.world offset bytes
  set { p with world := r.1, requests := ⟨offset, bytes, bytes⟩ :: p.requests }
  pure (⟨bytes, r.2.1⟩, r.2.2 = bytes)

structure GptDpt where
  signature : List Byte
  firstUsableLba : Nat
  lastUsableLba : Nat
  diskGuid : List Byte
  partitionEntryLba : Nat
  numPartitionEntries : Nat
  sizeOfPartitionEntry : Nat

def sizeofGptDpt : Nat := 92

def gptDpt (b : Buffer) : Parsing ω GptDpt := do
  let signature ← b.slice 0 8
  let firstUsableLba ← b.number 40 8
  let lastUsableLba ← b.number 48 8
  let diskGuid ← b.slice 56 16
  let partitionEntryLba ← b.number 72 8
  let numPartitionEntries ← b.number 80 4
  let sizeOfPartitionEntry ← b.number 84 4
  pure
    { signature, firstUsableLba, lastUsableLba, diskGuid, partitionEntryLba, numPartitionEntries, sizeOfPartitionEntry }

structure GptDpte where
  partitionTypeGuid : List Byte
  uniquePartitionGuid : List Byte
  startingLba : Nat
  endingLba : Nat
  partitionName : List Byte

def sizeofGptDpte : Nat := 128

def gptDpte (b : Buffer) (start : Nat) : Parsing ω GptDpte := do
  let partitionTypeGuid ← b.slice start 16
  let uniquePartitionGuid ← b.slice (start + 16) 16
  let startingLba ← b.number (start + 32) 8
  let endingLba ← b.number (start + 40) 8
  let partitionName ← b.slice (start + 56) 72
  pure { partitionTypeGuid, uniquePartitionGuid, startingLba, endingLba, partitionName }

/-- `start_lba` and `sectors_limit` of an entry of the MBR. -/
structure MbrDpte where
  startLba : Nat
  sectorsLimit : Nat

def mbrDpte (b : Buffer) (j : Nat) : Parsing ω MbrDpte := do
  let startLba ← b.number (446 + 16 * j + 8) 4
  let sectorsLimit ← b.number (446 + 16 * j + 12) 4
  pure { startLba, sectorsLimit }

def isPartitionUsed (entry : GptDpte) : Bool :=
  entry.startingLba ≠ 0 && entry.endingLba ≠ 0 && entry.partitionTypeGuid.any (· ≠ 0)

def partitionLbaRangeIsValid (startingLba endingLba sectorSize diskSize : Nat) : Bool :=
  let diskSectors := diskSize / sectorSize
  let sizeMax := addressLimit - 1
  sectorSize ≠ 0 && startingLba ≤ endingLba && diskSectors ≠ 0 && endingLba < diskSectors &&
    startingLba ≤ sizeMax && endingLba ≤ sizeMax && endingLba - startingLba + 1 ≤ sizeMax / sectorSize

def addPartition (fill : PartitionT → PartitionT) : Parsing ω Unit := do
  let p ← get
  if p.partitionNum < maxPartitionsNum then
    set { p with
      partitions := Function.update p.partitions p.partitionNum (fill (p.partitions p.partitionNum))
      partitionNum := p.partitionNum + 1 }
  else throw .table

def efiPart : List Byte := [0x45, 0x46, 0x49, 0x20, 0x50, 0x41, 0x52, 0x54]

def fillGpt (gpt : GptDpt) (disk : DeviceT) (vdiskId : Nat) (entry : GptDpte) (partition : PartitionT) : PartitionT :=
  { partition with
    vdiskId := vdiskId
    startingLba := entry.startingLba
    endingLba := entry.endingLba
    type := .gpt
    sectorSize := disk.sectorSize.toNat
    isUsed := true
    diskGuid := gpt.diskGuid
    partitionTypeGuid := entry.partitionTypeGuid
    uniquePartitionGuid := entry.uniquePartitionGuid
    partitionName := entry.partitionName }

def gptEntryIsValid (gpt : GptDpt) (disk : DeviceT) (entry : GptDpte) : Bool :=
  gpt.firstUsableLba ≤ entry.startingLba && entry.endingLba ≤ gpt.lastUsableLba &&
    partitionLbaRangeIsValid entry.startingLba entry.endingLba disk.sectorSize.toNat disk.size.toNat

def gptEntry (gpt : GptDpt) (disk : DeviceT) (vdiskId : Nat) (dptes : Buffer) (j : Nat) : Parsing ω Unit := do
  let entry ← gptDpte dptes (j * gpt.sizeOfPartitionEntry)
  if isPartitionUsed entry && gptEntryIsValid gpt disk entry then addPartition (fillGpt gpt disk vdiskId entry)
  else pure ()

def gptEntries (gpt : GptDpt) (disk : DeviceT) (vdiskId : Nat) (dptes : Buffer) : Nat → Nat → Parsing ω Unit
  | 0, _ => pure ()
  | rounds + 1, j => do
    gptEntry gpt disk vdiskId dptes j
    gptEntries gpt disk vdiskId dptes rounds (j + 1)

def gptIsPresent (gpt : GptDpt) : Bool :=
  gpt.signature = efiPart && gpt.numPartitionEntries ≠ 0 && gpt.partitionEntryLba ≠ 0 &&
    sizeofGptDpte ≤ gpt.sizeOfPartitionEntry && gpt.sizeOfPartitionEntry ≤ 512

/-- There is to be room in the table for as many partitions as the GPT has entries. -/
def gptHasRoom (gpt : GptDpt) (disk : DeviceT) (partitionNum : Nat) : Bool :=
  partitionNum < maxPartitionsNum && gpt.numPartitionEntries ≤ maxPartitionsNum - partitionNum &&
    gpt.numPartitionEntries ≤ (addressLimit - 1) / gpt.sizeOfPartitionEntry && disk.sectorSize ≠ 0 &&
    gpt.partitionEntryLba ≤ (addressLimit - 1) / disk.sectorSize.toNat

def dptesSize (gpt : GptDpt) : Nat := mul64 gpt.numPartitionEntries gpt.sizeOfPartitionEntry

def entriesOffset (gpt : GptDpt) (disk : DeviceT) : Nat := mul64 gpt.partitionEntryLba disk.sectorSize.toNat

def gptIsOnDisk (gpt : GptDpt) (disk : DeviceT) : Bool :=
  entriesOffset gpt disk ≤ disk.size.toNat && dptesSize gpt ≤ disk.size.toNat - entriesOffset gpt disk &&
    gpt.firstUsableLba ≠ 0 && gpt.firstUsableLba ≤ gpt.lastUsableLba &&
    gpt.lastUsableLba < disk.size.toNat / disk.sectorSize.toNat

def parseGptPartitions (io : Medium ω) (gpt : GptDpt) (disk : DeviceT) (vdiskId : Nat) : Parsing ω Bool := do
  let p ← get
  if gptIsPresent gpt && gptHasRoom gpt disk p.partitionNum && gptIsOnDisk gpt disk then do
    if ← malloc io (dptesSize gpt) then do
      let r ← partitionReadExact io (entriesOffset gpt disk) (dptesSize gpt)
      if r.2 then do
        gptEntries gpt disk vdiskId r.1 gpt.numPartitionEntries 0
        pure true
      else pure false
    else pure false
  else pure false

def readGpt (io : Medium ω) (disk : DeviceT) : Parsing ω (Option GptDpt) := do
  if ← malloc io disk.sectorSize.toNat then do
    let r ← partitionReadExact io disk.sectorSize.toNat disk.sectorSize.toNat
    if r.2 then do
      let gpt ← gptDpt r.1
      pure (some gpt)
    else pure none
  else pure none

def tryGptAtLba1 (io : Medium ω) (disk : DeviceT) (vdiskId : Nat) : Parsing ω Bool :=
  if disk.sectorSize.toNat < sizeofGptDpt ∨ (addressLimit - 1) / 2 < disk.sectorSize.toNat then pure false
  else do
    match ← readGpt io disk with
    | none => pure false
    | some gpt => if gpt.signature = efiPart then parseGptPartitions io gpt disk vdiskId else pure false

def fillMbr (disk : DeviceT) (vdiskId startingLba endingLba : Nat) (partition : PartitionT) : PartitionT :=
  { partition with
    vdiskId := vdiskId
    startingLba := startingLba
    endingLba := endingLba
    type := .mbr
    sectorSize := disk.sectorSize.toNat
    isUsed := true }

/-- An entry that is used is left out where its end overflows or it is not on the disk. -/
def mbrEntry (disk : DeviceT) (vdiskId : Nat) (entry : MbrDpte) : Parsing ω Unit :=
  if addressLimit - 1 - entry.startLba < entry.sectorsLimit - 1 then pure ()
  else if
    partitionLbaRangeIsValid entry.startLba (entry.startLba + entry.sectorsLimit - 1) disk.sectorSize.toNat
      disk.size.toNat
  then addPartition (fillMbr disk vdiskId entry.startLba (entry.startLba + entry.sectorsLimit - 1))
  else pure ()

def mbrEntries (disk : DeviceT) (vdiskId : Nat) (mbr : Buffer) : Nat → Nat → Parsing ω Unit
  | 0, _ => pure ()
  | rounds + 1, j => do
    let entry ← mbrDpte mbr j
    if entry.startLba = 0 ∨ entry.sectorsLimit = 0 then mbrEntries disk vdiskId mbr rounds (j + 1)
    else do
      let p ← get
      if maxPartitionsNum ≤ p.partitionNum then pure ()
      else do
        mbrEntry disk vdiskId entry
        mbrEntries disk vdiskId mbr rounds (j + 1)

def bootSignature (mbr : Buffer) : Parsing ω Bool := do
  let low ← mbr.number 0x1FE 1
  let high ← mbr.number 0x1FF 1
  pure (low = 0x55 ∧ high = 0xAA)

/-- The first four sectors, and whether they have been read in one of the attempts. -/
def readMbr (io : Medium ω) (disk : DeviceT) : Nat → Bool → Buffer → Parsing ω (Buffer × Bool)
  | 0, readOk, mbr => pure (mbr, readOk)
  | attempts + 1, readOk, _ => do
    let r ← partitionReadExact io 0 (mul64 disk.sectorSize.toNat 4)
    if r.2 then do
      if ← bootSignature r.1 then pure (r.1, true) else readMbr io disk attempts true r.1
    else readMbr io disk attempts readOk r.1

def parseBootSector (io : Medium ω) (disk : DeviceT) (vdiskId : Nat) (mbr : Buffer) : Parsing ω Bool := do
  let partType ← mbr.number (0x1BE + 4) 1
  if partType = 0xEE then do
    match ← readGpt io disk with
    | none => pure false
    | some gpt => parseGptPartitions io gpt disk vdiskId
  else do
    let trailSig ← mbr.number 510 2
    if trailSig ≠ 0xAA55 then pure true
    else do
      mbrEntries disk vdiskId mbr mbrMaxPartitionNum 0
      pure true

def parserBlockDevice (io : Medium ω) (disk : DeviceT) (vdiskId : Nat) : Parsing ω Bool :=
  if disk.sectorSize.toNat < 512 ∨ (addressLimit - 1) / 4 < disk.sectorSize.toNat ∨
      disk.size.toNat < mul64 disk.sectorSize.toNat 4 then pure false
  else do
    if ← malloc io (mul64 disk.sectorSize.toNat 4) then do
      let r ← readMbr io disk 3 false ⟨mul64 disk.sectorSize.toNat 4, fun _ => 0⟩
      if r.2 = false then pure false
      else do
        if ← bootSignature r.1 then parseBootSector io disk vdiskId r.1
        else do
          -- The dump of the first bytes.
          let _ ← r.1.slice 0 (min disk.sectorSize.toNat 64)
          let _ ← tryGptAtLba1 io disk vdiskId
          pure true
    else pure false

end OpenXJ380.Partition
