import OpenXJ380.Device.Sectors

/-! # Blocks of a device (`arch/arm32/src/device.c`)

A transfer has a head that begins inside a sector, whole sectors of which eight at most are
transferred at once, and a tail. Head and tail go through one sector of scratch memory. A size
has 32 bits and the code computes with 64, which never wrap.
-/

namespace OpenXJ380.ArmDevice

open BitVec (ofNat)

open Device (Bytes copyBytes DeviceFlag)

abbrev Size := BitVec 32

structure DeviceT (σ : Type) where
  read : Option (Int → Bytes → Size → Size → σ → Bytes × Size × σ)
  write : Option (Int → Bytes → Size → Size → σ → Size × σ)
  flag : Int
  sectorSize : Size
  type : DeviceFlag
  vdiskid : Size

structure Machine (σ : Type) where
  driver : σ
  memory : Bytes
  gBlkScratch : Bytes
  gBlkCalls : BitVec 32

/-- A failure is `return (size_t)-1`. -/
abbrev Transfer (σ : Type) := EStateM Unit (Machine σ)

structure Position where
  total : Nat
  remaining : Nat
  sector : Nat

variable {σ : Type}

def sectorsOnce : Nat := 8

def blkScratchBytes : Nat := 4096

def deviceTableSize : Nat := 256

def haveVdisk (deviceCtl : Nat → DeviceT σ) (drive : Int) : Bool :=
  0 ≤ drive ∧ drive < deviceTableSize ∧ 0 < (deviceCtl drive.toNat).flag

def view (b : Bytes) (address : Nat) : Bytes := fun i => b (address + i)

def setView (b : Bytes) (address : Nat) (c : Bytes) : Bytes := fun i => if i < address then b i else c (i - address)

def Position.next (p : Position) (bytes sectors : Nat) : Position where
  total := p.total + bytes
  remaining := p.remaining - bytes
  sector := p.sector + sectors

def readScratch (device : DeviceT σ) (read : Int → Bytes → Size → Size → σ → Bytes × Size × σ) (sector : Nat) :
    Transfer σ Unit := fun m =>
  let r := read device.vdiskid.toInt m.gBlkScratch 1 (ofNat 32 sector) m.driver
  let m := { m with gBlkScratch := r.1, driver := r.2.2 }
  if r.2.1 ≠ 1 then .error () m else .ok () m

section

variable (sectorSize : Nat) (part : Nat → Nat → Position → Transfer σ Position)
  (whole : Nat → Position → Transfer σ Position)

def head (offsetInBlock : Nat) (p : Position) : Transfer σ Position :=
  if offsetInBlock ≠ 0 then part offsetInBlock (min (sectorSize - offsetInBlock) p.remaining) p else pure p

def middle : Nat → Position → Transfer σ Position
  | 0, p => pure p
  | rounds + 1, p =>
    if sectorSize ≤ p.remaining then do
      let p ← whole (min (p.remaining / sectorSize) sectorsOnce) p
      middle rounds p
    else pure p

def tail (p : Position) : Transfer σ Position :=
  if 0 < p.remaining then part 0 p.remaining p else pure p

def parts (offset length : Nat) : Transfer σ Position := do
  let p ← head sectorSize part (offset % sectorSize) ⟨0, length, offset / sectorSize⟩
  let p ← middle sectorSize whole (p.remaining / sectorSize) p
  tail part p

end

def failed : Size := BitVec.allOnes 32

def result (t : Transfer σ Position) (m : Machine σ) : Size × Machine σ :=
  match t m with
  | .ok p m => (ofNat 32 p.total, m)
  | .error _ m => (failed, m)

section

variable (device : DeviceT σ) (read : Int → Bytes → Size → Size → σ → Bytes × Size × σ) (buffer : Nat)

def copyOut (offset bytes : Nat) (p : Position) : Transfer σ Position := fun m =>
  .ok (p.next bytes 1) { m with memory := copyBytes m.memory (buffer + p.total) m.gBlkScratch offset bytes }

def readPart (offset bytes : Nat) (p : Position) : Transfer σ Position := do
  readScratch device read p.sector
  copyOut buffer offset bytes p

def readSectors (secs : Nat) (p : Position) : Transfer σ Position := fun m =>
  let dest := buffer + p.total
  let r := read device.vdiskid.toInt (view m.memory dest) (ofNat 32 secs) (ofNat 32 p.sector) m.driver
  let m := { m with memory := setView m.memory dest r.1, driver := r.2.2 }
  if r.2.1 ≠ ofNat 32 secs then .error () m else .ok (p.next (secs * device.sectorSize.toNat) secs) m

end

/-- The buffer is an address, where 0 is `NULL`. -/
def blkDeviceRead (deviceCtl : Nat → DeviceT σ) (drive : Int) (buffer : Nat) (offset length : Size) (m : Machine σ) :
    Size × Machine σ :=
  if haveVdisk deviceCtl drive = false ∨ length = 0 then (0, m)
  else if buffer = 0 then (failed, m)
  else
    let device := deviceCtl drive.toNat
    match device.read with
    | none => (failed, m)
    | some read =>
      if device.type = .stream then
        let r := read drive (view m.memory buffer) length offset m.driver
        (r.2.1, { m with memory := setView m.memory buffer r.1, driver := r.2.2 })
      else if device.sectorSize = 0 ∨ blkScratchBytes < device.sectorSize.toNat then (failed, m)
      else
        result (parts device.sectorSize.toNat (readPart device read buffer) (readSectors device read buffer)
          offset.toNat length.toNat) m

section

variable (device : DeviceT σ) (write : Int → Bytes → Size → Size → σ → Size × σ) (buffer : Nat)

def copyIn (offset bytes : Nat) (p : Position) : Transfer σ Position := fun m =>
  let m := { m with gBlkScratch := copyBytes m.gBlkScratch offset m.memory (buffer + p.total) bytes }
  let r := write device.vdiskid.toInt m.gBlkScratch 1 (ofNat 32 p.sector) m.driver
  let m := { m with driver := r.2 }
  if r.1 ≠ 1 then .error () m else .ok (p.next bytes 1) m

def writePart (offset bytes : Nat) (p : Position) : Transfer σ Position :=
  match device.read with
  | none => EStateM.throw ()
  | some read => do
    readScratch device read p.sector
    copyIn device write buffer offset bytes p

def writeSectors (secs : Nat) (p : Position) : Transfer σ Position := fun m =>
  let r := write device.vdiskid.toInt (view m.memory (buffer + p.total)) (ofNat 32 secs)
    (ofNat 32 p.sector) m.driver
  let m := { m with driver := r.2 }
  if r.1 ≠ ofNat 32 secs then .error () m else .ok (p.next (secs * device.sectorSize.toNat) secs) m

end

def blkDeviceWrite (device : DeviceT σ) (buffer : Nat) (offset length : Size) (m : Machine σ) : Size × Machine σ :=
  let m := { m with gBlkCalls := m.gBlkCalls + 1 }
  if length = 0 then (0, m)
  else if buffer = 0 ∨ deviceTableSize ≤ device.vdiskid.toNat then (failed, m)
  else
    match device.write with
    | none => (failed, m)
    | some write =>
      if device.type = .stream then
        let r := write device.vdiskid.toInt (view m.memory buffer) length offset m.driver
        (r.1, { m with driver := r.2 })
      else if device.sectorSize = 0 ∨ blkScratchBytes < device.sectorSize.toNat then (failed, m)
      else
        result (parts device.sectorSize.toNat (writePart device write buffer) (writeSectors device write buffer)
          offset.toNat length.toNat) m

/-! # A device as a flat disk

Where the callbacks transfer whole sectors faithfully, the calls transfer single bytes faithfully. -/

open BitVec (ofNat ofNat_toNat setWidth_eq toNat_ofNat)

open Device (Bytes copyBytes Left head_left start_left copyBytes_zero copyBytes_inside copyBytes_append
  copyBytes_scratch
  copyBytes_replaced)
open Programs

variable {σ : Type} {a b n k offset length : Nat} {dst src : Bytes}

theorem setView_copyBytes (dst : Bytes) (a : Nat) (src : Bytes) (b n : Nat) :
    setView dst a (copyBytes (view dst a) 0 src b n) = copyBytes dst a src b n := by
  funext i
  simp only [setView, copyBytes, view]
  split_ifs
  all_goals first | rfl | omega | exact congrArg src (by omega) | exact congrArg dst (by omega)

theorem copyBytes_view (dst : Bytes) (a : Nat) (src : Bytes) (b n : Nat) :
    copyBytes dst a (view src b) 0 n = copyBytes dst a src b n := by
  funext i
  simp only [copyBytes, view]
  split_ifs
  all_goals first | rfl | exact congrArg src (by omega)

variable {sectorSize sectors : Nat} {part : Nat → Nat → Position → Transfer σ Position}
  {whole : Nat → Position → Transfer σ Position} {S : Nat → Machine σ → Prop} {p : Position}

/-- `S` says what holds after some bytes. A part of a sector and whole sectors each carry it on. -/
structure Steps (sectorSize sectors offset : Nat) (part : Nat → Nat → Position → Transfer σ Position)
    (whole : Nat → Position → Transfer σ Position) (S : Nat → Machine σ → Prop) : Prop where
  part : ∀ o n p, o + n ≤ sectorSize → p.sector < sectors → p.sector * sectorSize + o = offset + p.total →
    Triple (S p.total) (part o n p) (fun q m => q = p.next n 1 ∧ S q.total m) fun _ _ => False
  whole : ∀ k p, 0 < k → k ≤ sectorsOnce → p.sector + k ≤ sectors → p.sector * sectorSize = offset + p.total →
    Triple (S p.total) (whole k p) (fun q m => q = p.next (k * sectorSize) k ∧ S q.total m) fun _ _ => False

def Reached (sectorSize offset length : Nat) (p : Position) : Prop :=
  p.total + p.remaining = length ∧ Left sectorSize (offset + length) p.remaining p.sector

section

variable (h : Reached sectorSize offset length p)

include h

theorem Reached.start (hMore : 0 < p.remaining) : p.sector * sectorSize = offset + p.total := by
  have hSum := h.1
  have hStart := h.2.resolve_left hMore.ne'
  omega

theorem Reached.sector_lt (hRange : offset + length ≤ sectors * sectorSize)
    (hMore : 0 < p.remaining) : p.sector < sectors := by
  have hStart := h.2.resolve_left hMore.ne'
  exact Nat.lt_of_mul_lt_mul_right (a := sectorSize) (by omega)

theorem Reached.sectors_le (hRange : offset + length ≤ sectors * sectorSize)
    (hSize : 0 < sectorSize) (hMore : 0 < p.remaining) (hBytes : k * sectorSize ≤ p.remaining) :
    p.sector + k ≤ sectors := by
  have hStart := h.2.resolve_left hMore.ne'
  refine Nat.le_of_mul_le_mul_right ?_ hSize
  rw [add_mul]
  omega

theorem Reached.next (hBytes : k * sectorSize ≤ p.remaining) :
    Reached sectorSize offset length (p.next (k * sectorSize) k) := by
  constructor
  · have hSum := h.1
    change p.total + k * sectorSize + (p.remaining - k * sectorSize) = length
    omega
  · exact h.2.next hBytes

end

section

variable (h : Steps sectorSize sectors offset part whole S)

include h

theorem head_run (hSize : 0 < sectorSize) (hLength : 0 < length)
    (hRange : offset + length ≤ sectors * sectorSize) :
    Triple (S 0) (head sectorSize part (offset % sectorSize) ⟨0, length, offset / sectorSize⟩)
      (fun q m => Reached sectorSize offset length q ∧ S q.total m) fun _ _ => False := by
  apply Triple.ite
  · intro _
    have hMod := Nat.mod_lt offset hSize
    have hSector : offset / sectorSize < sectors := (Nat.div_lt_iff_lt_mul hSize).mpr (by omega)
    have hHead : offset % sectorSize + min (sectorSize - offset % sectorSize) length ≤ sectorSize := by omega
    refine (h.part _ _ ⟨0, length, offset / sectorSize⟩ hHead hSector (Nat.div_add_mod' offset sectorSize)).post ?_
    rintro q m ⟨rfl, hS⟩
    refine ⟨⟨?_, head_left hSize⟩, hS⟩
    change 0 + min (sectorSize - offset % sectorSize) length + (length - min _ length) = length
    omega
  · intro hWhole
    exact .pure fun m hS => ⟨⟨zero_add length, start_left (not_not.mp hWhole)⟩, hS⟩

theorem middle_run (hSize : 0 < sectorSize)
    (hRange : offset + length ≤ sectors * sectorSize) {rounds : Nat} (hReached : Reached sectorSize offset length p)
    (hRounds : p.remaining / sectorSize ≤ rounds) :
    Triple (S p.total) (middle sectorSize whole rounds p)
      (fun q m => (Reached sectorSize offset length q ∧ q.remaining < sectorSize) ∧ S q.total m)
      fun _ _ => False := by
  induction rounds generalizing p with
  | zero =>
    have hLess : p.remaining < sectorSize := (Nat.div_eq_zero_iff_lt hSize).mp (Nat.le_zero.mp hRounds)
    exact .pure fun m hS => ⟨⟨hReached, hLess⟩, hS⟩
  | succ rounds ih =>
    apply Triple.ite
    · intro hMore
      obtain ⟨k, hk⟩ : ∃ k, k = min (p.remaining / sectorSize) sectorsOnce := ⟨_, rfl⟩
      have hOne : 0 < p.remaining / sectorSize := Nat.div_pos hMore hSize
      have hPos : 0 < k := by
        rw [hk]
        exact Nat.lt_min.mpr ⟨hOne, by decide⟩
      have hBytes : k * sectorSize ≤ p.remaining := by
        have hLe : k ≤ p.remaining / sectorSize := hk.le.trans (min_le_left ..)
        exact (Nat.mul_le_mul_right _ hLe).trans (Nat.div_mul_le_self ..)
      have hRemaining : 0 < p.remaining := hSize.trans_le hMore
      have hStep := h.whole k p hPos (hk.le.trans (min_le_right ..))
        (hReached.sectors_le hRange hSize hRemaining hBytes) (hReached.start hRemaining)
      rw [← hk]
      refine hStep.bind fun q => Triple.assume fun hq => ?_
      rw [hq]
      apply ih (hReached.next hBytes)
      have hLess : (p.remaining - k * sectorSize) / sectorSize = p.remaining / sectorSize - k := by
        rw [mul_comm, Nat.sub_mul_div_of_le]
        rwa [mul_comm]
      rw [Position.next, hLess]
      omega
    · intro hLess
      exact .pure fun m hS => ⟨⟨hReached, not_le.mp hLess⟩, hS⟩

theorem tail_run (hRange : offset + length ≤ sectors * sectorSize)
    (hReached : Reached sectorSize offset length p) (hLess : p.remaining < sectorSize) :
    Triple (S p.total) (tail part p) (fun q m => q.total = length ∧ S length m) fun _ _ => False := by
  have hSum := hReached.1
  apply Triple.ite
  · intro hMore
    refine (h.part 0 p.remaining p (by omega) (hReached.sector_lt hRange hMore) (hReached.start hMore)).post ?_
    rintro q m ⟨rfl, hS⟩
    refine ⟨hSum, ?_⟩
    rw [← hSum]
    exact hS
  · intro hNone
    have hTotal : p.total = length := by omega
    exact .pure fun m hS => ⟨hTotal, hTotal ▸ hS⟩

theorem parts_run (hSize : 0 < sectorSize) (hLength : 0 < length)
    (hRange : offset + length ≤ sectors * sectorSize) :
    Triple (S 0) (parts sectorSize part whole offset length) (fun q m => q.total = length ∧ S length m)
      fun _ _ => False := by
  refine (head_run h hSize hLength hRange).bind fun p => Triple.assume fun hHead => ?_
  refine (middle_run h hSize hRange hHead le_rfl).bind fun q => Triple.assume fun hMiddle => ?_
  exact tail_run h hRange hMiddle.1 hMiddle.2

end

theorem result_of (t : Transfer σ Position) {P : Machine σ → Prop} {Q : Machine σ → Prop} {m : Machine σ}
    (h : Triple P t (fun q m => q.total = length ∧ Q m) fun _ _ => False) (hm : P m) :
    (result t m).1 = ofNat 32 length ∧ Q (result t m).2 := by
  have hRun := h.run m hm
  rw [result]
  cases hEnd : t m with
  | ok q m' =>
    rw [hEnd] at hRun
    exact ⟨congrArg (ofNat 32) hRun.1, hRun.2⟩
  | error e m' =>
    rw [hEnd] at hRun
    exact hRun.elim

variable {device : DeviceT σ} {disk : σ → Bytes} {read : Int → Bytes → Size → Size → σ → Bytes × Size × σ}
  {write : Int → Bytes → Size → Size → σ → Size × σ} {D M : Bytes} {buffer sector : Nat}

/-- The callbacks transfer whole sectors of a disk. A sector has a number that is a size. -/
structure Faithful (device : DeviceT σ) (sectors : Nat) (disk : σ → Bytes) : Prop where
  numbers : sectors ≤ 2 ^ 32
  read : ∀ read, device.read = some read → ∀ memory number lba driver, lba.toNat + number.toNat ≤ sectors →
    (read device.vdiskid.toInt memory number lba driver).1 =
        copyBytes memory 0 (disk driver) (lba.toNat * device.sectorSize.toNat)
          (number.toNat * device.sectorSize.toNat) ∧
      (read device.vdiskid.toInt memory number lba driver).2.1 = number ∧
      disk (read device.vdiskid.toInt memory number lba driver).2.2 = disk driver
  write : ∀ write, device.write = some write → ∀ memory number lba driver, lba.toNat + number.toNat ≤ sectors →
    (write device.vdiskid.toInt memory number lba driver).1 = number ∧
      disk (write device.vdiskid.toInt memory number lba driver).2 =
        copyBytes (disk driver) (lba.toNat * device.sectorSize.toNat) memory 0
          (number.toNat * device.sectorSize.toNat)

def Holds (disk : σ → Bytes) (D M : Bytes) (m : Machine σ) : Prop := disk m.driver = D ∧ m.memory = M

theorem Faithful.toNat_sector (h : Faithful device sectors disk) (hSector : sector < sectors) :
    (ofNat 32 sector).toNat = sector := by
  rw [toNat_ofNat]
  exact Nat.mod_eq_of_lt (hSector.trans_le h.numbers)

theorem toNat_secs (h : k ≤ sectorsOnce) : (ofNat 32 k).toNat = k := by
  rw [toNat_ofNat]
  exact Nat.mod_eq_of_lt (h.trans_lt (by decide))

theorem Faithful.inside (h : Faithful device sectors disk) (hPos : 0 < k) (hk : k ≤ sectorsOnce)
    (hSectors : sector + k ≤ sectors) : (ofNat 32 sector).toNat + (ofNat 32 k).toNat ≤ sectors := by
  rw [toNat_secs hk, h.toNat_sector (by omega)]
  exact hSectors

theorem Faithful.readScratch (h : Faithful device sectors disk) (hRead : device.read = some read)
    (hSector : sector < sectors) :
    Triple (Holds disk D M) (readScratch device read sector)
      (fun _ m => Holds disk D M m ∧ ∃ old, m.gBlkScratch =
        copyBytes old 0 D (sector * device.sectorSize.toNat) device.sectorSize.toNat)
      fun _ _ => False := by
  constructor
  rintro m ⟨rfl, rfl⟩
  have hNumber := h.toNat_sector hSector
  obtain ⟨hBytes, hCount, hDisk⟩ := h.read read hRead m.gBlkScratch 1 (ofNat 32 sector) m.driver (by
    rw [hNumber]
    exact hSector)
  rw [hNumber] at hBytes
  rw [ArmDevice.readScratch, if_neg (not_not.mpr hCount)]
  refine ⟨⟨hDisk, rfl⟩, m.gBlkScratch, hBytes.trans ?_⟩
  exact congrArg _ (one_mul _)

def Read (disk : σ → Bytes) (D M : Bytes) (buffer offset total : Nat) : Machine σ → Prop :=
  Holds disk D (copyBytes M buffer D offset total)

theorem Faithful.readSteps (h : Faithful device sectors disk) (hRead : device.read = some read) :
    Steps device.sectorSize.toNat sectors offset (readPart device read buffer) (readSectors device read buffer)
      (Read disk D M buffer offset) where
  part o n p hPart hSector hStart := by
    refine (h.readScratch hRead hSector).bind fun _ => ⟨?_⟩
    rintro m ⟨⟨hDisk, hMemory⟩, old, hScratch⟩
    refine ⟨rfl, hDisk, ?_⟩
    change copyBytes m.memory (buffer + p.total) m.gBlkScratch o n = copyBytes M buffer D offset (p.total + n)
    rw [hScratch, copyBytes_scratch hPart, hStart, hMemory, copyBytes_append]
  whole k p hPos hk hSectors hStart := by
    constructor
    rintro m ⟨hDisk, hMemory⟩
    obtain ⟨hBytes, hCount, hKept⟩ := h.read read hRead (view m.memory (buffer + p.total)) (ofNat 32 k)
      (ofNat 32 p.sector) m.driver (h.inside hPos hk hSectors)
    rw [toNat_secs hk, h.toNat_sector (by omega)] at hBytes
    rw [readSectors, if_neg (not_not.mpr hCount)]
    refine ⟨rfl, hKept.trans hDisk, ?_⟩
    change setView m.memory (buffer + p.total) _ = copyBytes M buffer D offset (p.total + k * device.sectorSize.toNat)
    rw [hBytes, setView_copyBytes, hStart, hDisk, hMemory, copyBytes_append]

def Written (disk : σ → Bytes) (D M : Bytes) (buffer offset total : Nat) : Machine σ → Prop :=
  Holds disk (copyBytes D offset M buffer total) M

theorem Faithful.writeSteps (h : Faithful device sectors disk) (hRead : device.read = some read)
    (hWrite : device.write = some write) :
    Steps device.sectorSize.toNat sectors offset (writePart device write buffer) (writeSectors device write buffer)
      (Written disk D M buffer offset) where
  part o n p hPart hSector hStart := by
    rw [writePart, hRead]
    refine (h.readScratch hRead hSector).bind fun _ => ⟨?_⟩
    rintro m ⟨⟨hDisk, rfl⟩, old, hScratch⟩
    have hNumber := h.toNat_sector hSector
    obtain ⟨hCount, hWritten⟩ := h.write write hWrite (copyBytes m.gBlkScratch o m.memory (buffer + p.total) n) 1
      (ofNat 32 p.sector) m.driver (by
        rw [hNumber]
        exact hSector)
    have hOne : (1 : Size).toNat * device.sectorSize.toNat = device.sectorSize.toNat := one_mul _
    rw [hNumber, hOne, hScratch, hDisk, copyBytes_replaced hPart, hStart, copyBytes_append] at hWritten
    rw [copyIn, if_neg (not_not.mpr hCount)]
    rw [← hScratch] at hWritten
    exact ⟨rfl, hWritten, rfl⟩
  whole k p hPos hk hSectors hStart := by
    constructor
    rintro m ⟨hDisk, rfl⟩
    obtain ⟨hCount, hWritten⟩ := h.write write hWrite (view m.memory (buffer + p.total)) (ofNat 32 k)
      (ofNat 32 p.sector) m.driver (h.inside hPos hk hSectors)
    rw [toNat_secs hk, h.toNat_sector (by omega), copyBytes_view, hStart, hDisk, copyBytes_append] at hWritten
    rw [writeSectors, if_neg (not_not.mpr hCount)]
    exact ⟨rfl, hWritten, rfl⟩

structure BlockDevice (device : DeviceT σ) (sectors : Nat) (disk : σ → Bytes) : Prop
    extends Faithful device sectors disk where
  type : device.type = .block
  positive : 1 ≤ device.sectorSize.toNat
  small : device.sectorSize.toNat ≤ 4096
  reads : device.read ≠ none
  writes : device.write ≠ none

variable {deviceCtl : Nat → DeviceT σ} {drive : Int} {offset length : Size} {m : Machine σ}

theorem BlockDevice.checked (h : BlockDevice device sectors disk) :
    device.type ≠ .stream ∧ ¬ (device.sectorSize = 0 ∨ blkScratchBytes < device.sectorSize.toNat) := by
  constructor
  · rw [h.type]
    decide
  · rintro (hZero | hLarge)
    · have hPositive := h.positive
      rw [hZero] at hPositive
      exact absurd hPositive (by decide)
    · exact absurd h.small (not_le.mpr hLarge)

theorem toNat_pos {w : Size} (h : w ≠ 0) : 0 < w.toNat :=
  Nat.pos_of_ne_zero fun hZero => h (BitVec.eq_of_toNat_eq hZero)

theorem BlockDevice.read_flat (h : BlockDevice (deviceCtl drive.toNat) sectors disk)
    (hDrive : haveVdisk deviceCtl drive) (hBuffer : buffer ≠ 0)
    (hRange : offset.toNat + length.toNat ≤ sectors * (deviceCtl drive.toNat).sectorSize.toNat) :
    (blkDeviceRead deviceCtl drive buffer offset length m).1 = length ∧
      (blkDeviceRead deviceCtl drive buffer offset length m).2.memory =
        copyBytes m.memory buffer (disk m.driver) offset.toNat length.toNat ∧
      disk (blkDeviceRead deviceCtl drive buffer offset length m).2.driver = disk m.driver := by
  by_cases hZero : length = 0
  · rw [blkDeviceRead, if_pos (.inr hZero), hZero]
    exact ⟨rfl, (copyBytes_zero ..).symm, rfl⟩
  · obtain ⟨read, hRead⟩ := Option.ne_none_iff_exists'.mp h.reads
    obtain ⟨hStream, hSizes⟩ := h.checked
    have hSome : ¬ (haveVdisk deviceCtl drive = false ∨ length = 0) := by
      rintro (hNone | hNone)
      · exact Bool.noConfusion (hDrive.symm.trans hNone)
      · exact hZero hNone
    have hStart : Read disk (disk m.driver) m.memory buffer offset.toNat 0 m := ⟨rfl, (copyBytes_zero ..).symm⟩
    have hRun := result_of _ (parts_run (h.readSteps hRead) h.positive (toNat_pos hZero) hRange) hStart
    simp only [blkDeviceRead, if_neg hSome, if_neg hBuffer, hRead, if_neg hStream, if_neg hSizes]
    refine ⟨hRun.1.trans ?_, hRun.2.2, hRun.2.1⟩
    rw [ofNat_toNat, setWidth_eq]

theorem BlockDevice.write_flat (h : BlockDevice device sectors disk) (hId : device.vdiskid.toNat < deviceTableSize)
    (hBuffer : buffer ≠ 0) (hRange : offset.toNat + length.toNat ≤ sectors * device.sectorSize.toNat) :
    (blkDeviceWrite device buffer offset length m).1 = length ∧
      disk (blkDeviceWrite device buffer offset length m).2.driver =
        copyBytes (disk m.driver) offset.toNat m.memory buffer length.toNat ∧
      (blkDeviceWrite device buffer offset length m).2.memory = m.memory := by
  by_cases hZero : length = 0
  · rw [blkDeviceWrite, if_pos hZero, hZero]
    exact ⟨rfl, (copyBytes_zero ..).symm, rfl⟩
  · obtain ⟨read, hRead⟩ := Option.ne_none_iff_exists'.mp h.reads
    obtain ⟨write, hWrite⟩ := Option.ne_none_iff_exists'.mp h.writes
    obtain ⟨hStream, hSizes⟩ := h.checked
    have hGiven : ¬ (buffer = 0 ∨ deviceTableSize ≤ device.vdiskid.toNat) := not_or.mpr ⟨hBuffer, not_le.mpr hId⟩
    have hStart : Written disk (disk m.driver) m.memory buffer offset.toNat 0 { m with gBlkCalls := m.gBlkCalls + 1 } :=
      ⟨(copyBytes_zero ..).symm, rfl⟩
    have hRun := result_of _ (parts_run (h.writeSteps hRead hWrite) h.positive (toNat_pos hZero) hRange) hStart
    simp only [blkDeviceWrite, if_neg hZero, if_neg hGiven, hWrite, if_neg hStream, if_neg hSizes]
    refine ⟨hRun.1.trans ?_, hRun.2.1, hRun.2.2⟩
    rw [ofNat_toNat, setWidth_eq]

/-- Reading and writing bytes of a block device is reading and writing bytes of a flat disk. -/
theorem blkDevice_flatDisk (h : BlockDevice (deviceCtl drive.toNat) sectors disk)
    (hDrive : haveVdisk deviceCtl drive = true) (hId : (deviceCtl drive.toNat).vdiskid.toNat < deviceTableSize)
    (hBuffer : buffer ≠ 0)
    (hRange : offset.toNat + length.toNat ≤ sectors * (deviceCtl drive.toNat).sectorSize.toNat) :
    let r := blkDeviceRead deviceCtl drive buffer offset length m
    let w := blkDeviceWrite (deviceCtl drive.toNat) buffer offset length m
    (r.1 = length ∧ r.2.memory = copyBytes m.memory buffer (disk m.driver) offset.toNat length.toNat ∧
      disk r.2.driver = disk m.driver) ∧
    (w.1 = length ∧ disk w.2.driver = copyBytes (disk m.driver) offset.toNat m.memory buffer length.toNat ∧
      w.2.memory = m.memory) ∧
    ∀ (dest : Nat) (m' : Machine σ), dest ≠ 0 → disk m'.driver = disk w.2.driver → ∀ i < length.toNat,
      (blkDeviceRead deviceCtl drive dest offset length m').2.memory (dest + i) = m.memory (buffer + i) := by
  have hWrite := h.write_flat (m := m) hId hBuffer hRange
  refine ⟨h.read_flat hDrive hBuffer hRange, hWrite, ?_⟩
  intro dest m' hDest hDisk i hi
  rw [(h.read_flat hDrive hDest hRange).2.1, copyBytes_inside hi, hDisk, hWrite.2.1, copyBytes_inside hi]

def ramDisk (sectorSize : Size) : DeviceT Bytes where
  read := some fun _ memory number lba disk =>
    (copyBytes memory 0 disk (lba.toNat * sectorSize.toNat) (number.toNat * sectorSize.toNat), number, disk)
  write := some fun _ memory number lba disk =>
    (number, copyBytes disk (lba.toNat * sectorSize.toNat) memory 0 (number.toNat * sectorSize.toNat))
  flag := 1
  sectorSize := sectorSize
  type := .block
  vdiskid := 0

theorem ramDisk_blockDevice {sectorSize : Size} (hPositive : 1 ≤ sectorSize.toNat) (hSmall : sectorSize.toNat ≤ 4096)
    (hSectors : sectors ≤ 2 ^ 32) : BlockDevice (ramDisk sectorSize) sectors id where
  numbers := hSectors
  read := by
    rintro read ⟨⟩ memory number lba driver -
    exact ⟨rfl, rfl, rfl⟩
  write := by
    rintro write ⟨⟩ memory number lba driver -
    exact ⟨rfl, rfl⟩
  type := rfl
  positive := hPositive
  small := hSmall
  reads := nofun
  writes := nofun

def blank : Machine Bytes where
  driver := fun _ => 0
  memory := fun i => ofNat 8 i
  gBlkScratch := fun _ => 0
  gBlkCalls := 0

theorem blkDevice_flatDisk_ram :
    let w := blkDeviceWrite (ramDisk 512) 4096 500 6000 blank
    w.1 = 6000 ∧ w.2.driver = copyBytes (fun _ => 0) 500 blank.memory 4096 6000 := by
  have hRam : BlockDevice (ramDisk 512) 100 id := ramDisk_blockDevice (by decide) (by decide) (by decide)
  obtain ⟨-, hWrite, -⟩ := @blkDevice_flatDisk _ 100 id 4096 (fun _ => ramDisk 512) 0 500 6000 blank hRam (by decide)
    (by decide) (by decide) (by decide)
  exact ⟨hWrite.1, hWrite.2.1⟩

end OpenXJ380.ArmDevice
