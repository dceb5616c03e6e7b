import OpenXJ380.Device.Sectors
import OpenXJ380.Device.Table
import OpenXJ380.Partition.Bounds

/-! # Transfers to and from a partition

The device of a partition passes sectors on to its disk. It finds the partition in a
table that has as many places as there may be partitions, by the number of the device.
-/

namespace OpenXJ380.Partition

section

open Device Programs Transition

structure Transfer where
  drive : Nat
  lba : Nat
  number : Nat
  deriving DecidableEq

structure Io (ω : Type) where
  world : ω
  transfers : List Transfer

structure Machine (ω : Type) where
  read : ω → Nat → Nat → Nat → ω × Bytes × Nat
  write : ω → Nat → Bytes → Nat → Nat → ω × Nat
  acquireBounce : ω → Nat → Nat → ω × Bool
  pageVirtToPhys : ω → Nat → ω × Nat
  userBufferValid : ω → Nat → Nat → ω × Bool
  malloc : ω → Nat → ω × Bool

/-- The devices, the partitions, and `device_lists`. -/
structure Disks where
  ctl : Nat → DeviceT
  partitions : Nat → PartitionT
  deviceLists : Nat → Option Nat

variable {ω : Type}

def ask {α : Type} (f : ω → ω × α) : Program (Io ω) α := fun s => .ok (f s.world).2 { s with world := (f s.world).1 }

def transfer {α : Type} (f : ω → ω × α) (drive number lba : Nat) : Program (Io ω) α := fun s =>
  .ok (f s.world).2 { world := (f s.world).1, transfers := ⟨drive, lba, number⟩ :: s.transfers }

def listed (d : Disks) (part : Nat) : Program (Io ω) PartitionT :=
  if part < maxPartitionsNum then
    match d.deviceLists part with
    | none => throw .null
    | some index => pure (d.partitions index)
  else throw .table

def partitionRead (m : Machine ω) (d : Disks) (part number lba : Nat) : Program (Io ω) (Bytes × Nat) := do
  let partition ← listed d part
  if (d.ctl partition.vdiskId).read = none then throw .null
  else
    let lba := (partition.startingLba + lba) % addressLimit
    transfer (fun w => m.read w partition.vdiskId number lba) partition.vdiskId number lba

def partitionWrite (m : Machine ω) (d : Disks) (part : Nat) (bytes : Bytes) (number lba : Nat) :
    Program (Io ω) Nat := do
  let partition ← listed d part
  if (d.ctl partition.vdiskId).write = none then throw .null
  else
    let lba := (partition.startingLba + lba) % addressLimit
    transfer (fun w => m.write w partition.vdiskId bytes number lba) partition.vdiskId number lba

def functions (m : Machine ω) (d : Disks) : Functions (Io ω) where
  read f drive number lba :=
    match f with
    | .partition => partitionRead m d drive number lba
    | .driver => transfer (fun w => m.read w drive number lba) drive number lba
  write f drive bytes number lba :=
    match f with
    | .partition => partitionWrite m d drive bytes number lba
    | .driver => transfer (fun w => m.write w drive bytes number lba) drive number lba
  acquireBounce drive bytes := ask fun w => m.acquireBounce w drive bytes
  pageVirtToPhys virt := ask fun w => m.pageVirtToPhys w virt
  userBufferValid buffer length := ask fun w => m.userBufferValid w buffer length
  malloc bytes := ask fun w => m.malloc w bytes

def sliceName (name : Vfs.Text) (index : Nat) : Vfs.Text := name ++ 'p' :: Nat.toDigits 10 index

/-- The device that `partition_register_device_node` makes of a partition of the disk `src`. -/
def partitionDevice (partition : PartitionT) (src : DeviceT) (index : Nat) : DeviceT :=
  { DeviceT.zero with
    sectorSize := BitVec.ofNat 64 partition.sectorSize
    flag := 1
    type := .block
    read := some .partition
    write := some .partition
    size := BitVec.ofNat 64 ((partition.endingLba - partition.startingLba + 1) * partition.sectorSize)
    maxSize := src.maxSize
    driveName := sliceName src.driveName index }

/-- The device `id` is that of a partition, which the table has for it as far as the table goes. -/
structure Node (d : Disks) (index id : Nat) : Prop where
  id_lt : id < devices
  entry : ∃ src, d.ctl id = { partitionDevice (d.partitions index) src index with vdiskid := id }
  listed : id < maxPartitionsNum → d.deviceLists id = some index

structure Transfer.Within (partition : PartitionT) (t : Transfer) : Prop where
  drive : t.drive = partition.vdiskId
  first : partition.startingLba ≤ t.lba
  last : t.lba + t.number ≤ partition.endingLba + 1

/-- All transfers have been within the partition. It may have turned out that its disk cannot be read or written. -/
def Stays {α : Type} (partition : PartitionT) : EStateM.Result Fault (Io ω) α → Prop :=
  After (fun _ s => ∀ t ∈ s.transfers, t.Within partition) fun f s => f = .null ∧ ∀ t ∈ s.transfers, t.Within partition

/-- Requests to the node of the device stay in the partition, wherever they begin and however long they are. -/
def Confined (d : Disks) (index id : Nat) : Prop :=
  ∀ (ω : Type) (m : Machine ω) (w : ω) (handle : DeviceHandle) (addr offset size : Nat) (bytes : Bytes),
    handle.device = some id →
      Stays (d.partitions index) (devfsRead (functions m d) d.ctl handle addr offset size bytes ⟨w, []⟩) ∧
        Stays (d.partitions index) (devfsWrite (functions m d) d.ctl handle addr offset size bytes ⟨w, []⟩)

variable {d : Disks} {index id : Nat} {disk : DeviceT} {vdiskId : Nat}

theorem Node.sectorSize (h : Node d index id) (hValid : Valid disk vdiskId (d.partitions index)) :
    (d.ctl id).sectorSize.toNat = (d.partitions index).sectorSize := by
  obtain ⟨src, hEntry⟩ := h.entry
  rw [hEntry, hValid.sectorSize]
  change (BitVec.ofNat 64 (d.partitions index).sectorSize).toNat = _
  rw [hValid.sectorSize, BitVec.ofNat_toNat, BitVec.setWidth_eq]

theorem Node.size (h : Node d index id) (hValid : Valid disk vdiskId (d.partitions index)) : (d.ctl id).size.toNat =
      ((d.partitions index).endingLba - (d.partitions index).startingLba + 1) * (d.partitions index).sectorSize := by
  obtain ⟨src, hEntry⟩ := h.entry
  rw [hEntry]
  exact Nat.mod_eq_of_lt hValid.bytes

theorem Node.within (h : Node d index id) (hValid : Valid disk vdiskId (d.partitions index)) {limit number lba : Nat}
    (hLimit : limit ≤ (d.ctl id).size.toNat) (hInside : Inside (d.ctl id).sectorSize.toNat limit number lba) :
    Transfer.Within (d.partitions index)
      ⟨(d.partitions index).vdiskId, ((d.partitions index).startingLba + lba) % addressLimit, number⟩ := by
  obtain ⟨hNumber, hEnd⟩ := hInside
  rw [h.size hValid] at hLimit
  rw [h.sectorSize hValid] at hEnd
  generalize d.partitions index = partition at *
  have hCount : (lba + number) * partition.sectorSize <
      (partition.endingLba - partition.startingLba + 1 + 1) * partition.sectorSize := by
    rw [add_mul _ 1, one_mul]
    omega
  have hLba := Nat.lt_of_mul_lt_mul_right hCount
  have hOrder := hValid.order
  have hDisk : partition.endingLba < addressLimit := hValid.last.trans_le ((Nat.div_le_self ..).trans disk.size.isLt.le)
  have hMod : (partition.startingLba + lba) % addressLimit = partition.startingLba + lba := Nat.mod_eq_of_lt (by omega)
  constructor
  · rfl
  · rw [hMod]
    exact Nat.le_add_right ..
  · rw [hMod]
    change partition.startingLba + lba + number ≤ partition.endingLba + 1
    omega

theorem ask_keeps {α : Type} {I : Io ω → Prop} {may : Fault → Prop} (hWorld : ∀ s w, I s → I { s with world := w })
    (f : ω → ω × α) : Keeps I may (ask f) fun _ => True :=
  ⟨⟨fun s hs => ⟨trivial, hWorld s _ hs⟩⟩⟩

theorem transfer_keeps {α : Type} {partition : PartitionT} {may : Fault → Prop} {drive number lba : Nat}
    (h : Transfer.Within partition ⟨drive, lba, number⟩) (f : ω → ω × α) :
    Keeps (fun s : Io ω => ∀ t ∈ s.transfers, t.Within partition) may (transfer f drive number lba) fun _ => True := by
  refine ⟨⟨fun s hs => ⟨trivial, ?_⟩⟩⟩
  rintro t (_ | ⟨_, ht⟩)
  · exact h
  · exact hs t ht

theorem listed_keeps {I : Io ω → Prop} {may : Fault → Prop} (h : Node d index id) (hId : id < maxPartitionsNum) :
    Keeps I may (listed d id) (· = d.partitions index) := by
  rw [listed, if_pos hId, h.listed hId]
  exact .pure rfl

theorem Node.guards (h : Node d index id) (hValid : Valid disk vdiskId (d.partitions index))
    (hId : id < maxPartitionsNum) (m : Machine ω) {limit : Nat} (hLimit : limit ≤ (d.ctl id).size.toNat) :
    Guards (functions m d) (d.ctl id) limit (fun s : Io ω => ∀ t ∈ s.transfers, t.Within (d.partitions index))
      (· = .null) := by
  obtain ⟨src, hEntry⟩ := h.entry
  have hNumber : (d.ctl id).vdiskid = id := by rw [hEntry]
  constructor
  · rfl
  · intro f number lba hRead hInside
    have hWithin := h.within hValid hLimit hInside
    rw [hEntry] at hRead
    cases hRead
    rw [hNumber]
    refine .bind (listed_keeps h hId) fun partition hPartition => ?_
    subst hPartition
    exact .ite (fun _ => Keeps.throw rfl) fun _ => transfer_keeps hWithin _
  · intro f bytes number lba hWrite hInside
    have hWithin := h.within hValid hLimit hInside
    rw [hEntry] at hWrite
    cases hWrite
    rw [hNumber]
    refine .bind (listed_keeps h hId) fun partition hPartition => ?_
    subst hPartition
    exact .ite (fun _ => Keeps.throw rfl) fun _ => transfer_keeps hWithin _
  · exact fun drive bytes => ask_keeps (fun _ _ hs => hs) fun w => m.acquireBounce w drive bytes
  · exact fun virt => ask_keeps (fun _ _ hs => hs) fun w => m.pageVirtToPhys w virt
  · exact fun buffer length => ask_keeps (fun _ _ hs => hs) fun w => m.userBufferValid w buffer length

theorem stays_of_keeps {α : Type} {partition : PartitionT} {prog : Program (Io ω) α} {p : α → Prop}
    (h : Keeps (fun s : Io ω => ∀ t ∈ s.transfers, t.Within partition) (· = .null) prog p) (w : ω) :
    Stays partition (prog ⟨w, []⟩) := by
  have hAfter := h.triple.post (fun _ _ => And.right)
  exact hAfter.run ⟨w, []⟩ nofun

theorem Node.confined (h : Node d index id) (hValid : Valid disk vdiskId (d.partitions index))
    (hId : id < maxPartitionsNum) : Confined d index id := by
  intro ω m w handle addr offset size bytes hHandle
  obtain ⟨src, hEntry⟩ := h.entry
  have hNumber : (d.ctl id).vdiskid = id := by rw [hEntry]
  have hType : (d.ctl id).type ≠ .stream := by
    rw [hEntry]
    nofun
  have hGuards : ∀ limit, limit ≤ (d.ctl id).size.toNat → Guards (functions m d) (d.ctl id) limit
      (fun s : Io ω => ∀ t ∈ s.transfers, t.Within (d.partitions index)) (· = .null) :=
    fun _ hLimit => h.guards hValid hId m hLimit
  constructor
  · exact stays_of_keeps (devfsRead_keeps hGuards hNumber hType hHandle addr offset size bytes) w
  · exact stays_of_keeps (devfsWrite_keeps hGuards hType hHandle addr offset size bytes) w

end

/-! # Requests stay in their partition

What is found on any disk lies on it, and requests to the device of a partition stay in
the partition. This holds for the devices that the table of partitions by device has a
place for; the code looks beyond the table for the others.
-/

open Device Programs Transition

variable {ω : Type} {d : Disks} {index id : Nat} {disk : DeviceT} {vdiskId : Nat}

def quiet : Machine Unit where
  read _ _ _ _ := ((), fun _ => 0, 0)
  write _ _ _ _ _ := ((), 0)
  acquireBounce _ _ _ := ((), true)
  pageVirtToPhys _ _ := ((), 0)
  userBufferValid _ _ _ := ((), true)
  malloc _ _ := ((), true)

theorem thenDo_pure {σ c e : Type} (a : c) (f : c → Program σ (Option e)) : thenDo (pure (some a)) f = f a := rfl

theorem listed_error (hId : maxPartitionsNum ≤ id) (s : Io ω) : listed d id s = .error .table s := by
  rw [listed, if_neg (not_lt.2 hId)]
  rfl

theorem readParts_byte {fns : Functions (Io ω)} {device : DeviceT} (hSector : 1 < device.sectorSize.toNat)
    (bytes : Bytes) : readParts fns device 0 0 1 bytes = readTail fns device ⟨bytes, 0, 1, 0⟩ := by
  have hHead : readHead fns device (0 % device.sectorSize.toNat) ⟨bytes, 0, 1, 0 / device.sectorSize.toNat⟩ =
      pure (some ⟨bytes, 0, 1, 0⟩) := by
    rw [Nat.zero_mod, Nat.zero_div]
    rfl
  have hDirect : readDirect fns device 0 1 ⟨bytes, 0, 1, 0⟩ = pure (some ⟨bytes, 0, 1, 0⟩) := if_pos hSector
  have hMiddle : ∀ bn, readMiddle fns device bn (1 / device.sectorSize.toNat) ⟨bytes, 0, 1, 0⟩ =
      pure (some ⟨bytes, 0, 1, 0⟩) := by
    intro bn
    rw [Nat.div_eq_of_lt hSector]
    rfl
  rw [readParts]
  simp only [hHead, thenDo_pure, hDirect, hMiddle]

theorem Node.astray (h : Node d index id) (hValid : Valid disk vdiskId (d.partitions index))
    (hSector : 1 < disk.sectorSize.toNat) (hId : maxPartitionsNum ≤ id) (bytes : Bytes) :
    devfsRead (functions quiet d) d.ctl ⟨false, some id, [], []⟩ 0 0 1 bytes ⟨(), []⟩ = .error .table ⟨(), []⟩ := by
  obtain ⟨src, hEntry⟩ := h.entry
  have hSize := h.size hValid
  have hSectors := h.sectorSize hValid
  rw [hValid.sectorSize] at hSectors hSize
  have hOne : 1 ≤ (d.ctl id).size.toNat := by
    rw [hSize]
    exact (Nat.le_of_lt hSector).trans (Nat.le_mul_of_pos_left _ (Nat.succ_pos _))
  have hNumber : (d.ctl id).vdiskid = id := by rw [hEntry]
  have hFlag : (d.ctl id).flag = 1 := by
    rw [hEntry]
    rfl
  have hType : (d.ctl id).type = .block := by
    rw [hEntry]
    rfl
  have hRead : (d.ctl id).read = some .partition := by
    rw [hEntry]
    rfl
  have hPresent : haveVdisk d.ctl (id : Int) := by
    refine decide_eq_true ⟨Int.ofNat_lt.2 h.id_lt, ?_⟩
    rw [Int.toNat_natCast, hFlag]
    exact Int.zero_lt_one
  have hClamp : clampSize (d.ctl id) 0 1 = 1 := by
    rw [clampSize]
    omega
  have hTail : readTail (functions quiet d) (d.ctl id) ⟨bytes, 0, 1, 0⟩ ⟨(), []⟩ = .error .table ⟨(), []⟩ := by
    simp only [readTail, readSectors, callRead, hRead, hNumber]
    change EStateM.bind (EStateM.bind (Partition.listed d id) _) _ _ = _
    rw [EStateM.bind, EStateM.bind, listed_error hId]
  have hNonzero : ¬((d.ctl id).sectorSize = 0 ∨ (d.ctl id).read = none) := by
    rintro (hZero | hNone)
    · rw [← hSectors, hZero] at hSector
      exact absurd hSector (by decide)
    · cases hRead.symm.trans hNone
  have hBlk : blkDeviceRead (functions quiet d) d.ctl id 0 0 1 bytes ⟨(), []⟩ = .error .table ⟨(), []⟩ := by
    rw [blkDeviceRead, if_neg (by rw [hPresent]; decide), if_neg (by rw [hType]; decide), if_neg hNonzero]
    change EStateM.bind (readParts _ _ 0 0 1 bytes) _ _ = _
    rw [EStateM.bind, readParts_byte (hSectors ▸ hSector), hTail]
  change (if (d.ctl id).flag = 0 then _ else _ : Program (Io Unit) _) _ = _
  rw [if_neg (by rw [hFlag]; decide), if_neg (by rw [hType]; decide), if_neg (Nat.not_lt_zero _), hClamp, hNumber]
  exact hBlk

theorem Node.confined_iff (h : Node d index id) (hValid : Valid disk vdiskId (d.partitions index))
    (hSector : 1 < disk.sectorSize.toNat) : Confined d index id ↔ id < maxPartitionsNum := by
  constructor
  · intro hConfined
    by_contra hId
    have hStays := (hConfined Unit quiet () ⟨false, some id, [], []⟩ 0 0 1 (fun _ => 0) rfl).1
    rw [h.astray hValid hSector (not_lt.1 hId)] at hStays
    cases hStays.1
  · exact h.confined hValid

structure Scan (ω : Type) where
  io : Medium ω
  disk : DeviceT
  vdiskId : Nat

def scanSystem : System (Parser ω) (Scan ω) where
  step p scan p' := ∃ ok, parserBlockDevice scan.io scan.disk scan.vdiskId p = .ok ok p'

theorem parserBlockDevice_ok (io : Medium ω) (disk : DeviceT) (vdiskId : Nat) {p : Parser ω}
    (h : p.partitionNum ≤ maxPartitionsNum) :
    ∃ ok p', parserBlockDevice io disk vdiskId p = .ok ok p' ∧ Grown disk vdiskId p 0 p' := by
  have hKeeps : Keeps (Grown disk vdiskId p 0) Never (parserBlockDevice io disk vdiskId) fun _ => True :=
    parserBlockDevice_grown
  have hAfter := hKeeps.triple.run p (.refl h)
  cases hRun : parserBlockDevice io disk vdiskId p with
  | ok ok p' =>
    rw [hRun] at hAfter
    exact ⟨ok, p', rfl, hAfter.2⟩
  | error f p' =>
    rw [hRun] at hAfter
    exact hAfter.1.elim

theorem scan_room {p₀ p : Parser ω} {scans : List (Scan ω)} (hEmpty : p₀.partitionNum = 0)
    (hRun : Run scanSystem p₀ scans p) : p.partitionNum ≤ maxPartitionsNum := by
  refine hRun.invariant (I := fun p => p.partitionNum ≤ maxPartitionsNum) ?_ (hEmpty ▸ Nat.zero_le _)
  rintro p scan p' hRoom ⟨ok, hStep⟩
  obtain ⟨ok', p'', hOk, hGrown⟩ := parserBlockDevice_ok scan.io scan.disk scan.vdiskId hRoom
  cases hStep.symm.trans hOk
  exact hGrown.room

/-- Whatever has been scanned before, the partitions that are found on a disk lie on it, and nothing else of the disk or
of the memory is looked at. Requests to the device of such a partition stay in it if and only if the table by device
has a place for the device. -/
theorem partition_requests_confined {p₀ p : Parser ω} {scans : List (Scan ω)} (hEmpty : p₀.partitionNum = 0)
    (hRun : Run scanSystem p₀ scans p) (io : Medium ω) (disk : DeviceT) (vdiskId : Nat) :
    ∃ ok p', parserBlockDevice io disk vdiskId p = .ok ok p' ∧ Grown disk vdiskId p 0 p' ∧
      ∀ index, p.partitionNum ≤ index → index < p'.partitionNum → ∀ d id, d.partitions index = p'.partitions index →
        Node d index id → (Confined d index id ↔ id < maxPartitionsNum) := by
  obtain ⟨ok, p', hOk, hGrown⟩ := parserBlockDevice_ok io disk vdiskId (scan_room hEmpty hRun)
  refine ⟨ok, p', hOk, hGrown, ?_⟩
  intro index hFrom hTo d id hSame hNode
  have hValid := hGrown.added index hFrom hTo
  rw [← hSame] at hValid
  refine hNode.confined_iff hValid ?_
  by_contra hSector
  have hSmall : parserBlockDevice io disk vdiskId = (pure false : Parsing ω Bool) := if_pos (.inl (by omega))
  rw [hSmall] at hOk
  cases hOk
  omega

/-- A disk of eight sectors with one partition, from the second sector to the third. -/
def mbrBytes : Bytes := fun i =>
  if i = 454 then 1 else if i = 458 then 2 else if i = 510 then 0x55 else if i = 511 then 0xAA else 0

def mbrMedium : Medium Unit where
  vfsRead _ offset bytes := ((), fun i => mbrBytes (offset + i), bytes)
  malloc _ _ := ((), true)

def blank : Parser Unit where
  world := ()
  partitions _ := ⟨0, 0, 0, 0, .unset, false, [], [], [], []⟩
  partitionNum := 0
  requests := []

theorem partition_requests_confined_mbr :
    ∃ ok p', parserBlockDevice mbrMedium sata 0 blank = .ok ok p' ∧ Grown sata 0 blank 0 p' := by
  obtain ⟨ok, p', hOk, hGrown, -⟩ := partition_requests_confined rfl (.nil blank) mbrMedium sata 0
  exact ⟨ok, p', hOk, hGrown⟩

def crowd : Nat → State Unit
  | 0 => deviceManagerInit start
  | n + 1 => (registDevice idle none sata (crowd n)).1

def second : PartitionT := ⟨0, 1, 2, 512, .mbr, true, [], [], [], []⟩

def late : Disks where
  ctl := (registDevice idle none (partitionDevice second sata 0) (crowd 128)).1.ctl
  partitions _ := second
  deviceLists _ := none

theorem partition_astray :
    ∃ p', (∃ ok, parserBlockDevice mbrMedium sata 0 blank = .ok ok p') ∧ p'.partitionNum = 1 ∧
      late.partitions 0 = p'.partitions 0 ∧ Node late 0 128 ∧ ¬Confined late 0 128 := by
  have hFound : (match parserBlockDevice mbrMedium sata 0 blank with
      | .ok _ p' => some (p'.partitionNum, p'.partitions 0)
      | .error _ _ => none) = some (1, second) := by
    decide
  have hNode : Node late 0 128 := by
    refine ⟨by decide, ⟨sata, ?_⟩, fun hLt => absurd hLt (by decide)⟩
    decide +kernel
  have hValid : Valid sata 0 (late.partitions 0) := by
    constructor <;> decide
  cases hRun : parserBlockDevice mbrMedium sata 0 blank with
  | ok ok p' =>
    rw [hRun] at hFound
    obtain ⟨hNum, hSecond⟩ := Prod.mk.inj (Option.some.inj hFound)
    refine ⟨p', ⟨ok, rfl⟩, hNum, hSecond.symm, hNode, ?_⟩
    intro hConfined
    exact absurd ((hNode.confined_iff hValid (by decide)).1 hConfined) (by decide)
  | error f p' =>
    rw [hRun] at hFound
    cases hFound

end OpenXJ380.Partition
