import OpenXJ380.Partition.Model

/-! # What the bytes of a disk say

The partitions that a disk has by its content, whatever the table of partitions has room
for. The decoders return what the bytes of their buffer say.
-/

namespace OpenXJ380.Partition

open Function

section

open Device Programs

variable {ω : Type}

def numberOf (bytes : Bytes) (start n : Nat) : Nat := littleEndian (sliceOf bytes start n)

def gptDptOf (bytes : Bytes) (start : Nat) : GptDpt where
  signature := sliceOf bytes start 8
  firstUsableLba := numberOf bytes (start + 40) 8
  lastUsableLba := numberOf bytes (start + 48) 8
  diskGuid := sliceOf bytes (start + 56) 16
  partitionEntryLba := numberOf bytes (start + 72) 8
  numPartitionEntries := numberOf bytes (start + 80) 4
  sizeOfPartitionEntry := numberOf bytes (start + 84) 4

def gptDpteOf (bytes : Bytes) (start : Nat) : GptDpte where
  partitionTypeGuid := sliceOf bytes start 16
  uniquePartitionGuid := sliceOf bytes (start + 16) 16
  startingLba := numberOf bytes (start + 32) 8
  endingLba := numberOf bytes (start + 40) 8
  partitionName := sliceOf bytes (start + 56) 72

def mbrDpteOf (bytes : Bytes) (j : Nat) : MbrDpte where
  startLba := numberOf bytes (446 + 16 * j + 8) 4
  sectorsLimit := numberOf bytes (446 + 16 * j + 12) 4

def isBootSector (bytes : Bytes) : Bool := numberOf bytes 0x1FE 1 = 0x55 ∧ numberOf bytes 0x1FF 1 = 0xAA

abbrev Never : Fault → Prop := fun _ => False

section Decoders

variable {I : Parser ω → Prop} {b : Buffer} {start n : Nat}

theorem slice_keeps (h : start + n ≤ b.size) : Keeps I Never (b.slice start n) (· = sliceOf b.bytes start n) := by
  rw [Buffer.slice, if_pos h]
  exact .pure rfl

theorem number_keeps (h : start + n ≤ b.size) : Keeps I Never (b.number start n) (· = numberOf b.bytes start n) := by
  refine .bind (slice_keeps h) fun bytes hBytes => ?_
  subst hBytes
  exact .pure rfl

theorem gptDpt_keeps (h : sizeofGptDpt ≤ b.size) : Keeps I Never (gptDpt b) (· = gptDptOf b.bytes 0) := by
  have hEnd : 92 ≤ b.size := h
  refine .bind (slice_keeps (by omega)) fun _ hSignature => ?_
  refine .bind (number_keeps (by omega)) fun _ hFirst => ?_
  refine .bind (number_keeps (by omega)) fun _ hLast => ?_
  refine .bind (slice_keeps (by omega)) fun _ hGuid => ?_
  refine .bind (number_keeps (by omega)) fun _ hLba => ?_
  refine .bind (number_keeps (by omega)) fun _ hNum => ?_
  refine .bind (number_keeps (by omega)) fun _ hSize => ?_
  refine .pure ?_
  rw [hSignature, hFirst, hLast, hGuid, hLba, hNum, hSize]
  rfl

theorem gptDpte_keeps (h : start + sizeofGptDpte ≤ b.size) :
    Keeps I Never (gptDpte b start) (· = gptDpteOf b.bytes start) := by
  have hEnd : start + 128 ≤ b.size := h
  refine .bind (slice_keeps (by omega)) fun _ hType => ?_
  refine .bind (slice_keeps (by omega)) fun _ hUnique => ?_
  refine .bind (number_keeps (by omega)) fun _ hFirst => ?_
  refine .bind (number_keeps (by omega)) fun _ hLast => ?_
  refine .bind (slice_keeps (by omega)) fun _ hName => ?_
  refine .pure ?_
  rw [hType, hUnique, hFirst, hLast, hName]
  rfl

theorem mbrDpte_keeps {j : Nat} (h : 512 ≤ b.size) (hj : j < mbrMaxPartitionNum) :
    Keeps I Never (mbrDpte b j) (· = mbrDpteOf b.bytes j) := by
  have hLt : j < 4 := hj
  refine .bind (number_keeps (by omega)) fun _ hFirst => ?_
  refine .bind (number_keeps (by omega)) fun _ hCount => ?_
  refine .pure ?_
  rw [hFirst, hCount]
  rfl

theorem bootSignature_keeps (h : 512 ≤ b.size) : Keeps I Never (bootSignature b) (· = isBootSector b.bytes) := by
  refine .bind (number_keeps (by omega)) fun _ hLow => ?_
  refine .bind (number_keeps (by omega)) fun _ hHigh => ?_
  refine .pure ?_
  rw [hLow, hHigh]
  rfl

end Decoders

end

/-! # The bounds of what is found on a disk

Whatever is on the disk, it is asked only for bytes that it has, nothing is read beyond a
buffer or written beyond the table, and the partitions that are added lie on the disk.
-/

open Device Programs

variable {ω : Type}

/-- A partition of the disk. Its first sector is not the first of the disk. -/
structure Valid (disk : DeviceT) (vdiskId : Nat) (partition : PartitionT) : Prop where
  vdiskId : partition.vdiskId = vdiskId
  sectorSize : partition.sectorSize = disk.sectorSize.toNat
  first : 0 < partition.startingLba
  order : partition.startingLba ≤ partition.endingLba
  last : partition.endingLba < disk.size.toNat / disk.sectorSize.toNat
  bytes : (partition.endingLba - partition.startingLba + 1) * partition.sectorSize < addressLimit

structure Request.OnDisk (disk : DeviceT) (r : Request) : Prop where
  disk : r.offset + r.bytes ≤ disk.size.toNat
  memory : r.bytes ≤ r.memory

/-- What has become of the table, in which there is room for `n` more partitions. -/
structure Grown (disk : DeviceT) (vdiskId : Nat) (p₀ : Parser ω) (n : Nat) (p : Parser ω) : Prop where
  more : p₀.partitionNum ≤ p.partitionNum
  room : p.partitionNum + n ≤ maxPartitionsNum
  kept : ∀ j < p₀.partitionNum, p.partitions j = p₀.partitions j
  added : ∀ j, p₀.partitionNum ≤ j → j < p.partitionNum → Valid disk vdiskId (p.partitions j)
  requests : ∃ new, p.requests = new ++ p₀.requests ∧ ∀ r ∈ new, r.OnDisk disk

variable {disk : DeviceT} {vdiskId : Nat} {p₀ : Parser ω} {n : Nat} {io : Medium ω}

theorem Grown.refl {p : Parser ω} (h : p.partitionNum ≤ maxPartitionsNum) : Grown disk vdiskId p 0 p := by
  constructor
  · exact le_rfl
  · exact h
  · exact fun _ _ => rfl
  · exact fun j hFrom hTo => absurd hTo (not_lt.2 hFrom)
  · exact ⟨[], rfl, nofun⟩

theorem Grown.mono {p : Parser ω} {m : Nat} (h : Grown disk vdiskId p₀ n p) (hLe : m ≤ n) : Grown disk vdiskId p₀ m p :=
  { h with room := (Nat.add_le_add_left hLe _).trans h.room }

theorem malloc_keeps (bytes : Nat) : Keeps (Grown disk vdiskId p₀ n) Never (malloc io bytes) fun _ => True := by
  refine ⟨⟨fun p h => ⟨trivial, ?_⟩⟩⟩
  exact { h with }

theorem partitionReadExact_keeps {offset bytes : Nat} (hDisk : offset + bytes ≤ disk.size.toNat) :
    Keeps (Grown disk vdiskId p₀ n) Never (partitionReadExact io offset bytes) fun r => r.1.size = bytes := by
  refine ⟨⟨fun p h => ⟨rfl, ?_⟩⟩⟩
  obtain ⟨new, hNew, hAll⟩ := h.requests
  refine { h with requests := ⟨⟨offset, bytes, bytes⟩ :: new, congrArg _ hNew, ?_⟩ }
  rintro r (_ | ⟨_, hr⟩)
  · exact ⟨hDisk, le_rfl⟩
  · exact hAll r hr

theorem addPartition_grown {fill : PartitionT → PartitionT} (h : ∀ partition, Valid disk vdiskId (fill partition)) :
    Triple (Grown disk vdiskId p₀ (n + 1)) (addPartition fill) (fun _ => Grown disk vdiskId p₀ n) fun _ _ => False := by
  refine .bind Triple.self fun q => ?_
  constructor
  rintro p ⟨hp, rfl⟩
  have hRoom : q.partitionNum < maxPartitionsNum := by
    have := hp.room
    omega
  rw [if_pos hRoom]
  change Grown disk vdiskId p₀ n _
  refine ⟨Nat.le_succ_of_le hp.more, ?_, ?_, ?_, hp.requests⟩
  · have := hp.room
    change q.partitionNum + 1 + n ≤ maxPartitionsNum
    omega
  · intro j hj
    exact (update_of_ne (Nat.lt_of_lt_of_le hj hp.more).ne ..).trans (hp.kept j hj)
  · intro j hFrom hTo
    obtain rfl | hLt := Nat.eq_or_lt_of_le (Nat.le_of_lt_succ hTo)
    · change Valid disk vdiskId (update q.partitions q.partitionNum (fill (q.partitions q.partitionNum)) _)
      rw [update_self]
      exact h _
    · change Valid disk vdiskId (update q.partitions q.partitionNum (fill (q.partitions q.partitionNum)) _)
      rw [update_of_ne hLt.ne]
      exact hp.added j hFrom hLt

theorem partitionLbaRangeIsValid_spec {startingLba endingLba sectorSize diskSize : Nat}
    (h : partitionLbaRangeIsValid startingLba endingLba sectorSize diskSize) :
    startingLba ≤ endingLba ∧ endingLba < diskSize / sectorSize ∧
      (endingLba - startingLba + 1) * sectorSize < addressLimit := by
  simp only [partitionLbaRangeIsValid, Bool.and_eq_true, decide_eq_true_eq] at h
  obtain ⟨⟨⟨⟨⟨⟨-, hOrder⟩, -⟩, hLast⟩, -⟩, -⟩, hBytes⟩ := h
  refine ⟨hOrder, hLast, ?_⟩
  have hLe := Nat.mul_le_of_le_div sectorSize _ _ hBytes
  have hLimit : 0 < addressLimit := by decide
  exact hLe.trans_lt (Nat.sub_lt hLimit Nat.one_pos)

variable {gpt : GptDpt} {j : Nat} {mbr : Buffer}

theorem fillGpt_valid {entry : GptDpte} (hUsed : isPartitionUsed entry)
    (hValid : gptEntryIsValid gpt disk entry) (partition : PartitionT) :
    Valid disk vdiskId (fillGpt gpt disk vdiskId entry partition) := by
  simp only [isPartitionUsed, Bool.and_eq_true, decide_eq_true_eq] at hUsed
  simp only [gptEntryIsValid, Bool.and_eq_true] at hValid
  obtain ⟨hOrder, hLast, hBytes⟩ := partitionLbaRangeIsValid_spec hValid.2
  exact ⟨rfl, rfl, Nat.pos_of_ne_zero hUsed.1.1, hOrder, hLast, hBytes⟩

theorem gptEntry_grown {dptes : Buffer} (h : j * gpt.sizeOfPartitionEntry + sizeofGptDpte ≤ dptes.size) :
    Triple (Grown disk vdiskId p₀ (n + 1)) (gptEntry gpt disk vdiskId dptes j) (fun _ => Grown disk vdiskId p₀ n)
      fun _ _ => False := by
  refine .bind (gptDpte_keeps h).faultless fun entry => Triple.assume fun _ => ?_
  refine .ite (fun hAdd => ?_) fun _ => Triple.pure fun p hp => hp.mono (Nat.le_succ n)
  rw [Bool.and_eq_true] at hAdd
  exact addPartition_grown (fillGpt_valid hAdd.1 hAdd.2)

theorem gptEntries_grown {dptes : Buffer} {rounds : Nat}
    (h : (j + rounds) * gpt.sizeOfPartitionEntry ≤ dptes.size) (hSize : sizeofGptDpte ≤ gpt.sizeOfPartitionEntry) :
    Triple (Grown disk vdiskId p₀ rounds) (gptEntries gpt disk vdiskId dptes rounds j)
      (fun _ => Grown disk vdiskId p₀ 0) fun _ _ => False := by
  induction rounds generalizing j with
  | zero => exact .pure fun _ => id
  | succ rounds ih =>
    have hEntry : j * gpt.sizeOfPartitionEntry + sizeofGptDpte ≤ dptes.size := by
      have hNext : (j + 1) * gpt.sizeOfPartitionEntry ≤ (j + (rounds + 1)) * gpt.sizeOfPartitionEntry :=
        Nat.mul_le_mul_right _ (by omega)
      rw [add_mul, one_mul] at hNext
      omega
    refine .bind (gptEntry_grown hEntry) fun _ => ?_
    exact ih (by rwa [Nat.add_right_comm, add_assoc])

theorem mul64_eq {a b : Nat} (h : a ≤ (addressLimit - 1) / b) : mul64 a b = a * b := by
  have hLe := Nat.mul_le_of_le_div b _ _ h
  exact Nat.mod_eq_of_lt (hLe.trans_lt (Nat.sub_lt (by decide) Nat.one_pos))

theorem parseGptPartitions_grown (gpt : GptDpt) :
    Keeps (Grown disk vdiskId p₀ 0) Never (parseGptPartitions io gpt disk vdiskId) fun _ => True := by
  refine ⟨.bind Triple.self fun q => ?_⟩
  refine .ite (fun hChecks => ?_) fun _ => Triple.pure fun p hp => ⟨trivial, hp.1⟩
  simp only [Bool.and_eq_true, gptIsPresent, gptHasRoom, gptIsOnDisk, decide_eq_true_eq] at hChecks
  obtain ⟨⟨⟨⟨-, hSize⟩, -⟩, ⟨⟨⟨⟨-, hRoom⟩, hProduct⟩, -⟩, -⟩⟩, ⟨⟨⟨⟨hOffset, hBytes⟩, -⟩, -⟩, -⟩⟩ := hChecks
  have hDisk : entriesOffset gpt disk + dptesSize gpt ≤ disk.size.toNat := by omega
  have hRead : Keeps (Grown disk vdiskId p₀ gpt.numPartitionEntries) Never
      (partitionReadExact io (entriesOffset gpt disk) (dptesSize gpt)) fun r => r.1.size = dptesSize gpt :=
    partitionReadExact_keeps hDisk
  refine .pre (P := Grown disk vdiskId p₀ gpt.numPartitionEntries) ?_ ?_
  · refine .bind (malloc_keeps (dptesSize gpt)).faultless fun _ => Triple.assume fun _ => ?_
    refine Triple.ite (fun _ => ?_) fun _ => Triple.pure fun p hp => ⟨trivial, hp.mono (Nat.zero_le _)⟩
    refine .bind hRead.faultless fun r => Triple.assume fun hSizeEq => ?_
    refine Triple.ite (fun _ => ?_) fun _ => Triple.pure fun p hp => ⟨trivial, hp.mono (Nat.zero_le _)⟩
    have hAll : (0 + gpt.numPartitionEntries) * gpt.sizeOfPartitionEntry ≤ r.1.size := by
      rw [zero_add, hSizeEq, dptesSize, mul64_eq hProduct]
    refine .bind (gptEntries_grown hAll hSize).faultless fun _ => ?_
    exact .pure fun p hp => ⟨trivial, hp⟩
  · rintro p ⟨hp, rfl⟩
    have hNum := hp.room
    exact { hp with room := by omega }

theorem readGpt_grown (hSize : sizeofGptDpt ≤ disk.sectorSize.toNat)
    (hDisk : disk.sectorSize.toNat + disk.sectorSize.toNat ≤ disk.size.toNat) :
    Keeps (Grown disk vdiskId p₀ 0) Never (readGpt io disk) fun _ => True := by
  refine .bind (malloc_keeps _) fun _ _ => ?_
  refine .ite (fun _ => ?_) fun _ => Keeps.pure trivial
  refine .bind (partitionReadExact_keeps hDisk) fun r hr => ?_
  refine .ite (fun _ => ?_) fun _ => Keeps.pure trivial
  exact .bind (gptDpt_keeps (by rwa [hr])) fun _ _ => Keeps.pure trivial

theorem tryGptAtLba1_grown (hDisk : disk.sectorSize.toNat + disk.sectorSize.toNat ≤ disk.size.toNat) :
    Keeps (Grown disk vdiskId p₀ 0) Never (tryGptAtLba1 io disk vdiskId) fun _ => True := by
  refine .ite (fun _ => Keeps.pure trivial) fun hSize => ?_
  refine .bind (readGpt_grown (not_lt.1 fun h => hSize (.inl h)) hDisk) fun o _ => ?_
  cases o with
  | none => exact .pure trivial
  | some gpt => exact .ite (fun _ => parseGptPartitions_grown gpt) fun _ => Keeps.pure trivial

theorem mbrEntry_grown {entry : MbrDpte} (hStart : entry.startLba ≠ 0) :
    Triple (Grown disk vdiskId p₀ 1) (mbrEntry disk vdiskId entry) (fun _ => Grown disk vdiskId p₀ 0)
      fun _ _ => False := by
  refine Triple.ite (fun _ => Triple.pure fun p hp => hp.mono (Nat.zero_le _)) fun _ => ?_
  refine Triple.ite (fun hValid => ?_) fun _ => Triple.pure fun p hp => hp.mono (Nat.zero_le _)
  obtain ⟨hOrder, hLast, hBytes⟩ := partitionLbaRangeIsValid_spec hValid
  exact addPartition_grown fun partition => ⟨rfl, rfl, Nat.pos_of_ne_zero hStart, hOrder, hLast, hBytes⟩

theorem mbrEntries_grown (hSize : 512 ≤ mbr.size) {rounds : Nat} (h : j + rounds = mbrMaxPartitionNum) :
    Keeps (Grown disk vdiskId p₀ 0) Never (mbrEntries disk vdiskId mbr rounds j) fun _ => True := by
  induction rounds generalizing j with
  | zero => exact .pure trivial
  | succ rounds ih =>
    have hRest := ih (j := j + 1) (by omega)
    refine .bind (mbrDpte_keeps hSize (by omega)) fun entry _ => ?_
    refine .ite (fun _ => hRest) fun hSome => ?_
    refine ⟨.bind Triple.self fun q => ?_⟩
    refine .ite (fun _ => Triple.pure fun p hp => ⟨trivial, hp.1⟩) fun hRoom => ?_
    refine .pre (P := Grown disk vdiskId p₀ 1) ?_ ?_
    · have hEntry : Triple (Grown disk vdiskId p₀ 1) (mbrEntry disk vdiskId entry)
          (fun _ => Grown disk vdiskId p₀ 0) fun _ _ => False := mbrEntry_grown fun hZero => hSome (.inl hZero)
      exact .bind hEntry.faultless fun _ => hRest.triple
    · rintro p ⟨hp, rfl⟩
      exact { hp with room := not_le.1 hRoom }

theorem readMbr_grown (hDisk : mul64 disk.sectorSize.toNat 4 ≤ disk.size.toNat)
    (hSize : 512 ≤ mul64 disk.sectorSize.toNat 4) {attempts : Nat} {readOk : Bool}
    (hMbr : mbr.size = mul64 disk.sectorSize.toNat 4) :
    Keeps (Grown disk vdiskId p₀ 0) Never (readMbr io disk attempts readOk mbr) fun r =>
      r.1.size = mul64 disk.sectorSize.toNat 4 := by
  induction attempts generalizing readOk mbr with
  | zero => exact .pure hMbr
  | succ attempts ih =>
    refine .bind (partitionReadExact_keeps (by omega)) fun r hr => ?_
    refine .ite (fun _ => ?_) fun _ => ih hr
    refine .bind (bootSignature_keeps (by omega)) fun _ _ => ?_
    exact .ite (fun _ => Keeps.pure hr) fun _ => ih hr

theorem parseBootSector_grown (hMbr : 512 ≤ mbr.size) (hSize : sizeofGptDpt ≤ disk.sectorSize.toNat)
    (hDisk : disk.sectorSize.toNat + disk.sectorSize.toNat ≤ disk.size.toNat) :
    Keeps (Grown disk vdiskId p₀ 0) Never (parseBootSector io disk vdiskId mbr) fun _ => True := by
  refine .bind (number_keeps (by omega)) fun _ _ => ?_
  refine .ite (fun _ => ?_) fun _ => ?_
  · refine .bind (readGpt_grown hSize hDisk) fun o _ => ?_
    cases o with
    | none => exact .pure trivial
    | some gpt => exact parseGptPartitions_grown gpt
  · refine .bind (number_keeps (by omega)) fun _ _ => ?_
    refine .ite (fun _ => Keeps.pure trivial) fun _ => ?_
    exact .bind (mbrEntries_grown hMbr (zero_add _)) fun _ _ => Keeps.pure trivial

theorem parserBlockDevice_grown :
    Keeps (Grown disk vdiskId p₀ 0) Never (parserBlockDevice io disk vdiskId) fun _ => True := by
  refine .ite (fun _ => Keeps.pure trivial) fun hChecks => ?_
  have hSector : 512 ≤ disk.sectorSize.toNat := not_lt.1 fun h => hChecks (.inl h)
  have hProduct : disk.sectorSize.toNat ≤ (addressLimit - 1) / 4 := not_lt.1 fun h => hChecks (.inr (.inl h))
  have hDisk : mul64 disk.sectorSize.toNat 4 ≤ disk.size.toNat := not_lt.1 fun h => hChecks (.inr (.inr h))
  have hFour := mul64_eq hProduct
  have hTwo : disk.sectorSize.toNat + disk.sectorSize.toNat ≤ disk.size.toNat := by omega
  have hHeader : sizeofGptDpt ≤ disk.sectorSize.toNat := Nat.le_trans (by decide) hSector
  refine .bind (malloc_keeps _) fun _ _ => ?_
  refine .ite (fun _ => ?_) fun _ => Keeps.pure trivial
  refine .bind (readMbr_grown hDisk (by omega) rfl) fun r hr => ?_
  have hMbr : 512 ≤ r.1.size := by omega
  refine .ite (fun _ => Keeps.pure trivial) fun _ => ?_
  refine .bind (bootSignature_keeps hMbr) fun _ _ => ?_
  refine .ite (fun _ => parseBootSector_grown hMbr hHeader hTwo) fun _ => ?_
  refine .bind (slice_keeps (by omega)) fun _ _ => ?_
  exact .bind (tryGptAtLba1_grown hTwo) fun _ _ => Keeps.pure trivial

end OpenXJ380.Partition
