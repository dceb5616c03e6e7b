import OpenXJ380.Device.Block

/-! # The sectors of a request

A request for some bytes reads and writes only the sectors that have one of them. What
the functions of the driver keep for these sectors, a transfer keeps.
-/

namespace OpenXJ380.Device

open Programs

variable {σ : Type}

def Inside (sectorSize limit number sector : Nat) : Prop :=
  0 < number ∧ (sector + number) * sectorSize < limit + sectorSize

def Left (sectorSize limit remaining sector : Nat) : Prop :=
  remaining = 0 ∨ sector * sectorSize + remaining = limit

variable {sectorSize limit remaining sector number : Nat}

section

variable (h : Left sectorSize limit remaining sector)

include h

theorem Left.inside (hNumber : 0 < number)
    (hBytes : number * sectorSize ≤ remaining) (hSize : 0 < sectorSize) : Inside sectorSize limit number sector := by
  refine ⟨hNumber, ?_⟩
  have hPos := Nat.mul_pos hNumber hSize
  rw [add_mul]
  obtain h | h := h
  · omega
  · omega

theorem Left.inside_tail (hSome : remaining ≠ 0) : Inside sectorSize limit 1 sector := by
  refine ⟨Nat.one_pos, ?_⟩
  have hEq := h.resolve_left hSome
  rw [add_mul, one_mul]
  omega

theorem Left.next (hBytes : number * sectorSize ≤ remaining) :
    Left sectorSize limit (remaining - number * sectorSize) (sector + number) := by
  obtain h | h := h
  · exact .inl (by omega)
  · right
    rw [add_mul]
    omega

end

variable {offset length rounds bytes : Nat} {c : Writing}

/-- A span of whole sectors. -/
theorem Left.whole (h : Left sectorSize limit remaining sector) (hSize : 0 < sectorSize) (hLe : bytes ≤ remaining)
    (hWhole : bytes / sectorSize * sectorSize = bytes) (hSome : bytes ≠ 0) :
    Inside sectorSize limit (bytes / sectorSize) sector ∧
      Left sectorSize limit (remaining - bytes) (sector + bytes / sectorSize) := by
  have hBytes : bytes / sectorSize * sectorSize ≤ remaining := hWhole.symm ▸ hLe
  have hNumber : 0 < bytes / sectorSize := by
    refine Nat.pos_of_ne_zero fun hZero => hSome ?_
    rw [← hWhole, hZero, zero_mul]
  have hNext := h.next hBytes
  rw [hWhole] at hNext
  exact ⟨h.inside hNumber hBytes hSize, hNext⟩

theorem Left.several (h : Left sectorSize limit remaining sector) (hSize : 0 < sectorSize) {bn : Nat}
    (hSome : min (remaining / sectorSize) bn ≠ 0) : Inside sectorSize limit (min (remaining / sectorSize) bn) sector ∧
      Left sectorSize limit (remaining - min (remaining / sectorSize) bn * sectorSize)
        (sector + min (remaining / sectorSize) bn) := by
  have hBytes : min (remaining / sectorSize) bn * sectorSize ≤ remaining :=
    (Nat.mul_le_mul_right _ (min_le_left ..)).trans (Nat.div_mul_le_self ..)
  exact ⟨h.inside (Nat.pos_of_ne_zero hSome) hBytes hSize, h.next hBytes⟩

theorem head_inside (hLength : 0 < length) : Inside sectorSize (offset + length) 1 (offset / sectorSize) := by
  refine ⟨Nat.one_pos, ?_⟩
  have hDiv := Nat.div_mul_le_self offset sectorSize
  rw [add_mul, one_mul]
  omega

theorem head_left (hSize : 0 < sectorSize) :
    Left sectorSize (offset + length) (length - min (sectorSize - offset % sectorSize) length)
      (offset / sectorSize + 1) := by
  have hLt := Nat.mod_lt offset hSize
  have hDiv : offset / sectorSize * sectorSize + offset % sectorSize = offset := Nat.div_add_mod' offset sectorSize
  obtain hEnd | hMore := Nat.le_total length (sectorSize - offset % sectorSize)
  · rw [min_eq_right hEnd]
    exact .inl (Nat.sub_self length)
  · rw [min_eq_left hMore]
    right
    rw [add_mul, one_mul]
    omega

theorem start_left (hWhole : offset % sectorSize = 0) :
    Left sectorSize (offset + length) length (offset / sectorSize) := by
  have hDiv : offset / sectorSize * sectorSize + offset % sectorSize = offset := Nat.div_add_mod' offset sectorSize
  exact .inr (by omega)

theorem sectorSize_pos {sectorSize : BitVec 64} (h : sectorSize ≠ 0) : 0 < sectorSize.toNat :=
  Nat.pos_of_ne_zero fun hZero => h (BitVec.eq_of_toNat_eq hZero)

section

variable {a b n k : Nat} {dst src : Bytes}

theorem copyBytes_zero (dst : Bytes) (a : Nat) (src : Bytes) (b : Nat) : copyBytes dst a src b 0 = dst := by
  funext i
  rw [copyBytes, if_neg (by omega)]

theorem copyBytes_inside {i : Nat} (h : i < n) : copyBytes dst a src b n (a + i) = src (b + i) := by
  rw [copyBytes, if_pos (by omega), Nat.add_sub_cancel_left]

theorem copyBytes_append (dst : Bytes) (a : Nat) (src : Bytes) (b n k : Nat) :
    copyBytes (copyBytes dst a src b n) (a + n) src (b + n) k = copyBytes dst a src b (n + k) := by
  funext i
  simp only [copyBytes]
  split_ifs
  all_goals first | rfl | omega | exact congrArg src (by omega)

variable {o s : Nat}

theorem copyBytes_scratch {scratch : Bytes} (h : o + n ≤ s) (dst : Bytes) (a : Nat) (src : Bytes) (b : Nat) :
    copyBytes dst a (copyBytes scratch 0 src b s) o n = copyBytes dst a src (b + o) n := by
  funext i
  simp only [copyBytes]
  split_ifs
  all_goals first | rfl | omega | exact congrArg src (by omega)

theorem copyBytes_sector {sector disk : Bytes} (h : o + n ≤ s) (hRead : ∀ i < s, sector i = disk (a + i))
    (src : Bytes) (b : Nat) : copyBytes disk a (copyBytes sector o src b n) 0 s = copyBytes disk (a + o) src b n := by
  funext i
  simp only [copyBytes]
  split_ifs
  all_goals first | rfl | omega | exact congrArg src (by omega) | skip
  rw [hRead _ (by omega)]
  exact congrArg disk (by omega)

theorem copyBytes_replaced {scratch : Bytes} (h : o + n ≤ s) (disk : Bytes) (a : Nat) (src : Bytes) (b : Nat) :
    copyBytes disk a (copyBytes (copyBytes scratch 0 disk a s) o src b n) 0 s = copyBytes disk (a + o) src b n := by
  refine copyBytes_sector h (fun i hi => ?_) src b
  rw [copyBytes, if_pos (by omega), Nat.sub_zero]

end

variable {fns : Functions σ} {ctl : Nat → DeviceT} {device : DeviceT} {I : σ → Prop} {may : Fault → Prop}

/-- The functions of the device keep something as long as they are called for sectors in front of the limit. -/
structure Guards (fns : Functions σ) (device : DeviceT) (limit : Nat) (I : σ → Prop) (may : Fault → Prop) : Prop where
  null : may .null
  read : ∀ f number lba, device.read = some f → Inside device.sectorSize.toNat limit number lba →
    Keeps I may (fns.read f device.vdiskid number lba) fun _ => True
  write : ∀ f bytes number lba, device.write = some f → Inside device.sectorSize.toNat limit number lba →
    Keeps I may (fns.write f device.vdiskid bytes number lba) fun _ => True
  bounce : ∀ drive bytes, Keeps I may (fns.acquireBounce drive bytes) fun _ => True
  phys : ∀ virt, Keeps I may (fns.pageVirtToPhys virt) fun _ => True
  valid : ∀ buffer length, Keeps I may (fns.userBufferValid buffer length) fun _ => True

section

variable (h : Guards fns device limit I may)

include h

theorem Guards.callRead (hInside : Inside device.sectorSize.toNat limit number sector) :
    Keeps I may (callRead fns device device.vdiskid number sector) fun _ => True := by
  rw [Device.callRead]
  split
  · exact .throw h.null
  · next f hRead => exact h.read f number sector hRead hInside

theorem Guards.callWrite (bytes : Bytes) (hInside : Inside device.sectorSize.toNat limit number sector) :
    Keeps I may (callWrite fns device device.vdiskid bytes number sector) fun _ => True := by
  rw [Device.callWrite]
  split
  · exact .throw h.null
  · next f hWrite => exact h.write f bytes number sector hWrite hInside

theorem directSpanLoop_keeps (baseVirt basePhys maxBytes : Nat) {total : Nat} (hTotal : total ≤ maxBytes) :
    Keeps I may (directSpanLoop fns baseVirt basePhys maxBytes rounds total) (· ≤ maxBytes) := by
  induction rounds generalizing total with
  | zero => exact .pure hTotal
  | succ rounds ih =>
    rw [directSpanLoop]
    refine .ite (fun _ => Keeps.pure hTotal) fun hMore => ?_
    refine .bind (h.phys _) fun curPhys _ => ?_
    refine .ite (fun _ => Keeps.pure hTotal) fun _ => ?_
    exact ih (by omega)

theorem blkDirectSpanBytes_keeps (buffer maxBytes : Nat) :
    Keeps I may (blkDirectSpanBytes fns buffer maxBytes) (· ≤ maxBytes) := by
  rw [blkDirectSpanBytes]
  refine Keeps.ite (fun _ => Keeps.pure (Nat.zero_le _)) fun _ => ?_
  refine .bind (h.phys _) fun basePhys _ => ?_
  refine Keeps.ite (fun _ => Keeps.pure (Nat.zero_le _)) fun _ => ?_
  exact directSpanLoop_keeps h buffer basePhys maxBytes (Nat.zero_le _)

theorem directBytes_keeps (buffer remaining : Nat) : Keeps I may (directBytes fns device buffer remaining) fun bytes =>
      bytes ≤ remaining ∧ bytes / device.sectorSize.toNat * device.sectorSize.toNat = bytes := by
  refine .bind (blkDirectSpanBytes_keeps h buffer _) fun span hSpan => ?_
  refine .pure ?_
  have hSector : device.sectorSize.toNat ∣ span - span % device.sectorSize.toNat := Nat.dvd_sub_mod span
  have hLe : span ≤ remaining := hSpan.trans (min_le_left ..)
  split
  · exact ⟨Nat.zero_le _, by rw [Nat.zero_div, zero_mul]⟩
  · exact ⟨(Nat.sub_le ..).trans hLe, Nat.div_mul_cancel hSector⟩

end

/-- A transfer that goes on keeps it, with `q` of where it is then. -/
abbrev Carries {c : Type} (I : σ → Prop) (may : Fault → Prop) (m : Program σ (Option c)) (q : c → Prop) : Prop :=
  Keeps I may m fun o => ∀ a, o = some a → q a

theorem thenDo_keeps {c d : Type} {m : Program σ (Option c)} {f : c → Program σ (Option d)} {q : c → Prop}
    {r : d → Prop} (hFirst : Carries I may m q) (hRest : ∀ a, q a → Carries I may (f a) r) :
    Carries I may (thenDo m f) r := by
  refine .bind hFirst fun o ho => ?_
  cases o with
  | none => exact .pure nofun
  | some a => exact hRest a (ho a rfl)

def Reading.Left (device : DeviceT) (limit : Nat) (c : Reading) : Prop :=
  Device.Left device.sectorSize.toNat limit c.remaining c.sector

theorem readSectors_keeps (h : Guards fns device limit I may) {c : Reading}
    (hInside : Inside device.sectorSize.toNat limit number c.sector)
    (hLeft : Device.Left device.sectorSize.toNat limit (c.remaining - bytes) (c.sector + number)) :
    Carries I may (readSectors fns device number offset bytes c) (·.Left device limit) := by
  refine .bind (h.callRead hInside) fun r _ => ?_
  refine .pure ?_
  intro c hc
  split at hc
  · cases hc
    exact hLeft
  · cases hc

theorem readHead_keeps (h : Guards fns device (offset + length) I may) (dest : Bytes)
    (hLength : 0 < length) (hSize : 0 < device.sectorSize.toNat) :
    Carries I may (readHead fns device (offset % device.sectorSize.toNat)
      ⟨dest, 0, length, offset / device.sectorSize.toNat⟩) (·.Left device (offset + length)) := by
  refine .ite (fun hWhole => Keeps.pure_some (start_left hWhole)) fun _ => ?_
  exact readSectors_keeps h (head_inside hLength) (head_left hSize)

section

variable (h : Guards fns device limit I may)

include h

theorem readDirect_keeps (hSize : 0 < device.sectorSize.toNat) (buffer : Nat)
    {c : Reading} (hLeft : c.Left device limit) :
    Carries I may (readDirect fns device buffer rounds c) (·.Left device limit) := by
  induction rounds generalizing c with
  | zero => exact .pure_some hLeft
  | succ rounds ih =>
    refine .ite (fun _ => Keeps.pure_some hLeft) fun _ => ?_
    refine .bind (directBytes_keeps h _ _) fun bytes ⟨hLe, hWhole⟩ => ?_
    refine .ite (fun _ => Keeps.pure_some hLeft) fun hSome => ?_
    obtain ⟨hInside, hNext⟩ := Left.whole hLeft hSize hLe hWhole hSome
    refine thenDo_keeps (readSectors_keeps h hInside hNext) fun c hc => ih hc

theorem readMiddle_keeps (hSize : 0 < device.sectorSize.toNat) (bn : Nat) {c : Reading} (hLeft : c.Left device limit) :
    Carries I may (readMiddle fns device bn rounds c) (·.Left device limit) := by
  induction rounds generalizing c with
  | zero => exact .pure_some hLeft
  | succ rounds ih =>
    refine .ite (fun _ => Keeps.pure_some hLeft) fun hSome => ?_
    obtain ⟨hInside, hNext⟩ := Left.several hLeft hSize hSome
    refine thenDo_keeps (readSectors_keeps h hInside hNext) fun c hc => ih hc

theorem readTail_keeps {c : Reading} (hLeft : c.Left device limit) :
    Carries I may (readTail fns device c) (·.Left device limit) := by
  refine .ite (fun _ => Keeps.pure_some hLeft) fun hSome => ?_
  exact readSectors_keeps h (Left.inside_tail hLeft hSome) (Or.inl (Nat.sub_self _))

end

theorem readParts_keeps (h : Guards fns device (offset + length) I may) (hLength : 0 < length)
    (hSize : 0 < device.sectorSize.toNat) (buffer : Nat) (dest : Bytes) :
    Carries I may (readParts fns device buffer offset length dest) (·.Left device (offset + length)) := by
  refine thenDo_keeps ?_ fun c hc => readTail_keeps h hc
  refine thenDo_keeps ?_ fun c hc => readMiddle_keeps h hSize _ hc
  refine thenDo_keeps ?_ fun c hc => readDirect_keeps h hSize buffer hc
  exact readHead_keeps h dest hLength hSize

theorem blkDeviceRead_keeps (drive buffer offset length : Nat) (dest : Bytes)
    (h : Guards fns (ctl drive) (offset + length) I may) (hType : (ctl drive).type ≠ .stream) :
    Keeps I may (blkDeviceRead fns ctl drive buffer offset length dest) fun _ => True := by
  refine .ite (fun _ => Keeps.pure trivial) fun hReads => ?_
  refine .ite (absurd · hType) fun _ => ?_
  refine .ite (fun _ => Keeps.pure trivial) fun hSize => ?_
  have hSize : 0 < (ctl drive).sectorSize.toNat := sectorSize_pos fun hZero => hSize (.inl hZero)
  have hLength : 0 < length := Nat.pos_of_ne_zero fun hZero => hReads (.inr hZero)
  refine .bind (h.bounce _ _) fun acquired _ => ?_
  refine .ite (fun _ => ?_) fun _ => Keeps.pure trivial
  refine .bind (readParts_keeps h hLength hSize buffer dest) fun o _ => ?_
  cases o with
  | none => exact .pure trivial
  | some c => exact .pure trivial

def Writing.Left (device : DeviceT) (limit : Nat) (c : Writing) : Prop :=
  Device.Left device.sectorSize.toNat limit c.remaining c.sector

theorem writeSectors_keeps (h : Guards fns device limit I may) {data : Bytes}
    (hInside : Inside device.sectorSize.toNat limit number c.sector)
    (hLeft : Device.Left device.sectorSize.toNat limit (c.remaining - bytes) (c.sector + number)) :
    Carries I may (writeSectors fns device data number bytes c) (·.Left device limit) := by
  refine .bind (h.callWrite data hInside) fun r _ => ?_
  refine .pure ?_
  intro c hc
  split at hc
  · cases hc
    exact hLeft
  · cases hc

theorem writePart_keeps (h : Guards fns device limit I may) {src : Bytes}
    (hInside : Inside device.sectorSize.toNat limit 1 c.sector)
    (hLeft : Device.Left device.sectorSize.toNat limit (c.remaining - bytes) (c.sector + 1)) :
    Carries I may (writePart fns device src offset bytes c) (·.Left device limit) := by
  refine .ite (fun _ => Keeps.pure nofun) fun _ => ?_
  refine .bind (h.callRead hInside) fun r _ => ?_
  exact .ite (fun _ => Keeps.pure nofun) fun _ => writeSectors_keeps h hInside hLeft

theorem writeHead_keeps (h : Guards fns device (offset + length) I may) (src : Bytes)
    (hLength : 0 < length) (hSize : 0 < device.sectorSize.toNat) :
    Carries I may (writeHead fns device src (offset % device.sectorSize.toNat)
      ⟨0, length, offset / device.sectorSize.toNat⟩) (·.Left device (offset + length)) := by
  refine .ite (fun hWhole => Keeps.pure_some (start_left hWhole)) fun _ => ?_
  exact writePart_keeps h (head_inside hLength) (head_left hSize)

section

variable (h : Guards fns device limit I may)

include h

theorem writeDirect_keeps (hSize : 0 < device.sectorSize.toNat) (src : Bytes)
    (buffer : Nat) (hLeft : c.Left device limit) :
    Carries I may (writeDirect fns device src buffer rounds c) (·.Left device limit) := by
  induction rounds generalizing c with
  | zero => exact .pure_some hLeft
  | succ rounds ih =>
    refine .ite (fun _ => Keeps.pure_some hLeft) fun _ => ?_
    refine .bind (directBytes_keeps h _ _) fun bytes ⟨hLe, hWhole⟩ => ?_
    refine .ite (fun _ => Keeps.pure_some hLeft) fun hSome => ?_
    obtain ⟨hInside, hNext⟩ := Left.whole hLeft hSize hLe hWhole hSome
    refine thenDo_keeps (writeSectors_keeps h hInside hNext) fun c hc => ih hc

theorem writeMiddle_keeps (hSize : 0 < device.sectorSize.toNat) (src : Bytes) (bn : Nat) (hLeft : c.Left device limit) :
    Carries I may (writeMiddle fns device src bn rounds c) (·.Left device limit) := by
  induction rounds generalizing c with
  | zero => exact .pure_some hLeft
  | succ rounds ih =>
    refine .ite (fun _ => Keeps.pure_some hLeft) fun hSome => ?_
    obtain ⟨hInside, hNext⟩ := Left.several hLeft hSize hSome
    refine thenDo_keeps (writeSectors_keeps h hInside hNext) fun c hc => ih hc

theorem writeTail_keeps (src : Bytes) (hLeft : c.Left device limit) :
    Carries I may (writeTail fns device src c) (·.Left device limit) := by
  refine .ite (fun _ => Keeps.pure_some hLeft) fun hSome => ?_
  exact writePart_keeps h (Left.inside_tail hLeft hSome) (Or.inl (Nat.sub_self _))

end

theorem writeParts_keeps (h : Guards fns device (offset + length) I may) (hLength : 0 < length)
    (hSize : 0 < device.sectorSize.toNat) (buffer : Nat) (src : Bytes) :
    Carries I may (writeParts fns device buffer offset length src) (·.Left device (offset + length)) := by
  refine thenDo_keeps ?_ fun c hc => writeTail_keeps h src hc
  refine thenDo_keeps ?_ fun c hc => writeMiddle_keeps h hSize src _ hc
  refine thenDo_keeps ?_ fun c hc => writeDirect_keeps h hSize src buffer hc
  exact writeHead_keeps h src hLength hSize

theorem blkDeviceWrite_keeps (h : Guards fns device (offset + length) I may)
    (hType : device.type ≠ .stream) (buffer : Nat) (src : Bytes) :
    Keeps I may (blkDeviceWrite fns device buffer offset length src) fun _ => True := by
  refine .ite (fun _ => Keeps.pure trivial) fun hLength => ?_
  refine .bind (h.valid _ _) fun valid _ => ?_
  refine .ite (fun _ => ?_) fun _ => Keeps.pure trivial
  refine .ite (absurd · hType) fun _ => ?_
  refine .ite (fun _ => Keeps.pure trivial) fun hSize => ?_
  have hSize : 0 < device.sectorSize.toNat := sectorSize_pos fun hZero => hSize (.inl hZero)
  refine .bind (h.bounce _ _) fun acquired _ => ?_
  refine .ite (fun _ => ?_) fun _ => Keeps.pure trivial
  refine .bind (writeParts_keeps h (Nat.pos_of_ne_zero hLength) hSize buffer src) fun o _ => ?_
  cases o with
  | none => exact .pure trivial
  | some c => exact .pure trivial

theorem clampSize_le (device : DeviceT) (size : Nat) (hOffset : ¬device.size.toNat < offset) :
    offset + clampSize device offset size ≤ device.size.toNat := by
  rw [clampSize]
  have hMin := min_le_right size (device.size.toNat - offset)
  omega

variable {id : Nat}

theorem devfsRead_keeps (h : ∀ limit, limit ≤ (ctl id).size.toNat → Guards fns (ctl id) limit I may)
    (hId : (ctl id).vdiskid = id) (hType : (ctl id).type ≠ .stream) {handle : DeviceHandle}
    (hHandle : handle.device = some id) (addr offset size : Nat) (dest : Bytes) :
    Keeps I may (devfsRead fns ctl handle addr offset size dest) fun _ => True := by
  refine .ite (fun _ => Keeps.pure trivial) fun _ => ?_
  rw [hHandle]
  refine .ite (fun _ => Keeps.pure trivial) fun _ => ?_
  refine .ite (absurd · hType) fun _ => ?_
  refine .ite (fun _ => Keeps.pure trivial) fun hOffset => ?_
  have hGuards := h _ (clampSize_le (ctl id) size hOffset)
  rw [hId]
  exact blkDeviceRead_keeps id addr offset _ dest hGuards hType

theorem devfsWrite_keeps (h : ∀ limit, limit ≤ (ctl id).size.toNat → Guards fns (ctl id) limit I may)
    (hType : (ctl id).type ≠ .stream) {handle : DeviceHandle} (hHandle : handle.device = some id)
    (addr offset size : Nat) (src : Bytes) :
    Keeps I may (devfsWrite fns ctl handle addr offset size src) fun _ => True := by
  refine .ite (fun _ => Keeps.pure trivial) fun _ => ?_
  rw [hHandle]
  refine .ite (fun _ => Keeps.pure trivial) fun _ => ?_
  refine .ite (absurd · hType) fun _ => ?_
  refine .ite (fun _ => Keeps.pure trivial) fun hOffset => ?_
  exact blkDeviceWrite_keeps (h _ (clampSize_le (ctl id) size hOffset)) hType addr src

end OpenXJ380.Device
