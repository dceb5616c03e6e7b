import OpenXJ380.User.Image

/-! # What an image leaves in the memory

The pages of the span that have frames are mapped. If all of them have, every byte of the
span is that of the image afterwards, and no other byte is changed.
-/

namespace OpenXJ380.User

open Nat (add_sub_cancel' not_lt_of_le)
open Errno

variable {m : Memory} {start n : Nat} {img : Image} {s : Span} {frame : Nat → Bool}

def Memory.store (m : Memory) (start n : Nat) (value : Nat → UInt8) : Memory :=
  { m with byte := fun a => if start ≤ a ∧ a < start + n then value a else m.byte a }

/-- The pages of the user half from `start` to `stop` are mapped. -/
def MappedIn (mapped : Nat → Bool) (start stop : Nat) : Prop :=
  ∀ page, start / pageSize ≤ page → page * pageSize < stop → page < userPages → mapped page = true

theorem covers_iff (hSome : 0 < n) : m.covers start n ↔ MappedIn m.mapped start (start + n) := by
  rw [Memory.covers, List.all_eq_true]
  have hLast : ∀ page, page * pageSize < start + n ↔ page < (start + n - 1) / pageSize + 1 := by
    intro page
    rw [Nat.lt_succ_iff, Nat.le_div_iff_mul_le pageSize_pos]
    omega
  have hOrder : start / pageSize ≤ (start + n - 1) / pageSize + 1 := Nat.le_succ_of_le (Nat.div_le_div_right (by omega))
  constructor
  · intro hAll page hFrom hTo hUser
    have hIn : page ∈ List.range' (start / pageSize) ((start + n - 1) / pageSize + 1 - start / pageSize) := by
      rw [List.mem_range'_1, add_sub_cancel' hOrder]
      exact ⟨hFrom, (hLast page).mp hTo⟩
    have hPage := hAll page hIn
    rw [Bool.or_eq_true, decide_eq_true_eq] at hPage
    exact hPage.resolve_left (Nat.not_le_of_lt hUser)
  · intro hMapped page hIn
    rw [List.mem_range'_1, add_sub_cancel' hOrder] at hIn
    rw [Bool.or_eq_true, decide_eq_true_eq]
    obtain hUser | hUpper := Nat.lt_or_ge page userPages
    · exact .inr (hMapped page hIn.1 ((hLast page).mpr hIn.2) hUser)
    · exact .inl hUpper

theorem MappedIn.mono {mapped : Nat → Bool} {stop start' stop' : Nat} (h : MappedIn mapped start stop)
    (hFrom : start ≤ start') (hTo : stop' ≤ stop) : MappedIn mapped start' stop' := by
  intro page hLow hHigh
  exact h page (Nat.le_trans (Nat.div_le_div_right hFrom) hLow) (Nat.lt_of_lt_of_le hHigh hTo)

theorem Memory.store_zero (m : Memory) (start : Nat) (value : Nat → UInt8) : m.store start 0 value = m := by
  have hNone : ∀ a, ¬ (start ≤ a ∧ a < start + 0) := fun a h => absurd h.2 (not_lt_of_le h.1)
  rw [store]
  simp only [if_neg (hNone _)]

variable {value : Nat → UInt8} {p : Phdr} {ps : List Phdr}

theorem write_ok (hAbove : pageSize ≤ start) (hMapped : MappedIn m.mapped start (start + n))
    (hUser : start + n ≤ userEnd) : m.write start n value = .ok (m.store start n value) := by
  rw [Memory.write]
  split
  · next hNone => rw [hNone, m.store_zero]
  next hSome =>
  rw [if_neg (not_lt_of_le hAbove), if_neg, if_neg (not_lt_of_le hUser)]
  · rfl
  · rw [Bool.not_eq_false]
    exact (covers_iff (Nat.pos_of_ne_zero hSome)).mpr hMapped

theorem write_pageFault (hSome : 0 < n) (hAbove : pageSize ≤ start)
    (hMapped : ¬ MappedIn m.mapped start (start + n)) : m.write start n value = .error .pageFault := by
  rw [Memory.write, if_neg (Nat.ne_of_gt hSome), if_neg (not_lt_of_le hAbove), if_pos]
  rw [← covers_iff hSome] at hMapped
  exact Bool.eq_false_iff.mpr hMapped

theorem write_outside (hSome : 0 < n) (hAbove : pageSize ≤ start)
    (hMapped : MappedIn m.mapped start (start + n)) (hUpper : userEnd < start + n) :
    m.write start n value = .error .writeOutside := by
  rw [Memory.write, if_neg (Nat.ne_of_gt hSome), if_neg (not_lt_of_le hAbove), if_neg, if_pos hUpper]
  rw [Bool.not_eq_false]
  exact (covers_iff hSome).mpr hMapped

theorem pageMapRangeToRandom_mapped (frame : Nat → Bool) (m : Memory) (n page q : Nat) :
    (pageMapRangeToRandom frame m n page).mapped q =
      if page ≤ q ∧ q < page + n ∧ frame q = true then true else m.mapped q := by
  induction n generalizing m page with
  | zero =>
    rw [pageMapRangeToRandom, if_neg]
    rintro ⟨hFrom, hTo, -⟩
    exact absurd hTo (not_lt_of_le hFrom)
  | succ n ih =>
    rw [pageMapRangeToRandom, ih]
    obtain rfl | hne := Decidable.em (q = page)
    · have hPast : ¬ (q + 1 ≤ q ∧ q < q + 1 + n ∧ frame q) := fun h => Nat.not_succ_le_self q h.1
      rw [if_neg hPast]
      cases hFrame : frame q with
      | false => simp
      | true => simp [Memory.map]
    · have hSame : (if frame page = true then m.map page else m).mapped q = m.mapped q := by
        split
        · exact if_neg hne
        · rfl
      have hRange : page + 1 ≤ q ∧ q < page + 1 + n ∧ frame q ↔ page ≤ q ∧ q < page + (n + 1) ∧ frame q := by
        constructor
        · exact fun ⟨hFrom, hTo, hFrame⟩ => ⟨by omega, by omega, hFrame⟩
        · exact fun ⟨hFrom, hTo, hFrame⟩ => ⟨by omega, by omega, hFrame⟩
      rw [hSame]
      simp only [hRange]

theorem pageMapRangeToRandom_byte (frame : Nat → Bool) (m : Memory) (n page a : Nat)
    (hOut : a / pageSize < page ∨ page + n ≤ a / pageSize) :
    (pageMapRangeToRandom frame m n page).byte a = m.byte a := by
  induction n generalizing m page with
  | zero => rfl
  | succ n ih =>
    rw [pageMapRangeToRandom, ih _ _ (by omega)]
    split
    · exact if_neg (by omega)
    · rfl

def Memory.load (m : Memory) (img : Image) (p : Phdr) : Memory :=
  { m with byte := fun a => if img.At p a then img.byteOf p (a - img.address p) else m.byte a }

def Image.Starts (img : Image) (p : Phdr) : Prop := p.offset ≤ img.phoff ∧ img.phoff < p.offset + p.filesz

instance (img : Image) (p : Phdr) : Decidable (img.Starts p) := inferInstanceAs (Decidable (_ ∧ _))

/-- Where the segment has the first byte of the program headers, unless it is known. -/
def Image.found (img : Image) (addr : Nat) (p : Phdr) : Nat :=
  if addr = 0 ∧ img.Starts p then img.address p + (img.phoff - p.offset) else addr

def Image.fileBytes (img : Image) (p : Phdr) : Bytes := (List.range p.filesz).map fun k => img.buf.getD (p.offset + k) 0

theorem Memory.load_eq (m : Memory) (hSize : p.filesz ≤ p.memsz) :
    (m.store (img.address p) p.filesz fun a => (img.fileBytes p).getD (a - img.address p) 0).store
      (img.address p + p.filesz) (p.memsz - p.filesz) (fun _ => 0) = m.load img p := by
  have hByte : ∀ a, (if img.address p + p.filesz ≤ a ∧ a < img.address p + p.filesz + (p.memsz - p.filesz) then 0
      else if img.address p ≤ a ∧ a < img.address p + p.filesz then (img.fileBytes p).getD (a - img.address p) 0
      else m.byte a) = if img.At p a then img.byteOf p (a - img.address p) else m.byte a := by
    intro a
    have hAt : img.At p a ↔ img.address p ≤ a ∧ a < img.address p + p.memsz := Iff.rfl
    rw [Image.byteOf]
    split
    · next hZero =>
      rw [if_pos (hAt.mpr (by omega)), if_neg (by omega)]
    · next hNotZero =>
      split
      · next hFile =>
        have hIn : a - img.address p < p.filesz := by omega
        rw [if_pos (hAt.mpr (by omega)), if_pos hIn, Image.fileBytes, List.getD_eq_getElem?_getD, List.getElem?_map,
          List.getElem?_range hIn]
        rfl
      · rw [if_neg fun h => by have := hAt.mp h; omega]
  rw [Memory.load]
  exact congrArg (Memory.mk m.mapped) (funext hByte)

theorem zeroRest_ok (hAbove : pageSize ≤ img.address p)
    (hMapped : MappedIn m.mapped (img.address p) (img.address p + p.memsz))
    (hUser : img.address p + p.memsz ≤ userEnd) :
    zeroRest img.bias p m = .ok (m.store (img.address p + p.filesz) (p.memsz - p.filesz) fun _ => 0) := by
  rw [zeroRest]
  split
  · have hEnd : img.address p + p.filesz + (p.memsz - p.filesz) = img.address p + p.memsz := by omega
    refine write_ok (Nat.le_trans hAbove (Nat.le_add_right ..)) ?_ ?_
    · exact hMapped.mono (Nat.le_add_right ..) (Nat.le_of_eq hEnd)
    · exact Nat.le_trans (Nat.le_of_eq hEnd) hUser
  · next hFull =>
    have hNone : p.memsz - p.filesz = 0 := Nat.sub_eq_zero_of_le (Nat.le_of_not_lt hFull)
    rw [hNone, Memory.store_zero]

theorem copySegment_ok (addr : Nat) (hLoad : p.type = ptLoad) (hPasses : Passes img.buf.length img.bias p)
    (hMapped : MappedIn m.mapped (img.address p) (img.address p + p.memsz))
    (hUser : img.address p + p.memsz ≤ userEnd) :
    copySegment img.buf img.phoff img.bias (m, addr) p = .ok (m.load img p, img.found addr p) := by
  obtain ⟨hSize, hFile, -, hAbove⟩ := hPasses
  have hRead : readBytes img.buf p.offset p.filesz = .ok (img.fileBytes p) := by
    rw [readBytes, readable, if_pos (Nat.le_trans hFile (le_paddingUp _))]
    rfl
  have hFirst : (m.write (img.bias + p.vaddr) p.filesz fun a => (img.fileBytes p).getD (a - (img.bias + p.vaddr)) 0) =
      .ok (m.store (img.address p) p.filesz fun a => (img.fileBytes p).getD (a - img.address p) 0) := by
    refine write_ok hAbove (hMapped.mono (Nat.le_refl _) ?_) (Nat.le_trans ?_ hUser)
    · exact Nat.add_le_add_left hSize _
    · exact Nat.add_le_add_left hSize _
  have hSecond : zeroRest img.bias p
      (m.store (img.address p) p.filesz fun a => (img.fileBytes p).getD (a - img.address p) 0) =
        .ok (m.load img p) := by
    rw [← m.load_eq hSize]
    exact zeroRest_ok hAbove hMapped hUser
  rw [copySegment, if_neg (not_not_intro hLoad), hRead]
  dsimp only [Bind.bind, Except.bind]
  rw [hFirst]
  dsimp only
  rw [hSecond]
  rfl

theorem copySegments_ok (addr : Nat) (hPasses : ∀ p ∈ ps, p.type = ptLoad → Passes img.buf.length img.bias p ∧
      MappedIn m.mapped (img.address p) (img.address p + p.memsz) ∧ img.address p + p.memsz ≤ userEnd) :
    ps.foldlM (copySegment img.buf img.phoff img.bias) (m, addr) =
      .ok ((ps.filter fun p => p.type = ptLoad).foldl (fun m p => m.load img p) m,
        (ps.filter fun p => p.type = ptLoad).foldl img.found addr) := by
  induction ps generalizing m addr with
  | nil => rfl
  | cons p ps ih =>
    have hRest := fun q hq => hPasses q (.tail _ hq)
    rw [List.foldlM_cons]
    obtain hLoad | hOther := Decidable.em (p.type = ptLoad)
    · obtain ⟨hHere, hMapped, hUser⟩ := hPasses p List.mem_cons_self hLoad
      have hFilter : (p :: ps).filter (fun p => p.type = ptLoad) = p :: ps.filter fun p => p.type = ptLoad :=
        List.filter_cons_of_pos (decide_eq_true hLoad)
      rw [copySegment_ok addr hLoad hHere hMapped hUser, hFilter]
      exact ih (m := m.load img p) _ hRest
    · have hFilter : (p :: ps).filter (fun p => p.type = ptLoad) = ps.filter fun p => p.type = ptLoad :=
        List.filter_cons_of_neg (ne_true_of_eq_false (decide_eq_false hOther))
      rw [copySegment, if_pos hOther, hFilter]
      exact ih addr hRest

theorem loads_mapped (ps : List Phdr) (m : Memory) : (ps.foldl (fun m p => m.load img p) m).mapped = m.mapped := by
  induction ps generalizing m with
  | nil => rfl
  | cons p ps ih => exact ih (m.load img p)

theorem loads_byte (ps : List Phdr) (m : Memory) (a : Nat) :
    (ps.foldl (fun m p => m.load img p) m).byte a = img.byteFrom ps (m.byte a) a := by
  induction ps generalizing m with
  | nil => rfl
  | cons p ps ih => exact ih (m.load img p)

def Memory.withPages (m : Memory) (frame : Nat → Bool) (s : Span) : Memory :=
  pageMapRangeToRandom frame m ((s.stop - s.start) / pageSize) (s.start / pageSize)

def Memory.withImage (m : Memory) (frame : Nat → Bool) (img : Image) (s : Span) : Memory :=
  img.loads.foldl (fun m p => m.load img p) ((m.withPages frame s).store s.start (s.stop - s.start) fun _ => 0)

def Image.phdr (img : Image) : Nat := img.loads.foldl img.found (phdrAddress (phdrsOf img.buf) img.bias)

def Image.loaded (img : Image) (s : Span) : LoadedUserElf where
  mapStart := s.start
  mapEnd := s.stop
  loadBias := img.bias
  entry := img.bias + (ehdrOf img.buf).entry
  phdr := img.phdr
  phent := (ehdrOf img.buf).phentsize
  phnum := (ehdrOf img.buf).phnum

theorem readPhdrs_ok {buf : Bytes} (hTable : (ehdrOf buf).phoff + sizeofPhdr * (ehdrOf buf).phnum ≤ buf.length) :
    readPhdrs buf (ehdrOf buf) = .ok (phdrsOf buf) := by
  refine mapM_ok fun i hi => ?_
  rw [List.mem_range] at hi
  have hEntry : (ehdrOf buf).phoff + sizeofPhdr * i + sizeofPhdr ≤ paddingUp buf.length := by
    refine Nat.le_trans (Nat.le_trans ?_ hTable) (le_paddingUp _)
    rw [add_assoc, ← Nat.mul_succ]
    exact Nat.add_le_add_left (Nat.mul_le_mul_left _ hi) _
  rw [readable, if_pos hEntry]
  rfl

section

variable {supply : Supply} {areas : List Area}

theorem loadUserElfImage_failed {e : Stop} (h : img.span = .error e) :
    loadUserElfImage supply img.buf img.base m areas = .error e := by
  rw [Image.span] at h
  rw [loadUserElfImage]
  cases hHeader : checkHeader img.buf with
  | error e' =>
    rw [hHeader] at h
    cases h
    rfl
  | ok ehdr =>
    obtain ⟨rfl, -, hTable⟩ := checkHeader_ok hHeader
    rw [hHeader] at h
    replace h : checkSegments (ehdrOf img.buf) (phdrsOf img.buf) img.buf.length img.bias = .error e := h
    dsimp only [Bind.bind, Except.bind]
    rw [readPhdrs_ok hTable]
    dsimp only
    rw [show loadBias (ehdrOf img.buf) img.base = img.bias from rfl, h]

variable (h : Checked img s)

include h

theorem loadUserElfImage_checked : loadUserElfImage supply img.buf img.base m areas = do
      let zeroed ← (m.withPages supply.frame s).write s.start (s.stop - s.start) fun _ => 0
      let copied ← (phdrsOf img.buf).foldlM (copySegment img.buf img.phoff img.bias)
        (zeroed, phdrAddress (phdrsOf img.buf) img.bias)
      return (copied.1, vmaInsert supply.vma areas { s with }, { img.loaded s with phdr := copied.2 }) := by
  rw [loadUserElfImage, h.header]
  dsimp only [Bind.bind, Except.bind]
  rw [readPhdrs_ok h.table]
  dsimp only
  rw [show loadBias (ehdrOf img.buf) img.base = img.bias from rfl, h.checks]
  rfl

theorem Checked.size : s.start + (s.stop - s.start) = s.stop :=
  add_sub_cancel' (Nat.le_of_lt h.order)

theorem loadUserElfImage_ok (hMapped : MappedIn (m.withPages supply.frame s).mapped s.start s.stop)
    (hUser : s.stop ≤ userEnd) : loadUserElfImage supply img.buf img.base m areas =
      .ok (m.withImage supply.frame img s, vmaInsert supply.vma areas { s with }, img.loaded s) := by
  have hZero : ((m.withPages supply.frame s).write s.start (s.stop - s.start) fun _ => 0) =
      .ok ((m.withPages supply.frame s).store s.start (s.stop - s.start) fun _ => 0) :=
    write_ok h.above (h.size.symm ▸ hMapped) (h.size.symm ▸ hUser)
  have hPasses : ∀ p ∈ phdrsOf img.buf, p.type = ptLoad → Passes img.buf.length img.bias p ∧
      MappedIn ((m.withPages supply.frame s).store s.start (s.stop - s.start) fun _ => 0).mapped (img.address p)
        (img.address p + p.memsz) ∧ img.address p + p.memsz ≤ userEnd := by
    intro p hp hLoad
    have hIn := Image.mem_loads.mpr ⟨hp, hLoad⟩
    obtain ⟨hFrom, hTo⟩ := h.within p hIn
    exact ⟨h.passes p hIn, hMapped.mono hFrom hTo, Nat.le_trans hTo hUser⟩
  have hCopy := copySegments_ok (phdrAddress (phdrsOf img.buf) img.bias) hPasses
  rw [loadUserElfImage_checked h, hZero]
  dsimp only [Bind.bind, Except.bind]
  rw [hCopy]
  rfl

theorem loadUserElfImage_pageFault (hMapped : ¬ MappedIn (m.withPages supply.frame s).mapped s.start s.stop) :
    loadUserElfImage supply img.buf img.base m areas = .error .pageFault := by
  rw [loadUserElfImage_checked h, write_pageFault (Nat.sub_pos_of_lt h.order) h.above (h.size.symm ▸ hMapped)]
  rfl

theorem loadUserElfImage_outside
    (hMapped : MappedIn (m.withPages supply.frame s).mapped s.start s.stop) (hUpper : userEnd < s.stop) :
    loadUserElfImage supply img.buf img.base m areas = .error .writeOutside := by
  rw [loadUserElfImage_checked h, write_outside (Nat.sub_pos_of_lt h.order) h.above (h.size.symm ▸ hMapped)
    (h.size.symm ▸ hUpper)]
  rfl

end

theorem Checked.start_page (h : Checked img s) : s.start / pageSize * pageSize = s.start :=
  Nat.div_mul_cancel h.startPage

theorem Checked.stop_page (h : Checked img s) :
    (s.start / pageSize + (s.stop - s.start) / pageSize) * pageSize = s.stop := by
  have hCount : (s.stop - s.start) / pageSize * pageSize = s.stop - s.start :=
    Nat.div_mul_cancel (Nat.dvd_sub h.stopPage h.startPage)
  rw [Nat.add_mul, h.start_page, hCount, h.size]

theorem Checked.from_page (h : Checked img s) (page : Nat) : s.start / pageSize ≤ page ↔ s.start ≤ page * pageSize := by
  refine (Nat.mul_le_mul_right_iff pageSize_pos).symm.trans ?_
  rw [h.start_page]

theorem Checked.to_page (h : Checked img s) (page : Nat) :
    page < s.start / pageSize + (s.stop - s.start) / pageSize ↔ page * pageSize < s.stop := by
  refine (Nat.mul_lt_mul_right pageSize_pos).symm.trans ?_
  rw [h.stop_page]

theorem Checked.mapped (h : Checked img s) (m : Memory) (frame : Nat → Bool) (page : Nat) :
    (m.withPages frame s).mapped page =
      if s.start ≤ page * pageSize ∧ page * pageSize < s.stop ∧ frame page = true then true else m.mapped page := by
  rw [Memory.withPages, pageMapRangeToRandom_mapped]
  simp only [h.from_page, h.to_page]

theorem byteFrom_none {a : Nat} (byte : UInt8) (hNone : ∀ p ∈ ps, ¬ img.At p a) : img.byteFrom ps byte a = byte := by
  induction ps with
  | nil => rfl
  | cons p ps ih =>
    rw [Image.byteFrom, List.foldl_cons, if_neg (hNone p (.head _))]
    exact ih fun q hq => hNone q (.tail _ hq)

theorem byteFrom_disjoint {a : Nat} (byte : UInt8)
    (hDisjoint : ps.Pairwise fun p q => p.vaddr + p.memsz ≤ q.vaddr ∨ q.vaddr + q.memsz ≤ p.vaddr) (hp : p ∈ ps)
    (hAt : img.At p a) : img.byteFrom ps byte a = img.byteOf p (a - img.address p) := by
  induction ps generalizing byte with
  | nil => cases hp
  | cons q ps ih =>
    rw [List.pairwise_cons] at hDisjoint
    rw [Image.byteFrom, List.foldl_cons]
    obtain rfl | hRest := List.mem_cons.mp hp
    · rw [if_pos hAt]
      refine byteFrom_none _ fun r hr hBoth => ?_
      have hApart := hDisjoint.1 r hr
      obtain ⟨hFrom, hTo⟩ := hAt
      obtain ⟨hFrom', hTo'⟩ := hBoth
      rw [Image.address] at *
      omega
    · exact ih _ hDisjoint.2 hRest

theorem Checked.byte (h : Checked img s) (m : Memory) (frame : Nat → Bool) (a : Nat) :
    (m.withImage frame img s).byte a = if s.start ≤ a ∧ a < s.stop then img.byteAt a else m.byte a := by
  have hStore : ((m.withPages frame s).store s.start (s.stop - s.start) fun _ => 0).byte a =
      if s.start ≤ a ∧ a < s.stop then 0 else (m.withPages frame s).byte a := by
    have hEnd := h.size
    rw [Memory.store]
    dsimp only
    rw [hEnd]
  rw [Memory.withImage, loads_byte, hStore]
  split
  · rfl
  · next hOut =>
    have hNone : ∀ p ∈ img.loads, ¬ img.At p a := by
      intro p hp hAt
      obtain ⟨hFrom, hTo⟩ := h.within p hp
      exact hOut ⟨Nat.le_trans hFrom hAt.1, Nat.lt_of_lt_of_le hAt.2 hTo⟩
    rw [byteFrom_none _ hNone, Memory.withPages]
    refine pageMapRangeToRandom_byte _ _ _ _ _ ?_
    rw [Nat.div_lt_iff_lt_mul pageSize_pos, Nat.le_div_iff_mul_le pageSize_pos, h.start_page, h.stop_page]
    obtain hBelow | hFrom := Nat.lt_or_ge a s.start
    · exact .inl hBelow
    · exact .inr (Nat.le_of_not_lt fun hTo => hOut ⟨hFrom, hTo⟩)

theorem Memory.mapped_withImage (m : Memory) (frame : Nat → Bool) (img : Image) (s : Span) :
    (m.withImage frame img s).mapped = (m.withPages frame s).mapped := by
  rw [Memory.withImage, loads_mapped]
  rfl

end OpenXJ380.User
