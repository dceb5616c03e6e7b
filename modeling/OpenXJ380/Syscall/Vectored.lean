import OpenXJ380.Syscall.Transfer

/-! # Several buffers at once (`sys_readv` and `sys_writev` of `kernel/syscall/sys.cpp`)

Each of the buffers is transferred by itself, up to the first one that is not transferred whole.
-/

namespace OpenXJ380.Transfer

open List (drop_drop drop_left' length_append length_drop length_take range' take_add take_nil)
open BitVec (add_assoc ofNat ofNat_add ofNat_toNat setWidth_eq toNat_ofNat toNat_pos_of_ne_zero)

open Signal Vfs WordMemory

variable {φ : Type}

def splice (content : List Byte) (offset : Nat) (data : List Byte) : List Byte :=
  content.takeD offset 0 ++ data ++ content.drop (offset + data.length)

/-- A file is its contents: it is read up to its end, and written wherever less than 2 ^ 63 bytes come out. -/
structure Regular (f : File φ) (content : φ → List Byte) : Prop extends Seekable f where
  file : ∀ store, f.type store ≠ fileDir
  length : ∀ store, (f.size store).toNat = (content store).length
  fits : ∀ store, (content store).length < 2 ^ 63
  update : ∀ store, content (f.update store) = content store
  kept : ∀ store offset chunk, content (f.read store offset chunk).1 = content store
  reads : ∀ store offset chunk, (List.range (f.read store offset chunk).2.2.word.toNat).map
    (f.read store offset chunk).2.1 =
    ((content store).drop offset.toNat).take chunk
  writes : ∀ store offset data, data ≠ [] → offset.toNat + data.length < 2 ^ 63 →
    (f.write store offset data).2.word = ofNat 64 data.length ∧
      content (f.write store offset data).1 = splice (content store) offset.toNat data

structure Mapped (k : Kernel φ) (start : Word) (size : Nat) : Prop where
  ne_null : start ≠ 0
  area : start.toNat < KERNEL_AREA_MEM ∧ start.toNat + size ≤ KERNEL_AREA_MEM
  pages : ∀ store a n, start.toNat ≤ a → a + n ≤ start.toNat + size → k.pages store a n = true

def lengths (vec : List (Word × Word)) : Nat := (vec.map fun kiov => kiov.2.toNat).sum

section

variable {k : Kernel φ} {f : File φ} {content : φ → List Byte} {s s' : Io φ} {buffer size start : Word}
  {vec : List (Word × Word)} {bounceBytes total n : Nat}

theorem splice_splice (c xs ys : List Byte) (offset : Nat) :
    splice (splice c offset xs) (offset + xs.length) ys = splice c offset (xs ++ ys) := by
  have hFront : (c.takeD offset 0 ++ xs).length = offset + xs.length := by
    rw [length_append, List.takeD_length]
  have hRest : (splice c offset xs).drop (offset + xs.length + ys.length) = c.drop (offset + (xs ++ ys).length) := by
    rw [splice, ← drop_drop, drop_left' hFront, drop_drop, length_append, Nat.add_assoc]
  have hTake : (splice c offset xs).takeD (offset + xs.length) 0 = c.takeD offset 0 ++ xs := by
    rw [splice, List.takeD_left' hFront]
  rw [splice, hRest, hTake, splice, List.append_assoc _ xs ys]

variable {rounds : Nat} {data : List Byte}

theorem Mapped.mapped (h : Mapped k start n) (s : Io φ) {off len : Nat} (hFits : off + len ≤ n) :
    k.mapped s (start + ofNat 64 off) len := by
  obtain rfl | hPositive := Nat.eq_zero_or_pos len
  · rfl
  · have hArea := h.area
    have hSmall : KERNEL_AREA_MEM = 0xf000000000000000 := rfl
    have hTarget : (start + ofNat 64 off).toNat = start.toNat + off := chunk_toNat fun _ => by omega
    have hPositive' : 0 < start.toNat := toNat_pos_of_ne_zero h.ne_null
    have hNull : start + ofNat 64 off ≠ 0 := by
      intro h0
      rw [h0] at hTarget
      simp only [BitVec.toNat_zero, BitVec.ofNat_eq_ofNat] at hTarget
      omega
    have hPages := h.pages s.store (start.toNat + off) len (Nat.le_add_right _ _) (by omega)
    simp only [Kernel.mapped, userRangeMapped, hTarget, hPages, Bool.or_eq_true, Bool.and_eq_true, decide_eq_true_eq]
    refine .inr ⟨⟨⟨by simpa using hNull, by omega⟩, by omega⟩, trivial⟩

/-- What there is after the first `total` bytes. -/
structure Written (content : φ → List Byte) (buffer : Word) (s : Io φ) (total : Nat) (s' : Io φ) : Prop where
  memory : s'.memory = s.memory
  offset : s'.offset = s.offset + ofNat 64 total
  content : content s'.store =
    if total = 0 then content s.store else splice (content s.store) s.offset.toNat
      (loadBytes s.memory buffer.toNat total)

theorem Written.begin (content : φ → List Byte) (buffer : Word) (s : Io φ) : Written content buffer s 0 s :=
  ⟨rfl, by simp, rfl⟩

theorem Written.writeRound (hFile : Regular f content) (hMapped : Mapped k buffer n)
    (hFits : s.offset.toNat + n < 2 ^ 63)
    (hTotal : total < n) (hBounce : 0 < bounceBytes) (h : Written content buffer s total s') :
    ∃ s'', Transfer.writeRound k f buffer n bounceBytes total s' = .full s'' (min (n - total) bounceBytes) ∧
      Written content buffer s (total + min (n - total) bounceBytes) s'' := by
  generalize hChunk : min (n - total) bounceBytes = chunk
  have hSource : (buffer + ofNat 64 total).toNat = buffer.toNat + total :=
    chunk_toNat fun _ => by have := hMapped.area; omega
  have hOffset : s'.offset.toNat = s.offset.toNat + total := by
    rw [h.offset, toNat_add_ofNat (by omega)]
  have hNat : (ofNat 64 chunk).toNat = chunk := by rw [toNat_ofNat, Nat.mod_eq_of_lt (by omega)]
  have hCount : ¬(ofNat 64 chunk = minusOne) := by
    intro he
    have hOne : minusOne.toNat = 2 ^ 64 - 1 := by decide
    rw [← he, hNat] at hOne
    omega
  have hBytes : loadBytes s'.memory (buffer + ofNat 64 total).toNat chunk =
      loadBytes s.memory (buffer.toNat + total) chunk := by
    rw [h.memory, hSource]
  rw [Transfer.writeRound, hChunk, hMapped.mapped s' (by omega)]
  generalize loadBytes s'.memory (buffer + ofNat 64 total).toNat chunk = data at hBytes ⊢
  have hLength : data.length = chunk := by rw [hBytes, length_loadBytes]
  obtain ⟨hWord, hContent⟩ := hFile.writes (f.update s'.store) s'.offset data (by rw [← List.length_pos_iff]; omega)
    (by omega)
  have hAnswer := hWord.trans (congrArg (ofNat 64) hLength)
  have hWrite : vfsWrite f s'.store s'.offset data =
      (f.update (f.write (f.update s'.store) s'.offset data).1, (f.write (f.update s'.store) s'.offset data).2) :=
    if_neg (hFile.file _)
  simp only [hFile.pipe, ne_eq, not_true_eq_false, if_false, hWrite, hAnswer, false_and, hCount,
    hFile.size, not_false_eq_true, and_self, if_true, hNat, lt_irrefl, Bool.true_eq_false]
  refine ⟨_, rfl, ⟨h.memory, ?_, ?_⟩⟩
  · simp only [h.offset, ofNat_add, add_assoc]
  · simp only [hFile.update, hContent, hOffset, h.content, hBytes]
    rw [if_neg (show ¬total + chunk = 0 by omega)]
    split
    next h0 => simp [h0]
    next =>
      have hPart := splice_splice (content s.store) (loadBytes s.memory buffer.toNat total)
        (loadBytes s.memory (buffer.toNat + total) chunk) s.offset.toNat
      rw [length_loadBytes] at hPart
      rw [hPart, loadBytes_add]

def Holds (content : φ → List Byte) (s : Io φ) (data : List Byte) (s' : Io φ) : Prop :=
  s'.memory = s.memory ∧ s'.offset = s.offset + ofNat 64 data.length ∧
    content s'.store = if data = [] then content s.store else splice (content s.store) s.offset.toNat data

theorem Written.holds (h : Written content buffer s n s') :
    Holds content s (loadBytes s.memory buffer.toNat n) s' := by
  refine ⟨h.memory, by rw [length_loadBytes]; exact h.offset, ?_⟩
  rw [h.content]
  have hEmpty : loadBytes s.memory buffer.toNat n = [] ↔ n = 0 := by
    rw [← List.length_eq_zero_iff, length_loadBytes]
  simp only [hEmpty]

theorem Holds.refl (content : φ → List Byte) (s : Io φ) : Holds content s [] s := ⟨rfl, by simp, rfl⟩

theorem Holds.offset_toNat {xs : List Byte} (h : Holds content s xs s') (hFits : s.offset.toNat + xs.length < 2 ^ 64) :
    s'.offset.toNat = s.offset.toNat + xs.length := by
  rw [h.2.1, toNat_add_ofNat hFits]

theorem Holds.trans {xs ys : List Byte} {s'' : Io φ} (h : Holds content s xs s') (h' : Holds content s' ys s'')
    (hFits : s.offset.toNat + xs.length < 2 ^ 64) : Holds content s (xs ++ ys) s'' := by
  have hNat := h.offset_toNat hFits
  obtain ⟨hMemory, hOffset, hContent⟩ := h
  obtain ⟨hMemory', hOffset', hContent'⟩ := h'
  refine ⟨hMemory'.trans hMemory, ?_, ?_⟩
  · rw [hOffset', hOffset, length_append, ofNat_add, add_assoc]
  · rw [hContent', hContent, hNat]
    obtain rfl | hys := eq_or_ne ys []
    · simp
    · rw [if_neg hys, if_neg fun he => hys (List.append_eq_nil_iff.mp he).2]
      split
      next hxs => simp [hxs]
      next => exact splice_splice _ xs ys _

def remaining (content : φ → List Byte) (s : Io φ) : List Byte := (content s.store).drop s.offset.toNat

structure Filled (content : φ → List Byte) (buffer : Word) (s : Io φ) (data : List Byte) (s' : Io φ) : Prop where
  memory : s'.memory = storeBytes s.memory buffer.toNat data
  moved : s'.moved = s.moved ++ data
  content : content s'.store = content s.store

theorem length_remaining (content : φ → List Byte) (s : Io φ) :
    (remaining content s).length = (content s.store).length - s.offset.toNat := length_drop

theorem Filled.begin (content : φ → List Byte) (buffer : Word) (s : Io φ) : Filled content buffer s [] s :=
  ⟨(storeBytes_nil _ _).symm, (List.append_nil _).symm, rfl⟩

theorem Filled.readRound (hFile : Regular f content) (hMapped : Mapped k buffer n) (hTotal : total < n)
    (hBounce : 0 < bounceBytes) (hLeft : total ≤ (remaining content s).length)
    (h : Filled content buffer s ((remaining content s).take total) s') :
    ∃ s'' got, got = min (min (n - total) bounceBytes) ((remaining content s).length - total) ∧
      Filled content buffer s ((remaining content s).take (total + got)) s'' ∧ s''.offset = s'.offset ∧
      Transfer.readRound k f buffer n s.offset bounceBytes total s' =
        if got < min (n - total) bounceBytes then .short s'' got else .full s'' got := by
  generalize hChunk : min (n - total) bounceBytes = chunk
  have hPositive : 0 < chunk := by omega
  have hFits := hFile.fits s.store
  have hLength := length_remaining content s
  have hBelow := s.offset.isLt
  have hOffset : (s.offset + ofNat 64 total).toNat = s.offset.toNat + total := toNat_add_ofNat (by omega)
  have hRead : vfsRead f s'.store (s.offset + ofNat 64 total) chunk =
      f.read (f.update s'.store) (s.offset + ofNat 64 total) chunk := if_neg (hFile.file _)
  have hKept := hFile.kept (f.update s'.store) (s.offset + ofNat 64 total) chunk
  have hData := hFile.reads (f.update s'.store) (s.offset + ofNat 64 total) chunk
  rw [hFile.update, h.content] at hKept hData
  rw [hOffset, ← drop_drop] at hData
  rw [Transfer.readRound, hChunk]
  simp only [hRead]
  generalize f.read (f.update s'.store) (s.offset + ofNat 64 total) chunk = r at hKept hData ⊢
  obtain ⟨store, bounce, reply⟩ := r
  generalize reply.word = got at hData ⊢
  simp only at hKept hData ⊢
  have hGot : got.toNat = min chunk ((remaining content s).length - total) := by
    have hCount := congrArg List.length hData
    simpa [remaining, Nat.sub_sub] using hCount
  have hNext : (remaining content s).take (total + got.toNat) =
      (remaining content s).take total ++ (List.range got.toNat).map bounce := by
    rw [take_add, hData, hGot]
    congr 1
    change _ = ((remaining content s).drop total).take chunk
    rw [List.take_eq_take_iff, length_drop]
    omega
  have hCount : ¬got = minusOne := by
    rintro rfl
    have hOne : minusOne.toNat = 2 ^ 64 - 1 := by decide
    omega
  rw [if_neg hCount]
  obtain rfl | hSome := eq_or_ne got 0
  · refine ⟨{ s' with store := store }, 0, hGot, ⟨?_, ?_, hKept⟩, rfl, ?_⟩
    · rw [add_zero]; exact h.memory
    · rw [add_zero]; exact h.moved
    · rw [if_pos rfl, if_pos hPositive]
  · have hTarget : (buffer + ofNat 64 total).toNat = buffer.toNat + total :=
      chunk_toNat fun _ => by have := hMapped.area; omega
    have hTake : ((remaining content s).take total).length = total := by
      rw [length_take]
      omega
    have hCan := hMapped.mapped { s' with store := store } (show total + got.toNat ≤ n by omega)
    rw [if_neg hSome, hCan]
    simp only [Bool.true_eq_false, if_false]
    refine ⟨_, got.toNat, hGot, ⟨?_, ?_, hKept⟩, ?_, rfl⟩
    · rw [hNext, storeBytes_append, hTake, ← h.memory, hTarget]
    · rw [hNext, ← List.append_assoc, ← h.moved]
    · rfl

/-- The call has read `data`, and the handle is behind it. -/
structure Delivered (content : φ → List Byte) (buffer : Word) (s : Io φ) (data : List Byte) (r : Io φ × Word) :
    Prop where
  filled : Filled content buffer s data r.1
  offset : r.1.offset = s.offset + ofNat 64 data.length
  ret : r.2 = ofNat 64 data.length

theorem Filled.readFinish (hFile : Regular f content) (h : Filled content buffer s data s')
    (hOffset : s'.offset = s.offset) : Delivered content buffer s data (readFinish f true data.length s') := by
  rw [Transfer.readFinish, if_pos ⟨rfl, hFile.size s'.store⟩]
  exact ⟨{ h with }, by simp only [hOffset], rfl⟩

theorem Mapped.whole (h : Mapped k start n) (s : Io φ) : k.mapped s start n := by
  have hAll := h.mapped s (show 0 + n ≤ n by omega)
  rwa [BitVec.add_zero] at hAll

variable {iov : Word} {iovcnt : Nat} {fd : Int} {m : Memory}

end

abbrev Contents := { bytes : List Byte // bytes.length < 2 ^ 63 }

end OpenXJ380.Transfer
