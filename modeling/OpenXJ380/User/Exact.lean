import OpenXJ380.User.Fits

/-! # Programs are loaded exactly

The program is loaded into a memory without pages, and its interpreter into what this has
left. Both are exactly there if the files fit, and only then.
-/

namespace OpenXJ380.User

section

variable {img prog interp : Image} {s t : Span} {m : Memory} {frame : Nat → Bool}

theorem Checked.mappedIn_iff (h : Checked img s) (m : Memory) (frame : Nat → Bool) :
    MappedIn (m.withPages frame s).mapped s.start s.stop ↔
      MappedIn (fun page => frame page || m.mapped page) s.start s.stop := by
  refine forall_congr' fun page => forall_congr' fun hFrom => forall_congr' fun hTo => forall_congr' fun _ => ?_
  rw [h.from_page] at hFrom
  rw [h.mapped, Bool.or_eq_true]
  split
  · next hFrame => exact iff_of_true rfl (.inl hFrame.2.2)
  · next hNot => exact (or_iff_right fun hFrame => hNot ⟨hFrom, hTo, hFrame⟩).symm

theorem MappedIn.congr {mapped mapped' : Nat → Bool} {start stop : Nat}
    (h : ∀ page < userPages, mapped page = mapped' page) :
    MappedIn mapped start stop ↔ MappedIn mapped' start stop := by
  refine forall_congr' fun page => forall_congr' fun _ => forall_congr' fun _ => forall_congr' fun hUser => ?_
  rw [h page hUser]

theorem Checked.mapped_fresh (h : Checked img s) (hMapped : MappedIn frame s.start s.stop) {page : Nat}
    (hUser : page < userPages) : (Memory.fresh.withImage frame img s).mapped page = s.has page := by
  rw [Memory.mapped_withImage, h.mapped, Span.has]
  obtain hIn | hOut := Decidable.em (s.start ≤ page * pageSize ∧ page * pageSize < s.stop)
  · rw [if_pos ⟨hIn.1, hIn.2, hMapped page ((h.from_page page).mpr hIn.1) hIn.2 hUser⟩]
    exact (Bool.and_eq_true_iff.mpr ⟨decide_eq_true hIn.1, decide_eq_true hIn.2⟩).symm
  · rw [if_neg fun hAll => hOut ⟨hAll.1, hAll.2.1⟩]
    refine (Bool.eq_false_iff.mpr fun hHas => hOut ?_).symm
    rw [Bool.and_eq_true, decide_eq_true_eq, decide_eq_true_eq] at hHas
    exact hHas

theorem MappedIn.address {mapped : Nat → Bool} {start stop a : Nat} (h : MappedIn mapped start stop)
    (hUser : stop ≤ userEnd) (hFrom : start ≤ a) (hTo : a < stop) : mapped (a / pageSize) := by
  refine h _ (Nat.div_le_div_right hFrom) (Nat.lt_of_le_of_lt (Nat.div_mul_le_self ..) hTo) ?_
  have hBelow : a < userPages * pageSize := Nat.lt_of_lt_of_le hTo hUser
  exact Nat.div_lt_of_lt_mul (Nat.mul_comm .. ▸ hBelow)

theorem Checked.at_span {p : Phdr} {a : Nat} (h : Checked img s) (hp : p ∈ img.loads) (hAt : img.At p a) :
    s.start ≤ a ∧ a < s.stop :=
  ⟨Nat.le_trans (h.within p hp).1 hAt.1, Nat.lt_of_lt_of_le hAt.2 (h.within p hp).2⟩

theorem Checked.holds (h : Checked img s) (hMapped : MappedIn (m.withPages frame s).mapped s.start s.stop)
    (hUser : s.stop ≤ userEnd) (hDisjoint : img.Disjoint) : (m.withImage frame img s).Holds img := by
  intro p hp k hk
  have hAt : img.At p (img.address p + k) := ⟨Nat.le_add_right .., Nat.add_lt_add_left hk _⟩
  obtain ⟨hFrom, hTo⟩ := h.at_span hp hAt
  constructor
  · rw [Memory.mapped_withImage]
    exact hMapped.address hUser hFrom hTo
  · rw [h.byte, if_pos ⟨hFrom, hTo⟩, Image.byteAt, byteFrom_disjoint 0 hDisjoint hp hAt, Nat.add_sub_cancel_left]

theorem Memory.Holds.withImage (h : m.Holds prog) (ht : Checked interp t) :
    (m.withImage frame interp t).Holds prog ↔ Agree prog interp t := by
  constructor
  · intro hHolds p hp a hAt hFrom hTo
    have hk : a - prog.address p < p.memsz := Nat.sub_lt_left_of_lt_add hAt.1 hAt.2
    have hByte := (hHolds p hp _ hk).2
    rw [Nat.add_sub_cancel' hAt.1, ht.byte, if_pos ⟨hFrom, hTo⟩] at hByte
    exact hByte
  · intro hAgree p hp k hk
    have hAt : prog.At p (prog.address p + k) := ⟨Nat.le_add_right .., Nat.add_lt_add_left hk _⟩
    obtain ⟨hMapped, hByte⟩ := h p hp k hk
    constructor
    · rw [Memory.mapped_withImage, ht.mapped]
      split
      · rfl
      · exact hMapped
    · rw [ht.byte]
      split
      · next hIn =>
        rw [hAgree p hp _ hAt hIn.1 hIn.2, Nat.add_sub_cancel_left]
      · exact hByte

theorem found_ne {ps : List Phdr} {addr : Nat} (h : addr ≠ 0) : ps.foldl img.found addr = addr := by
  induction ps with
  | nil => rfl
  | cons p ps ih =>
    rw [List.foldl_cons, Image.found, if_neg fun hBoth => h hBoth.1]
    exact ih

theorem found_zero {ps : List Phdr} (hAbove : ∀ p ∈ ps, pageSize ≤ img.address p) : ps.foldl img.found 0 =
      match ps.find? fun p => img.Starts p with
      | none => 0
      | some p => img.address p + (img.phoff - p.offset) := by
  induction ps with
  | nil => rfl
  | cons p ps ih =>
    rw [List.foldl_cons, Image.found]
    obtain hStarts | hNot := Decidable.em (img.Starts p)
    · have hSome : img.address p + (img.phoff - p.offset) ≠ 0 := by
        have hPos := Nat.lt_of_lt_of_le pageSize_pos (hAbove p List.mem_cons_self)
        omega
      rw [if_pos ⟨rfl, hStarts⟩, found_ne hSome, List.find?_cons, decide_eq_true hStarts]
    · rw [if_neg fun hBoth => hNot hBoth.2, ih fun q hq => hAbove q (.tail _ hq), List.find?_cons, decide_eq_false hNot]

theorem Image.LoadsTableAt.ne_zero {addr : Nat} (hAbove : ∀ p ∈ img.loads, pageSize ≤ img.address p)
    (h : img.LoadsTableAt addr) : addr ≠ 0 := by
  obtain ⟨p, hp, -, -, rfl⟩ := h
  exact Nat.ne_of_gt (Nat.lt_of_lt_of_le pageSize_pos (Nat.le_trans (hAbove p hp) (Nat.le_add_right ..)))

theorem Checked.phdr_iff (h : Checked img s) : img.LoadsTableAt img.phdr ↔ img.PhdrFits := by
  have hAbove : ∀ p ∈ img.loads, pageSize ≤ img.address p := fun p hp => (h.passes p hp).above
  have hFound : img.LoadsTableAt (img.loads.foldl img.found 0) ↔ ∃ p, (img.loads.find? fun p => img.Starts p) = some p ∧
        img.LoadsTableAt (img.address p + (img.phoff - p.offset)) := by
    rw [found_zero hAbove]
    cases img.loads.find? fun p => img.Starts p with
    | none => exact iff_of_false (fun hTable => hTable.ne_zero hAbove rfl) (fun ⟨p, hp, _⟩ => nomatch hp)
    | some p => exact ⟨fun hTable => ⟨p, rfl, hTable⟩, fun ⟨q, hq, hTable⟩ => Option.some.inj hq ▸ hTable⟩
  rw [Image.phdr, phdrAddress]
  cases hFind : (phdrsOf img.buf).find? fun q => q.type = ptPhdr with
  | none =>
    rw [hFound]
    constructor
    · exact fun hTable => ⟨fun q hq => (nomatch hFind.symm.trans hq), fun _ => hTable⟩
    · exact fun hFits => hFits.found fun q hq => nomatch hFind.symm.trans hq
  | some q =>
    dsimp only
    obtain hZero | hSome := Decidable.em ((img.bias + q.vaddr) % 2 ^ 64 = 0)
    · rw [hZero, hFound]
      constructor
      · intro hTable
        refine ⟨fun r hr hNot => ?_, fun _ => hTable⟩
        cases hFind.symm.trans hr
        exact absurd hZero hNot
      · intro hFits
        refine hFits.found fun r hr => ?_
        cases hFind.symm.trans hr
        exact hZero
    · rw [found_ne hSome]
      constructor
      · intro hTable
        refine ⟨fun r hr _ => ?_, fun hNone => absurd (hNone q hFind) hSome⟩
        cases hFind.symm.trans hr
        exact hTable
      · exact fun hFits => hFits.given q hFind hSome

def Image.Covered (img : Image) (areas : List Area) : Prop :=
  ∀ p ∈ img.loads, ∀ a, img.At p a → ∃ area ∈ areas, area.start ≤ a ∧ a < area.stop

theorem Checked.covered (h : Checked img s) {areas : List Area} (hIn : { s with } ∈ areas) : img.Covered areas :=
  fun _ hp _ hAt => ⟨_, hIn, h.at_span hp hAt⟩

theorem Checked.not_covered (h : Checked img s) : ¬ img.Covered [] := by
  intro hCovered
  obtain ⟨p, hp, -, hAt⟩ := h.entry
  obtain ⟨area, hIn, -⟩ := hCovered p hp _ hAt
  cases hIn

theorem Checked.covered_single (h : Checked img s) (t : Span) : img.Covered [{ t with }] ↔ img.Within t := by
  constructor
  · intro hCovered p hp
    have hSome := (h.passes p hp).some
    have hFirst : img.At p (img.address p) := ⟨Nat.le_refl _, Nat.lt_add_of_pos_right hSome⟩
    have hLast : img.At p (img.address p + (p.memsz - 1)) :=
      ⟨Nat.le_add_right .., Nat.add_lt_add_left (Nat.sub_lt hSome Nat.one_pos) _⟩
    obtain ⟨area, hIn, hFrom, -⟩ := hCovered p hp _ hFirst
    obtain ⟨area', hIn', -, hTo⟩ := hCovered p hp _ hLast
    cases List.mem_singleton.mp hIn
    cases List.mem_singleton.mp hIn'
    refine ⟨hFrom, ?_⟩
    dsimp only at hTo
    omega
  · intro hWithin p hp a hAt
    obtain ⟨hFrom, hTo⟩ := hWithin p hp
    exact ⟨_, List.mem_singleton_self _, Nat.le_trans hFrom hAt.1, Nat.lt_of_lt_of_le hAt.2 hTo⟩

theorem vmaInsert_nil (alloc : Bool) (a : Area) : vmaInsert alloc [] a = if alloc = true then [a] else [] := by
  cases alloc
  · rfl
  · rfl

theorem mem_vmaInsert {areas : List Area} {a b : Area}
    (hApart : (areas.any fun b => b.intersects a.start a.stop) = false) :
    b ∈ vmaInsert true areas a ↔ b = a ∨ b ∈ areas := by
  have hSplit := List.takeWhile_append_dropWhile (p := fun b : Area => b.start < a.start) (l := areas)
  rw [vmaInsert, if_neg Bool.noConfusion, if_neg (by rw [hApart]; exact nofun), List.mem_append, List.mem_cons]
  have hMem : b ∈ areas ↔ b ∈ (areas.takeWhile fun b => b.start < a.start) ∨
      b ∈ areas.dropWhile fun b => b.start < a.start := by
    rw [← List.mem_append, hSplit]
  rw [hMem]
  exact or_left_comm

theorem areas_iff {w : World} (hs : Checked prog s) (ht : Checked interp t) :
    (prog.Covered (vmaInsert w.interpreter.vma (vmaInsert w.program.vma [] { s with }) { t with }) ∧
      interp.Covered (vmaInsert w.interpreter.vma (vmaInsert w.program.vma [] { s with }) { t with })) ↔
      AreasFit w prog interp s t := by
  have hOwn : prog.Covered [{ s with }] := hs.covered (List.mem_singleton_self _)
  rw [AreasFit, vmaInsert_nil]
  split
  · cases hAlloc : w.interpreter.vma with
    | false =>
      rw [vmaInsert, if_pos rfl, and_iff_right hOwn, ht.covered_single]
      exact (or_iff_right fun hBoth => Bool.false_ne_true hBoth.1).symm
    | true =>
      rw [and_iff_right rfl]
      obtain hApart | hMeet := Decidable.em (s.stop ≤ t.start ∨ t.stop ≤ s.start)
      · have hNone : ([({ s with } : Area)].any fun b => b.intersects t.start t.stop) = false := by
          simp only [List.any_cons, List.any_nil, Bool.or_false, Area.intersects, Bool.and_eq_false_iff,
            decide_eq_false_iff_not]
          omega
        refine iff_of_true ⟨hs.covered ?_, ht.covered ?_⟩ (.inl hApart)
        · exact (mem_vmaInsert hNone).mpr (.inr (List.mem_singleton_self _))
        · exact (mem_vmaInsert hNone).mpr (.inl rfl)
      · have hSome : ([({ s with } : Area)].any fun b => b.intersects t.start t.stop) := by
          simp only [List.any_cons, List.any_nil, Bool.or_false, Area.intersects, Bool.and_eq_true, decide_eq_true_eq]
          omega
        rw [vmaInsert, if_neg Bool.noConfusion, if_pos hSome, and_iff_right hOwn, ht.covered_single]
        exact (or_iff_right hMeet).symm
  · rw [vmaInsert_nil]
    cases hAlloc : w.interpreter.vma with
    | false => exact iff_of_false (fun hBoth => hs.not_covered hBoth.1) (fun hBoth => Bool.false_ne_true hBoth.1)
    | true =>
      rw [if_pos rfl, hs.covered_single, and_iff_right rfl]
      exact and_iff_left (ht.covered (List.mem_singleton_self _))

def Inside {α : Type} (P : α → Prop) (x : Except Stop α) : Prop :=
  x ≠ .error .readOutside ∧ x ≠ .error .writeOutside ∧ ∀ a, x = .ok a → P a

theorem inside_ok {α : Type} {P : α → Prop} {a : α} : Inside P (.ok a) ↔ P a := by
  constructor
  · exact fun h => h.2.2 a rfl
  · refine fun h => ⟨nofun, nofun, fun b hb => ?_⟩
    cases hb
    exact h

theorem inside_error {α : Type} {P : α → Prop} {e : Stop} (hRead : e ≠ .readOutside) (hWrite : e ≠ .writeOutside) :
    Inside P (.error e) :=
  ⟨fun h => hRead (Except.error.inj h), fun h => hWrite (Except.error.inj h), nofun⟩

theorem Checked.mappedIn_fresh (h : Checked img s) (frame : Nat → Bool) :
    MappedIn (Memory.fresh.withPages frame s).mapped s.start s.stop ↔ MappedIn frame s.start s.stop := by
  rw [h.mappedIn_iff]
  exact MappedIn.congr fun page _ => Bool.or_false _

theorem Checked.loadedExactly {process : Process} {alloc : Bool} (h : Checked prog s)
    (hMapped : MappedIn frame s.start s.stop) (hUser : s.stop ≤ userEnd)
    (hMemory : process.memory = Memory.fresh.withImage frame prog s)
    (hAreas : process.areas = vmaInsert alloc [] { s with }) (hPhdr : process.auxPhdr = prog.phdr) :
    LoadedExactly prog none (prog.loaded s).entry process ↔ alloc ∧ prog.PhdrFits := by
  have hCovered : prog.Covered (vmaInsert alloc [] { s with }) ↔ alloc := by
    rw [vmaInsert_nil]
    split
    · next hAlloc => exact iff_of_true (h.covered (List.mem_singleton_self _)) hAlloc
    · next hAlloc => exact iff_of_false h.not_covered hAlloc
  rw [← h.phdr_iff, ← hCovered]
  constructor
  · intro hExact
    constructor
    · exact hAreas ▸ hExact.areas prog (.inl rfl)
    · exact hPhdr ▸ hExact.phdr
  · rintro ⟨hAreasFit, hTable⟩
    constructor
    · exact fun hDisjoint => hMemory ▸ h.holds ((h.mappedIn_fresh frame).mpr hMapped) hUser hDisjoint
    · exact nofun
    · exact h.entry
    · exact hPhdr ▸ hTable
    · rintro img (rfl | hNone)
      · exact hAreas ▸ hAreasFit
      · cases hNone

theorem Checked.mappedIn_second {frame' : Nat → Bool} (hs : Checked prog s) (ht : Checked interp t)
    (hMapped : MappedIn frame s.start s.stop) :
    MappedIn ((Memory.fresh.withImage frame prog s).withPages frame' t).mapped t.start t.stop ↔
      MappedIn (fun page => frame' page || s.has page) t.start t.stop := by
  rw [ht.mappedIn_iff]
  refine MappedIn.congr fun page hUser => ?_
  rw [hs.mapped_fresh hMapped hUser]

theorem Checked.loadedExactly_both {process : Process} {w : World} (hs : Checked prog s) (ht : Checked interp t)
    (hMapped : MappedIn w.program.frame s.start s.stop) (hUser : s.stop ≤ userEnd)
    (hMapped' : MappedIn (fun page => w.interpreter.frame page || s.has page) t.start t.stop)
        (hUser' : t.stop ≤ userEnd) (hMemory : process.memory =
      (Memory.fresh.withImage w.program.frame prog s).withImage w.interpreter.frame interp t) (hAreas : process.areas =
      vmaInsert w.interpreter.vma (vmaInsert w.program.vma [] { s with }) { t with })
    (hPhdr : process.auxPhdr = prog.phdr) : LoadedExactly prog (some interp) (interp.loaded t).entry process ↔
      (prog.Disjoint → Agree prog interp t) ∧ AreasFit w prog interp s t ∧ prog.PhdrFits := by
  rw [← hs.phdr_iff, ← areas_iff hs ht]
  have hFirst := fun hDisjoint => hs.holds ((hs.mappedIn_fresh w.program.frame).mpr hMapped) hUser hDisjoint
  constructor
  · intro hExact
    refine ⟨fun hDisjoint => ?_, ⟨?_, ?_⟩, ?_⟩
    · exact ((hFirst hDisjoint).withImage ht).mp (hMemory ▸ hExact.program hDisjoint)
    · exact hAreas ▸ hExact.areas prog (.inl rfl)
    · exact hAreas ▸ hExact.areas interp (.inr rfl)
    · exact hPhdr ▸ hExact.phdr
  · rintro ⟨hAgree, ⟨hProg, hInterp⟩, hTable⟩
    constructor
    · exact fun hDisjoint => hMemory ▸ ((hFirst hDisjoint).withImage ht).mpr (hAgree hDisjoint)
    · rintro img hSome hDisjoint
      cases hSome
      exact hMemory ▸ ht.holds ((hs.mappedIn_second ht hMapped).mpr hMapped') hUser' hDisjoint
    · exact ht.entry
    · exact hPhdr ▸ hTable
    · rintro img (rfl | hSome)
      · exact hAreas ▸ hProg
      · cases hSome
        exact hAreas ▸ hInterp

theorem Image.failed_inside {α : Type} {P : α → Prop} {e : Stop} (h : img.span = .error e) : Inside P (.error e) := by
  have hFailed := img.span_failed e h
  exact inside_error (hFailed.ne not_failed_readOutside) (hFailed.ne not_failed_writeOutside)

theorem loadImages_alone (w : World) (buf : Bytes) :
    Inside (fun r => LoadedExactly (programImage buf) none r.1 r.2) (loadImages w .fresh buf none) ↔
      FitsAlone w (programImage buf) := by
  have hBuf : ∀ supply m areas, loadUserElfImage supply buf userDynMainBase m areas =
      loadUserElfImage supply (programImage buf).buf (programImage buf).base m areas := fun _ _ _ => rfl
  rw [loadImages, hBuf]
  cases hSpan : (programImage buf).span with
  | error e =>
    rw [loadUserElfImage_failed hSpan]
    refine iff_of_true (Image.failed_inside hSpan) fun s hs => ?_
    cases hSpan.symm.trans hs
  | ok s =>
    have h := Image.checked hSpan
    rw [FitsAlone]
    simp only [hSpan, Except.ok.injEq, forall_eq']
    obtain hMapped | hMissing := Classical.em (MappedIn w.program.frame s.start s.stop)
    · rw [forall_prop_of_true hMapped]
      obtain hUpper | hUser := Nat.lt_or_ge userEnd s.stop
      · rw [loadUserElfImage_outside h ((h.mappedIn_fresh _).mpr hMapped) hUpper]
        exact iff_of_false (fun hIn => hIn.2.1 rfl) (fun hFits => Nat.not_lt_of_le hFits.1 hUpper)
      · rw [loadUserElfImage_ok h ((h.mappedIn_fresh _).mpr hMapped) hUser, and_iff_right hUser]
        exact inside_ok.trans (h.loadedExactly hMapped hUser rfl rfl rfl)
    · rw [loadUserElfImage_pageFault h fun hIn => hMissing ((h.mappedIn_fresh _).mp hIn)]
      exact iff_of_true (inside_error nofun nofun) (absurd · hMissing)

theorem loadImages_both (w : World) (buf ibuf : Bytes) :
    Inside (fun r => LoadedExactly (programImage buf) (some (interpImage ibuf)) r.1 r.2)
      (loadImages w .fresh buf (some ibuf)) ↔ FitsWith w (programImage buf) (interpImage ibuf) := by
  have hBuf : ∀ supply m areas, loadUserElfImage supply buf userDynMainBase m areas =
      loadUserElfImage supply (programImage buf).buf (programImage buf).base m areas := fun _ _ _ => rfl
  have hInterp : ∀ supply m areas, loadUserElfImage supply ibuf userInterpBase m areas =
      loadUserElfImage supply (interpImage ibuf).buf (interpImage ibuf).base m areas := fun _ _ _ => rfl
  rw [loadImages, hBuf]
  cases hSpan : (programImage buf).span with
  | error e =>
    rw [loadUserElfImage_failed hSpan]
    refine iff_of_true (Image.failed_inside hSpan) fun s hs => ?_
    cases hSpan.symm.trans hs
  | ok s =>
    have hs := Image.checked hSpan
    rw [FitsWith]
    simp only [hSpan, Except.ok.injEq, forall_eq']
    obtain hMapped | hMissing := Classical.em (MappedIn w.program.frame s.start s.stop)
    · rw [forall_prop_of_true hMapped]
      obtain hUpper | hUser := Nat.lt_or_ge userEnd s.stop
      · rw [loadUserElfImage_outside hs ((hs.mappedIn_fresh _).mpr hMapped) hUpper]
        exact iff_of_false (fun hIn => hIn.2.1 rfl) (fun hFits => Nat.not_lt_of_le hFits.1 hUpper)
      rw [loadUserElfImage_ok hs ((hs.mappedIn_fresh _).mpr hMapped) hUser, and_iff_right hUser]
      dsimp only [Bind.bind, Except.bind]
      rw [hInterp]
      cases hSpan' : (interpImage ibuf).span with
      | error e =>
        rw [loadUserElfImage_failed hSpan']
        exact iff_of_true (Image.failed_inside hSpan') nofun
      | ok t =>
        have ht := Image.checked hSpan'
        simp only [Except.ok.injEq, forall_eq']
        have hSecond : MappedIn ((Memory.fresh.withImage w.program.frame (programImage buf) s).withPages
              w.interpreter.frame t).mapped t.start t.stop ↔
            MappedIn (fun page => w.interpreter.frame page || s.has page) t.start t.stop :=
          hs.mappedIn_second ht hMapped
        rcases Classical.em (MappedIn (fun page => w.interpreter.frame page || s.has page) t.start t.stop) with
          hMapped' | hMissing'
        · rw [forall_prop_of_true hMapped']
          obtain hUpper' | hUser' := Nat.lt_or_ge userEnd t.stop
          · rw [loadUserElfImage_outside ht (hSecond.mpr hMapped') hUpper']
            exact iff_of_false (fun hIn => hIn.2.1 rfl) (fun hFits => Nat.not_lt_of_le hFits.1 hUpper')
          · rw [loadUserElfImage_ok ht (hSecond.mpr hMapped') hUser', and_iff_right hUser']
            exact inside_ok.trans (hs.loadedExactly_both ht hMapped hUser hMapped' hUser' rfl rfl rfl)
        · rw [loadUserElfImage_pageFault ht fun hIn => hMissing' (hSecond.mp hIn)]
          exact iff_of_true (inside_error nofun nofun) (absurd · hMissing')
    · rw [loadUserElfImage_pageFault hs fun hIn => hMissing ((hs.mappedIn_fresh _).mp hIn)]
      exact iff_of_true (inside_error nofun nofun) (absurd · hMissing)

end

theorem loadsExactly_error {w : World} {path : Bytes} {e : Stop} (h : readImages w path = .error e) :
    LoadsExactly w path ↔ e ≠ .readOutside := by
  have hParse : parseElfFile w path = .error e := by
    rw [parseElfFile, h]
    rfl
  have hWrite : e ≠ .writeOutside := fun hEq => readImages_noWrite w path (hEq ▸ h)
  constructor
  · rintro hExact rfl
    exact hExact.reads hParse
  · intro hRead
    constructor
    · exact fun hEq => hRead (Except.error.inj (hParse.symm.trans hEq))
    · exact fun hEq => hWrite (Except.error.inj (hParse.symm.trans hEq))
    · intro buf interp entry process hOk
      cases h.symm.trans hOk

theorem loadsExactly_ok {w : World} {path buf : Bytes} {interp : Option Bytes}
    (h : readImages w path = .ok (buf, interp)) : LoadsExactly w path ↔
      Inside (fun r => LoadedExactly (programImage buf) (interp.map interpImage) r.1 r.2)
        (loadImages w .fresh buf interp) := by
  have hParse : parseElfFile w path = loadImages w .fresh buf interp := by
    rw [parseElfFile, h]
    rfl
  constructor
  · rintro ⟨hReads, hWrites, hLoaded⟩
    exact ⟨hParse ▸ hReads, hParse ▸ hWrites, fun r hr => hLoaded buf interp r.1 r.2 h (hParse.trans hr)⟩
  · rintro ⟨hReads, hWrites, hLoaded⟩
    refine ⟨hParse ▸ hReads, hParse ▸ hWrites, fun buf' interp' entry process hOk hr => ?_⟩
    cases h.symm.trans hOk
    exact hLoaded (entry, process) (hParse.symm.trans hr)

/-- Whatever is in the files: the program is loaded exactly if they fit, and only then. -/
theorem program_loaded_exactly (w : World) (path : Bytes) : LoadsExactly w path ↔ Fits w path := by
  have hTable := readImages_inside w path
  cases hRead : readImages w path with
  | error e =>
    rw [hRead] at hTable
    rw [loadsExactly_error hRead]
    constructor
    · intro hne
      refine ⟨hTable.mp fun hEq => hne (Except.error.inj hEq), ?_, ?_⟩
      · exact fun buf hOk => nomatch hRead.symm.trans hOk
      · exact fun buf interp hOk => nomatch hRead.symm.trans hOk
    · intro hFits hEq
      exact hTable.mpr hFits.table (congrArg Except.error hEq)
  | ok images =>
    obtain ⟨buf, interp⟩ := images
    rw [hRead] at hTable
    rw [loadsExactly_ok hRead]
    cases interp with
    | none =>
      rw [Option.map_none, loadImages_alone]
      constructor
      · intro hAlone
        refine ⟨hTable.mp nofun, fun buf' hOk => ?_, fun buf' interp' hOk => ?_⟩
        · cases hRead.symm.trans hOk
          exact hAlone
        · cases hRead.symm.trans hOk
      · exact fun hFits => hFits.alone buf hRead
    | some ibuf =>
      rw [Option.map_some, loadImages_both]
      constructor
      · intro hBoth
        refine ⟨hTable.mp nofun, fun buf' hOk => ?_, fun buf' interp' hOk => ?_⟩
        · cases hRead.symm.trans hOk
        · cases hRead.symm.trans hOk
          exact hBoth
      · exact fun hFits => hFits.both buf ibuf hRead

/-- A file header alone. Its program headers have the size 0, and there are said to be a hundred of them. -/
def headerOnly : Bytes :=
  [0x7f, 0x45, 0x4c, 0x46] ++ List.replicate 28 0 ++ [64] ++ List.replicate 23 0 ++ [100] ++ List.replicate 7 0

/-- The loop that looks for the interpreter leaves the page of the file. -/
theorem program_headers_read_outside : ∃ w path, ¬ LoadsExactly w path := by
  have hRead : readImages ⟨fun _ => some ⟨headerOnly, false⟩, ⟨fun _ => true, true, true⟩,
      ⟨fun _ => true, true, true⟩⟩ [] =
      .error .readOutside := by
    rfl
  exact ⟨_, _, fun hExact => (loadsExactly_error hRead).mp hExact rfl⟩

end OpenXJ380.User
