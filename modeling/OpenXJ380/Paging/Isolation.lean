import OpenXJ380.Paging.Owned

/-! # Two address spaces

A program sees the words of the pages that its directory maps. Where two
directories have no table and no page in common, what is written through one is
not seen through the other, in whatever order they write.
-/

namespace OpenXJ380.Paging

open TableTree

variable {M M' : Memory} {dir a b : PageDirectory} {level : Nat} {t x addr value : U64} {i word word' :
    BitVec 9}
  {path : List (BitVec 9)}

def IsUserAddress (addr : U64) : Prop := addr.toNat < 2 ^ 47

def load (M : Memory) (dir : PageDirectory) (addr : U64) (word : BitVec 9) : Option U64 :=
  if isPresent (pageEntryValue M dir addr) then some (M (pageEntryValue M dir addr &&& pteAddrMask) word) else none

def store (M : Memory) (dir : PageDirectory) (addr : U64) (word : BitVec 9) (value : U64) : Memory :=
  if isPresent (pageEntryValue M dir addr) then setCell M (pageEntryValue M dir addr &&& pteAddrMask) word value else M

theorem l4Index_user (h : IsUserAddress addr) : (l4Index addr).toNat < userEntries 4 := by
  rw [IsUserAddress] at h
  change (BitVec.truncate 9 (addr >>> 39)).toNat < 256
  rw [BitVec.truncate_eq_setWidth, BitVec.toNat_setWidth, BitVec.toNat_ushiftRight, Nat.shiftRight_eq_div_pow]
  omega

theorem userEntries_below (hLevel : level ≤ 3) (i : BitVec 9) : i.toNat < userEntries level := by
  rw [userEntries, if_neg (by omega)]
  exact i.isLt

theorem entryAt_congr (path : List (BitVec 9)) (h : ∀ x ∈ userTables M (path.length + 1) t, M' x = M x)
    (hUser : i.toNat < userEntries (path.length + 1))
    (hLength : path.length ≤ 3) : entryAt nextTable M' t i path = entryAt nextTable M t i path := by
  induction path generalizing t i with
  | nil => rw [entryAt, entryAt, h t (.inl rfl)]
  | cons j path ih =>
    rw [List.length_cons] at h hUser hLength
    rw [entryAt, entryAt, h t (.inl rfl)]
    by_cases hTable : isTable (M t i)
    · have hPresent : isPresent (M t i) := by
        rw [isTable, Bool.and_eq_true] at hTable
        exact hTable.1
      rw [nextTable_some hTable]
      exact ih (userTables_child hUser hPresent h) (userEntries_below hLength j) (by omega)
    · rw [nextTable_none hTable]

theorem pageEntryValue_congr (h : ∀ x ∈ userTables M 4 dir.table, M' x = M x) (hUser : IsUserAddress addr) :
    pageEntryValue M' dir addr = pageEntryValue M dir addr := by
  rw [pageEntryValue_eq, pageEntryValue_eq]
  exact entryAt_congr [l3Index addr, l2Index addr, l1Index addr] h (l4Index_user hUser) (Nat.le_refl 3)

theorem entryAt_page (path : List (BitVec 9)) (hSmall : OnlySmall M (path.length + 1) t)
    (hUser : i.toNat < userEntries (path.length + 1))
    (hLength : path.length ≤ 3) (hPresent : isPresent (entryAt nextTable M t i path)) :
    entryAt nextTable M t i path &&& pteAddrMask ∈ userPages M (path.length + 1) t := by
  induction path generalizing t i with
  | nil => exact ⟨i, hUser, hPresent, rfl⟩
  | cons j path ih =>
    rw [List.length_cons] at hSmall hUser hLength ⊢
    rw [entryAt] at hPresent ⊢
    by_cases hTable : isTable (M t i)
    · have hThere : isPresent (M t i) := by
        rw [isTable, Bool.and_eq_true] at hTable
        exact hTable.1
      rw [nextTable_some hTable] at hPresent ⊢
      exact ⟨i, hUser, hThere, ih (hSmall i hUser hThere).2 (userEntries_below hLength j) (by omega) hPresent⟩
    · rw [nextTable_none hTable] at hPresent
      refine absurd ?_ hTable
      rw [isTable, (hSmall i hUser hPresent).1, hPresent]
      rfl

theorem page_of_present (hSmall : OnlySmall M 4 dir.table) (hUser : IsUserAddress addr)
    (hPresent : isPresent (pageEntryValue M dir addr)) :
    pageEntryValue M dir addr &&& pteAddrMask ∈ userPages M 4 dir.table := by
  rw [pageEntryValue_eq] at hPresent ⊢
  exact entryAt_page [l3Index addr, l2Index addr, l1Index addr] hSmall (l4Index_user hUser) (Nat.le_refl 3) hPresent

def InUse (M : Memory) (dir : PageDirectory) (x : U64) : Prop :=
  x ∈ userTables M 4 dir.table ∨ x ∈ userPages M 4 dir.table

structure Sound (M : Memory) (dir : PageDirectory) : Prop where
  small : OnlySmall M 4 dir.table
  apart : ∀ x ∈ userTables M 4 dir.table, x ∉ userPages M 4 dir.table

structure Isolated (M : Memory) (a b : PageDirectory) : Prop where
  left : Sound M a
  right : Sound M b
  across : ∀ x, InUse M a x → ¬ InUse M b x

theorem Isolated.symm (h : Isolated M a b) : Isolated M b a := ⟨h.right, h.left, fun x hb ha => h.across x ha hb⟩

theorem inUse_congr (h : ∀ x ∈ userTables M 4 dir.table, M' x = M x) : InUse M' dir x ↔ InUse M dir x := by
  rw [InUse, InUse, userTables_congr h, userPages_congr h]

theorem Sound.congr (hSound : Sound M dir) (h : ∀ x ∈ userTables M 4 dir.table, M' x = M x) : Sound M' dir := by
  refine ⟨onlySmall_congr h hSound.small, ?_⟩
  rw [userTables_congr h, userPages_congr h]
  exact hSound.apart

theorem store_others (hSmall : OnlySmall M 4 dir.table) (hUser : IsUserAddress addr)
    (hx : x ∉ userPages M 4 dir.table) : store M dir addr word value x = M x := by
  rw [store]
  split
  · next hPresent =>
    apply Function.update_of_ne
    rintro rfl
    exact hx (page_of_present hSmall hUser hPresent)
  · rfl

theorem Sound.store (h : Sound M dir) (hUser : IsUserAddress addr) (word : BitVec 9) (value : U64) :
    ∀ x ∈ userTables M 4 dir.table, Paging.store M dir addr word value x = M x :=
  fun x hx => store_others h.small hUser (h.apart x hx)

theorem Isolated.store (h : Isolated M a b) (hUser : IsUserAddress addr) (word : BitVec 9) (value : U64) :
    Isolated (store M a addr word value) a b := by
  have hLeft := h.left.store hUser word value
  have hRight : ∀ x ∈ userTables M 4 b.table, Paging.store M a addr word value x = M x :=
    fun x hx => store_others h.left.small hUser fun hPage => h.across x (.inr hPage) (.inl hx)
  refine ⟨h.left.congr hLeft, h.right.congr hRight, fun x ha hb => ?_⟩
  rw [inUse_congr hLeft] at ha
  rw [inUse_congr hRight] at hb
  exact h.across x ha hb

structure Write where
  addr : U64
  word : BitVec 9
  value : U64

/-- The writes of two programs; `true` marks those through the second directory. -/
def writes (a b : PageDirectory) (M : Memory) (ws : List (Bool × Write)) : Memory :=
  ws.foldl (fun M w => store M (if w.1 then b else a) w.2.addr w.2.word w.2.value) M

structure Alike (a b : PageDirectory) (M M' : Memory) : Prop where
  isolated : Isolated M a b
  isolated' : Isolated M' a b
  same : ∀ x, InUse M a x → M' x = M x

theorem Alike.entry (h : Alike a b M M') (hUser : IsUserAddress addr) :
    pageEntryValue M' a addr = pageEntryValue M a addr :=
  pageEntryValue_congr (fun x hx => h.same x (.inl hx)) hUser

theorem Alike.load (h : Alike a b M M') (hUser : IsUserAddress addr) : load M' a addr word = load M a addr word := by
  rw [Paging.load, Paging.load, h.entry hUser]
  split
  · next hPresent => rw [h.same _ (.inr (page_of_present h.isolated.left.small hUser hPresent))]
  · rfl

theorem Alike.own (h : Alike a b M M') (hUser : IsUserAddress addr) :
    Alike a b (store M a addr word value) (store M' a addr word value) := by
  have hTables := h.isolated.left.store hUser word value
  refine ⟨h.isolated.store hUser word value, h.isolated'.store hUser word value, fun x hx => ?_⟩
  rw [inUse_congr hTables] at hx
  rw [store, store, h.entry hUser]
  split
  · next hPresent =>
    funext j
    rw [setCell_apply, setCell_apply, h.same x hx]
  · exact h.same x hx

theorem Alike.other (h : Alike a b M M') (hUser : IsUserAddress addr) : Alike a b (store M b addr word value) M' := by
  have hApart : ∀ x, InUse M a x → store M b addr word value x = M x :=
    fun x hx => store_others h.isolated.right.small hUser fun hPage => h.isolated.across x hx (.inr hPage)
  refine ⟨(h.isolated.symm.store hUser word value).symm, h.isolated', fun x hx => ?_⟩
  rw [inUse_congr fun x hx => hApart x (.inl hx)] at hx
  rw [hApart x hx]
  exact h.same x hx

variable {ws : List (Bool × Write)}

theorem Alike.writes (h : Alike a b M M') (hUser : ∀ w ∈ ws, IsUserAddress w.2.addr) :
    Alike a b (writes a b M ws) (writes a b M' (ws.filter fun w => !w.1)) := by
  induction ws generalizing M M' with
  | nil => exact h
  | cons w ws ih =>
    have hFirst := hUser w (.head _)
    have hRest : ∀ w ∈ ws, IsUserAddress w.2.addr := fun w hw => hUser w (.tail _ hw)
    obtain ⟨side, w⟩ := w
    cases side with
    | false => exact ih (h.own hFirst) hRest
    | true => exact ih (h.other hFirst) hRest

theorem Isolated.reads (h : Isolated M a b) (hUser : ∀ w ∈ ws, IsUserAddress w.2.addr) (hAddr : IsUserAddress addr) :
    load (writes a b M ws) a addr word = load (writes a b M (ws.filter fun w => !w.1)) a addr word :=
  ((Alike.writes ⟨h, h, fun _ _ => rfl⟩ hUser).load hAddr).symm

theorem Isolated.reads_other (h : Isolated M a b) (hUser : ∀ w ∈ ws, IsUserAddress w.2.addr)
    (hAddr : IsUserAddress addr) :
    load (writes a b M ws) b addr word = load (writes a b M (ws.filter fun w => w.1)) b addr word := by
  have hSwap : ∀ M (ws : List (Bool × Write)), writes a b M ws = writes b a M (ws.map fun w => (!w.1, w.2)) := by
    intro M ws
    rw [writes, writes, List.foldl_map]
    congr 1
    funext M w
    cases w.1 with
    | false => rfl
    | true => rfl
  have hUser' : ∀ w ∈ ws.map fun w => (!w.1, w.2), IsUserAddress w.2.addr := by
    intro w hw
    obtain ⟨v, hv, rfl⟩ := List.mem_map.mp hw
    exact hUser v hv
  rw [hSwap, hSwap, h.symm.reads hUser' hAddr, List.filter_map]
  simp only [Function.comp_def, Bool.not_not]

theorem Isolated.write (h : Isolated M a b) (hUser : IsUserAddress addr) (side : Bool) (word : BitVec 9) (value : U64) :
    Isolated (Paging.store M (if side then b else a) addr word value) a b ∧
      ∀ x, x ∈ userTables M 4 a.table ∨ x ∈ userTables M 4 b.table →
        Paging.store M (if side then b else a) addr word value x = M x := by
  cases side with
  | false =>
    refine ⟨h.store hUser word value, fun x hx => store_others h.left.small hUser fun hPage => ?_⟩
    obtain hTable | hTable := hx
    · exact h.left.apart x hTable hPage
    · exact h.across x (.inr hPage) (.inl hTable)
  | true =>
    refine ⟨(h.symm.store hUser word value).symm, fun x hx => store_others h.right.small hUser fun hPage => ?_⟩
    obtain hTable | hTable := hx
    · exact h.across x (.inl hTable) (.inr hPage)
    · exact h.right.apart x hTable hPage

theorem Isolated.writes (h : Isolated M a b) (hUser : ∀ w ∈ ws, IsUserAddress w.2.addr) :
    ∀ x, x ∈ userTables M 4 a.table ∨ x ∈ userTables M 4 b.table → Paging.writes a b M ws x = M x := by
  induction ws generalizing M with
  | nil => exact fun _ _ => rfl
  | cons w ws ih =>
    obtain ⟨hAfter, hSame⟩ := h.write (hUser w (.head _)) w.1 w.2.word w.2.value
    intro x hx
    have hTables := ih hAfter (fun w hw => hUser w (.tail _ hw)) x
    rw [userTables_congr fun x hx => hSame x (.inl hx), userTables_congr fun x hx => hSame x (.inr hx)] at hTables
    exact (hTables hx).trans (hSame x hx)

end OpenXJ380.Paging
