import Mathlib.Data.BitVec
import Mathlib.Tactic.Linarith

/-! # Strings of the kernel (`kernel/krlibc.cpp`)

A string is its bytes up to the NUL. Where a loop looks behind the NUL the memory that
follows is an argument, and the end of that memory is a fault. A plain `char` has a sign.
-/

namespace OpenXJ380.Krlibc

abbrev Byte := BitVec 8

def nul : Byte := 0

structure CString where
  bytes : List Byte
  nulFree : nul ∉ bytes

/-- The value of a plain `char`. -/
def charValue (b : Byte) : Int := b.toInt

theorem charValue_injective : Function.Injective charValue := fun _ _ h => BitVec.eq_of_toInt_eq h

/-- The `do` of `strcpy`, from where `src` points on: what is written, and how many bytes are read. -/
def strcpyLoop : List Byte → Option (List Byte × Nat)
  | c :: d :: memory =>
    if d = nul then some ([c], 2) else (strcpyLoop (d :: memory)).map fun r => (c :: r.1, r.2 + 1)
  | _ => none

def strcpy (memory : List Byte) : Option (List Byte × Nat) :=
  (strcpyLoop memory).map fun r => (r.1 ++ [nul], r.2)

/-- The string and its NUL are written, and nothing behind the NUL is read. -/
def Copied (src memory : List Byte) : Prop := strcpy memory = some (src ++ [nul], src.length + 1)

theorem strcpyLoop_string (c : Byte) (src rest : List Byte) (hc : nul ∉ c :: src) :
    strcpyLoop (c :: (src ++ nul :: rest)) = some (c :: src, src.length + 2) := by
  induction src generalizing c with
  | nil => simp [strcpyLoop]
  | cons d src ih =>
    have hd : nul ∉ d :: src := fun h => hc (.tail c h)
    have hne : d ≠ nul := fun h => hd (h ▸ (.head _))
    simp [strcpyLoop, hne, ih d hd]

theorem two_le_of_strcpyLoop {memory : List Byte} {r : List Byte × Nat} (h : strcpyLoop memory = some r) : 2 ≤ r.2 := by
  induction memory generalizing r with
  | nil => simp [strcpyLoop] at h
  | cons c memory ih =>
    cases memory with
    | nil => simp [strcpyLoop] at h
    | cons d memory =>
      rw [strcpyLoop] at h
      split at h
      · cases h
        exact Nat.le_refl 2
      · obtain ⟨r', hr', rfl⟩ := Option.map_eq_some_iff.mp h
        exact (ih hr').trans (Nat.le_succ r'.2)

theorem copied_iff (src : CString) (rest : List Byte) :
    Copied src.bytes (src.bytes ++ nul :: rest) ↔ src.bytes ≠ [] := by
  obtain ⟨bytes, hfree⟩ := src
  cases bytes with
  | nil =>
    simp only [ne_eq, not_true_eq_false, iff_false]
    intro h
    obtain ⟨r, hr, hread⟩ := Option.map_eq_some_iff.mp h
    have htwo := two_le_of_strcpyLoop hr
    rw [congrArg Prod.snd hread] at htwo
    exact absurd htwo (by decide)
  | cons c src => simp [Copied, strcpy, strcpyLoop_string c src rest hfree]

/-- The inner loop of `strstr`: what it leaves of the second string. -/
def strstrRest : List Byte → List Byte → List Byte
  | c :: s1, d :: s2 => if c = d then strstrRest s1 s2 else d :: s2
  | _, s2 => s2

def strstr : List Byte → List Byte → Option Nat
  | [], _ => none
  | c :: p, str2 => if strstrRest (c :: p) str2 = [] then some 0 else (strstr p str2).map (· + 1)

def strchrnul : List Byte → BitVec 32 → Nat
  | [], _ => 0
  | b :: s, c => if charValue b = c.toInt then 1 else strchrnul s c + 1

def FirstOccurrence (str1 str2 : List Byte) : Option Nat → Prop
  | none => ¬ str2 <:+: str1
  | some i => str2 <+: str1.drop i ∧ ∀ j < i, ¬ str2 <+: str1.drop j

theorem strstrRest_eq_nil_iff (s1 s2 : List Byte) : strstrRest s1 s2 = [] ↔ s2 <+: s1 := by
  induction s1 generalizing s2 with
  | nil => simp [strstrRest]
  | cons c s1 ih =>
    cases s2 with
    | nil => simp [strstrRest]
    | cons d s2 =>
      by_cases hcd : c = d
      · simp [strstrRest, hcd, ih]
      · simp [strstrRest, hcd, List.cons_prefix_cons, Ne.symm hcd]

theorem firstOccurrence_strstr {str1 str2 : List Byte} (h : ¬ (str1 = [] ∧ str2 = [])) :
    FirstOccurrence str1 str2 (strstr str1 str2) := by
  induction str1 with
  | nil =>
    have hne : str2 ≠ [] := fun h2 => h ⟨rfl, h2⟩
    simpa [strstr, FirstOccurrence] using hne
  | cons c p ih =>
    rw [strstr]
    split
    next hrest => exact ⟨(strstrRest_eq_nil_iff _ _).mp hrest, fun j hj => nomatch hj⟩
    next hrest =>
      have hhere : ¬ str2 <+: c :: p := fun hp => hrest ((strstrRest_eq_nil_iff _ _).mpr hp)
      have hne : str2 ≠ [] := fun h2 => hhere (h2 ▸ List.nil_prefix)
      have hlater := ih fun hboth => hne hboth.2
      cases hs : strstr p str2 with
      | none =>
        rw [hs] at hlater
        exact fun hin => (List.infix_cons_iff.mp hin).elim hhere hlater
      | some i =>
        rw [hs] at hlater
        refine ⟨hlater.1, fun j hj => ?_⟩
        cases j with
        | zero => exact hhere
        | succ j => exact hlater.2 j (Nat.lt_of_succ_lt_succ hj)

theorem firstOccurrence_iff (str1 str2 : List Byte) :
    FirstOccurrence str1 str2 (strstr str1 str2) ↔ ¬ (str1 = [] ∧ str2 = []) := by
  refine ⟨?_, firstOccurrence_strstr⟩
  rintro hfirst ⟨rfl, rfl⟩
  exact hfirst List.nil_infix

/-- The `char` that an `int` is looked up as. -/
def asChar (c : BitVec 32) : Byte := c.setWidth 8

theorem asChar_eq_of_charValue {b : Byte} {c : BitVec 32} (h : charValue b = c.toInt) : asChar c = b := by
  have hc : c = b.signExtend 32 := by
    apply BitVec.eq_of_toInt_eq
    rw [← h, BitVec.toInt_signExtend_of_le (by decide)]
    rfl
  rw [hc, asChar]
  ext i hi
  rw [BitVec.getElem_setWidth, BitVec.getLsbD_signExtend, if_pos hi, BitVec.getLsbD_eq_getElem hi]
  simp [show i < 32 by omega]

theorem strchrnul_eq_findIdx_iff (s : List Byte) (c : BitVec 32) :
    strchrnul s c = s.findIdx (· = asChar c) ↔ asChar c ∉ s := by
  induction s with
  | nil => simp [strchrnul]
  | cons b s ih =>
    rw [strchrnul, List.findIdx_cons, List.mem_cons, not_or]
    by_cases hb : b = asChar c
    · subst hb
      split <;> simp
    · have hvalue : charValue b ≠ c.toInt := fun h => hb (asChar_eq_of_charValue h).symm
      simp [hvalue, hb, Ne.symm hb, ih]

def strcmp : List Byte → List Byte → Int
  | [], [] => 0
  | _ :: _, [] => 1
  | [], _ :: _ => -1
  | c :: s1, d :: s2 => if c ≠ d then charValue c - charValue d else strcmp s1 s2

def strncmp : List Byte → List Byte → Nat → Int
  | _, _, 0 => 0
  | s1, s2, n + 1 =>
    let p1 := s1.headD nul
    let p2 := s2.headD nul
    if p1 ≠ p2 then p1.toNat - p2.toNat else if p1 = nul then 0 else strncmp s1.tail s2.tail n

/-- `size` bytes, which are there. -/
def memcmp : List Byte → List Byte → Nat → Int
  | a :: as, b :: bs, size + 1 => if a ≠ b then (if charValue a > charValue b then 1 else -1) else memcmp as bs size
  | _, _, _ => 0

def sign (result : Int) : Ordering := compare result 0

def lexicographic {α : Type} [Ord α] (value : Byte → α) (s1 s2 : List Byte) : Ordering :=
  List.compareLex (compareOn value) s1 s2

/-- The three comparisons order two strings as their bytes without a sign do. -/
structure Compared (s1 s2 : List Byte) : Prop where
  whole : sign (strcmp s1 s2) = lexicographic BitVec.toNat s1 s2
  bounded : ∀ n, max s1.length s2.length < n → sign (strncmp s1 s2 n) = lexicographic BitVec.toNat s1 s2
  sized : s1.length = s2.length → sign (memcmp s1 s2 s1.length) = lexicographic BitVec.toNat s1 s2

/-- The bytes at the first place where both strings have one and they differ. -/
def firstDifference : List Byte → List Byte → Option (Byte × Byte)
  | c :: s1, d :: s2 => if c ≠ d then some (c, d) else firstDifference s1 s2
  | _, _ => none

theorem sign_sub (a b : Int) : sign (a - b) = compare a b := by
  simp only [sign, compare, compareOfLessAndEq, sub_neg, sub_eq_zero]

theorem compare_ofNat (m n : Nat) : compare (m : Int) n = compare m n := by
  simp [compare, compareOfLessAndEq]

section

variable {α : Type} [Ord α] [Std.LawfulEqCmp (compare : α → α → Ordering)] {value : Byte → α}

omit [Std.LawfulEqCmp (compare : α → α → Ordering)] in
@[simp] theorem lexicographic_nil : lexicographic value [] [] = .eq := List.compareLex_nil_nil

omit [Std.LawfulEqCmp (compare : α → α → Ordering)] in
@[simp] theorem lexicographic_cons_nil (c : Byte) (s1 : List Byte) : lexicographic value (c :: s1) [] = .gt :=
  List.compareLex_cons_nil

@[simp] theorem lexicographic_cons_self (c : Byte) (s1 s2 : List Byte) :
    lexicographic value (c :: s1) (c :: s2) = lexicographic value s1 s2 := by
  simp [lexicographic, List.compareLex_cons_cons, compareOn, Std.ReflCmp.compare_self]

theorem lexicographic_cons_of_ne (hvalue : Function.Injective value) {c d : Byte} (h : c ≠ d) (s1 s2 : List Byte) :
    lexicographic value (c :: s1) (d :: s2) = compare (value c) (value d) := by
  have hne : compare (value c) (value d) ≠ .eq := fun he => h (hvalue (Std.LawfulEqCmp.eq_of_compare he))
  rw [lexicographic, List.compareLex_cons_cons, compareOn]
  cases hc : compare (value c) (value d) with
  | eq => exact absurd hc hne
  | lt => rfl
  | gt => rfl

theorem lexicographic_eq (hvalue : Function.Injective value) (s1 s2 : List Byte) : lexicographic value s1 s2 =
      match firstDifference s1 s2 with
      | some (c, d) => compare (value c) (value d)
      | none => compare s1.length s2.length := by
  induction s1 generalizing s2 with
  | nil =>
    cases s2 with
    | nil => rfl
    | cons d s2 => exact (Nat.compare_eq_lt.mpr (Nat.succ_pos s2.length)).symm
  | cons c s1 ih =>
    cases s2 with
    | nil => exact (Nat.compare_eq_gt.mpr (Nat.succ_pos s1.length)).symm
    | cons d s2 =>
      by_cases hcd : c = d
      · subst hcd
        simp only [lexicographic_cons_self, ih s2, firstDifference, ne_eq, not_true_eq_false, if_false,
          List.length_cons]
        split
        next => rfl
        next => simp [compare, compareOfLessAndEq]
      · rw [lexicographic_cons_of_ne hvalue hcd, firstDifference, if_pos hcd]

end

theorem firstDifference_ne {s1 s2 : List Byte} {c d : Byte} (h : firstDifference s1 s2 = some (c, d)) : c ≠ d := by
  induction s1 generalizing s2 with
  | nil => simp [firstDifference] at h
  | cons a s1 ih =>
    cases s2 with
    | nil => simp [firstDifference] at h
    | cons b s2 =>
      by_cases hab : a = b
      · exact ih (by simpa [firstDifference, hab] using h)
      · simp only [firstDifference, ne_eq, hab, not_false_eq_true, if_true, Option.some.injEq, Prod.mk.injEq] at h
        exact h.1 ▸ h.2 ▸ hab

theorem sign_strcmp (s1 s2 : List Byte) : sign (strcmp s1 s2) = lexicographic charValue s1 s2 := by
  induction s1 generalizing s2 with
  | nil =>
    cases s2 with
    | nil => rfl
    | cons d s2 => rfl
  | cons c s1 ih =>
    cases s2 with
    | nil => rfl
    | cons d s2 =>
      by_cases hcd : c = d
      · simp [strcmp, hcd, ih]
      · rw [strcmp, if_pos hcd, sign_sub, lexicographic_cons_of_ne charValue_injective hcd]

theorem sign_memcmp {as bs : List Byte} (h : as.length = bs.length) :
    sign (memcmp as bs as.length) = lexicographic charValue as bs := by
  induction as generalizing bs with
  | nil =>
    rw [List.eq_nil_of_length_eq_zero h.symm]
    rfl
  | cons a as ih =>
    obtain ⟨b, bs, rfl⟩ := List.exists_cons_of_length_eq_add_one h.symm
    by_cases hab : a = b
    · simp [memcmp, hab, ih (Nat.succ_injective h)]
    · rw [List.length_cons, memcmp, if_pos hab, lexicographic_cons_of_ne charValue_injective hab]
      have hvalue : charValue a ≠ charValue b := fun he => hab (charValue_injective he)
      by_cases hgt : charValue b < charValue a
      · rw [if_pos hgt, compare_gt_iff_gt.mpr hgt]
        rfl
      · rw [if_neg hgt, compare_lt_iff_lt.mpr (lt_of_le_of_ne (not_lt.mp hgt) hvalue)]
        rfl

theorem sign_strncmp {s1 s2 : List Byte} {n : Nat} (h1 : nul ∉ s1) (h2 : nul ∉ s2) (hn : max s1.length s2.length < n) :
    sign (strncmp s1 s2 n) = lexicographic BitVec.toNat s1 s2 := by
  induction n generalizing s1 s2 with
  | zero => exact nomatch hn
  | succ n ih =>
    have hpositive {b : Byte} (hb : b ≠ nul) : 0 < b.toNat := Nat.pos_of_ne_zero fun h => hb (BitVec.eq_of_toNat_eq h)
    cases s1 with
    | nil =>
      cases s2 with
      | nil => simp [strncmp, sign]
      | cons d s2 =>
        have hd : d ≠ nul := fun h => h2 (h ▸ (.head _))
        simp only [strncmp, List.headD_nil, List.headD_cons, ne_eq, hd.symm, not_false_eq_true, if_true, sign_sub]
        exact compare_lt_iff_lt.mpr (Int.ofNat_lt.mpr (hpositive hd))
    | cons c s1 =>
      have hc : c ≠ nul := fun h => h1 (h ▸ (.head _))
      cases s2 with
      | nil =>
        simp only [strncmp, List.headD_nil, List.headD_cons, ne_eq, hc, not_false_eq_true, if_true, sign_sub]
        exact compare_gt_iff_gt.mpr (Int.ofNat_lt.mpr (hpositive hc))
      | cons d s2 =>
        by_cases hcd : c = d
        · subst hcd
          have hlater := ih (fun h => h1 (.tail c h)) (fun h => h2 (.tail c h))
            (by simp only [List.length_cons] at hn; omega)
          simp [strncmp, hc, hlater]
        · rw [lexicographic_cons_of_ne (fun _ _ => BitVec.eq_of_toNat_eq) hcd]
          simp [strncmp, hcd, sign_sub, compare_ofNat]

theorem compare_charValue_iff {c d : Byte} (h : c ≠ d) :
    compare (charValue c) (charValue d) = compare c.toNat d.toNat ↔ (c.toNat < 128 ↔ d.toNat < 128) := by
  have hne : c.toNat ≠ d.toNat := fun he => h (BitVec.eq_of_toNat_eq he)
  have hc : c.toNat < 256 := c.isLt
  have hd : d.toNat < 256 := d.isLt
  have hvalue (b : Byte) : charValue b = if b.toNat < 128 then (b.toNat : Int) else b.toNat - 256 := by
    rw [charValue, BitVec.toInt_eq_toNat_cond]
    split <;> split <;> omega
  rw [hvalue c, hvalue d]
  obtain hlt | hgt := Nat.lt_or_gt_of_ne hne
  · rw [compare_lt_iff_lt.mpr hlt, compare_lt_iff_lt]
    split <;> split <;> omega
  · rw [compare_gt_iff_gt.mpr hgt, compare_gt_iff_gt]
    split <;> split <;> omega

theorem compared_iff (s1 s2 : CString) : Compared s1.bytes s2.bytes ↔
      ∀ c d, firstDifference s1.bytes s2.bytes = some (c, d) → (c.toNat < 128 ↔ d.toNat < 128) := by
  have hsame : lexicographic charValue s1.bytes s2.bytes = lexicographic BitVec.toNat s1.bytes s2.bytes ↔
      ∀ c d, firstDifference s1.bytes s2.bytes = some (c, d) → (c.toNat < 128 ↔ d.toNat < 128) := by
    rw [lexicographic_eq charValue_injective, lexicographic_eq fun _ _ => BitVec.eq_of_toNat_eq]
    cases hdiff : firstDifference s1.bytes s2.bytes with
    | none => simp
    | some p =>
      obtain ⟨c, d⟩ := p
      simp [compare_charValue_iff (firstDifference_ne hdiff)]
  rw [← hsame]
  constructor
  · intro h
    rw [← sign_strcmp]
    exact h.whole
  · intro h
    exact {
      whole := (sign_strcmp _ _).trans h
      bounded := fun n hn => sign_strncmp s1.nulFree s2.nulFree hn
      sized := fun hlength => (sign_memcmp hlength).trans h }

/-- Each of the functions does what its name says where its string is not empty, where the character is not
there, and where the first difference is not between bytes of different signs. The order is one in any case. -/
theorem strings_iff (src : CString) (rest : List Byte) (str1 str2 s : CString) (c : BitVec 32) (s1 s2 : CString) :
    (Copied src.bytes (src.bytes ++ nul :: rest) ↔ src.bytes ≠ []) ∧
    (FirstOccurrence str1.bytes str2.bytes (strstr str1.bytes str2.bytes) ↔
      ¬ (str1.bytes = [] ∧ str2.bytes = [])) ∧
    (strchrnul s.bytes c = s.bytes.findIdx (· = asChar c) ↔ asChar c ∉ s.bytes) ∧
    (Compared s1.bytes s2.bytes ↔
      ∀ c d, firstDifference s1.bytes s2.bytes = some (c, d) → (c.toNat < 128 ↔ d.toNat < 128)) ∧
    Std.TransCmp fun s1 s2 => sign (strcmp s1 s2) := by
  refine ⟨copied_iff src rest, firstOccurrence_iff str1.bytes str2.bytes, strchrnul_eq_findIdx_iff s.bytes c,
    compared_iff s1 s2, ?_⟩
  have horder : (fun s1 s2 => sign (strcmp s1 s2)) = lexicographic charValue := by
    funext s1 s2
    exact sign_strcmp s1 s2
  rw [horder]
  exact inferInstanceAs (Std.TransCmp (List.compareLex (compareOn charValue)))

/-- An empty string is copied with what is behind it, the empty string is not found in itself, the character is
passed over, and a byte from `0x80` on is less than an ASCII character. -/
theorem strings_fail :
    ¬ Copied [] [nul, nul] ∧ ¬ FirstOccurrence [] [] (strstr [] []) ∧
    strchrnul [0x61] 0x61 ≠ [(0x61 : Byte)].findIdx (· = asChar 0x61) ∧ ¬ Compared [0x61] [0xE9] := by
  refine ⟨?_, ?_, by decide, ?_⟩
  · simp [Copied, strcpy, strcpyLoop]
  · exact fun h => h List.nil_infix
  · exact fun h => absurd h.whole (by decide)

end OpenXJ380.Krlibc
