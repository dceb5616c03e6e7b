import OpenXJ380.Dlinker.Dynamic

/-! # What is read and written

A range that the linker has found in a segment can be read. So where the tables that it does
not look at are in segments too, nothing stops except to return.
-/

namespace OpenXJ380.Dlinker

open User (Bytes Stop Stops numberAt)

abbrev Quiet {α : Type} (e : Except Stop α) : Prop := Stops (· = .null) e

variable {α : Type}

theorem Quiet.null : Quiet (.error .null : Except Stop α) := .error rfl

theorem Quiet.range {f : α → Nat → Except Stop α} {a : α} (n : Nat)
    (h : ∀ i < n, ∀ b, (List.range i).foldlM f a = .ok b → Quiet (f b i)) : Quiet ((List.range n).foldlM f a) := by
  induction n with
  | zero => exact .ok a
  | succ n ih =>
    rw [List.range_succ, List.foldlM_append]
    refine (ih fun i hi => h i (Nat.lt_succ_of_lt hi)).bind fun b hb => ?_
    rw [List.foldlM_cons]
    exact (h n (Nat.lt_succ_self n) b hb).bind fun c _ => .ok c

variable {x : Placed} {byte : Nat → UInt8} {a n i k : Nat}

theorem allLoaded_iff : x.allLoaded a n ↔ ∀ k < n, x.loaded ((a + k) % 2 ^ 64) := by
  rw [Placed.allLoaded, List.all_eq_true]
  exact ⟨fun h k hk => h k (List.mem_range.mpr hk), fun h k hk => h k (List.mem_range.mp hk)⟩

theorem allLoaded_part (h : x.allLoaded a n) (hPart : i + k ≤ n) : x.allLoaded (a + i) k := by
  rw [allLoaded_iff] at h ⊢
  intro j hj
  rw [add_assoc]
  exact h (i + j) (by omega)

theorem reader_quiet (h : x.allLoaded a n) : Quiet (x.reader byte a n) := by
  rw [Placed.reader, if_pos h]
  exact .ok _

def Entries (read : Reader) : Nat → List (Nat × Nat) → Prop
  | a, [] => read a 8 = .ok dtNull
  | a, e :: es => read a 8 = .ok e.1 ∧ e.1 ≠ dtNull ∧ read (a + 8) 8 = .ok e.2 ∧ Entries read (a + sizeofDyn) es

variable {es : List (Nat × Nat)} {t : Tables}

theorem reader_loaded {value : Nat} (h : x.reader byte a n = .ok value) : x.allLoaded a n := by
  rw [Placed.reader] at h
  split at h
  · next hLoaded => exact hLoaded
  · cases h

theorem Entries.loaded (h : Entries (x.reader byte) a es) (hi : i < es.length)
    (hk : k < sizeofDyn) : x.loaded ((a + sizeofDyn * i + k) % 2 ^ 64) := by
  induction es generalizing a i with
  | nil => exact nomatch hi
  | cons e es ih =>
    obtain ⟨hTag, -, hValue, hRest⟩ := h
    cases i with
    | zero =>
      have hFirst := allLoaded_iff.mp (reader_loaded hTag)
      have hSecond := allLoaded_iff.mp (reader_loaded hValue)
      rw [sizeofDyn] at hk
      obtain hLow | hHigh := lt_or_ge k 8
      · exact hFirst k hLow
      · have hThere := hSecond (k - 8) (by omega)
        rw [add_assoc, Nat.add_sub_cancel' hHigh] at hThere
        exact hThere
    | succ i =>
      have hThere := ih hRest (Nat.lt_of_succ_lt_succ hi)
      rw [Nat.mul_succ, add_comm (sizeofDyn * i), ← add_assoc]
      exact hThere

theorem Entries.length (h : Entries (x.reader byte) a es)
    (hTop : ∀ a, x.loaded a → a < maxU64) : es.length < dynamicLimit := by
  refine not_le.mp fun hMany => ?_
  rw [dynamicLimit, sizeofDyn] at hMany
  have hSteps : ((maxU64 + 2 ^ 64 - a % 2 ^ 64) % 2 ^ 64) / 16 < es.length := by omega
  have hLast := hTop _ (h.loaded hSteps (Nat.mod_lt ((maxU64 + 2 ^ 64 - a % 2 ^ 64) % 2 ^ 64) (by decide)))
  rw [sizeofDyn, maxU64] at hLast
  omega

def SectionsInFile (buf : Bytes) : Prop :=
  numberAt buf 40 8 ≠ 0 → numberAt buf 58 2 = sizeofShdr → ∀ i < numberAt buf 60 2,
    (∀ j < i, numberAt buf (numberAt buf 40 8 + sizeofShdr * j + 4) 4 ≠ shtDynsym) →
      numberAt buf 40 8 + sizeofShdr * i + sizeofShdr ≤ buf.length

def StringsLoaded (x : Placed) (t : Tables) : Prop :=
    ∀ strtab, t.strtab = some strtab → x.allLoaded strtab t.strtabsz = true

def SymbolLoaded (x : Placed) (sym : Nat) : Prop := x.allLoaded sym sizeofSym = true

theorem SymbolLoaded.read (h : SymbolLoaded x a) (hPart : i + k ≤ sizeofSym) : Quiet (x.reader byte (a + i) k) :=
  reader_quiet (allLoaded_part h hPart)

def readsStrings (tag : Nat) : Bool := [dtNeeded, dtRpath, dtRunpath, dtRela, dtJmprel].contains tag

end OpenXJ380.Dlinker
