import OpenXJ380.Dlinker.Relocations

/-! # Segments in the memory

Where an image starts at a page and no segment ends in the last page of all, its pages are
those that were checked, and a segment stays as it was written unless a later one gets one
of its pages.
-/

namespace OpenXJ380.Dlinker

def Effect.Touches (a : Nat) : Effect → Prop
  | .map page => a / pageSize = page
  | .write start n _ => start ≤ a ∧ a < start + n

def Placed.Apart (x : Placed) (p q : Phdr) : Prop := ∀ a, x.At p a → a / pageSize ∉ segmentPages x.base q

def Placed.Below (x : Placed) (p : Phdr) : Prop := p.memsz = 0 ∨ x.address p + p.memsz + pageSize ≤ 2 ^ 64

section

variable {x : Placed} {p q : Phdr} {base low high size lo hi page : Nat}

theorem Placed.mem_loads : p ∈ x.loads ↔ p ∈ x.object.phdrs ∧ p.type = ptLoad := by
  rw [Placed.loads, List.mem_filter, decide_eq_true_eq]

variable {free : Nat → Nat → UInt8} {m : Memory} {e : Effect} {es : List Effect} {a : Nat}

theorem Effect.Within.mono {lo' hi' : Nat} (h : e.Within lo hi) (hLow : lo' ≤ lo) (hHigh : hi ≤ hi') :
    e.Within lo' hi' := by
  cases e with
  | map page => exact ⟨hLow.trans h.1, h.2.trans hHigh⟩
  | write start n value => exact ⟨hLow.trans h.1, h.2.trans hHigh⟩

section

variable (free : Nat → Nat → UInt8)

end

section

variable (hAligned : x.base % pageSize = 0)

include hAligned

variable (hAccepted : Accepted x.object x.base size lo hi)

include hAccepted

end

theorem Memory.Holds.byte (h : m.Holds x) (ha : x.loaded a) : m.byte a = x.image a := by
  rw [Placed.loaded, List.any_eq_true] at ha
  obtain ⟨q, hq, hAt⟩ := ha
  rw [Placed.image]
  cases hFind : x.loads.find? fun p => x.At p a with
  | none =>
    have hNot := List.find?_eq_none.mp hFind q hq
    exact absurd hAt hNot
  | some p =>
    have hAt : x.At p a := by simpa using List.find?_some hFind
    obtain ⟨hFrom, hUpTo⟩ := hAt
    have hk : a - x.address p < p.memsz := by omega
    obtain ⟨-, hByte⟩ := h p (List.mem_of_find?_eq_some hFind) _ hk
    rw [Nat.add_sub_cancel' hFrom] at hByte
    exact hByte

end

/-! # An object is loaded exactly

An object that passes the checks is in the memory as its file says, and only its file and
its segments are used, if its segments have pages of their own and its tables are in its
segments.
-/

open User (Bytes numberAt)

/-- The segments are mapped and written where the image is,
    with their bytes; and what is read behind that is in the file
or in segments, and what is written in segments. -/
structure LoadedExactly (x : Placed) (out : Outside) (free : Nat → Nat → UInt8) (m : Memory) (size : Nat) : Prop where
  within : ∀ e ∈ mmapPhdrSegment x, e.Within x.base (x.base + size) ∧ e.Within x.windowStart x.windowEnd
  file : ∀ p ∈ x.loads, p.offset + p.filesz ≤ x.buf.length
  holds : (m.applyAll free (mmapPhdrSegment x)).Holds x
  reads : Quiet (processDynamic x out (m.applyAll free (mmapPhdrSegment x)))

/-- The dynamic section at an address ends in the segments; where they are needed, the section headers are in the file,
and the strings, the symbols and what is copied are in segments. `m` is the memory behind the mapping. -/
def DynamicFits (x : Placed) (out : Outside) (m : Memory) (dynamic : Nat) : Prop :=
  ∃ es, Entries (x.reader x.image) dynamic es ∧ ∀ found, findTables x (x.reader x.image) dynamic = .ok found →
    (found.symCount = 0 → SectionsInFile x.buf) ∧
    ((∃ e ∈ es, readsStrings e.1 = true) → StringsLoaded x found) ∧
    ∀ t exports count, countSymbols x found = .ok t → extractExports x (x.reader x.image) t = .ok (exports, count) →
      ((∃ e ∈ es, e.1 = dtRela ∨ e.1 = dtJmprel) → SymbolsLoaded x t) ∧
      ∀ r rela, walkDynamic (x.reader x.image) (visitRelocations x) dynamicLimit dynamic .none = .ok r →
        relocationsOk x r = true → r.rela = some rela → CopiesFit ⟨x, t, exports, out⟩ m rela r.relasz

structure Fits (x : Placed) (out : Outside) (free : Nat → Nat → UInt8) (m : Memory) : Prop where
  aligned : x.base % pageSize = 0
  below : ∀ p ∈ x.loads, x.Below p
  apart : x.loads.Pairwise x.Apart
  dynamic : ∀ dynamic, x.dynamic = some dynamic → DynamicFits x out (m.applyAll free (mmapPhdrSegment x)) dynamic

section

variable {x : Placed} {out : Outside} {free : Nat → Nat → UInt8} {m : Memory} {size lo hi : Nat}

end

def Outside.none : Outside :=
    { library := fun _ _ => false, elsewhere := fun _ => 0, resolver := fun _ => 0, others := fun _ => false }

def Memory.none : Memory := { mapped := fun _ => false, byte := fun _ => 0, frames := 0 }

end OpenXJ380.Dlinker
