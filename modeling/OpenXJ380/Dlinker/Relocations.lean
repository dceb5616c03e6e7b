import OpenXJ380.Dlinker.Reads

/-! # Relocations stay in the segments

The tables of relocations and what is relocated are looked for in the segments. The table of
symbols is not, and neither is what a `COPY` relocation copies.
-/

namespace OpenXJ380.Dlinker

open User (Stop Stops)

def SymbolsLoaded (x : Placed) (t : Tables) : Prop :=
  ∀ symtab, t.symtab = some symtab → x.allLoaded symtab (t.symCount * sizeofSym) = true

/-- What a `COPY` relocation copies is in segments, of this object or of others. -/
def CopyFits (k : Linked) (m : Memory) (a : Nat) : Prop :=
  ∀ r sym addr size, readRela k m a = .ok r → r.type = rX8664Copy → symbolOf k r = some sym →
    neededSymbol k m sym = .ok addr → addr ≠ 0 → k.reader m (sym + 16) 8 = .ok size → copyable k addr size = true

variable {k : Linked} {m : Memory} {sym a n : Nat}

section

variable (hStrings : StringsLoaded k.placed k.tables)

include hStrings

variable (hSym : SymbolLoaded k.placed sym)

include hSym

end

variable {r : RawRela} {size i : Nat}

section

variable (hStrings : StringsLoaded k.placed k.tables)

include hStrings

variable (hSymbols : SymbolsLoaded k.placed k.tables)

include hSymbols

end

/-- Whenever a relocation of the table comes next, what it copies is in segments. -/
def CopiesFit (k : Linked) (m : Memory) (rela size : Nat) : Prop :=
  ∀ i < size / sizeofRela, ∀ m', (List.range i).foldlM (fun m i => relocateOne k m rela i) m = .ok m' →
    CopyFits k m' (rela + sizeofRela * i)

end OpenXJ380.Dlinker
