import Mathlib.Init

/-! # Triples for programs that can fault

A program changes a state and returns a value, or faults and leaves a state behind.
A triple says what holds after it either way. There is one rule for each way to put
programs together.
-/

namespace Programs

variable {σ ε α β : Type}

def After (Q : α → σ → Prop) (E : ε → σ → Prop) : EStateM.Result ε σ α → Prop
  | .ok a s => Q a s
  | .error e s => E e s

/-- From a state with `P` the program ends with `Q` or faults with `E`. -/
structure Triple (P : σ → Prop) (m : EStateM ε σ α) (Q : α → σ → Prop) (E : ε → σ → Prop) : Prop where
  run : ∀ s, P s → After Q E (m s)

namespace Triple

variable {P P' : σ → Prop} {Q Q' : α → σ → Prop} {E E' : ε → σ → Prop} {m : EStateM ε σ α} {f : α → EStateM ε σ β}

theorem pure {a : α} (h : ∀ s, P s → Q a s) : Triple P (Pure.pure a : EStateM ε σ α) Q E := ⟨h⟩

theorem throw {e : ε} (h : ∀ s, P s → E e s) : Triple P (EStateM.throw e : EStateM ε σ α) Q E := ⟨h⟩

theorem get {Q : σ → σ → Prop} (h : ∀ s, P s → Q s s) : Triple P (EStateM.get : EStateM ε σ σ) Q E := ⟨h⟩

theorem self : Triple P (EStateM.get : EStateM ε σ σ) (fun t s => P s ∧ t = s) E := get fun _ hs => ⟨hs, rfl⟩

theorem bind {Q : β → σ → Prop} {S : α → σ → Prop} (hFirst : Triple P m S E) (hRest : ∀ a, Triple (S a) (f a) Q E) :
    Triple P (m >>= f) Q E := by
  constructor
  intro s hs
  have hAfter := hFirst.run s hs
  change After Q E (EStateM.bind m f s)
  rw [EStateM.bind]
  cases hRun : m s with
  | ok a s' =>
    rw [hRun] at hAfter
    exact (hRest a).run s' hAfter
  | error e s' =>
    rw [hRun] at hAfter
    exact hAfter

theorem weaken (h : Triple P m Q E) (hPre : ∀ s, P' s → P s) (hPost : ∀ a s, Q a s → Q' a s)
    (hFault : ∀ e s, E e s → E' e s) : Triple P' m Q' E' := by
  constructor
  intro s hs
  have hAfter := h.run s (hPre s hs)
  cases hRun : m s with
  | ok a s' =>
    rw [hRun] at hAfter
    exact hPost a s' hAfter
  | error e s' =>
    rw [hRun] at hAfter
    exact hFault e s' hAfter

theorem pre (h : Triple P m Q E) (hPre : ∀ s, P' s → P s) : Triple P' m Q E :=
  h.weaken hPre (fun _ _ => id) fun _ _ => id

theorem post (h : Triple P m Q E) (hPost : ∀ a s, Q a s → Q' a s) : Triple P m Q' E :=
  h.weaken (fun _ => id) hPost fun _ _ => id

theorem faultless (h : Triple P m Q fun _ _ => False) : Triple P m Q E :=
  h.weaken (fun _ => id) (fun _ _ => id) fun _ _ => False.elim

theorem assume {p : Prop} (h : p → Triple P m Q E) : Triple (fun s => p ∧ P s) m Q E :=
  ⟨fun s hs => (h hs.1).run s hs.2⟩

theorem ite {c : Prop} [Decidable c] {m' : EStateM ε σ α} (hThen : c → Triple P m Q E) (hElse : ¬c → Triple P m' Q E) :
    Triple P (if c then m else m') Q E := by
  split
  · next h => exact hThen h
  · next h => exact hElse h

end Triple

/-- The program keeps an invariant, also where it faults with one of the faults that may be, and `p` holds of what it
returns. -/
structure Keeps (I : σ → Prop) (may : ε → Prop) (m : EStateM ε σ α) (p : α → Prop) : Prop where
  triple : Triple I m (fun a s => p a ∧ I s) fun e s => may e ∧ I s

namespace Keeps

variable {I : σ → Prop} {may : ε → Prop} {m : EStateM ε σ α} {f : α → EStateM ε σ β} {p q : α → Prop}

theorem pure {a : α} (h : p a) : Keeps I may (Pure.pure a) p := ⟨.pure fun _ hs => ⟨h, hs⟩⟩

theorem pure_some {a : α} (h : p a) : Keeps I may (Pure.pure (some a)) fun o => ∀ a, o = some a → p a :=
  pure fun _ ha => Option.some.inj ha ▸ h

theorem throw {e : ε} (h : may e) : Keeps I may (EStateM.throw e : EStateM ε σ α) p :=
  ⟨.throw fun _ hs => ⟨h, hs⟩⟩

theorem bind {p : β → Prop} (hFirst : Keeps I may m q) (hRest : ∀ a, q a → Keeps I may (f a) p) :
    Keeps I may (m >>= f) p :=
  ⟨.bind hFirst.triple fun a => Triple.assume fun h => (hRest a h).triple⟩

theorem ite {c : Prop} [Decidable c] {m' : EStateM ε σ α} (hThen : c → Keeps I may m p)
    (hElse : ¬c → Keeps I may m' p) : Keeps I may (if c then m else m') p := by
  split
  · next h => exact hThen h
  · next h => exact hElse h

theorem faultless {E : ε → σ → Prop} (h : Keeps I (fun _ => False) m p) : Triple I m (fun a s => p a ∧ I s) E :=
  h.triple.weaken (fun _ => id) (fun _ _ => id) fun _ _ hFault => hFault.1.elim

end Keeps

end Programs
