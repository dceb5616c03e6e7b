import Mathlib.Data.List.Infix

/-! # Labelled transition systems and reactive machines

A system relates a state, a label and a successor. A machine is the
deterministic case in which every input is accepted and answered. Invariants
and simulations are proved once here, by induction on the run.
-/

namespace Transition

universe u v w

variable {σ τ : Type u} {ℓ : Type v} {ο : Type w}

structure System (σ : Type u) (ℓ : Type v) where
  step : σ → ℓ → σ → Prop

/-- Runs grow at their last step, so that an induction peels off the newest label. -/
inductive Run (M : System σ ℓ) : σ → List ℓ → σ → Prop
  | nil (s : σ) : Run M s [] s
  | snoc {s t u : σ} {ls : List ℓ} {l : ℓ} (run : Run M s ls t) (last : M.step t l u) :
      Run M s (ls ++ [l]) u

theorem Run.single {M : System σ ℓ} {s t : σ} {l : ℓ} (h : M.step s l t) : Run M s [l] t := by
  rw [← List.nil_append [l]]
  exact .snoc (.nil s) h

theorem Run.append {M : System σ ℓ} {s t u : σ} {ks ls : List ℓ}
    (hst : Run M s ks t) (htu : Run M t ls u) : Run M s (ks ++ ls) u := by
  induction htu with
  | nil => simpa using hst
  | snoc _ last ih =>
    rw [← List.append_assoc]
    exact .snoc ih last

theorem Run.invariant {M : System σ ℓ} {I : σ → Prop}
    (hStep : ∀ s l t, I s → M.step s l t → I t) {s t : σ} {ls : List ℓ} (hRun : Run M s ls t) (hInit : I s) : I t := by
  induction hRun with
  | nil => exact hInit
  | snoc _ last ih => exact hStep _ _ _ ih last

theorem Run.length_le {M : System σ ℓ} {I : σ → Prop} {weight : σ → Nat} {short : ℓ → Prop}
    (hStep : ∀ s l t, I s → short l → M.step s l t → I t ∧ weight t < weight s) {s t : σ} {ls : List ℓ}
    (hRun : Run M s ls t) (hInit : I s) (hShort : ∀ l ∈ ls, short l) : I t ∧ ls.length + weight t ≤ weight s := by
  induction hRun with
  | nil => exact ⟨hInit, by simp⟩
  | @snoc t u ls l _ last ih =>
    obtain ⟨hBefore, hLe⟩ := ih fun k hk => hShort k (List.mem_append_left _ hk)
    obtain ⟨hAfter, hLess⟩ := hStep t l u hBefore (hShort l (by simp)) last
    refine ⟨hAfter, ?_⟩
    rw [List.length_append, List.length_singleton]
    omega

/-- The runs all of whose steps meet a condition on the state before and the label. -/
def System.restrict (M : System σ ℓ) (allowed : σ → ℓ → Prop) : System σ ℓ where
  step s l t := allowed s l ∧ M.step s l t

theorem Run.of_restrict {M : System σ ℓ} {allowed : σ → ℓ → Prop} {s t : σ} {ls : List ℓ}
    (h : Run (M.restrict allowed) s ls t) : Run M s ls t := by
  induction h with
  | nil => exact .nil _
  | snoc _ last ih => exact .snoc ih last.2

theorem Run.restrict {M : System σ ℓ} {allowed : σ → ℓ → Prop} {s t : σ} {ls : List ℓ} (h : Run M s ls t)
    (hAllowed : ∀ s, ∀ l ∈ ls, allowed s l) : Run (M.restrict allowed) s ls t := by
  induction h with
  | nil => exact .nil _
  | @snoc t _ ls l _ last ih =>
    have hInit : ∀ s, ∀ k ∈ ls, allowed s k := fun s k hk => hAllowed s k (List.mem_append_left _ hk)
    exact .snoc (ih hInit) ⟨hAllowed t l (List.mem_append_right _ (.head _)), last⟩

structure Machine (σ : Type u) (ι : Type v) (ο : Type w) where
  step : σ → ι → σ × ο

namespace Machine

variable {ι : Type v}

def final (M : Machine σ ι ο) (s : σ) (inputs : List ι) : σ :=
  inputs.foldl (fun s i => (M.step s i).1) s

def history (M : Machine σ ι ο) : σ → List ι → List (ι × ο)
  | _, [] => []
  | s, i :: is => (i, (M.step s i).2) :: M.history (M.step s i).1 is

def outputs (M : Machine σ ι ο) (s : σ) (inputs : List ι) : List ο :=
  (M.history s inputs).map Prod.snd

variable (M : Machine σ ι ο)

theorem final_append (s : σ) (is js : List ι) : M.final s (is ++ js) = M.final (M.final s is) js := by
  simp [final, List.foldl_append]

@[simp] theorem final_snoc (s : σ) (is : List ι) (i : ι) : M.final s (is ++ [i]) = (M.step (M.final s is) i).1 := by
  simp [final, List.foldl_append]

theorem history_append (s : σ) (is js : List ι) :
    M.history s (is ++ js) = M.history s is ++ M.history (M.final s is) js := by
  induction is generalizing s with
  | nil => rfl
  | cons i is ih =>
    rw [List.cons_append, history, history, ih, List.cons_append]
    rfl

@[simp] theorem history_snoc (s : σ) (is : List ι) (i : ι) :
    M.history s (is ++ [i]) = M.history s is ++ [(i, (M.step (M.final s is) i).2)] := by
  rw [history_append]
  rfl

theorem history_prefix (s : σ) {is js : List ι} (h : is <+: js) : M.history s is <+: M.history s js := by
  obtain ⟨rest, rfl⟩ := h
  rw [history_append]
  exact List.prefix_append _ _

theorem final_invariant {I : σ → Prop} (hStep : ∀ s i, I s → I (M.step s i).1) {s : σ} (hInit : I s) (is : List ι) :
    I (M.final s is) := by
  induction is generalizing s with
  | nil => exact hInit
  | cons i is ih => exact ih (hStep s i hInit)

theorem simulation_along (N : Machine τ ι ο) {R : σ → τ → Prop}
    {G : List (ι × ο) → Prop} {s : σ} {t : τ} (hInit : R s t)
    (hAnswer : ∀ s t i, R s t → (M.step s i).2 = (N.step t i).2)
    (hStep : ∀ is i, R (M.final s is) (N.final t is) → G (N.history t (is ++ [i])) →
      R (M.final s (is ++ [i])) (N.final t (is ++ [i])))
    (is : List ι) (hGuard : ∀ pre, pre <+: is → G (M.history s pre)) :
    M.history s is = N.history t is ∧ R (M.final s is) (N.final t is) := by
  induction is using List.reverseRecOn with
  | nil => exact ⟨rfl, hInit⟩
  | append_singleton is i ih =>
    obtain ⟨hHistory, hRel⟩ := ih fun pre hPre => hGuard pre (hPre.trans (List.prefix_append is [i]))
    have hSnoc : M.history s (is ++ [i]) = N.history t (is ++ [i]) := by
      rw [history_snoc, history_snoc, hHistory, hAnswer _ _ i hRel]
    refine ⟨hSnoc, hStep is i hRel ?_⟩
    rw [← hSnoc]
    exact hGuard (is ++ [i]) (List.prefix_refl _)

end Machine

end Transition

/-! # Systems given by a function

A function that gives the next state, where there is one, makes a system. Whether a list of labels is a run that meets a
condition can then be computed.
-/

namespace Transition

universe u v

variable {σ : Type u} {ℓ : Type v}

def stepping (step : σ → ℓ → Option σ) : System σ ℓ := ⟨fun s l t => step s l = some t⟩

def after (step : σ → ℓ → Option σ) (s : σ) (l : ℓ) : σ := (step s l).getD s

/-- Every label has a next state, and passes a check in the state that it finds. -/
def passes (step : σ → ℓ → Option σ) (check : σ → ℓ → Bool) : σ → List ℓ → Bool
  | _, [] => true
  | s, l :: rest => (step s l).isSome && check s l && passes step check (after step s l) rest

theorem run_of_passes {step : σ → ℓ → Option σ} {allowed : σ → ℓ → Prop} {check : σ → ℓ → Bool}
    (hCheck : ∀ s l, check s l → allowed s l) {s : σ} {ls : List ℓ} (hPasses : passes step check s ls) :
    Run ((stepping step).restrict allowed) s ls (ls.foldl (after step) s) := by
  induction ls generalizing s with
  | nil => exact .nil s
  | cons l rest ih =>
    simp only [passes, Bool.and_eq_true] at hPasses
    obtain ⟨⟨hSome, hAllowed⟩, hRest⟩ := hPasses
    obtain ⟨t, hStep⟩ := Option.isSome_iff_exists.mp hSome
    have hAfter : after step s l = t := by rw [after, hStep, Option.getD_some]
    have hFirst : Run ((stepping step).restrict allowed) s [l] (after step s l) :=
      .single ⟨hCheck s l hAllowed, hAfter ▸ hStep⟩
    exact hFirst.append (ih hRest)

theorem run_of_steps {step : σ → ℓ → Option σ} {s : σ} {ls : List ℓ}
    (hSteps : passes step (fun _ _ => true) s ls) : Run (stepping step) s ls (ls.foldl (after step) s) := by
  have hRun : Run ((stepping step).restrict fun _ _ => True) s ls (ls.foldl (after step) s) :=
    run_of_passes (fun _ _ _ => trivial) hSteps
  exact hRun.of_restrict

end Transition
