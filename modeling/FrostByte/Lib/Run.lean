import Mathlib.Tactic.Common

/-!
# Runs of a guarded transition system

A system has initial states, actions, a guard saying when an action may be taken, and a step
relation. `Reach` collects the states at the end of every finite run.

## Main definitions

* `System`, `System.Reach` — a transition system and its reachable states.

## Main results

* `System.Reach.invariant` — the invariant rule.
* `System.Reach.mono` — weaker guards have more runs.
* `System.Reach.foldl` — a list of actions that can be taken is a run.
-/

/-- A guarded transition system with states `S` and actions `A`. -/
structure System (S A : Type*) where
  /-- The states a run may start from. -/
  init : S → Prop
  /-- When an action may be taken. -/
  guard : S → A → Prop
  /-- What an action does. -/
  step : S → A → S → Prop

namespace System

variable {S A : Type*}

/-- The states at the end of a finite run. -/
inductive Reach (M : System S A) : S → Prop
  | init {s : S} : M.init s → Reach M s
  | step {s s' : S} {a : A} : Reach M s → M.guard s a → M.step s a s' → Reach M s'

/-- **Invariant rule**: what holds initially and is kept by every step holds in every reachable
state. -/
theorem Reach.invariant {M : System S A} {I : S → Prop} (h0 : ∀ s, M.init s → I s)
    (hs : ∀ s a s', I s → M.guard s a → M.step s a s' → I s') {s : S} (h : M.Reach s) : I s := by
  induction h with
  | init hi => exact h0 _ hi
  | step _ hg hst ih => exact hs _ _ _ ih hg hst

/-- Weakening the guard keeps every run. -/
theorem Reach.mono {M : System S A} {g : S → A → Prop} (hg : ∀ s a, M.guard s a → g s a) {s : S}
    (h : M.Reach s) : ({ M with guard := g } : System S A).Reach s := by
  induction h with
  | init hi => exact .init hi
  | step _ hg' hst ih => exact .step ih (hg _ _ hg') hst

/-- The actions may be taken one after the other, where `a` leads from `s` to `f s a`. -/
def runnable (M : System S A) [∀ s a, Decidable (M.guard s a)] (f : S → A → S) : S → List A → Bool
  | _, [] => true
  | s, a :: as => decide (M.guard s a) && M.runnable f (f s a) as

/-- A list of actions whose guards hold one after the other is a run, by induction on the list. -/
theorem Reach.foldl {M : System S A} [∀ s a, Decidable (M.guard s a)] {f : S → A → S}
    (hf : ∀ s a, M.step s a (f s a)) {s : S} (h : M.Reach s) (as : List A)
    (has : M.runnable f s as = true) : M.Reach (as.foldl f s) := by
  induction as generalizing s with
  | nil => exact h
  | cons a as ih =>
    obtain ⟨ha, has⟩ := Bool.and_eq_true_iff.mp has
    exact ih (h.step (of_decide_eq_true ha) (hf s a)) has

end System
