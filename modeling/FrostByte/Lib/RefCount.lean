import Mathlib.Algebra.BigOperators.Group.Finset.Piecewise

/-!
# Counting references

A table sends each key to what it refers to. The number of keys that refer to a value is the count
that a reference counter has to follow: redirecting one key takes one from the old value and gives
one to the new.

## Main definitions

* `uses` — the number of keys that refer to a value.

## Main results

* `uses_update` — redirecting one key.
-/

namespace RefCount

variable {K S : Type*} [DecidableEq S] {keys : Finset K} {T : K → S} {k : K}

/-- The number of keys that refer to `s`. -/
def uses (keys : Finset K) (T : K → S) (s : S) : ℕ := (keys.filter fun k => T k = s).card

/-- Redirecting one key takes one from the old value and gives one to the new, stated without
subtraction. -/
lemma uses_update [DecidableEq K] (hk : k ∈ keys) (x s : S) :
    uses keys (Function.update T k x) s + (if T k = s then 1 else 0) =
      uses keys T s + (if x = s then 1 else 0) := by
  have hrest : ∑ j ∈ keys.erase k, (if Function.update T k x j = s then 1 else 0) =
      ∑ j ∈ keys.erase k, (if T j = s then 1 else 0) := by
    apply Finset.sum_congr rfl
    intro j hj
    rw [Function.update_of_ne (Finset.ne_of_mem_erase hj)]
  rw [uses, uses, Finset.card_filter, Finset.card_filter, ← Finset.add_sum_erase _ _ hk,
    ← Finset.add_sum_erase _ (fun j => if T j = s then 1 else 0) hk, Function.update_self]
  omega

lemma uses_congr {T' : K → S} (h : ∀ k ∈ keys, T' k = T k) (s : S) :
    uses keys T' s = uses keys T s := by
  unfold uses
  congr 1
  apply Finset.filter_congr
  intro k hk
  rw [h k hk]

lemma uses_pos_iff (s : S) : 0 < uses keys T s ↔ ∃ k ∈ keys, T k = s := by
  rw [uses, Finset.card_pos, Finset.filter_nonempty_iff]

lemma uses_eq_zero_iff (s : S) : uses keys T s = 0 ↔ ∀ k ∈ keys, T k ≠ s := by
  simp [uses]

end RefCount
