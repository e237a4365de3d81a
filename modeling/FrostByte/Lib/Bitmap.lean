import Mathlib.Data.List.Basic
import Mathlib.Tactic.Common

/-!
# Bit arrays packed into bytes

A set of natural numbers kept as an array of bytes, number `i` as bit `i % 8` of byte `i / 8`.
The operations are the masks of a C implementation; the results say that they act on the set one
element at a time.

## Main definitions

* `Bitmap` — the set as bytes.
* `Bitmap.set`, `Bitmap.clear` — the masks of C.

## Main results

* `Bitmap.test_set`, `Bitmap.test_clear` — they act on one element.
-/

/-- An array of bytes read as an array of bits. -/
structure Bitmap where
  bytes : ℕ → BitVec 8

namespace Bitmap

/-- `bytes[i / 8] & (1 << (i % 8))`, as a truth value. -/
def test (b : Bitmap) (i : ℕ) : Bool := b.bytes (i / 8) &&& 1#8 <<< (i % 8) != 0#8

/-- `bytes[i / 8] |= 1 << (i % 8)`. -/
def set (b : Bitmap) (i : ℕ) : Bitmap :=
  ⟨Function.update b.bytes (i / 8) (b.bytes (i / 8) ||| 1#8 <<< (i % 8))⟩

/-- `bytes[i / 8] &= ~(1 << (i % 8))`. -/
def clear (b : Bitmap) (i : ℕ) : Bitmap :=
  ⟨Function.update b.bytes (i / 8) (b.bytes (i / 8) &&& ~~~(1#8 <<< (i % 8)))⟩

/-- `memset(bytes, 0xFF, sizeof(bytes))`. -/
def full : Bitmap := ⟨fun _ => 0xFF#8⟩

lemma getLsbD_mask {k j : ℕ} (hj : j < 8) : (1#8 <<< k).getLsbD j = decide (j = k) := by
  grind

lemma test_eq (b : Bitmap) (i : ℕ) : b.test i = (b.bytes (i / 8)).getLsbD (i % 8) := by
  have hi : i % 8 < 8 := Nat.mod_lt _ (by decide)
  rw [test, Bool.eq_iff_iff, bne_iff_ne]
  constructor
  · intro hne
    by_contra hbit
    refine hne (BitVec.eq_of_getLsbD_eq fun j hj => ?_)
    grind
  · intro hbit heq
    have := congrArg (fun x => x.getLsbD (i % 8)) heq
    simp only [BitVec.getLsbD_and, getLsbD_mask hi, hbit] at this
    simp at this

/-- Setting an element adds it and no other. -/
@[simp] lemma test_set (b : Bitmap) (i j : ℕ) :
    (b.set i).test j = (decide (j = i) || b.test j) := by
  have hj : j % 8 < 8 := Nat.mod_lt _ (by decide)
  rw [test_eq, test_eq, set]
  by_cases hd : j / 8 = i / 8
  · have : j = i ↔ j % 8 = i % 8 := by omega
    simp only [hd, Function.update_self, BitVec.getLsbD_or, getLsbD_mask hj, this]
    exact Bool.or_comm _ _
  · have : j ≠ i := fun h => hd (by rw [h])
    simp [Function.update_of_ne hd, this]

/-- Clearing an element removes it and no other. -/
@[simp] lemma test_clear (b : Bitmap) (i j : ℕ) :
    (b.clear i).test j = (!decide (j = i) && b.test j) := by
  have hj : j % 8 < 8 := Nat.mod_lt _ (by decide)
  rw [test_eq, test_eq, clear]
  by_cases hd : j / 8 = i / 8
  · have : j = i ↔ j % 8 = i % 8 := by omega
    simp only [hd, Function.update_self, BitVec.getLsbD_and, BitVec.getLsbD_not,
      getLsbD_mask hj, hj, decide_true, this]
    exact Bool.and_comm _ _
  · have : j ≠ i := fun h => hd (by rw [h])
    simp [Function.update_of_ne hd, this]

@[simp] lemma test_full (i : ℕ) : full.test i = true := by
  have hi : i % 8 < 8 := Nat.mod_lt _ (by decide)
  have hall : ∀ k : Fin 8, (0xFF#8).getLsbD k = true := by decide
  rw [test_eq]
  exact hall ⟨i % 8, hi⟩

end Bitmap
