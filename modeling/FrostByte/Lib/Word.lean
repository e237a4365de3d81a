import Mathlib.Data.Nat.Bitwise

/-!
# 32-bit machine words as natural numbers

A C `uint32_t` is a natural number below `2 ^ 32`; an operation that may overflow is the exact
operation on `ℕ` followed by `w32`. Clearing low bits with a mask (`x & ~(2 ^ k - 1)`) is
rounding down to a multiple of `2 ^ k`.

## Main definitions

* `w32`, `sub32`, `int32` — words, their difference, and their value as `int`.
* `alignDown`, `alignUp` — rounding to pages.

## Main results

* `sub32_of_le` — a difference that does not wrap.
-/

namespace Word

/-- A number cut to 32 bits. -/
def w32 (n : ℕ) : ℕ := n % 0x100000000

/-- A number cut to 16 bits. -/
def w16 (n : ℕ) : ℕ := n % 0x10000

/-- Wrapping subtraction of 32-bit words. -/
def sub32 (a b : ℕ) : ℕ := w32 (a + 0x100000000 - b)

/-- The value of a 32-bit word that is cast to `int`. -/
def int32 (n : ℕ) : ℤ := (BitVec.ofNat 32 n).toInt

/-- `x & ~(a - 1)`: the multiple of `a` at or below `x`. -/
def alignDown (a x : ℕ) : ℕ := x / a * a

/-- `(x + a - 1) & ~(a - 1)` in 32 bits. -/
def alignUp (a x : ℕ) : ℕ := alignDown a (w32 (x + (a - 1)))

lemma w32_lt (n : ℕ) : w32 n < 0x100000000 := Nat.mod_lt _ (by decide)

lemma w32_of_lt {n : ℕ} (h : n < 0x100000000) : w32 n = n := Nat.mod_eq_of_lt h

lemma w16_of_lt {n : ℕ} (h : n < 0x10000) : w16 n = n := Nat.mod_eq_of_lt h

/-- A difference that is not negative does not wrap. -/
lemma sub32_of_le {a b : ℕ} (h : b ≤ a) (ha : a < 0x100000000) : sub32 a b = a - b := by
  unfold sub32 w32
  omega

lemma int32_of_lt {n : ℕ} (h : n < 0x80000000) : int32 n = n := by
  rw [int32, BitVec.toInt_eq_toNat_cond, BitVec.toNat_ofNat, Nat.mod_eq_of_lt (by omega),
    if_pos (by omega)]

lemma alignDown_page (x : ℕ) : alignDown 4096 x = x / 4096 * 4096 := rfl

lemma alignUp_of_le {x : ℕ} (h : x ≤ 0xFFFFF000) : alignUp 4096 x = (x + 4095) / 4096 * 4096 := by
  unfold alignUp alignDown
  rw [w32_of_lt (by omega)]

lemma alignUp_eq_zero {x : ℕ} (h : 0xFFFFF000 < x) (hx : x < 0x100000000) : alignUp 4096 x = 0 := by
  unfold alignUp alignDown w32
  omega

end Word
