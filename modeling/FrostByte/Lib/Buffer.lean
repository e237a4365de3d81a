import Mathlib.Data.Nat.Bitwise

/-!
# Byte buffers

A buffer, be it memory or a disk, is a function from addresses to bytes. Copying a range and storing
a little-endian word are the two ways to change one.

## Main definitions

* `Buffer` — memory or a disk, byte by byte.
* `Buffer.copy` — `memcpy` between two buffers.
* `Buffer.word`, `Buffer.setWord` — little-endian words.

## Main results

* `Buffer.copy_append` — two copies one after the other.
* `Buffer.copy_inj` — when a copy determines what was copied.
* `Buffer.word_setWord` — a word that was stored is read.
-/

/-- Bytes by their addresses. -/
abbrev Buffer := ℕ → UInt8

namespace Buffer

/-- `memcpy(dst + d, src + s, n)`. -/
def copy (dst : Buffer) (d : ℕ) (src : Buffer) (s n : ℕ) : Buffer :=
  fun i => if d ≤ i ∧ i < d + n then src (s + (i - d)) else dst i

/-- Four bytes, the lowest first. -/
def word (b : Buffer) (a : ℕ) : ℕ :=
  (b a).toNat + (b (a + 1)).toNat * 2 ^ 8 + (b (a + 2)).toNat * 2 ^ 16 +
    (b (a + 3)).toNat * 2 ^ 24

/-- Storing a 32-bit word at an address. -/
def setWord (b : Buffer) (a w : ℕ) : Buffer :=
  fun i => if a ≤ i ∧ i < a + 4 then UInt8.ofNat (w / 256 ^ (i - a)) else b i

/-- Two bytes, the lower first. -/
def half (b : Buffer) (a : ℕ) : ℕ := (b a).toNat + (b (a + 1)).toNat * 2 ^ 8

/-- Storing a 16-bit word at an address. -/
def setHalf (b : Buffer) (a w : ℕ) : Buffer :=
  fun i => if a ≤ i ∧ i < a + 2 then UInt8.ofNat (w / 256 ^ (i - a)) else b i

variable (dst src b : Buffer) {d s n i a w : ℕ}

lemma copy_of_mem (hd : d ≤ i) (hi : i < d + n) : dst.copy d src s n i = src (s + (i - d)) :=
  if_pos ⟨hd, hi⟩

lemma copy_of_notMem (h : ¬(d ≤ i ∧ i < d + n)) : dst.copy d src s n i = dst i := if_neg h

lemma copy_zero : dst.copy d src s 0 = dst := by
  funext i
  exact if_neg (by omega)

/-- A copy may be made in two parts. -/
lemma copy_append {m : ℕ} :
    (dst.copy d src s n).copy (d + n) src (s + n) m = dst.copy d src s (n + m) := by
  funext i
  unfold Buffer.copy
  by_cases h1 : d + n ≤ i ∧ i < d + n + m
  · rw [if_pos h1, if_pos (by omega)]
    exact congrArg src (by omega)
  · rw [if_neg h1]
    by_cases h2 : d ≤ i ∧ i < d + n
    · rw [if_pos h2, if_pos (by omega)]
    · rw [if_neg h2, if_neg (by omega)]

lemma copy_of_le {m : ℕ} (h : n ≤ m) :
    (dst.copy d src s n).copy d src s m = dst.copy d src s m := by
  funext i
  unfold Buffer.copy
  by_cases h1 : d ≤ i ∧ i < d + m
  · rw [if_pos h1, if_pos h1]
  · rw [if_neg h1, if_neg h1, if_neg (by omega)]

lemma copy_ones_inj {e t m : ℕ} (hm : 0 < m)
    (h : copy (fun _ => 0) d (fun _ => 1) s n = copy (fun _ => 0) e (fun _ => 1) t m) :
    d = e ∧ n = m := by
  have one_ne : (1 : UInt8) ≠ 0 := by decide
  have mem : ∀ i, (d ≤ i ∧ i < d + n) ↔ (e ≤ i ∧ i < e + m) := by
    intro i
    have hi := congrFun h i
    unfold Buffer.copy at hi
    by_cases h1 : d ≤ i ∧ i < d + n <;> by_cases h2 : e ≤ i ∧ i < e + m
    · exact ⟨fun _ => h2, fun _ => h1⟩
    · rw [if_pos h1, if_neg h2] at hi
      exact absurd hi one_ne
    · rw [if_neg h1, if_pos h2] at hi
      exact absurd hi.symm one_ne
    · exact ⟨h1.elim, h2.elim⟩
  -- the first and the last byte of each range are in the other one
  have h1 := (mem e).mpr ⟨le_rfl, by omega⟩
  have h2 := (mem (e + m - 1)).mpr ⟨by omega, by omega⟩
  have h3 := (mem d).mp ⟨le_rfl, by omega⟩
  have h4 := (mem (d + n - 1)).mp ⟨by omega, by omega⟩
  omega

/-- A single one among zeros. -/
def one (a : ℕ) : Buffer := fun i => if i = a then 1 else 0

lemma one_eq_one {i : ℕ} : one a i = 1 ↔ i = a := by
  unfold one
  split_ifs with h
  · exact ⟨fun _ => h, fun _ => rfl⟩
  · exact ⟨by simp, h.elim⟩

/-- A copy that does the same for all buffers is the same copy, seen on the buffer that is one at a
single address. -/
lemma copy_inj {e t m : ℕ} (hm : 0 < m)
    (h : ∀ dst src : Buffer, dst.copy d src s n = dst.copy e src t m) : d = e ∧ n = m ∧ s = t := by
  obtain ⟨rfl, rfl⟩ := copy_ones_inj hm (h _ _)
  refine ⟨rfl, rfl, ?_⟩
  -- a single one at the start of the second source is copied to the first byte
  have hd := congrFun (h (fun _ => 0) (one t)) d
  rw [copy_of_mem _ _ le_rfl (by omega), copy_of_mem _ _ le_rfl (by omega), Nat.sub_self,
    Nat.add_zero, Nat.add_zero, one_eq_one.mpr rfl] at hd
  exact one_eq_one.mp hd

lemma word_congr {b c : Buffer} {a e : ℕ} (h : ∀ k < 4, b (a + k) = c (e + k)) :
    b.word a = c.word e := by
  have h0 : b a = c e := h 0 (by decide)
  unfold word
  rw [h0, h 1 (by decide), h 2 (by decide), h 3 (by decide)]

lemma word_setWord_of_disjoint {e : ℕ} (h : e + 4 ≤ a ∨ a + 4 ≤ e) :
    (b.setWord a w).word e = b.word e := by
  refine word_congr fun k hk => if_neg ?_
  omega

/-- A word that was stored is read. -/
lemma word_setWord (hw : w < 2 ^ 32) : (b.setWord a w).word a = w := by
  have byte : ∀ k < 4, (b.setWord a w (a + k)).toNat = w / 256 ^ k % 256 := by
    intro k hk
    simp [setWord, if_pos (by omega)]
  have h0 := byte 0 (by decide)
  rw [Nat.add_zero] at h0
  unfold word
  rw [byte 1 (by decide), byte 2 (by decide), byte 3 (by decide)]
  omega

lemma half_congr {b c : Buffer} {a e : ℕ} (h : ∀ k < 2, b (a + k) = c (e + k)) :
    b.half a = c.half e := by
  have h0 : b a = c e := h 0 (by decide)
  unfold half
  rw [h0, h 1 (by decide)]

lemma half_lt : b.half a < 2 ^ 16 := by
  have h0 := (b a).toNat_lt
  have h1 := (b (a + 1)).toNat_lt
  unfold half
  omega

lemma word_lt : b.word a < 2 ^ 32 := by
  have h0 := (b a).toNat_lt
  have h1 := (b (a + 1)).toNat_lt
  have h2 := (b (a + 2)).toNat_lt
  have h3 := (b (a + 3)).toNat_lt
  unfold word
  omega

lemma half_setHalf_of_disjoint {e : ℕ} (h : e + 2 ≤ a ∨ a + 2 ≤ e) :
    (b.setHalf a w).half e = b.half e := by
  refine half_congr fun k hk => if_neg ?_
  omega

lemma half_setHalf (hw : w < 2 ^ 16) : (b.setHalf a w).half a = w := by
  have byte : ∀ k < 2, (b.setHalf a w (a + k)).toNat = w / 256 ^ k % 256 := by
    intro k hk
    rw [setHalf, if_pos (by omega), Nat.add_sub_cancel_left, UInt8.toNat_ofNat']
  have h0 := byte 0 (by decide)
  rw [Nat.add_zero] at h0
  unfold half
  rw [byte 1 (by decide)]
  omega

lemma setHalf_half : b.setHalf a (b.half a) = b := by
  funext i
  unfold setHalf
  split_ifs with h
  · apply UInt8.toNat_inj.mp
    rw [UInt8.toNat_ofNat', half]
    have h0 := (b a).toNat_lt
    obtain rfl | rfl : i = a ∨ i = a + 1 := by omega
    · rw [Nat.sub_self]
      omega
    · rw [Nat.add_sub_cancel_left]
      have h1 := (b (a + 1)).toNat_lt
      omega
  · rfl

lemma setWord_word : b.setWord a (b.word a) = b := by
  funext i
  unfold setWord
  split_ifs with h
  · apply UInt8.toNat_inj.mp
    rw [UInt8.toNat_ofNat', word]
    have h0 := (b a).toNat_lt
    have h1 := (b (a + 1)).toNat_lt
    have h2 := (b (a + 2)).toNat_lt
    have h3 := (b (a + 3)).toNat_lt
    obtain rfl | rfl | rfl | rfl : i = a ∨ i = a + 1 ∨ i = a + 2 ∨ i = a + 3 := by omega
    · rw [Nat.sub_self]
      omega
    · rw [Nat.add_sub_cancel_left]
      omega
    · rw [Nat.add_sub_cancel_left]
      omega
    · rw [Nat.add_sub_cancel_left]
      omega
  · rfl

end Buffer
