import Mathlib.Data.List.Induction
import Mathlib.Data.List.OfFn

/-!
# Stored passwords

`crypt_simple` combines a password with a mask by exclusive or and formats the result as hexadecimal
digits, in two static buffers. Both loops stop after 127 characters, but the terminating zero is
stored at twice the length of the password.

## Main definitions

* `cryptSimple` — the stores that `crypt_simple` makes, in order.
* `ChecksPassword` — no store is outside, and the check accepts the password alone.

## Main results

* `verifyPassword_iff` — what the check accepts.
* `checksPassword_iff` — this holds exactly up to 127 characters.
* `crypt_stores_outside` — a store behind a buffer.
-/

namespace FrostByte.Crypt

/-- The two static buffers. -/
inductive Static
  | buf
  | hex
  deriving DecidableEq

/-- Their sizes. -/
def Static.size : Static → ℕ
  | .buf => 128
  | .hex => 256

/-- A byte stored in one of them. -/
structure Store where
  array : Static
  index : ℕ
  value : UInt8

/-- The bytes from the start of each buffer on. -/
abbrev Memory := Static → ℕ → UInt8

namespace Memory

/-- The buffers after a store. -/
def store (m : Memory) (w : Store) : Memory := fun a i =>
  if a = w.array ∧ i = w.index then w.value else m a i

/-- The buffers after some stores. -/
def stores (m : Memory) (ws : List Store) : Memory := ws.foldl store m

end Memory

/-- A digit of `%02x`. -/
def hexDigit (n : ℕ) : UInt8 := UInt8.ofNat (if n < 10 then 48 + n else 87 + n)

/-- The loop that combines the password with a mask. -/
def xorStores (key : List UInt8) (n : ℕ) : List Store :=
  (List.range n).map fun i => ⟨.buf, i, key.getD i 0 ^^^ UInt8.ofNat (i * 7 + 13)⟩

/-- The stores of `snprintf(hex + i * 2, 3, "%02x", v)`. -/
def formatStores (i : ℕ) (v : UInt8) : List Store :=
  [⟨.hex, i * 2, hexDigit (v.toNat / 16)⟩, ⟨.hex, i * 2 + 1, hexDigit (v.toNat % 16)⟩,
    ⟨.hex, i * 2 + 2, 0⟩]

/-- The loop that formats what is in the first buffer. -/
def hexStores (m : Memory) (n : ℕ) : List Store :=
  (List.range n).flatMap fun i => formatStores i (m .buf i)

/-- The stores of `crypt_simple`. The result is the string in `hex`, or empty for the empty
password. -/
def cryptSimple (key : List UInt8) (m : Memory) : List Store :=
  if key = [] then []
  else
    let n := min key.length 127
    let xors := xorStores key n
    xors ++ hexStores (m.stores xors) n ++ [⟨.hex, key.length * 2, 0⟩]

/-- The string in `hex`. -/
def hexString (m : Memory) : List UInt8 :=
  ((List.range (Static.size .hex)).map (m .hex)).takeWhile (· ≠ 0)

/-- `verify_password`: an account without a password is open. -/
def verifyPassword (input stored : List UInt8) (m : Memory) : Bool :=
  if stored = [] then true
  else
    let encrypted := if input = [] then [] else hexString (m.stores (cryptSimple input m))
    decide (encrypted = stored)

/-- No store is outside of its buffer. -/
def Inside (ws : List Store) : Prop := ∀ w ∈ ws, w.index < w.array.size

/-- `p` is stored and `q` tried later, with any contents of the buffers before. -/
def ChecksPassword (p q : List UInt8) : Prop :=
  ∀ m m' : Memory, Inside (cryptSimple p m) ∧ Inside (cryptSimple q m') ∧
    (verifyPassword q (hexString (m.stores (cryptSimple p m))) m' = true ↔ q = p)

/-! ## The contents of the buffers -/

lemma stores_append (m : Memory) (ws ws' : List Store) :
    m.stores (ws ++ ws') = (m.stores ws).stores ws' := List.foldl_append

lemma stores_singleton (m : Memory) (w : Store) : m.stores [w] = m.store w := rfl

variable {key : List UInt8} {n : ℕ}

lemma buf_xorStores (key : List UInt8) (m : Memory) {i : ℕ} (hi : i < n) :
    m.stores (xorStores key n) .buf i = key.getD i 0 ^^^ UInt8.ofNat (i * 7 + 13) := by
  induction n with
  | zero => omega
  | succ n ih =>
    rw [xorStores, List.range_succ, List.map_append, stores_append]
    simp only [List.map_cons, List.map_nil, stores_singleton, Memory.store]
    by_cases h : i = n
    · simp [h]
    · simp only [h, and_false, if_false]
      exact ih (by omega)

/-- The digit at the index `j` of the text for a password. -/
def digit (key : List UInt8) (j : ℕ) : UInt8 :=
  let v := (key.getD (j / 2) 0 ^^^ UInt8.ofNat (j / 2 * 7 + 13)).toNat
  hexDigit (if j % 2 = 0 then v / 16 else v % 16)

/-- The second buffer after the second loop: digits and a zero. -/
lemma hex_hexStores (key : List UInt8) (m m' : Memory)
    (hm : ∀ i < n, m .buf i = key.getD i 0 ^^^ UInt8.ofNat (i * 7 + 13)) :
    (∀ j < n * 2, m'.stores (hexStores m n) .hex j = digit key j) ∧
      (0 < n → m'.stores (hexStores m n) .hex (n * 2) = 0) := by
  induction n with
  | zero => exact ⟨fun j hj => by omega, fun h => by omega⟩
  | succ n ih =>
    obtain ⟨hdigits, -⟩ := ih fun i hi => hm i (by omega)
    rw [hexStores, List.range_succ, List.flatMap_append, List.flatMap_singleton, stores_append,
      ← hexStores, hm n (by omega)]
    have hlast : ∀ j, (m'.stores (hexStores m n)).stores (formatStores n
        (key.getD n 0 ^^^ UInt8.ofNat (n * 7 + 13))) .hex j = if j = n * 2 + 2 then 0
        else if j / 2 = n then digit key j else m'.stores (hexStores m n) .hex j := by
      intro j
      simp only [Memory.stores, formatStores, List.foldl_cons, List.foldl_nil, Memory.store, digit]
      grind
    refine ⟨fun j hj => ?_, fun _ => ?_⟩
    · rw [hlast, if_neg (by omega)]
      split_ifs with h
      · rfl
      · exact hdigits j (by omega)
    · rw [hlast, if_pos (by omega)]

/-- **The contents of `hex`** for a password that is not too long. -/
lemma hex_cryptSimple (hkey : key ≠ []) (hlen : key.length ≤ 127) (m : Memory) :
    (∀ j < key.length * 2, m.stores (cryptSimple key m) .hex j = digit key j) ∧
      m.stores (cryptSimple key m) .hex (key.length * 2) = 0 := by
  obtain ⟨hdigits, -⟩ := hex_hexStores key (m.stores (xorStores key key.length))
    (m.stores (xorStores key key.length)) fun i hi => buf_xorStores key m hi
  rw [cryptSimple, if_neg hkey, Nat.min_eq_left hlen, stores_append, stores_append,
    stores_singleton]
  refine ⟨fun j hj => ?_, if_pos ⟨rfl, rfl⟩⟩
  rw [Memory.store, if_neg (by simp; omega)]
  exact hdigits j hj

/-! ## The digits -/

lemma hexDigit_ne_zero (hn : n < 16) : hexDigit n ≠ 0 := by
  revert n
  decide

lemma hexDigit_inj : ∀ m < 16, ∀ n < 16, hexDigit m = hexDigit n → m = n := by decide

lemma digit_ne_zero (key : List UInt8) (j : ℕ) : digit key j ≠ 0 := by
  refine hexDigit_ne_zero ?_
  have := (key.getD (j / 2) 0 ^^^ UInt8.ofNat (j / 2 * 7 + 13)).toNat_lt
  split_ifs
  · omega
  · omega

/-- Two digits determine the character. -/
lemma getD_of_digit {p q : List UInt8} {i : ℕ} (h0 : digit q (i * 2) = digit p (i * 2))
    (h1 : digit q (i * 2 + 1) = digit p (i * 2 + 1)) : q.getD i 0 = p.getD i 0 := by
  simp only [digit] at h0 h1
  have e0 : i * 2 / 2 = i := by omega
  have e1 : (i * 2 + 1) / 2 = i := by omega
  rw [e0, if_pos (by omega), if_pos (by omega)] at h0
  rw [e1, if_neg (by omega), if_neg (by omega)] at h1
  have hp := (p.getD i 0 ^^^ UInt8.ofNat (i * 7 + 13)).toNat_lt
  have hq := (q.getD i 0 ^^^ UInt8.ofNat (i * 7 + 13)).toNat_lt
  have hhigh := hexDigit_inj _ (by omega) _ (by omega) h0
  have hlow := hexDigit_inj _ (by omega) _ (by omega) h1
  have hsame : q.getD i 0 ^^^ UInt8.ofNat (i * 7 + 13) = p.getD i 0 ^^^ UInt8.ofNat (i * 7 + 13) :=
    UInt8.toNat_inj.mp (by omega)
  have := congrArg (· ^^^ UInt8.ofNat (i * 7 + 13)) hsame
  simpa [UInt8.xor_assoc] using this

lemma hexString_cryptSimple (hkey : key ≠ []) (hlen : key.length ≤ 127) (m : Memory) :
    hexString (m.stores (cryptSimple key m)) = (List.range (key.length * 2)).map (digit key) := by
  obtain ⟨hdigits, hzero⟩ := hex_cryptSimple hkey hlen m
  obtain ⟨k, hk⟩ : ∃ k, Static.size .hex = key.length * 2 + (k + 1) :=
    ⟨255 - key.length * 2, by simp only [Static.size]; omega⟩
  have hfront : (List.range (key.length * 2)).map (m.stores (cryptSimple key m) .hex) =
      (List.range (key.length * 2)).map (digit key) :=
    List.map_congr_left fun j hj => hdigits j (List.mem_range.mp hj)
  rw [hexString, hk, List.range_add, List.map_append, hfront, List.takeWhile_append_of_pos,
    List.range_succ_eq_map]
  · simp [hzero]
  · simp [digit_ne_zero]

/-- The texts are the same for the same password only. -/
lemma verifyPassword_iff {p q : List UInt8} (hp : p ≠ []) (hlen : p.length ≤ 127)
    (hq : q.length ≤ 127)
    (m m' : Memory) : verifyPassword q (hexString (m.stores (cryptSimple p m))) m' = true ↔
    q = p := by
  have hpos := List.length_pos_iff.mpr hp
  have hne : (List.range (p.length * 2)).map (digit p) ≠ [] := by
    rw [Ne, List.map_eq_nil_iff, List.range_eq_nil]
    omega
  rw [hexString_cryptSimple hp hlen, verifyPassword, if_neg hne]
  by_cases hempty : q = []
  · simp [hempty, hp.symm, hne.symm]
  simp only [if_neg hempty, hexString_cryptSimple hempty hq, decide_eq_true_eq]
  refine ⟨fun h => ?_, fun h => by rw [h]⟩
  have hlens : q.length = p.length := by
    have := congrArg List.length h
    simp only [List.length_map, List.length_range] at this
    omega
  have hall : ∀ j < p.length * 2, digit q j = digit p j := by
    rw [hlens, List.map_inj_left] at h
    exact fun j hj => h j (List.mem_range.mpr hj)
  refine List.ext_getElem hlens fun i hi hi' => ?_
  have := getD_of_digit (hall (i * 2) (by omega)) (hall (i * 2 + 1) (by omega))
  simpa [List.getD_eq_getElem?_getD, hi, hi'] using this

/-- The stores are inside exactly for a password that is not too long. -/
lemma inside_iff (m : Memory) : Inside (cryptSimple key m) ↔ key.length ≤ 127 := by
  unfold cryptSimple
  split_ifs with hkey
  · simp [Inside, hkey]
  constructor
  · intro h
    have := h ⟨.hex, key.length * 2, 0⟩ (by simp)
    simp only [Static.size] at this
    omega
  · intro hlen w hw
    simp only [xorStores, hexStores, formatStores, List.mem_append, List.mem_map, List.mem_range,
      List.mem_flatMap, List.mem_cons, List.not_mem_nil, or_false] at hw
    rcases hw with (⟨i, hi, rfl⟩ | ⟨i, hi, rfl | rfl | rfl⟩) | rfl
    all_goals simp only [Static.size]; omega

/-- **Checking passwords** is right exactly up to 127 characters. -/
theorem checksPassword_iff {p : List UInt8} (hp : p ≠ []) (q : List UInt8) :
    ChecksPassword p q ↔ p.length ≤ 127 ∧ q.length ≤ 127 := by
  constructor
  · intro h
    obtain ⟨hp, hq, -⟩ := h (fun _ _ => 0) fun _ _ => 0
    exact ⟨(inside_iff _).mp hp, (inside_iff _).mp hq⟩
  · rintro ⟨hlen, hlen'⟩ m m'
    exact ⟨(inside_iff m).mpr hlen, (inside_iff m').mpr hlen',
      verifyPassword_iff hp hlen hlen' m m'⟩

/-- A password of one character and another one. -/
theorem checksPassword_a : ([97] : List UInt8) ≠ [] ∧ ChecksPassword [97] [98] :=
  ⟨by decide, (checksPassword_iff (by decide) _).mpr ⟨by decide, by decide⟩⟩

/-- For 128 characters a zero is stored behind the buffer. -/
theorem crypt_stores_outside : ¬ ChecksPassword (List.replicate 128 97) [] := by
  intro h
  obtain ⟨hinside, -⟩ := h (fun _ _ => 0) fun _ _ => 0
  rw [inside_iff, List.length_replicate] at hinside
  omega

end FrostByte.Crypt
