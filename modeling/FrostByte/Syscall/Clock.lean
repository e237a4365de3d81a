import FrostByte.Lib.Word
import Mathlib.Tactic.Ring

/-!
# The clock

`sys_clock_gettime` of `src/syscall.c` divides the ticks since the time base was set by the
frequency of the timer, with a binary long division of 64-bit words.

## Main definitions

* `udivmodU64U32` — the long division.
* `clockGettime` — `sys_clock_gettime`.

## Main results

* `udivmodU64U32_eq` — it gives the quotient and the remainder.
* `clockGettime_monotonic` — the monotonic clock is exact and never goes back.
-/

namespace FrostByte.Clock

open Word

/-- The round of the long division for bit `i`: quotient and remainder. -/
def divStep (n d i : ℕ) (s : ℕ × ℕ) : ℕ × ℕ :=
  let r := (s.2 <<< 1) % 2 ^ 64 ||| (n >>> i) &&& 1
  if d ≤ r then (s.1 ||| 1 <<< i, r - d) else (s.1, r)

/-- The rounds for the bits below `i`, the highest first. -/
def divLoop (n d : ℕ) : ℕ → ℕ × ℕ → ℕ × ℕ
  | 0, s => s
  | i + 1, s => divLoop n d i (divStep n d i s)

/-- `udivmod_u64_u32`: the quotient and `*rem`. -/
def udivmodU64U32 (n d : ℕ) : ℕ × ℕ :=
  let s := divLoop n d 64 (0, 0)
  (s.1, w32 s.2)

/-- `sec` and `nsec` of `sys_clock_gettime`, after some ticks. -/
def clockGettime (clockId bootEpoch hz ticks : ℕ) : ℕ × ℕ :=
  let hz := if hz = 0 then 100 else hz
  let s := udivmodU64U32 ticks hz
  let nsec := (udivmodU64U32 (s.2 * 1000000000 % 2 ^ 64) hz).1
  (if clockId = 0 then (s.1 + bootEpoch) % 2 ^ 64 else s.1, nsec)

/-- What `sys_clock_gettime` stores: `tv_sec` and `tv_nsec`. -/
def timespec (clockId bootEpoch hz ticks : ℕ) : ℕ × ℕ :=
  let s := clockGettime clockId bootEpoch hz ticks
  (w32 s.1, w32 s.2)

variable {n d hz : ℕ}

/-- **One round** of the division, for bit `i`. -/
lemma divStep_eq (hd : 0 < d) (hlt : d < 2 ^ 32) (i : ℕ) :
    divStep n d i ((n / 2 ^ (i + 1) / d) <<< (i + 1), n / 2 ^ (i + 1) % d) =
      ((n / 2 ^ i / d) <<< i, n / 2 ^ i % d) := by
  obtain ⟨m, hm⟩ : ∃ m, m = n / 2 ^ (i + 1) := ⟨_, rfl⟩
  obtain ⟨b, hb⟩ : ∃ b, b = n / 2 ^ i % 2 := ⟨_, rfl⟩
  have hn : n / 2 ^ i = 2 * m + b := by
    rw [hm, hb, pow_succ, ← Nat.div_div_eq_div_mul]
    omega
  have hb2 : b < 2 := hb ▸ Nat.mod_lt _ two_pos
  have hr := Nat.mod_lt m hd
  have hrem : (m % d) <<< 1 % 2 ^ 64 ||| (n >>> i) &&& 1 = 2 * (m % d) + b := by
    rw [Nat.shiftLeft_eq, Nat.mod_eq_of_lt (by omega), Nat.and_one_is_mod,
      Nat.shiftRight_eq_div_pow,
      ← hb, ← Nat.shiftLeft_eq, ← Nat.shiftLeft_add_eq_or_of_lt (by omega), Nat.shiftLeft_eq]
    omega
  have hdiv := Nat.div_add_mod m d
  unfold divStep
  rw [← hm, hn, hrem]
  dsimp only
  split_ifs with hle
  · -- the bit of the quotient is set
    obtain ⟨hq, hmod⟩ : (2 * m + b) / d = 2 * (m / d) + 1 ∧ (2 * m + b) % d = 2 * (m % d) + b - d :=
      (Nat.div_mod_unique hd).mpr ⟨by rw [mul_add, mul_left_comm]; omega, by omega⟩
    rw [hq, hmod, Nat.one_shiftLeft,
      ← Nat.shiftLeft_add_eq_or_of_lt (Nat.pow_lt_pow_succ one_lt_two)]
    simp only [Nat.shiftLeft_eq, pow_succ, Prod.mk.injEq, and_true]
    ring
  · obtain ⟨hq, hmod⟩ : (2 * m + b) / d = 2 * (m / d) ∧ (2 * m + b) % d = 2 * (m % d) + b :=
      (Nat.div_mod_unique hd).mpr ⟨by rw [mul_left_comm]; omega, by omega⟩
    rw [hq, hmod]
    simp only [Nat.shiftLeft_eq, pow_succ, Prod.mk.injEq, and_true]
    ring

lemma divLoop_eq (hd : 0 < d) (hlt : d < 2 ^ 32) (i : ℕ) :
    divLoop n d i ((n / 2 ^ i / d) <<< i, n / 2 ^ i % d) = (n / d, n % d) := by
  induction i with
  | zero => simp [divLoop]
  | succ i ih => rw [divLoop, divStep_eq hd hlt, ih]

/-- **The long division** of 64-bit words by 32-bit words. -/
lemma udivmodU64U32_eq (hn : n < 2 ^ 64) (hd : 0 < d) (hlt : d < 2 ^ 32) :
    udivmodU64U32 n d = (n / d, n % d) := by
  have hloop := divLoop_eq (n := n) hd hlt 64
  rw [Nat.div_eq_of_lt hn] at hloop
  have hmod := Nat.mod_lt n hd
  simp only [Nat.zero_div, Nat.zero_shiftLeft, Nat.zero_mod] at hloop
  simp [udivmodU64U32, hloop, w32_of_lt (hmod.trans hlt)]

lemma clockGettime_eq (hhz : 0 < hz) (hlt : hz < 2 ^ 32) {t : ℕ} (ht : t < 2 ^ 64) {clockId : ℕ}
    (hclock : clockId ≠ 0) (bootEpoch : ℕ) :
    clockGettime clockId bootEpoch hz t = (t / hz, t % hz * 1000000000 / hz) := by
  have hmod := Nat.mod_lt t hhz
  have hsmall : t % hz * 1000000000 < 2 ^ 64 := by omega
  simp only [clockGettime, hhz.ne', hclock, if_false, udivmodU64U32_eq ht hhz hlt,
    Nat.mod_eq_of_lt hsmall,
    udivmodU64U32_eq hsmall hhz hlt]

/-- **The monotonic clock** gives the exact quotient and the scaled remainder, and never goes back
while seconds fit in 32 bits. -/
theorem clockGettime_monotonic (hhz : 0 < hz) (hlt : hz < 2 ^ 32) {clockId : ℕ}
    (hclock : clockId ≠ 0) (bootEpoch : ℕ) {t t' : ℕ} (htt : t ≤ t') (ht : t' < 2 ^ 64) :
    clockGettime clockId bootEpoch hz t = (t / hz, t % hz * 1000000000 / hz) ∧
      t % hz * 1000000000 / hz < 1000000000 ∧ (t' / hz < 2 ^ 32 →
        timespec clockId bootEpoch hz t = clockGettime clockId bootEpoch hz t ∧
        ((timespec clockId bootEpoch hz t).1 < (timespec clockId bootEpoch hz t').1 ∨
          (timespec clockId bootEpoch hz t).1 = (timespec clockId bootEpoch hz t').1 ∧
          (timespec clockId bootEpoch hz t).2 ≤ (timespec clockId bootEpoch hz t').2)) := by
  have hnsec : ∀ u, u % hz * 1000000000 / hz < 1000000000 := fun u =>
    Nat.div_lt_of_lt_mul (Nat.mul_lt_mul_of_pos_right (Nat.mod_lt u hhz) (by decide))
  have hstored : ∀ u < 2 ^ 64, u / hz < 2 ^ 32 →
      timespec clockId bootEpoch hz u = (u / hz, u % hz * 1000000000 / hz) := by
    intro u hu hsec
    have hfit : u % hz * 1000000000 / hz < 0x100000000 := (hnsec u).trans (by decide)
    simp [timespec, clockGettime_eq hhz hlt hu hclock, w32_of_lt hsec, w32_of_lt hfit]
  refine ⟨clockGettime_eq hhz hlt (by omega) hclock bootEpoch, hnsec t, fun hsec => ?_⟩
  have hle : t / hz ≤ t' / hz := Nat.div_le_div_right htt
  rw [hstored t (by omega) (by omega), hstored t' ht hsec,
    clockGettime_eq hhz hlt (by omega) hclock]
  refine ⟨rfl, ?_⟩
  rcases Nat.lt_or_eq_of_le hle with hlt | heq
  · exact .inl hlt
  · -- in the same second the remainder grows
    refine .inr ⟨heq, Nat.div_le_div_right (Nat.mul_le_mul_right _ ?_)⟩
    have h1 := Nat.div_add_mod t hz
    have h2 := Nat.div_add_mod t' hz
    rw [heq] at h1
    omega

/-- 250 ticks of a timer with 100 Hz. -/
theorem clockGettime_hundred : clockGettime 1 0 100 250 = (2, 500000000) ∧
    timespec 1 0 100 250 = (2, 500000000) := by
  obtain ⟨h1, -, h3⟩ := clockGettime_monotonic (show 0 < 100 by decide) (by decide) one_ne_zero 0
    (show 250 ≤ 299 by decide) (by decide)
  exact ⟨h1, (h3 (by decide)).1.trans h1⟩

end FrostByte.Clock
