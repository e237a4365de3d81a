import FrostByte.Lib.Word
import Mathlib.Algebra.BigOperators.Intervals
import Mathlib.Algebra.Order.BigOperators.Group.Finset

/-!
# The calendar

`rtc_to_epoch_seconds` of `src/syscall.c` counts the seconds since 1970, and `localtime` of the user
library (`src/time.c`) makes a date of them again.

## Main definitions

* `rtcToEpochSeconds` — the seconds of a date, in the kernel.
* `localtime` — the date of some seconds, in the library.
* `RtcTime.Valid` — a date from 1970 on.

## Main results

* `localtime_rtcToEpochSeconds` — the two are inverse to each other until 2038.
-/

namespace FrostByte.Calendar

open Word

/-- `rtc_time_t`. -/
structure RtcTime where
  year : ℕ
  month : ℕ
  day : ℕ
  hour : ℕ
  minute : ℕ
  second : ℕ

/-- `struct tm`, with months and years as C counts them. -/
structure Tm where
  sec : ℕ
  min : ℕ
  hour : ℕ
  mday : ℕ
  mon : ℕ
  year : ℕ
  wday : ℕ
  yday : ℕ
  deriving DecidableEq

/-- `is_leap`, and `is_leap_year` of the library. -/
def isLeap (y : ℕ) : Bool := (y % 4 == 0 && y % 100 != 0) || y % 400 == 0

/-- The days of a year. -/
def yearLength (y : ℕ) : ℕ := if isLeap y then 366 else 365

/-- `mdays_norm`, the months of the kernel. -/
def mdaysNorm : List ℕ := [31, 28, 31, 30, 31, 30, 31, 31, 30, 31, 30, 31]

/-- The table of the library for leap years. -/
def daysInMonthLeap : List ℕ := [31, 29, 31, 30, 31, 30, 31, 31, 30, 31, 30, 31]

/-! ## The kernel -/

/-- The loop over the years from 1970 on, `n` of them. -/
def countYears : ℕ → ℕ
  | 0 => 0
  | n + 1 => countYears n + yearLength (1970 + n)

/-- The loop over the first `n` months. -/
def countMonths (leap : Bool) : ℕ → ℕ → ℕ
  | 0, days => days
  | n + 1, days =>
    let days := countMonths leap n days + mdaysNorm.getD n 0
    if n + 1 = 2 && leap then days + 1 else days

/-- `rtc_to_epoch_seconds`, of what `rtc_read` gives. -/
def rtcToEpochSeconds (t : RtcTime) : ℕ :=
  if t.year < 1970 ∨ t.month < 1 ∨ 12 < t.month ∨ t.day < 1 ∨ 31 < t.day then 0
  else
    let days := countMonths (isLeap t.year) (t.month - 1) (countYears (t.year - 1970)) + (t.day - 1)
    days * 86400 + t.hour * 3600 + t.minute * 60 + t.second

/-! ## The library -/

/-- The loop over the years: the year, and the days left in it. -/
def yearLoop (year days : ℕ) : ℕ × ℕ :=
  if yearLength year ≤ days then yearLoop (year + 1) (days - yearLength year) else (year, days)
termination_by days
decreasing_by
  have : 0 < yearLength year := by unfold yearLength; split_ifs <;> decide
  omega

/-- The loop over the months: the month, and the days left in it. -/
def monthLoop : List ℕ → ℕ → ℕ → ℕ × ℕ
  | [], month, days => (month, days)
  | len :: lens, month, days =>
    if len ≤ days then monthLoop lens (month + 1) (days - len) else (month, days)

/-- `localtime`, of a time since 1970. -/
def localtime (epoch : ℕ) : Tm :=
  let days := epoch / 60 / 60 / 24
  let year := yearLoop 1970 days
  let lengths := if isLeap year.1 then daysInMonthLeap else mdaysNorm
  let month := monthLoop lengths 0 year.2
  let month := if 12 ≤ month.1 then (11, lengths.getD 11 0 - 1) else month
  { sec := epoch % 60
    min := epoch / 60 % 60
    hour := epoch / 60 / 60 % 24
    mday := month.2 + 1
    mon := month.1
    year := year.1 - 1900
    wday := (days + 4) % 7
    yday := year.2 }

/-! ## Dates -/

/-- The days of a month, counted from 0. -/
def monthLength (y m : ℕ) : ℕ := if m = 1 ∧ isLeap y then 29 else mdaysNorm.getD m 0

/-- The date exists. -/
structure RtcTime.Valid (t : RtcTime) : Prop where
  year : 1970 ≤ t.year
  month : 1 ≤ t.month ∧ t.month ≤ 12
  day : 1 ≤ t.day ∧ t.day ≤ monthLength t.year (t.month - 1)
  time : t.hour < 24 ∧ t.minute < 60 ∧ t.second < 60

open Finset in
/-- The days of the year before a date. -/
def RtcTime.dayOfYear (t : RtcTime) : ℕ := ∑ m ∈ range (t.month - 1),
    monthLength t.year m + (t.day - 1)

open Finset in
/-- The weekday: the first of January 1970 was a Thursday. -/
def RtcTime.weekday (t : RtcTime) : ℕ := (∑ y ∈ Ico 1970 t.year, yearLength y + t.dayOfYear + 4) % 7

lemma countYears_eq (n : ℕ) : countYears n = ∑ y ∈ Finset.Ico 1970 (1970 + n), yearLength y := by
  induction n with
  | zero => rfl
  | succ n ih => rw [countYears, ih, ← Nat.add_assoc, Finset.sum_Ico_succ_top (by omega)]

lemma countMonths_eq (y n days : ℕ) :
    countMonths (isLeap y) n days = days + ∑ m ∈ Finset.range n, monthLength y m := by
  induction n with
  | zero => rfl
  | succ n ih =>
    have hlen : monthLength y n = mdaysNorm.getD n 0 + if n = 1 ∧ isLeap y then 1 else 0 := by
      unfold monthLength
      split_ifs with h
      · rw [h.1]
        rfl
      · rfl
    rw [countMonths, ih, Finset.sum_range_succ, hlen]
    by_cases h : n = 1 ∧ isLeap y
    · simp [h, Nat.add_assoc]
    · simp [h, Nat.add_assoc]

/-- The first of the years, or months, that a loop goes over. -/
lemma sum_first (f : ℕ → ℕ) (n a : ℕ) :
    ∑ j ∈ Finset.range (n + 1), f (a + j) = f a + ∑ j ∈ Finset.range n, f (a + 1 + j) := by
  rw [Finset.sum_range_succ', Nat.add_comm]
  simp only [Nat.add_zero, Nat.add_assoc, Nat.add_comm 1]

lemma yearLoop_sum (n a r : ℕ) (h : r < yearLength (a + n)) :
    yearLoop a (∑ j ∈ Finset.range n, yearLength (a + j) + r) = (a + n, r) := by
  induction n generalizing a with
  | zero =>
    rw [yearLoop, if_neg (by simpa using h)]
    simp
  | succ n ih =>
    have hnext : a + 1 + n = a + (n + 1) := by omega
    rw [sum_first, Nat.add_assoc, yearLoop, if_pos (Nat.le_add_right _ _), Nat.add_sub_cancel_left,
      ih (a + 1) (by rwa [hnext]), hnext]

lemma monthLoop_sum (f : ℕ → ℕ) (n k a r : ℕ) (hn : n < k) (h : r < f (a + n)) :
    monthLoop ((List.range' a k).map f) a (∑ j ∈ Finset.range n, f (a + j) + r) = (a + n, r) := by
  obtain ⟨k, rfl⟩ := Nat.exists_eq_add_one_of_ne_zero (Nat.ne_zero_of_lt hn)
  induction n generalizing a k with
  | zero =>
    rw [List.range'_succ, List.map_cons, monthLoop, if_neg (by simpa using h)]
    simp
  | succ n ih =>
    obtain ⟨k, rfl⟩ :=
      Nat.exists_eq_add_one_of_ne_zero (Nat.ne_zero_of_lt (Nat.lt_of_succ_lt_succ hn))
    have hnext : a + 1 + n = a + (n + 1) := by omega
    rw [sum_first, List.range'_succ, List.map_cons, monthLoop, Nat.add_assoc,
      if_pos (Nat.le_add_right _ _),
      Nat.add_sub_cancel_left, ih (a + 1) (by rwa [hnext]) k (Nat.lt_of_succ_lt_succ hn), hnext]

lemma monthLength_le (y m : ℕ) : monthLength y m ≤ 31 := by
  unfold monthLength
  split_ifs
  · decide
  · rcases Nat.lt_or_ge m 12 with h | h
    · exact (by decide : ∀ m < 12, mdaysNorm.getD m 0 ≤ 31) m h
    · rw [List.getD_eq_default _ _ h]
      decide

lemma lengths_eq (y : ℕ) :
    (if isLeap y then daysInMonthLeap else mdaysNorm) = (List.range' 0 12).map (monthLength y) := by
  cases h : isLeap y
  · simp [monthLength, h, List.range', mdaysNorm]
  · simp [monthLength, h, List.range', mdaysNorm, daysInMonthLeap]

lemma sum_monthLength (y : ℕ) : ∑ m ∈ Finset.range 12, monthLength y m = yearLength y := by
  cases h : isLeap y
  · simp [Finset.sum_range_succ, monthLength, yearLength, h, mdaysNorm]
  · simp [Finset.sum_range_succ, monthLength, yearLength, h, mdaysNorm]

lemma dayOfYear_lt {t : RtcTime} (h : t.Valid) : t.dayOfYear < yearLength t.year := by
  have hsub : Finset.range (t.month - 1 + 1) ⊆ Finset.range 12 := by
    rw [Finset.range_subset_range]
    have := h.month
    omega
  have hle := Finset.sum_le_sum_of_subset (f := monthLength t.year) hsub
  rw [sum_monthLength, Finset.sum_range_succ] at hle
  have := h.day
  unfold RtcTime.dayOfYear
  omega

/-- **The calendar**: the library gives back every date of the clock, with its day of the week and
of the year, while the seconds fit into 31 bits. The days before the date are a sum over years and
months, which the loops of both sides go through. -/
theorem localtime_rtcToEpochSeconds (t : RtcTime) (h : t.Valid)
    (hfits : rtcToEpochSeconds t < 2 ^ 31) :
    localtime (w32 (rtcToEpochSeconds t)) =
      ⟨t.second, t.minute, t.hour, t.day, t.month - 1, t.year - 1900, t.weekday, t.dayOfYear⟩ := by
  generalize hdays : ∑ y ∈ Finset.Ico 1970 t.year, yearLength y + t.dayOfYear = days
  obtain ⟨hyear, ⟨hm, hm'⟩, ⟨hd, hd'⟩, hhour, hminute, hsecond⟩ := id h
  have hsecs : rtcToEpochSeconds t = days * 86400 + t.hour * 3600 + t.minute * 60 + t.second := by
    have hshort := hd'.trans (monthLength_le t.year (t.month - 1))
    rw [rtcToEpochSeconds, if_neg (by omega), countMonths_eq, countYears_eq,
      Nat.add_sub_cancel' hyear, ← hdays,
      RtcTime.dayOfYear, ← Nat.add_assoc]
  have hyears : yearLoop 1970 days = (t.year, t.dayOfYear) := by
    have hsum := yearLoop_sum (t.year - 1970) 1970 t.dayOfYear
    rw [Nat.add_sub_cancel' hyear] at hsum
    rw [← hdays, Finset.sum_Ico_eq_sum_range]
    exact hsum (dayOfYear_lt h)
  have hmonth : monthLoop ((List.range' 0 12).map (monthLength t.year)) 0 t.dayOfYear =
    (t.month - 1, t.day - 1) := by
    have hsum := monthLoop_sum (monthLength t.year) (t.month - 1) 12 0 (t.day - 1) (by omega)
    simp only [Nat.zero_add] at hsum
    exact hsum (by omega)
  rw [hsecs] at hfits ⊢
  rw [w32_of_lt (by omega)]
  unfold localtime
  have hquot : (days * 86400 + t.hour * 3600 + t.minute * 60 + t.second) / 60 / 60 / 24 = days := by
    omega
  have hnot : ¬ 12 ≤ t.month - 1 := by omega
  simp only [hquot, hyears, lengths_eq, hmonth, if_neg hnot, Tm.mk.injEq, RtcTime.weekday, hdays,
    and_true]
  omega

/-- The 29th of February 2000, a Tuesday. -/
theorem localtime_leap_day : localtime (w32 (rtcToEpochSeconds ⟨2000, 2, 29, 12, 34, 56⟩)) =
    ⟨56, 34, 12, 29, 1, 100, 2, 59⟩ := by
  rw [localtime_rtcToEpochSeconds _ ⟨by decide, by decide, by decide, by decide⟩
    (by decide +kernel)]
  decide +kernel

end FrostByte.Calendar
