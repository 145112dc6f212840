/-
The proleptic Gregorian calendar on day numbers, 1970-01-01 being day 0.

A year begins after 365 days for each year before it and one for each leap day.  The year of
a day is the one it begins in or after (`yearOf_spec`): 146097 days make 400 years, so the
average year is never more than a year off.  The month is found in the year's table of months
(`monthOf_spec`), and what is left counts the days of the month.  Years and months begin in
order, so the bounds of either determine it (`yearOf_eq`, `monthNo_eq_iff`); months count from
the one the year 0 begins with, and running past a year's end is addition there.
-/
import Mathlib.Data.Int.Basic
import Mathlib.Data.List.Range
import Mathlib.Order.Bounds.Defs
import Mathlib.Order.Monotone.Basic

namespace Calendar

/-- The first day of a year. -/
def yearStart (y : ℤ) : ℤ := 365 * (y - 1970) + (y - 1969) / 4 - (y - 1901) / 100 + (y - 1601) / 400

def leap (y : ℤ) : Bool := y % 4 = 0 && (y % 100 ≠ 0 || y % 400 = 0)

/-- The days of a year before its month, months counting from 0. -/
def monthStart (leap : Bool) (month : ℕ) : ℤ :=
  let starts := [0, 31, 59, 90, 120, 151, 181, 212, 243, 273, 304, 334, 365]
  starts.getD month 0 + if leap && 2 ≤ month then 1 else 0

/-- The day of a date; a date past the end of its month runs on. -/
def dayOf (year : ℤ) (month : ℕ) (date : ℤ) : ℤ :=
  yearStart year + monthStart (leap year) month + (date - 1)

def yearOf (d : ℤ) : ℤ :=
  let y := 1970 + d * 400 / 146097
  if d < yearStart y then y - 1 else if yearStart (y + 1) ≤ d then y + 1 else y

def monthOf (d : ℤ) : ℕ :=
  let y := yearOf d
  ((List.range 12).find? fun m => d < yearStart y + monthStart (leap y) (m + 1)).getD 11

/-- The months before a day's, from the first of the year 0. -/
def monthNo (d : ℤ) : ℤ := 12 * yearOf d + monthOf d

/-- The first day of a month. -/
def monthBegin (n : ℤ) : ℤ := dayOf (n / 12) (n % 12).toNat 1

def dateOf (d : ℤ) : ℤ := d - yearStart (yearOf d) - monthStart (leap (yearOf d)) (monthOf d) + 1

theorem yearStart_succ (y : ℤ) : yearStart (y + 1) = yearStart y + monthStart (leap y) 12 := by
  have hmonths : monthStart (leap y) 12 = if leap y then 366 else 365 := by
    cases leap y <;> rfl
  rw [hmonths]
  simp only [yearStart, leap, ne_eq, Bool.and_eq_true, Bool.or_eq_true, decide_eq_true_eq]
  split <;> omega

theorem yearOf_spec (d : ℤ) : yearStart (yearOf d) ≤ d ∧ d < yearStart (yearOf d + 1) := by
  simp only [yearOf]
  split
  · refine ⟨?_, by simpa using ‹_›⟩
    simp only [yearStart]
    omega
  · split
    · refine ⟨‹_›, ?_⟩
      simp only [yearStart]
      omega
    · omega

/-- The month a day is in is the last one to begin by it. -/
theorem monthOf_spec (d : ℤ) : monthOf d < 12 ∧
    yearStart (yearOf d) + monthStart (leap (yearOf d)) (monthOf d) ≤ d ∧
    d < yearStart (yearOf d) + monthStart (leap (yearOf d)) (monthOf d + 1) := by
  obtain ⟨hlow, hhigh⟩ := yearOf_spec d
  cases hf : (List.range 12).find? fun m =>
      decide (d < yearStart (yearOf d) + monthStart (leap (yearOf d)) (m + 1)) with
  | none =>
      rw [yearStart_succ] at hhigh
      have hlast := List.find?_eq_none.mp hf 11 (by decide)
      simp only [decide_eq_true_eq] at hlast
      exact absurd hhigh hlast
  | some m =>
      have hm : monthOf d = m := by simp [monthOf, hf]
      obtain ⟨hd, hlt, hbefore⟩ := List.find?_range_eq_some.mp hf
      rw [hm]
      refine ⟨List.mem_range.mp hlt, ?_, of_decide_eq_true hd⟩
      cases m with
      | zero => cases h : leap (yearOf d) <;> simpa [monthStart, h] using hlow
      | succ j => simpa using hbefore j (Nat.lt_succ_self j)

theorem dayOf_parts (d : ℤ) : dayOf (yearOf d) (monthOf d) (dateOf d) = d := by
  simp only [dayOf, dateOf]
  omega

theorem month_days (l : Bool) : ∀ m < 12, monthStart l (m + 1) ≤ monthStart l m + 31 := by
  cases l <;> decide

theorem dateOf_bounds (d : ℤ) : 1 ≤ dateOf d ∧ dateOf d ≤ 31 := by
  obtain ⟨hm, hlow, hhigh⟩ := monthOf_spec d
  have hlong := month_days (leap (yearOf d)) _ hm
  simp only [dateOf]
  omega

theorem yearStart_lt_iff {y z : ℤ} : yearStart y < yearStart z ↔ y < z := by
  have hmono : StrictMono yearStart := strictMono_int_of_lt_succ fun y => by
    have hdays : 0 < monthStart (leap y) 12 := by cases leap y <;> decide
    rw [yearStart_succ]
    omega
  exact hmono.lt_iff_lt

theorem yearStart_le_iff {y z : ℤ} : yearStart y ≤ yearStart z ↔ y ≤ z := by
  rw [← not_lt, yearStart_lt_iff, not_lt]

/-- A day is in the one year that has begun by it and not ended. -/
theorem yearOf_eq {d y : ℤ} (hlow : yearStart y ≤ d) (hhigh : d < yearStart (y + 1)) :
    yearOf d = y := by
  obtain ⟨hbegun, hended⟩ := yearOf_spec d
  have hle := yearStart_lt_iff.mp (hbegun.trans_lt hhigh)
  have hge := yearStart_lt_iff.mp (hlow.trans_lt hended)
  omega

theorem monthStart_lt (l : Bool) : ∀ m' ≤ 12, ∀ m < m', monthStart l m < monthStart l m' := by
  cases l <;> decide

theorem monthStart_zero (l : Bool) : monthStart l 0 = 0 := by cases l <;> rfl

/-- A day is in the one month that has begun by it and not ended. -/
theorem monthOf_eq {d y : ℤ} {m : ℕ} (hm : m < 12) (hlow : yearStart y + monthStart (leap y) m ≤ d)
    (hhigh : d < yearStart y + monthStart (leap y) (m + 1)) : yearOf d = y ∧ monthOf d = m := by
  have hyear : yearOf d = y := by
    refine yearOf_eq ?_ ?_
    · rcases Nat.eq_zero_or_pos m with rfl | hpos
      · rwa [monthStart_zero, Int.add_zero] at hlow
      · have := monthStart_lt (leap y) m (by omega) 0 hpos
        rw [monthStart_zero] at this
        omega
    · rw [yearStart_succ]
      rcases Nat.lt_or_ge (m + 1) 12 with hlt | hge
      · have := monthStart_lt (leap y) 12 (by omega) (m + 1) hlt
        omega
      · rwa [show m + 1 = 12 by omega] at hhigh
  obtain ⟨hlt, hbegun, hended⟩ := monthOf_spec d
  rw [hyear] at hbegun hended
  refine ⟨hyear, ?_⟩
  rcases lt_trichotomy (monthOf d) m with hless | heq | hmore
  · have hnext : monthStart (leap y) (monthOf d + 1) ≤ monthStart (leap y) m := by
      rcases Nat.lt_or_ge (monthOf d + 1) m with h | h
      · exact (monthStart_lt (leap y) m (by omega) _ h).le
      · rw [show monthOf d + 1 = m by omega]
    omega
  · exact heq
  · have hnext : monthStart (leap y) (m + 1) ≤ monthStart (leap y) (monthOf d) := by
      rcases Nat.lt_or_ge (m + 1) (monthOf d) with h | h
      · exact (monthStart_lt (leap y) _ (by omega) _ h).le
      · rw [show m + 1 = monthOf d by omega]
    omega

/-! ### Months in a row -/

theorem monthBegin_eq (n : ℤ) :
    monthBegin n = yearStart (n / 12) + monthStart (leap (n / 12)) (n % 12).toNat := by
  simp only [monthBegin, dayOf]
  omega

/-- A month ends where the next begins, also at the end of the year. -/
theorem monthBegin_succ (n : ℤ) : monthBegin (n + 1) =
    yearStart (n / 12) + monthStart (leap (n / 12)) ((n % 12).toNat + 1) := by
  rw [monthBegin_eq]
  by_cases hlast : n % 12 = 11
  · rw [show (n + 1) / 12 = n / 12 + 1 by omega, show (n + 1) % 12 = 0 by omega, hlast,
      yearStart_succ]
    simp [monthStart_zero]
  · rw [show (n + 1) / 12 = n / 12 by omega,
      show ((n + 1) % 12).toNat = (n % 12).toNat + 1 by omega]

theorem monthNo_eq_iff {d n : ℤ} : monthNo d = n ↔ monthBegin n ≤ d ∧ d < monthBegin (n + 1) := by
  rw [monthBegin_succ, monthBegin_eq]
  constructor
  · rintro rfl
    obtain ⟨hm, hbegun, hended⟩ := monthOf_spec d
    rw [show monthNo d / 12 = yearOf d by unfold monthNo; omega,
      show (monthNo d % 12).toNat = monthOf d by unfold monthNo; omega]
    exact ⟨hbegun, hended⟩
  · rintro ⟨hlow, hhigh⟩
    obtain ⟨hyear, hmonth⟩ := monthOf_eq (by omega) hlow hhigh
    rw [monthNo, hyear, hmonth]
    omega

theorem monthBegin_lt_iff {n k : ℤ} : monthBegin n < monthBegin k ↔ n < k := by
  have hmono : StrictMono monthBegin := strictMono_int_of_lt_succ fun n => by
    have := monthStart_lt (leap (n / 12)) ((n % 12).toNat + 1) (by omega) (n % 12).toNat (by omega)
    rw [monthBegin_succ, monthBegin_eq]
    omega
  exact hmono.lt_iff_lt

theorem monthBegin_le_iff {n k : ℤ} : monthBegin n ≤ monthBegin k ↔ n ≤ k := by
  rw [← not_lt, monthBegin_lt_iff, not_lt]

theorem monthNo_monthBegin (n : ℤ) : monthNo (monthBegin n) = n :=
  monthNo_eq_iff.mpr ⟨le_rfl, monthBegin_lt_iff.mpr (by omega)⟩

/-- A month begins with its first day. -/
theorem monthBegin_isLeast (n : ℤ) : IsLeast {d | monthNo d = n} (monthBegin n) :=
  ⟨monthNo_monthBegin n, fun _ hd => (monthNo_eq_iff.mp hd).1⟩

theorem yearOf_eq_iff {d y : ℤ} : yearOf d = y ↔ yearStart y ≤ d ∧ d < yearStart (y + 1) := by
  constructor
  · rintro rfl
    exact yearOf_spec d
  · exact fun h => yearOf_eq h.1 h.2

theorem yearStart_eq (y : ℤ) : yearStart y = monthBegin (12 * y) := by
  rw [monthBegin_eq, show 12 * y / 12 = y by omega, show 12 * y % 12 = 0 by omega]
  simp [monthStart_zero]

end Calendar
