/-
VerityBackend.Numeric.Calendar — the Gregorian calendar over days, as
`Date` counts them.

A day is an integer, day 0 being 1 January 1970. `yearOfDay`, `monthOfDay`
and `dateOfDay` take a day apart, and `makeDay` puts one together; months
run from 0, dates from 1. A date the month does not have is that of the
month after, as it is for `Date.UTC`. The order of days is the order of
years, then months, then dates (`makeDay_le_iff`).
-/
import Mathlib.Data.Int.Order.Basic

namespace VerityBackend.Calendar

/-! ## Years -/

/-- The first day of a year. -/
def dayFromYear (y : Int) : Int :=
  365 * (y - 1970) + (y - 1969) / 4 - (y - 1901) / 100 + (y - 1601) / 400

/-- 1 for a leap year. -/
def leap (y : Int) : Int :=
  if y % 4 = 0 ∧ (y % 100 ≠ 0 ∨ y % 400 = 0) then 1 else 0

/-- 400 years have 146097 days; the estimate is off by one year at most. -/
def yearOfDay (d : Int) : Int :=
  let y := 1970 + 400 * d / 146097
  if d < dayFromYear y then y - 1 else if dayFromYear (y + 1) ≤ d then y + 1 else y

theorem dayFromYear_succ (y : Int) : dayFromYear (y + 1) = dayFromYear y + 365 + leap y := by
  unfold dayFromYear leap
  split <;> omega

theorem leap_cases (y : Int) : leap y = 0 ∨ leap y = 1 := by
  unfold leap
  split
  · exact .inr rfl
  · exact .inl rfl

theorem dayFromYear_le {y y' : Int} (h : y ≤ y') : dayFromYear y ≤ dayFromYear y' := by
  unfold dayFromYear
  omega

/-- The estimate of `yearOfDay` is off by one year at most. -/
theorem estimate {d y : Int} (hlow : 146097 * (y - 1970) ≤ 400 * d)
    (hhigh : 400 * d < 146097 * (y - 1970) + 146097) :
    dayFromYear (y - 1) ≤ d ∧ d < dayFromYear (y + 2) := by
  unfold dayFromYear
  omega

/-- A day is in its year. -/
theorem yearOfDay_spec (d : Int) :
    dayFromYear (yearOfDay d) ≤ d ∧ d < dayFromYear (yearOfDay d + 1) := by
  unfold yearOfDay
  dsimp only
  generalize hy : 1970 + 400 * d / 146097 = y
  obtain ⟨hlow, hhigh⟩ := estimate (d := d) (y := y) (by omega) (by omega)
  split
  · next hlt =>
      rw [Int.sub_add_cancel]
      exact ⟨hlow, hlt⟩
  · next hle =>
      split
      · next hnext =>
          rw [Int.add_assoc]
          exact ⟨hnext, hhigh⟩
      · next hnot => exact ⟨Int.not_lt.mp hle, Int.not_le.mp hnot⟩

/-! ## Months -/

/-- The day of the year, from 0, on which a month begins; `l` is 1 in a leap
year. -/
def monthStart (l : Int) : Nat → Int
  | 0 => 0
  | 1 => 31
  | 2 => 59 + l
  | 3 => 90 + l
  | 4 => 120 + l
  | 5 => 151 + l
  | 6 => 181 + l
  | 7 => 212 + l
  | 8 => 243 + l
  | 9 => 273 + l
  | 10 => 304 + l
  | 11 => 334 + l
  | _ => 365 + l

/-- The first month from `m` on, of the next `n` at most, that is not over on
a day of the year. -/
def monthFrom (l day : Int) : Nat → Nat → Nat
  | 0, m => m
  | n + 1, m => if day < monthStart l (m + 1) then m else monthFrom l day n (m + 1)

def monthOfDay (d : Int) : Nat :=
  monthFrom (leap (yearOfDay d)) (d - dayFromYear (yearOfDay d)) 11 0

/-- The day of the month, from 1. -/
def dateOfDay (d : Int) : Int :=
  d - dayFromYear (yearOfDay d) - monthStart (leap (yearOfDay d)) (monthOfDay d) + 1

/-- The day of a date, for months from 0 to 11. -/
def makeDay (y : Int) (m : Nat) (date : Int) : Int :=
  dayFromYear y + monthStart (leap y) m + date - 1

example : (yearOfDay 19782, monthOfDay 19782, dateOfDay 19782) = (2024, 1, 29) := by decide

/-- The days of a month, in a year that may be a leap year. -/
def monthDays (m : Nat) : Int := monthStart 1 (m + 1) - monthStart 1 m

section Months

variable {l day : Int}

theorem monthFrom_spec {n m : Nat} (hlow : monthStart l m ≤ day)
    (hhigh : day < monthStart l (m + n + 1)) :
    monthFrom l day n m ≤ m + n ∧ monthStart l (monthFrom l day n m) ≤ day ∧
      day < monthStart l (monthFrom l day n m + 1) := by
  induction n generalizing m with
  | zero => exact ⟨Nat.le_refl m, hlow, hhigh⟩
  | succ n ih =>
      unfold monthFrom
      split
      · next hlt => exact ⟨Nat.le_add_right m _, hlow, hlt⟩
      · next hle =>
          have hsum : m + 1 + n = m + (n + 1) := by omega
          have hrest := ih (m := m + 1) (Int.not_lt.mp hle) (by rw [hsum]; exact hhigh)
          rw [hsum] at hrest
          exact hrest

/-- A month begins when the one before is over, which in February of a leap
year takes a day more. -/
theorem monthStart_succ (m : Nat) (hl : l = 0 ∨ l = 1) :
    monthStart l m ≤ monthStart l (m + 1) ∧
      monthStart l (m + 1) - monthStart l m ≤ monthDays m ∧
      monthDays m - 1 ≤ monthStart l (m + 1) - monthStart l m := by
  unfold monthDays
  rcases m with _ | _ | _ | _ | _ | _ | _ | _ | _ | _ | _ | _ | m <;>
    simp only [monthStart] <;> omega

theorem monthStart_le {m m' : Nat} (hl : l = 0 ∨ l = 1) (h : m ≤ m') :
    monthStart l m ≤ monthStart l m' := by
  induction h with
  | refl => exact Int.le_refl _
  | step _ ih => exact Int.le_trans ih (monthStart_succ _ hl).1

end Months

/-! ## Days -/

/-- A day is in its month. -/
theorem monthOfDay_spec (d : Int) :
    monthOfDay d ≤ 11 ∧
      monthStart (leap (yearOfDay d)) (monthOfDay d) ≤ d - dayFromYear (yearOfDay d) ∧
      d - dayFromYear (yearOfDay d) < monthStart (leap (yearOfDay d)) (monthOfDay d + 1) := by
  obtain ⟨hlow, hhigh⟩ := yearOfDay_spec d
  rw [dayFromYear_succ] at hhigh
  exact monthFrom_spec (n := 11) (m := 0) (Int.sub_nonneg.mpr hlow) (by simp only [monthStart]; omega)

theorem dateOfDay_spec (d : Int) : 1 ≤ dateOfDay d ∧ dateOfDay d ≤ monthDays (monthOfDay d) := by
  obtain ⟨-, hlow, hhigh⟩ := monthOfDay_spec d
  have hdays := (monthStart_succ (monthOfDay d) (leap_cases (yearOfDay d))).2.1
  unfold dateOfDay
  omega

theorem makeDay_in_year {y date : Int} {m : Nat} (hm : m ≤ 11) (hlow : 1 ≤ date)
    (hhigh : date ≤ monthDays m) :
    dayFromYear y ≤ makeDay y m date ∧ makeDay y m date < dayFromYear (y + 1) := by
  have hlast : monthStart (leap y) 11 = 334 + leap y := rfl
  have hleap := leap_cases y
  have hstart : monthStart (leap y) 0 ≤ monthStart (leap y) m := monthStart_le hleap (Nat.zero_le m)
  have hdec : m < 11 → monthStart (leap y) (m + 1) ≤ monthStart (leap y) 11 :=
    fun hlt => monthStart_le hleap hlt
  have hdays := (monthStart_succ m hleap).2.2
  have hzero : monthStart (leap y) 0 = 0 := rfl
  have h11 : monthDays 11 = 31 := rfl
  rw [dayFromYear_succ]
  unfold makeDay
  rcases Nat.lt_or_eq_of_le hm with hlt | rfl
  · have := hdec hlt
    omega
  · omega

/-- **Days are ordered as their dates are.** -/
theorem makeDay_le_iff {y date : Int} {m : Nat} (hm : m ≤ 11) (hlow : 1 ≤ date)
    (hhigh : date ≤ monthDays m) (d : Int) :
    makeDay y m date ≤ d ↔
      y < yearOfDay d ∨
        y = yearOfDay d ∧ (m < monthOfDay d ∨ m = monthOfDay d ∧ date ≤ dateOfDay d) := by
  obtain ⟨hfirst, hlast⟩ := yearOfDay_spec d
  obtain ⟨hbegin, hend⟩ := makeDay_in_year (y := y) hm hlow hhigh
  rcases Int.lt_trichotomy y (yearOfDay d) with hlt | rfl | hgt
  · have hle : dayFromYear (y + 1) ≤ dayFromYear (yearOfDay d) := dayFromYear_le (by omega)
    omega
  · obtain ⟨-, hstart, hnext⟩ := monthOfDay_spec d
    have hleap := leap_cases (yearOfDay d)
    unfold makeDay dateOfDay
    rcases Nat.lt_trichotomy m (monthOfDay d) with hlt | rfl | hgt
    · have hle : monthStart (leap (yearOfDay d)) (m + 1) ≤
          monthStart (leap (yearOfDay d)) (monthOfDay d) := monthStart_le hleap hlt
      have hdays := (monthStart_succ m hleap).2.2
      omega
    · omega
    · have hle : monthStart (leap (yearOfDay d)) (monthOfDay d + 1) ≤
          monthStart (leap (yearOfDay d)) m := monthStart_le hleap hgt
      omega
  · have hle : dayFromYear (yearOfDay d + 1) ≤ dayFromYear y := dayFromYear_le (by omega)
    omega

end VerityBackend.Calendar
