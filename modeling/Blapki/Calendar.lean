/-
The Gregorian calendar.

Days are counted from the first of March of the year 0: a year that starts in March has its
leap day last, and 400 of them have the same number of days. `days_from_civil_of` says that the
year, the month and the day of a day give it back.
-/
import Mathlib.Tactic.SplitIfs

set_option autoImplicit false

namespace Calendar

/-! ## Years of a cycle -/

/-- Year of the 400-year cycle a day of it falls in. -/
def year_of_era (doe : Nat) : Nat := (doe - doe / 1460 + doe / 36524 - doe / 146096) / 365

/-- The days of the cycle before a year. -/
def start_of_year (yoe : Nat) : Nat := 365 * yoe + yoe / 4 - yoe / 100

/-- Day of the year. -/
def day_of_year (doe : Nat) : Nat := doe - start_of_year (year_of_era doe)

/-- A day is so many centuries, leap cycles and years into its cycle. The last year of a leap
cycle has a day more, except at the end of the first three centuries. -/
theorem exists_split {doe : Nat} (h : doe < 146097) : ∃ c q y d, c ≤ 3 ∧ q ≤ 24 ∧ y ≤ 3 ∧
    d ≤ 365 ∧ (d = 365 → y = 3 ∧ (q = 24 → c = 3)) ∧
      doe = 36524 * c + 1461 * q + 365 * y + d := by
  have hc : doe - 36524 * min (doe / 36524) 3 ≤ 36524 := by omega
  have hlast : doe - 36524 * min (doe / 36524) 3 = 36524 → min (doe / 36524) 3 = 3 := by omega
  have hle : 36524 * min (doe / 36524) 3 ≤ doe := by omega
  have hthree : min (doe / 36524) 3 ≤ 3 := Nat.min_le_right _ _
  generalize min (doe / 36524) 3 = c at hc hlast hle hthree
  obtain ⟨r, rfl⟩ := Nat.exists_eq_add_of_le hle
  rw [Nat.add_sub_cancel_left] at hc hlast
  refine ⟨c, r / 1461, min (r % 1461 / 365) 3, r % 1461 - 365 * min (r % 1461 / 365) 3, hthree, ?_⟩
  omega

theorem year_of_era_eq {c q y d : Nat} (hc : c ≤ 3) (hq : q ≤ 24) (hy : y ≤ 3) (hd : d ≤ 365)
    (hleap : d = 365 → y = 3 ∧ (q = 24 → c = 3)) :
    year_of_era (36524 * c + 1461 * q + 365 * y + d) = 100 * c + 4 * q + y := by
  by_cases hlast : q = 24 ∧ d = 365
  · -- the last day of the cycle
    obtain ⟨rfl, rfl⟩ := hlast
    obtain ⟨rfl, hthree⟩ := hleap rfl
    rw [hthree rfl]
    decide
  have hshort : 1461 * q + 365 * y + d < 36524 := by omega
  have hcycle : (36524 * c + 1461 * q + 365 * y + d) / 146096 = 0 := by omega
  have hcentury : (36524 * c + 1461 * q + 365 * y + d) / 36524 = c := by omega
  unfold year_of_era
  rw [hcycle, hcentury, Nat.sub_zero]
  -- the leap days so far, as the formula counts them
  by_cases hfour : 24 * c + q + 365 * y + d < 1460
  · have hquad : (36524 * c + 1461 * q + 365 * y + d) / 1460 = 25 * c + q := by omega
    rw [hquad]
    omega
  · have hquad : (36524 * c + 1461 * q + 365 * y + d) / 1460 = 25 * c + q + 1 := by omega
    rw [hquad]
    omega

theorem start_of_year_eq {c q y : Nat} (hq : q ≤ 24) (hy : y ≤ 3) :
    start_of_year (100 * c + 4 * q + y) = 36524 * c + 1461 * q + 365 * y := by
  unfold start_of_year
  omega

/-- The year and the day of the year give back the day of the cycle. -/
theorem start_add_day_of_year {doe : Nat} (h : doe < 146097) :
    start_of_year (year_of_era doe) + day_of_year doe = doe := by
  obtain ⟨c, q, y, d, hc, hq, hy, hd, hleap, rfl⟩ := exists_split h
  rw [day_of_year, year_of_era_eq hc hq hy hd hleap, start_of_year_eq hq hy]
  omega

theorem year_of_era_lt {doe : Nat} (h : doe < 146097) : year_of_era doe < 400 := by
  obtain ⟨c, q, y, d, hc, hq, hy, hd, hleap, rfl⟩ := exists_split h
  rw [year_of_era_eq hc hq hy hd hleap]
  omega

theorem day_of_year_le {doe : Nat} (h : doe < 146097) : day_of_year doe ≤ 365 := by
  obtain ⟨c, q, y, d, hc, hq, hy, hd, hleap, rfl⟩ := exists_split h
  rw [day_of_year, year_of_era_eq hc hq hy hd hleap, start_of_year_eq hq hy]
  omega

/-! ## Months of a year -/

/-- Month, March first. -/
def march_month (doy : Nat) : Nat := (5 * doy + 2) / 153

/-- The days of the year before a month. -/
def start_of_month (mp : Nat) : Nat := (153 * mp + 2) / 5

/-- Day of the month, from 1. -/
def day_of_month (doy : Nat) : Nat := doy - start_of_month (march_month doy) + 1

/-- The number of a month, January first. -/
def civil_month (mp : Nat) : Nat := if mp < 10 then mp + 3 else mp - 9

theorem march_month_lt {doy : Nat} (h : doy ≤ 365) : march_month doy < 12 := by
  unfold march_month
  omega

/-- The month and the day of it give back the day of the year. -/
theorem start_add_day_of_month (doy : Nat) :
    start_of_month (march_month doy) + (day_of_month doy - 1) = doy := by
  unfold day_of_month start_of_month march_month
  omega

theorem day_of_month_le {doy : Nat} : 1 ≤ day_of_month doy ∧ day_of_month doy ≤ 31 := by
  unfold day_of_month start_of_month march_month
  omega

theorem civil_month_le {mp : Nat} (h : mp < 12) : 1 ≤ civil_month mp ∧ civil_month mp ≤ 12 := by
  unfold civil_month
  split_ifs <;> omega

/-- The month from March on, of the number of a month. -/
theorem march_of_civil {mp : Nat} (h : mp < 12) : (civil_month mp + 9) % 12 = mp := by
  unfold civil_month
  split_ifs <;> omega

/-! ## Dates -/

/-- The year of a day: January and February are of the next one. -/
def year (n : Nat) : Nat :=
  year_of_era (n % 146097) + n / 146097 * 400 +
    (if civil_month (march_month (day_of_year (n % 146097))) ≤ 2 then 1 else 0)

def month (n : Nat) : Nat := civil_month (march_month (day_of_year (n % 146097)))

def day (n : Nat) : Nat := day_of_month (day_of_year (n % 146097))

/-- The day of a date. -/
def days_from_civil (year month day : Nat) : Nat :=
  let y := if month ≤ 2 then year - 1 else year
  y / 400 * 146097 + (start_of_year (y % 400) + (start_of_month ((month + 9) % 12) + (day - 1)))

theorem year_eq (n : Nat) : year n =
    year_of_era (n % 146097) + n / 146097 * 400 + (if month n ≤ 2 then 1 else 0) := rfl

/-- **A day has its date alone.** -/
theorem days_from_civil_of (n : Nat) : days_from_civil (year n) (month n) (day n) = n := by
  have hdoe : n % 146097 < 146097 := Nat.mod_lt n (by decide)
  have hyear := year_of_era_lt hdoe
  have hmonth : (month n + 9) % 12 = march_month (day_of_year (n % 146097)) :=
    march_of_civil (march_month_lt (day_of_year_le hdoe))
  -- the year counted from March, which is the one the day was split by
  have hstart : (if month n ≤ 2 then year n - 1 else year n)
      = year_of_era (n % 146097) + n / 146097 * 400 := by
    rw [year_eq]
    by_cases hjan : month n ≤ 2
    · rw [if_pos hjan, if_pos hjan, Nat.add_sub_cancel]
    · rw [if_neg hjan, if_neg hjan, Nat.add_zero]
  unfold days_from_civil
  simp only [hstart, hmonth]
  rw [Nat.add_mul_div_right _ _ (by decide), Nat.div_eq_of_lt hyear, Nat.zero_add,
    Nat.add_mul_mod_self_right, Nat.mod_eq_of_lt hyear, day, start_add_day_of_month,
    start_add_day_of_year hdoe]
  omega

theorem month_le (n : Nat) : 1 ≤ month n ∧ month n ≤ 12 :=
  civil_month_le (march_month_lt (day_of_year_le (Nat.mod_lt n (by decide))))

theorem day_le (n : Nat) : 1 ≤ day n ∧ day n ≤ 31 := day_of_month_le

/-- From the first of January 1970 on, until the end of 9999. -/
theorem year_range {n : Nat} (hmin : 719468 ≤ n) (hmax : n ≤ 3652364) :
    1970 ≤ year n ∧ year n ≤ 9999 := by
  have hdoe : n % 146097 < 146097 := Nat.mod_lt n (by decide)
  have hyear := year_of_era_lt hdoe
  have hday := day_of_year_le hdoe
  have hsplit := start_add_day_of_year hdoe
  rw [year_eq]
  unfold month civil_month march_month
  unfold start_of_year at hsplit
  generalize year_of_era (n % 146097) = yoe at hyear hsplit ⊢
  generalize day_of_year (n % 146097) = doy at hday hsplit ⊢
  have hera : 4 ≤ n / 146097 ∧ n / 146097 ≤ 24 := by omega
  -- the first days of 1970 are the end of a year that starts in March, the last of 9999 are not
  have hfirst : n / 146097 = 4 → 369 ≤ yoe ∧ (yoe = 369 → 306 ≤ doy) := by
    intro h
    have hle : 369 ≤ yoe := by omega
    exact ⟨hle, fun heq => by rw [heq] at hsplit; omega⟩
  have hlast : n / 146097 = 24 → yoe = 399 → doy ≤ 305 := by
    intro h heq
    rw [heq] at hsplit
    omega
  split_ifs <;> omega

end Calendar
