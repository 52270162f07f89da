/-!
Days of the proleptic Gregorian calendar.  A day is counted from 1 March of year 0, so that the leap day
is the last day of its year and the count needs no table of months.  Days of the week are counted from Monday
as 0; the first week of an ISO year is the one with 4 January.
-/
set_option autoImplicit false

namespace TabularReport

/-- A year, a month and a day of the month.  Year 0 is the year before year 1. -/
structure CivilDay where
  year : Int
  month : Nat
  day : Nat
  deriving DecidableEq

namespace CivilDay

def isLeapYear (year : Int) : Bool :=
  year % 4 == 0 && (year % 100 != 0 || year % 400 == 0)

def monthLength (year : Int) (month : Nat) : Nat :=
  if month = 2 then (if isLeapYear year then 29 else 28)
  else if month = 4 || month = 6 || month = 9 || month = 11 then 30
  else 31

def exists? (c : CivilDay) : Bool :=
  1 ≤ c.month && c.month ≤ 12 && 1 ≤ c.day && c.day ≤ monthLength c.year c.month

def ofMonth? (year : Int) (month day : Nat) : Option CivilDay :=
  let c : CivilDay := ⟨year, month, day⟩
  if c.exists? then some c else none

def daysBeforeMonth (m : Nat) : Nat :=
  (153 * m + 2) / 5

def monthOfDay (d : Nat) : Nat :=
  (5 * d + 2) / 153

def daysBeforeYear (y : Nat) : Nat :=
  365 * y + y / 4 - y / 100

/-- The year of the cycle that holds day `d` of it: centuries, then groups of four years, then years,
of which the last in each place may be a day longer. -/
def yearOfDay (d : Nat) : Nat :=
  let century := min (d / 36524) 3
  let inCentury := d - 36524 * century
  let inGroup := inCentury % 1461
  100 * century + 4 * (inCentury / 1461) + min (inGroup / 365) 3

/-- The number of the day, counted from 1 March of year 0. -/
def number (c : CivilDay) : Int :=
  let y := if c.month ≤ 2 then c.year - 1 else c.year
  365 * y + y / 4 - y / 100 + y / 400 + daysBeforeMonth ((c.month + 9) % 12) + c.day - 1

def ofMarch (year : Int) (m d : Nat) : CivilDay :=
  if m < 10 then ⟨year, m + 3, d + 1⟩ else ⟨year + 1, m - 9, d + 1⟩

def ofNumber (n : Int) : CivilDay :=
  let d := (n % 146097).toNat
  let y := yearOfDay d
  let inYear := d - daysBeforeYear y
  let m := monthOfDay inYear
  ofMarch (400 * (n / 146097) + y) m (inYear - daysBeforeMonth m)

theorem number_ofMarch (year : Int) {m : Nat} (d : Nat) (hm : m < 12) :
    (ofMarch year m d).number = 365 * year + year / 4 - year / 100 + year / 400 + daysBeforeMonth m + d := by
  by_cases h : m < 10
  · have h3 : (m + 3 + 9) % 12 = m := by omega
    simp [ofMarch, number, h, h3]
    omega
  · have h3 : (m - 9 + 9) % 12 = m := by omega
    have h2 : m - 9 ≤ 2 := by omega
    simp [ofMarch, number, h, h2, h3]
    omega

theorem yearOfDay_bounds {d : Nat} (h : d < 146097) :
    yearOfDay d < 400 ∧ daysBeforeYear (yearOfDay d) ≤ d ∧ d ≤ daysBeforeYear (yearOfDay d) + 365 := by
  simp only [yearOfDay, daysBeforeYear]
  generalize hc : min (d / 36524) 3 = c
  have hc3 : c ≤ 3 ∧ 36524 * c ≤ d ∧ (d < 36524 * c + 36524 ∨ c = 3) := by omega
  generalize he : d - 36524 * c = e
  have heb : e < 36525 := by omega
  generalize hq : e / 1461 = q
  generalize hg : e % 1461 = g
  generalize hr : min (g / 365) 3 = r
  have hr3 : r ≤ 3 ∧ 365 * r ≤ g ∧ g ≤ 365 * r + 365 ∧ e = 1461 * q + g ∧ q ≤ 24 := by omega
  have h4 : (100 * c + 4 * q + r) / 4 = 25 * c + q := by omega
  have h100 : (100 * c + 4 * q + r) / 100 = c := by omega
  omega

theorem monthOfDay_bounds {d : Nat} (h : d ≤ 365) :
    monthOfDay d < 12 ∧ daysBeforeMonth (monthOfDay d) ≤ d := by
  simp only [monthOfDay, daysBeforeMonth]; omega

theorem number_ofNumber (n : Int) : (ofNumber n).number = n := by
  have h1 := Int.emod_nonneg n (by decide : (146097 : Int) ≠ 0)
  have h2 := Int.emod_lt_of_pos n (by decide : (0 : Int) < 146097)
  have h3 := Int.emod_add_mul_ediv n 146097
  obtain ⟨hy, hlo, hhi⟩ := yearOfDay_bounds (d := (n % 146097).toNat) (by omega)
  obtain ⟨hm, hb⟩ := monthOfDay_bounds
    (d := (n % 146097).toNat - daysBeforeYear (yearOfDay (n % 146097).toNat)) (by omega)
  rw [ofNumber, number_ofMarch _ _ hm]
  generalize hd : (n % 146097).toNat = d at *
  generalize yearOfDay d = y at *
  generalize daysBeforeMonth (monthOfDay (d - daysBeforeYear y)) = b at *
  have h4 : (400 * (n / 146097) + (y : Int)) / 4 = 100 * (n / 146097) + (y / 4 : Nat) := by omega
  have h100 : (400 * (n / 146097) + (y : Int)) / 100 = 4 * (n / 146097) + (y / 100 : Nat) := by omega
  have h400 : (400 * (n / 146097) + (y : Int)) / 400 = n / 146097 := by omega
  rw [h4, h100, h400]
  simp only [daysBeforeYear] at *
  omega

def dayOfYear (c : CivilDay) : Int :=
  c.number - number ⟨c.year, 1, 1⟩ + 1

end CivilDay

def monday : Nat := 0

def sunday : Nat := 6

/-- How many days a day of the week lies after the latest `first`. -/
def daysSince (weekday first : Nat) : Nat :=
  (weekday + 7 - first) % 7

namespace CivilDay

/-- The day of the week of the day with the number `n`; day 0 is a Wednesday. -/
def weekdayOfNumber (n : Int) : Nat :=
  ((n + 2) % 7).toNat

def weekday (c : CivilDay) : Nat :=
  weekdayOfNumber c.number

def quarter (c : CivilDay) : Nat :=
  (c.month + 2) / 3

/-- The week of the year when weeks start on `first`.  The days before the first such day are week 0. -/
def weekFrom (first : Nat) (c : CivilDay) : Nat :=
  (c.dayOfYear.toNat + 6 - daysSince c.weekday first) / 7

/-- The ISO year and week: those of the Thursday between the same two Sundays. -/
def isoWeek (c : CivilDay) : Int × Nat :=
  let thursday := ofNumber (c.number - c.weekday + 3)
  (thursday.year, (thursday.dayOfYear.toNat + 6) / 7)

def yearLength (year : Int) : Nat :=
  if isLeapYear year then 366 else 365

def ofDayOfYear? (year : Int) (n : Nat) : Option CivilDay :=
  if 1 ≤ n && n ≤ yearLength year then some (ofNumber (number ⟨year, 1, 1⟩ + n - 1)) else none

def ofWeek? (first : Nat) (year : Int) (week weekday : Nat) : Option CivilDay :=
  let n := 1 + daysSince first (CivilDay.weekday ⟨year, 1, 1⟩) + 7 * week + daysSince weekday first
  if 7 < n then ofDayOfYear? year (n - 7) else none

def ofIsoWeek? (year : Int) (week weekday : Nat) : Option CivilDay :=
  let fourth : CivilDay := ⟨year, 1, 4⟩
  let c := ofNumber (fourth.number - fourth.weekday + 7 * (week - 1 : Int) + weekday)
  if c.isoWeek = (year, week) then some c else none

end CivilDay
end TabularReport
