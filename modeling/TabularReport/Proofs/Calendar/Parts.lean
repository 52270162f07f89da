import Mathlib.Tactic.IntervalCases
import TabularReport.Calendar.Parts
import TabularReport.Proofs.Calendar.Text
/-!
Moments and their parts.  The day with a number is a day of the calendar: a year that starts in March is a day
longer only before the end of a leap year, and its last day is then the leap day.  So the year, month and day
of a moment are parts that name its day, and with the clock time, if there is no fraction of a second, they
make the moment again.
-/
set_option autoImplicit false

namespace TabularReport

namespace CivilDay

/-- A year that starts in March has a day 365 only if the next year of the cycle is a leap year. -/
theorem isLeapYear_of_yearOfDay {d : Nat} (h : d < 146097) (hlast : d = daysBeforeYear (yearOfDay d) + 365)
    (cycle : Int) : isLeapYear (400 * cycle + yearOfDay d + 1) = true := by
  have hyear : (yearOfDay d + 1) % 4 = 0 ∧ ((yearOfDay d + 1) % 100 ≠ 0 ∨ yearOfDay d + 1 = 400) := by
    simp only [yearOfDay, daysBeforeYear] at hlast ⊢
    generalize hc : min (d / 36524) 3 = c at *
    have hcentury : c ≤ 3 ∧ 36524 * c ≤ d ∧ (d < 36524 * c + 36524 ∨ c = 3) := by omega
    generalize he : d - 36524 * c = e at *
    generalize hq : e / 1461 = q at *
    generalize hg : e % 1461 = g at *
    generalize hr : min (g / 365) 3 = r at *
    have hgroup : 365 * r ≤ g ∧ g < 1461 ∧ r ≤ 3 ∧ e = 1461 * q + g ∧ q ≤ 24 := by omega
    have h4 : (100 * c + 4 * q + r) / 4 = 25 * c + q := by omega
    have h100 : (100 * c + 4 * q + r) / 100 = c := by omega
    omega
  simp only [isLeapYear, Bool.and_eq_true, Bool.or_eq_true, beq_iff_eq, bne_iff_ne]
  omega

theorem lt_daysBeforeMonth (d : Nat) : d < daysBeforeMonth (monthOfDay d + 1) := by
  simp only [daysBeforeMonth, monthOfDay]
  omega

theorem monthLength_ofMarch (year : Int) {m : Nat} (d : Nat) (hm : m < 11) :
    daysBeforeMonth (m + 1) =
      daysBeforeMonth m + monthLength (ofMarch year m d).year (ofMarch year m d).month := by
  interval_cases m <;> rfl

theorem exists?_ofMarch {year : Int} {d : Nat} (h : d < 365 ∨ d = 365 ∧ isLeapYear (year + 1) = true) :
    (ofMarch year (monthOfDay d) (d - daysBeforeMonth (monthOfDay d))).exists? = true := by
  obtain ⟨hm, hbefore⟩ := monthOfDay_bounds (d := d) (by omega)
  have hmonth : 1 ≤ (ofMarch year (monthOfDay d) (d - daysBeforeMonth (monthOfDay d))).month := by
    unfold ofMarch
    split <;> dsimp only <;> omega
  have hlast : (ofMarch year (monthOfDay d) (d - daysBeforeMonth (monthOfDay d))).day =
      d - daysBeforeMonth (monthOfDay d) + 1 := by
    unfold ofMarch
    split <;> rfl
  have hlength : d - daysBeforeMonth (monthOfDay d) + 1 ≤
      monthLength (ofMarch year (monthOfDay d) (d - daysBeforeMonth (monthOfDay d))).year
        (ofMarch year (monthOfDay d) (d - daysBeforeMonth (monthOfDay d))).month := by
    -- February is the last month of such a year, and the only one that has no month after it to reach to.
    obtain hm | hm : monthOfDay d < 11 ∨ monthOfDay d = 11 := by omega
    · have hnext := lt_daysBeforeMonth d
      rw [monthLength_ofMarch year (d - daysBeforeMonth (monthOfDay d)) hm] at hnext
      omega
    · have hbefore : daysBeforeMonth 11 = 337 := rfl
      have hfebruary (k : Nat) : monthLength (ofMarch year 11 k).year (ofMarch year 11 k).month =
          if isLeapYear (year + 1) then 29 else 28 := rfl
      rw [hm, hfebruary, hbefore]
      obtain h | ⟨rfl, hleap⟩ := h
      · split <;> omega
      · rw [if_pos hleap]
  simp only [exists?, Bool.and_eq_true, decide_eq_true_eq, hlast]
  exact ⟨⟨⟨hmonth, (ofMarch_le year hm (sub_daysBeforeMonth_lt d)).1⟩, Nat.le_add_left _ _⟩, hlength⟩

theorem exists?_ofNumber (n : Int) : (ofNumber n).exists? = true := by
  have hcycle := Int.emod_lt_of_pos n (by decide : (0 : Int) < 146097)
  have hd : (n % 146097).toNat < 146097 := by omega
  obtain ⟨_, hfirst, hlast⟩ := yearOfDay_bounds hd
  refine exists?_ofMarch ?_
  obtain hlt | heq : (n % 146097).toNat - daysBeforeYear (yearOfDay (n % 146097).toNat) < 365 ∨
      (n % 146097).toNat = daysBeforeYear (yearOfDay (n % 146097).toNat) + 365 := by omega
  · exact .inl hlt
  · exact .inr ⟨by omega, isLeapYear_of_yearOfDay hd heq _⟩

theorem year_ofNumber_range (n : Int) :
    400 * (n / 146097) ≤ (ofNumber n).year ∧ (ofNumber n).year ≤ 400 * (n / 146097) + 400 := by
  have hcycle := Int.emod_lt_of_pos n (by decide : (0 : Int) < 146097)
  obtain ⟨hyear, _⟩ := yearOfDay_bounds (d := (n % 146097).toNat) (by omega)
  simp only [ofNumber, ofMarch]
  split <;> dsimp only <;> omega

end CivilDay

namespace DateTime

variable {t : DateTime} {day : Int} {second nano : Nat}

theorem ofParts?_eq_some : ofParts? day second nano = some t ↔ t.day = day ∧ t.second = second ∧ t.nano = nano := by
  unfold ofParts?
  constructor
  · intro h
    split at h
    · cases h
      exact ⟨rfl, rfl, rfl⟩
    · contradiction
  · rintro ⟨rfl, rfl, rfl⟩
    rw [dif_pos ⟨⟨t.day_ge, t.day_le⟩, t.second_lt, t.nano_lt, t.leap_last⟩]

theorem isSupported_civil (t : DateTime) : t.civil.isSupported = true := by
  rw [civil, CivilDay.isSupported, CivilDay.number_ofNumber, decide_eq_true t.day_ge, decide_eq_true t.day_le,
    Bool.and_self]

theorem civil_range (t : DateTime) :
    (1 ≤ t.civil.month ∧ t.civil.month ≤ 12) ∧ 1 ≤ t.civil.day ∧ t.civil.day ≤ 31 := by
  have hexists : t.civil.exists? = true := CivilDay.exists?_ofNumber t.day
  obtain ⟨hmonth, hday⟩ := CivilDay.ofNumber_le t.day
  simp only [CivilDay.exists?, Bool.and_eq_true, decide_eq_true_eq] at hexists
  exact ⟨⟨hexists.1.1.1, hmonth⟩, hexists.1.2, hday⟩

theorem year_range (t : DateTime) : -262800 ≤ t.civil.year ∧ t.civil.year ≤ 262800 := by
  have hrange := CivilDay.year_ofNumber_range t.day
  have hfirst := t.day_ge
  have hlast := t.day_le
  simp only [firstDay, lastDay, civil] at *
  omega

theorem clock_range (t : DateTime) : t.hour < 24 ∧ t.minute < 60 ∧ t.clockSecond ≤ 60 := by
  have hsecond := t.second_lt
  rw [clockSecond_eq]
  simp only [hour, minute, secondsPerDay] at *
  refine ⟨by omega, by omega, ?_⟩
  split <;> omega

theorem nano_eq (h : t.fraction = 0) : t.nano = if t.isLeap = true then nanosPerSecond else 0 := by
  have hnano := t.nano_lt
  cases hleap : t.isLeap with
  | true =>
    have hlong := of_decide_eq_true hleap
    rw [if_pos rfl]
    simp only [fraction, nanosPerSecond] at *
    omega
  | false =>
    have hshort := of_decide_eq_false hleap
    rw [if_neg Bool.false_ne_true]
    simp only [fraction, nanosPerSecond] at *
    omega

/-- What the clock shows of a moment gives the moment again, if there is no fraction of a second. -/
theorem ofClock?_civil (h : t.fraction = 0) : ofClock? t.civil t.hour t.minute t.clockSecond 0 = some t := by
  have hday : t.day = t.civil.number := (CivilDay.number_ofNumber t.day).symm
  have hnano := nano_eq h
  have hclock := t.clockSecond_eq
  have htime : 3600 * t.hour + 60 * t.minute + t.second % 60 = t.second := by
    simp only [hour, minute]
    omega
  have hrange : (t.civil.exists? && t.hour < 24 && t.minute < 60 && t.clockSecond ≤ 60 &&
      0 < nanosPerSecond) = true := by
    obtain ⟨hhour, hminute, hsecond⟩ := t.clock_range
    have hexists : t.civil.exists? = true := CivilDay.exists?_ofNumber t.day
    simp [hexists, hhour, hminute, hsecond, nanosPerSecond]
  rw [ofClock?, if_pos hrange]
  cases hleap : t.isLeap with
  | true =>
    have hlast : t.second % 60 = 59 := t.leap_last (of_decide_eq_true hleap)
    rw [hleap, if_pos rfl] at hclock hnano
    rw [hlast] at htime
    rw [hclock]
    exact ofParts?_eq_some.2 ⟨hday, htime.symm, by rw [hnano, Nat.zero_add]⟩
  | false =>
    rw [hleap, if_neg Bool.false_ne_true] at hclock hnano
    rw [hclock, if_neg (by omega)]
    exact ofParts?_eq_some.2 ⟨hday, htime.symm, hnano⟩

def dayParts (t : DateTime) : DateParts where
  year := some t.civil.year
  month := some t.civil.month
  day := some t.civil.day

def parts (t : DateTime) : DateParts :=
  { t.dayParts with
    afternoon := some (t.hour / 12), hourOfHalfDay := some (t.hour % 12), minute := some t.minute,
    second := some t.clockSecond }

theorem resolveDay_dayParts (t : DateTime) (afternoon hourOfHalfDay minute second : Option Nat) :
    ({ t.dayParts with afternoon, hourOfHalfDay, minute, second } : DateParts).resolveDay = .ok t.civil := by
  have hsupported := t.isSupported_civil
  have hnamed : CivilDay.ofMonth? t.civil.year t.civil.month t.civil.day = some t.civil := by
    have hexists : t.civil.exists? = true := CivilDay.exists?_ofNumber t.day
    exact if_pos hexists
  simp [DateParts.resolveDay, DateParts.namedDay?, DateParts.describes, dayParts, fullYear, yearAgrees, agrees,
    hnamed, hsupported, bind, Except.bind]

theorem resolve?_dayParts (h : t.isMidnight = true) : t.dayParts.resolve? = some t := by
  have hday : t.dayParts.resolveDay = .ok t.civil := t.resolveDay_dayParts none none none none
  have hmidnight : ofClock? t.civil 0 0 0 0 = some t := by
    obtain ⟨hsecond, hnano⟩ := Bool.and_eq_true_iff.1 h
    rw [beq_iff_eq] at hsecond hnano
    have hcivil := ofClock?_civil (t := t) (by rw [fraction, hnano, Nat.zero_mod])
    simpa only [hour, minute, clockSecond, hsecond, hnano, Nat.zero_div, Nat.zero_mod] using hcivil
  -- There is no clock time among the parts.
  have hcounted : t.dayParts.countedMoment? = t.dayParts.moment? := rfl
  have hnone : t.dayParts.moment? = none := by
    rw [DateParts.moment?, hday]
    rfl
  rw [DateParts.resolve?, hcounted, hnone, hday]
  exact hmidnight

theorem resolve?_parts (h : t.fraction = 0) : t.parts.resolve? = some t := by
  have hday : t.parts.resolveDay = .ok t.civil := t.resolveDay_dayParts _ _ _ _
  have hclock : t.parts.resolveClock? = some (t.hour, t.minute, t.clockSecond, 0) := by
    have hhour : 12 * (t.hour / 12) + t.hour % 12 = t.hour := Nat.div_add_mod _ _
    simp [DateParts.resolveClock?, parts, dayParts, hhour]
  have hcounted : t.parts.countedMoment? = t.parts.moment? := rfl
  have hmoment : t.parts.moment? = some t := by
    rw [DateParts.moment?, hday, hclock]
    exact ofClock?_civil h
  rw [DateParts.resolve?, hcounted, hmoment]
  rfl

end DateTime

end TabularReport
