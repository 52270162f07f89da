import TabularReport.Calendar.DateTime
import TabularReport.Proofs.Number.Digits

set_option autoImplicit false

namespace TabularReport

theorem padded_inj {width m n : Nat} : padded width m = padded width n ↔ m = n := by
  constructor
  · intro h
    rw [← digitsValue_padded width m, h, digitsValue_padded]
  · exact congrArg _

theorem not_mem_padded {width n : Nat} {c : Char} (h : c.isDigit = false) : c ∉ padded width n :=
  not_mem_of_digits (fun _ => isDigit_of_mem_padded) h

/-- Two digits at the end of a text can be told from what is in front of them. -/
theorem append_padded_inj {cs ds : List Char} {c : Char} {m n : Nat} (hm : m < 100) (hn : n < 100) :
    cs ++ c :: padded 2 m = ds ++ c :: padded 2 n ↔ cs = ds ∧ m = n := by
  constructor
  · intro h
    have hlength : (c :: padded 2 m).length = (c :: padded 2 n).length := by
      rw [List.length_cons, List.length_cons, length_padded (by decide) hm, length_padded (by decide) hn]
    obtain ⟨hfront, hback⟩ := List.append_inj' h hlength
    exact ⟨hfront, padded_inj.1 (List.cons.inj hback).2⟩
  · rintro ⟨rfl, rfl⟩
    rfl

namespace CivilDay

theorem ofNumber_inj {m n : Int} : ofNumber m = ofNumber n ↔ m = n := by
  constructor
  · intro h
    rw [← number_ofNumber m, h, number_ofNumber]
  · exact congrArg _

theorem eq_of_parts {c c' : CivilDay} (hyear : c.year = c'.year) (hmonth : c.month = c'.month)
    (hday : c.day = c'.day) : c = c' := by
  cases c
  cases c'
  simp_all

theorem ofMarch_le (year : Int) {m d : Nat} (hm : m < 12) (hd : d < 31) :
    (ofMarch year m d).month ≤ 12 ∧ (ofMarch year m d).day ≤ 31 := by
  unfold ofMarch
  split <;> constructor <;> dsimp only <;> omega

theorem sub_daysBeforeMonth_lt (d : Nat) : d - daysBeforeMonth (monthOfDay d) < 31 := by
  simp only [daysBeforeMonth, monthOfDay]
  omega

theorem ofNumber_le (n : Int) : (ofNumber n).month ≤ 12 ∧ (ofNumber n).day ≤ 31 := by
  have hcycle := Int.emod_lt_of_pos n (by decide : (0 : Int) < 146097)
  obtain ⟨_, _, hyear⟩ := yearOfDay_bounds (d := (n % 146097).toNat) (by omega)
  exact ofMarch_le _ (monthOfDay_bounds (by omega)).1 (sub_daysBeforeMonth_lt _)

end CivilDay

namespace DateTime

theorem yearChars_plain {year : Int} (h : 0 ≤ year ∧ year ≤ 9999) : yearChars year = padded 4 year.toNat := by
  simp [yearChars, h]

theorem yearChars_signed {year : Int} (h : ¬ (0 ≤ year ∧ year ≤ 9999)) :
    yearChars year = (if year < 0 then '-' else '+') :: padded 4 year.natAbs := by
  simp [yearChars, h]

theorem plain_ne_signed {n : Nat} {year : Int} {cs : List Char} :
    padded 4 n ≠ (if year < 0 then '-' else '+') :: cs := by
  intro h
  have hsign : (if year < 0 then '-' else '+').isDigit = false := by split <;> rfl
  exact not_mem_padded hsign (h ▸ List.mem_cons_self)

theorem yearChars_inj {year year' : Int} : yearChars year = yearChars year' ↔ year = year' := by
  constructor
  · intro h
    by_cases hy : 0 ≤ year ∧ year ≤ 9999 <;> by_cases hy' : 0 ≤ year' ∧ year' ≤ 9999
    · rw [yearChars_plain hy, yearChars_plain hy', padded_inj] at h
      omega
    · rw [yearChars_plain hy, yearChars_signed hy'] at h
      exact absurd h plain_ne_signed
    · rw [yearChars_signed hy, yearChars_plain hy'] at h
      exact absurd h.symm plain_ne_signed
    · rw [yearChars_signed hy, yearChars_signed hy'] at h
      obtain ⟨hsign, hdigits⟩ := List.cons.inj h
      rw [padded_inj] at hdigits
      grind
  · exact congrArg _

theorem civil_lt (t : DateTime) : t.civil.month < 100 ∧ t.civil.day < 100 := by
  obtain ⟨hmonth, hday⟩ := CivilDay.ofNumber_le t.day
  exact ⟨Nat.lt_of_le_of_lt hmonth (by decide), Nat.lt_of_le_of_lt hday (by decide)⟩

theorem dayChars_inj {t u : DateTime} : t.dayChars = u.dayChars ↔ t.day = u.day := by
  constructor
  · intro h
    obtain ⟨h, hday⟩ := (append_padded_inj t.civil_lt.2 u.civil_lt.2).1 h
    obtain ⟨hyear, hmonth⟩ := (append_padded_inj t.civil_lt.1 u.civil_lt.1).1 h
    refine CivilDay.ofNumber_inj.1 ?_
    rw [← civil, ← civil]
    exact CivilDay.eq_of_parts (yearChars_inj.1 hyear) hmonth hday
  · intro h
    simp only [dayChars, civil, h]

theorem blank_not_mem_dayChars (t : DateTime) : ' ' ∉ t.dayChars := by
  have hyear : ' ' ∉ yearChars t.civil.year := by
    unfold yearChars
    split
    · exact not_mem_padded rfl
    · split <;> simp [not_mem_padded]
  simp [dayChars, hyear, not_mem_padded]

/-- Whether the moments are in one second of one day, and both at midnight or neither.  A leap second is a
second of its own. -/
structure SameSecond (t u : DateTime) : Prop where
  day : t.day = u.day
  second : t.second = u.second
  isLeap : t.isLeap = u.isLeap
  isMidnight : t.isMidnight = u.isMidnight

theorem clockSecond_eq (t : DateTime) : t.clockSecond = if t.isLeap then 60 else t.second % 60 := by
  have hnano := t.nano_lt
  by_cases h : nanosPerSecond ≤ t.nano
  · have hlast := t.leap_last h
    simp only [clockSecond, isLeap, h, decide_true, if_true]
    simp only [nanosPerSecond] at *
    omega
  · simp only [clockSecond, isLeap, h, decide_false, Bool.false_eq_true, if_false]
    rw [Nat.div_eq_of_lt (Nat.lt_of_not_le h), Nat.add_zero]

theorem clock_lt (t : DateTime) : t.hour < 100 ∧ t.minute < 100 ∧ t.clockSecond < 100 := by
  have hsecond := t.second_lt
  rw [clockSecond_eq]
  simp only [secondsPerDay] at hsecond
  refine ⟨?_, ?_, ?_⟩
  · simp only [hour]
    omega
  · simp only [minute]
    omega
  · split <;> omega

theorem clock_inj {t u : DateTime} :
    (t.hour = u.hour ∧ t.minute = u.minute ∧ t.clockSecond = u.clockSecond) ↔
      t.second = u.second ∧ t.isLeap = u.isLeap := by
  have hlast (v : DateTime) (h : v.isLeap = true) : v.second % 60 = 59 := v.leap_last (of_decide_eq_true h)
  rw [clockSecond_eq, clockSecond_eq]
  simp only [hour, minute]
  constructor
  · rintro ⟨hhour, hminute, hclock⟩
    cases ht : t.isLeap <;> cases hu : u.isLeap <;> simp only [ht, hu, Bool.false_eq_true, if_true, if_false] at hclock
    · exact ⟨by omega, rfl⟩
    · omega
    · omega
    · have ht := hlast t ht
      have hu := hlast u hu
      exact ⟨by omega, rfl⟩
  · rintro ⟨hsecond, hleap⟩
    rw [hsecond, hleap]
    exact ⟨rfl, rfl, rfl⟩

theorem withClock_inj {t u : DateTime} :
    t.dayChars ++ ' ' :: t.clockChars = u.dayChars ++ ' ' :: u.clockChars ↔
      t.day = u.day ∧ t.second = u.second ∧ t.isLeap = u.isLeap := by
  have hchars (v : DateTime) : v.dayChars ++ ' ' :: v.clockChars =
      v.dayChars ++ ' ' :: padded 2 v.hour ++ ':' :: padded 2 v.minute ++ ':' :: padded 2 v.clockSecond := by
    simp [clockChars]
  obtain ⟨hhour, hminute, hclock⟩ := t.clock_lt
  obtain ⟨hhour', hminute', hclock'⟩ := u.clock_lt
  rw [hchars, hchars, append_padded_inj hclock hclock', append_padded_inj hminute hminute',
    append_padded_inj hhour hhour', dayChars_inj, and_assoc, and_assoc, clock_inj]

theorem dayChars_ne_withClock {t : DateTime} {cs ds : List Char} : t.dayChars ≠ cs ++ ' ' :: ds := by
  intro h
  have hblank := t.blank_not_mem_dayChars
  rw [h] at hblank
  exact hblank (List.mem_append_right _ List.mem_cons_self)

theorem parts_of_isMidnight {t : DateTime} (h : t.isMidnight = true) : t.second = 0 ∧ t.isLeap = false := by
  obtain ⟨hsecond, hnano⟩ := Bool.and_eq_true_iff.1 h
  rw [beq_iff_eq] at hsecond hnano
  exact ⟨hsecond, by simp [isLeap, hnano, nanosPerSecond]⟩

/-- Moments have one text if and only if they are in one second, and both at midnight or neither. -/
theorem text_eq_iff {t u : DateTime} : t.text = u.text ↔ t.SameSecond u := by
  rw [text, text, String.ofList_inj]
  constructor
  · intro h
    split at h <;> split at h
    · rename_i ht hu
      obtain ⟨hsecond, hleap⟩ := parts_of_isMidnight ht
      obtain ⟨hsecond', hleap'⟩ := parts_of_isMidnight hu
      exact ⟨dayChars_inj.1 h, hsecond.trans hsecond'.symm, hleap.trans hleap'.symm, ht.trans hu.symm⟩
    · exact absurd h dayChars_ne_withClock
    · exact absurd h.symm dayChars_ne_withClock
    · rename_i ht hu
      obtain ⟨hday, hsecond, hleap⟩ := withClock_inj.1 h
      rw [Bool.not_eq_true] at ht hu
      exact ⟨hday, hsecond, hleap, ht.trans hu.symm⟩
  · rintro ⟨hday, hsecond, hleap, hmidnight⟩
    rw [withClock_inj.2 ⟨hday, hsecond, hleap⟩, dayChars_inj.2 hday, hmidnight]

end DateTime
end TabularReport
