import TabularReport.Calendar.DateTime
/-!
Parts of a date and of a time of day, as they are collected one by one, and the moment they make.  A
part that comes twice has to come with one value.  A day is found from the first group of parts that
suffices; every other part then has to describe that day.
-/
set_option autoImplicit false

namespace TabularReport

inductive DatePart where
  | year
  | century
  | yearOfCentury
  | isoYear
  | isoYearOfCentury
  | quarter
  | month
  | day
  | dayOfYear
  | weekFromSunday
  | weekFromMonday
  | isoWeek
  | weekdayFromSunday
  | weekdayFromMonday
  | hour
  | hourOfHalfDay
  | minute
  | second
  | nano
  | epochSeconds
  deriving DecidableEq

structure DateParts where
  year : Option Int := none
  century : Option Nat := none
  yearOfCentury : Option Nat := none
  isoYear : Option Int := none
  isoYearOfCentury : Option Nat := none
  quarter : Option Nat := none
  month : Option Nat := none
  day : Option Nat := none
  dayOfYear : Option Nat := none
  weekFromSunday : Option Nat := none
  weekFromMonday : Option Nat := none
  isoWeek : Option Nat := none
  weekday : Option Nat := none
  afternoon : Option Nat := none
  hourOfHalfDay : Option Nat := none
  minute : Option Nat := none
  second : Option Nat := none
  nano : Option Nat := none
  epochSeconds : Option Nat := none
  offset : Option Int := none

def settle? (old : Option Nat) (low high value : Nat) : Option (Option Nat) :=
  if low ≤ value && value ≤ high && (old == none || old == some value) then some (some value) else none

def settleYear? (old : Option Int) (year : Int) : Option (Option Int) :=
  if -2147483648 ≤ year && year ≤ 2147483647 && (old == none || old == some year) then some (some year)
  else none

def agrees (part : Option Nat) (value : Nat) : Bool :=
  part == none || part == some value

inductive PartsFault where
  | missing
  | conflict
  deriving DecidableEq

/-- The year from itself or from its century and its last two digits.  Without a century, 70 to 99 are
of the last one.  A year before 0 has neither. -/
def fullYear (year : Option Int) (century ofCentury : Option Nat) : Except PartsFault (Option Int) :=
  match year, century, ofCentury with
  | y, none, none => .ok y
  | some y, q, r =>
    if 0 ≤ y && agrees q (y / 100).toNat && agrees r (y % 100).toNat then .ok (some y)
    else .error .conflict
  | none, some q, some r => .ok (some (100 * q + r))
  | none, none, some r => .ok (some (if r < 70 then 2000 + r else 1900 + r))
  | none, some _, none => .error .missing

def yearAgrees (year : Option Int) (century ofCentury : Option Nat) (y : Int) : Bool :=
  (year == none || year == some y) && (0 ≤ y || (century == none && ofCentury == none)) &&
    agrees century (y / 100).toNat && agrees ofCentury (y % 100).toNat

namespace DateParts

def set? (p : DateParts) (part : DatePart) (n : Int) : Option DateParts :=
  let value := n.toNat
  match part with
  | .year => do return { p with year := ← settleYear? p.year n }
  | .century => do return { p with century := ← settle? p.century 0 99 value }
  | .yearOfCentury => do return { p with yearOfCentury := ← settle? p.yearOfCentury 0 99 value }
  | .isoYear => do return { p with isoYear := ← settleYear? p.isoYear n }
  | .isoYearOfCentury => do return { p with isoYearOfCentury := ← settle? p.isoYearOfCentury 0 99 value }
  | .quarter => do return { p with quarter := ← settle? p.quarter 1 4 value }
  | .month => do return { p with month := ← settle? p.month 1 12 value }
  | .day => do return { p with day := ← settle? p.day 1 31 value }
  | .dayOfYear => do return { p with dayOfYear := ← settle? p.dayOfYear 1 366 value }
  | .weekFromSunday => do return { p with weekFromSunday := ← settle? p.weekFromSunday 0 53 value }
  | .weekFromMonday => do return { p with weekFromMonday := ← settle? p.weekFromMonday 0 53 value }
  | .isoWeek => do return { p with isoWeek := ← settle? p.isoWeek 1 53 value }
  | .weekdayFromSunday => do
    guard (value ≤ 6)
    return { p with weekday := ← settle? p.weekday 0 6 ((value + 6) % 7) }
  | .weekdayFromMonday => do
    guard (1 ≤ value)
    return { p with weekday := ← settle? p.weekday 0 6 (value - 1) }
  | .hour => do
    guard (value ≤ 23)
    let afternoon ← settle? p.afternoon 0 1 (value / 12)
    return { p with afternoon, hourOfHalfDay := ← settle? p.hourOfHalfDay 0 11 (value % 12) }
  | .hourOfHalfDay => do
    guard (1 ≤ value && value ≤ 12)
    return { p with hourOfHalfDay := ← settle? p.hourOfHalfDay 0 11 (value % 12) }
  | .minute => do return { p with minute := ← settle? p.minute 0 59 value }
  | .second => do return { p with second := ← settle? p.second 0 60 value }
  | .nano => do return { p with nano := ← settle? p.nano 0 999999999 value }
  | .epochSeconds => do
    return { p with epochSeconds := ← settle? p.epochSeconds 0 9223372036854775807 value }

def setHalf? (p : DateParts) (half : Nat) : Option DateParts := do
  return { p with afternoon := ← settle? p.afternoon 0 1 half }

/-- The distance from universal time in seconds.  It has to be the same each time and has no other use. -/
def setOffset? (p : DateParts) (offset : Int) : Option DateParts :=
  if p.offset == none || p.offset == some offset then some { p with offset := some offset } else none

def describes (p : DateParts) (c : CivilDay) : Bool :=
  yearAgrees p.year p.century p.yearOfCentury c.year && agrees p.month c.month && agrees p.day c.day &&
    agrees p.quarter c.quarter && agrees p.dayOfYear c.dayOfYear.toNat &&
    yearAgrees p.isoYear none p.isoYearOfCentury c.isoWeek.1 && agrees p.isoWeek c.isoWeek.2 &&
    agrees p.weekday c.weekday && agrees p.weekFromSunday (c.weekFrom sunday) &&
    agrees p.weekFromMonday (c.weekFrom monday)

/-- The day that the first sufficient group of parts names.  The inner option is empty if there is no
such day. -/
def namedDay? (p : DateParts) (year isoYear : Option Int) : Option (Option CivilDay) :=
  (do return CivilDay.ofMonth? (← year) (← p.month) (← p.day))
  <|> (do return CivilDay.ofDayOfYear? (← year) (← p.dayOfYear))
  <|> (do return CivilDay.ofWeek? sunday (← year) (← p.weekFromSunday) (← p.weekday))
  <|> (do return CivilDay.ofWeek? monday (← year) (← p.weekFromMonday) (← p.weekday))
  <|> (do return CivilDay.ofIsoWeek? (← isoYear) (← p.isoWeek) (← p.weekday))

def resolveDay (p : DateParts) : Except PartsFault CivilDay := do
  let year ← fullYear p.year p.century p.yearOfCentury
  let isoYear ← fullYear p.isoYear none p.isoYearOfCentury
  match p.namedDay? year isoYear with
  | some (some c) => if p.describes c && c.isSupported then .ok c else .error .conflict
  | some none => .error .conflict
  | none => .error .missing

/-- Hour, minute, second and nanosecond.  A second may be missing, a fraction then may not be there. -/
def resolveClock? (p : DateParts) : Option (Nat × Nat × Nat × Nat) := do
  let half ← p.afternoon
  let hour ← p.hourOfHalfDay
  let minute ← p.minute
  guard (p.second.isSome || p.nano.isNone)
  return (12 * half + hour, minute, p.second.getD 0, p.nano.getD 0)

/-- The parts together with the year, the day and the clock time of a count of seconds since 1970.  Where
the second 60 was read, the count may stand for the second before it or after it. -/
def completeFrom? (p : DateParts) (count : Nat) : Option DateParts := do
  let long := p.second == some 60
  guard (!long || count % 60 == 59 || count % 60 == 0)
  let count : Int := if long && count % 60 == 0 then count - 1 else count
  let day := CivilDay.ofNumber (epochDay + count / secondsPerDay)
  let clock := count % secondsPerDay
  let p ← if long then some p else p.set? .second (clock % 60)
  let p ← p.set? .year day.year
  let p ← p.set? .dayOfYear day.dayOfYear
  let p ← p.set? .hour (clock / 3600)
  p.set? .minute (clock / 60 % 60)

def moment? (p : DateParts) : Option DateTime := do
  let date ← p.resolveDay.toOption
  let (hour, minute, second, nano) ← p.resolveClock?
  DateTime.ofClock? date hour minute second nano

/-- The moment, where a count of seconds since 1970 has to agree with it or supplies what is missing.
The count goes on during a leap second. -/
def countedMoment? (p : DateParts) : Option DateTime :=
  match p.epochSeconds, p.resolveDay, p.resolveClock? with
  | none, _, _ => p.moment?
  | some count, .ok _, some _ => do
    let t ← p.moment?
    guard (t.epochSeconds == count || (t.isLeap && t.epochSeconds + 1 == count))
    return t
  | some _, .error .conflict, _ => none
  | some count, _, _ => do (← p.completeFrom? count).moment?

/-- The moment that was read; a day without a time that fits is its midnight. -/
def resolve? (p : DateParts) : Option DateTime :=
  p.countedMoment? <|> do DateTime.ofClock? (← p.resolveDay.toOption) 0 0 0 0

end DateParts
end TabularReport
