import TabularReport.Calendar.Day
import TabularReport.Number.Decimal
/-!
A date with a time of day, without a zone.  A leap second is written as the 59th second of its minute
with a billion or more nanoseconds.  Shifting and subtracting work on exact milliseconds and truncate
toward zero.
-/
set_option autoImplicit false

namespace TabularReport

/-- 1 January of the year -262143, the first day there is. -/
def firstDay : Int := -95745824

/-- 31 December of the year 262142, the last day there is. -/
def lastDay : Int := 95745704

def epochDay : Int := CivilDay.number ⟨1970, 1, 1⟩

def CivilDay.isSupported (c : CivilDay) : Bool :=
  firstDay ≤ c.number && c.number ≤ lastDay

def secondsPerDay : Nat := 86400

def nanosPerSecond : Nat := 1000000000

/-- A day, a second of the day and nanoseconds.  Only the last second of a minute may be long: nothing that
reads or shifts a moment makes a long second elsewhere, where it would be shown as the second after it. -/
structure DateTime where
  day : Int
  second : Nat
  nano : Nat
  day_ge : firstDay ≤ day
  day_le : day ≤ lastDay
  second_lt : second < secondsPerDay
  nano_lt : nano < 2 * nanosPerSecond
  leap_last : nanosPerSecond ≤ nano → second % 60 = 59
  deriving DecidableEq

namespace DateTime

def ofParts? (day : Int) (second nano : Nat) : Option DateTime :=
  if h : (firstDay ≤ day ∧ day ≤ lastDay) ∧ second < secondsPerDay ∧ nano < 2 * nanosPerSecond ∧
      (nanosPerSecond ≤ nano → second % 60 = 59) then
    some ⟨day, second, nano, h.1.1, h.1.2, h.2.1, h.2.2.1, h.2.2.2⟩
  else none

/-- The moment at a clock time of a calendar day.  Second 60 is the leap second. -/
def ofClock? (date : CivilDay) (hour minute second nano : Nat) : Option DateTime :=
  if date.exists? && hour < 24 && minute < 60 && second ≤ 60 && nano < nanosPerSecond then
    let (second, nano) := if second = 60 then (59, nano + nanosPerSecond) else (second, nano)
    ofParts? date.number (3600 * hour + 60 * minute + second) nano
  else none

def civil (t : DateTime) : CivilDay :=
  CivilDay.ofNumber t.day

def hour (t : DateTime) : Nat := t.second / 3600

def minute (t : DateTime) : Nat := t.second / 60 % 60

def clockSecond (t : DateTime) : Nat :=
  t.second % 60 + t.nano / nanosPerSecond

def fraction (t : DateTime) : Nat :=
  t.nano % nanosPerSecond

def isLeap (t : DateTime) : Bool :=
  nanosPerSecond ≤ t.nano

def epochSeconds (t : DateTime) : Int :=
  (t.day - epochDay) * secondsPerDay + t.second

def isMidnight (t : DateTime) : Bool :=
  t.second == 0 && t.nano == 0

/-- Years 0 to 9999 have four digits, all others a sign and at least four. -/
def yearChars (year : Int) : List Char :=
  if 0 ≤ year && year ≤ 9999 then padded 4 year.toNat
  else (if year < 0 then '-' else '+') :: padded 4 year.natAbs

def dayChars (t : DateTime) : List Char :=
  yearChars t.civil.year ++ '-' :: padded 2 t.civil.month ++ '-' :: padded 2 t.civil.day

def clockChars (t : DateTime) : List Char :=
  padded 2 t.hour ++ ':' :: padded 2 t.minute ++ ':' :: padded 2 t.clockSecond

def dayText (t : DateTime) : String :=
  String.ofList t.dayChars

/-- The day alone at midnight, otherwise the day and the clock time without its fraction. -/
def text (t : DateTime) : String :=
  String.ofList (if t.isMidnight then t.dayChars else t.dayChars ++ ' ' :: t.clockChars)

def fractionChars (t : DateTime) : List Char :=
  if t.fraction = 0 then []
  else if t.fraction % 1000000 = 0 then '.' :: padded 3 (t.fraction / 1000000)
  else if t.fraction % 1000 = 0 then '.' :: padded 6 (t.fraction / 1000)
  else '.' :: padded 9 t.fraction

def fullText (t : DateTime) : String :=
  String.ofList (t.dayChars ++ 'T' :: t.clockChars ++ t.fractionChars)

/-- The moment `ms` milliseconds away.  A shift that stays within a leap second keeps it; otherwise the
leap second counts as the 59th second for what follows it, and as the next one for what precedes it. -/
def addMillis? (t : DateTime) (ms : Int) : Option DateTime :=
  let seconds := ms.tdiv 1000
  let nanos := ms.tmod 1000 * 1000000
  let staysLong := t.isLeap && seconds == 0 && (nanos ≤ 0 || t.nano + nanos < 2 * nanosPerSecond)
  if staysLong then ofParts? t.day t.second (t.nano + nanos).toNat
  else
    let nano := t.nano % nanosPerSecond + nanos
    let second := t.second + (if t.isLeap && seconds < 0 then 1 else 0) + seconds + nano / nanosPerSecond
    ofParts? (t.day + second / secondsPerDay) (second % secondsPerDay).toNat (nano % nanosPerSecond).toNat

/-- Milliseconds from `s` to `t`, truncated toward zero.  A leap second lengthens the distance between
the two times of day if the earlier of them is in it. -/
def millisSince (t s : DateTime) : Int :=
  let leap : Int :=
    if s.second < t.second && s.isLeap then 1 else if t.second < s.second && t.isLeap then -1 else 0
  let seconds := (t.day - s.day) * secondsPerDay + ((t.second : Int) - s.second) + leap
  (seconds * nanosPerSecond + ((t.nano : Int) - s.nano)).tdiv 1000000

def compareTo (t s : DateTime) : Ordering :=
  ((compare t.day s.day).then (compare t.second s.second)).then (compare t.nano s.nano)

end DateTime
end TabularReport
