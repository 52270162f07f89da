import TabularReport.Calendar.Parts
import TabularReport.Text.Basic

set_option autoImplicit false

namespace TabularReport

inductive OffsetForm where
  /-- In no other way. -/
  | plain
  /-- As the letter Z, or without the minutes at the end of the text. -/
  | short
  /-- As the letter Z or the letters UTC. -/
  | named
  deriving DecidableEq

inductive PatternItem where
  | literal (c : Char)
  | oneOf (cs : List Char)
  | blanks
  | number (part : DatePart)
  | monthName (orLong : Bool)
  | weekdayName (orLong : Bool)
  | halfDay
  | fraction
  | pointAndDigits (places : Nat)
  | fractionDigits (places : Nat)
  | zoneName
  | offset (form : OffsetForm)
  | never
  deriving DecidableEq

def DatePart.ofLetter? : Char → Option DatePart
  | 'Y' => some .year
  | 'C' => some .century
  | 'y' => some .yearOfCentury
  | 'G' => some .isoYear
  | 'g' => some .isoYearOfCentury
  | 'q' => some .quarter
  | 'm' => some .month
  | 'd' | 'e' => some .day
  | 'j' => some .dayOfYear
  | 'U' => some .weekFromSunday
  | 'W' => some .weekFromMonday
  | 'V' => some .isoWeek
  | 'w' => some .weekdayFromSunday
  | 'u' => some .weekdayFromMonday
  | 'H' | 'k' => some .hour
  | 'I' | 'l' => some .hourOfHalfDay
  | 'M' => some .minute
  | 'S' => some .second
  | 'f' => some .nano
  | 's' => some .epochSeconds
  | _ => none

namespace PatternItem

def clock (kind : DatePart) : List PatternItem :=
  [.number kind, .literal ':', .number .minute, .literal ':', .number .second]

def slashedDay : List PatternItem :=
  [.number .month, .literal '/', .number .day, .literal '/', .number .yearOfCentury]

def zonedMoment : List PatternItem :=
  [.number .year, .blanks, .literal '-', .number .month, .blanks, .literal '-', .number .day,
    .oneOf ['T', 't', ' '], .number .hour, .blanks, .literal ':', .number .minute, .blanks, .literal ':',
    .number .second, .fraction, .offset .named]

def ofLetter : Char → List PatternItem
  | 'a' => [.weekdayName false]
  | 'A' => [.weekdayName true]
  | 'b' | 'h' => [.monthName false]
  | 'B' => [.monthName true]
  | 'p' | 'P' => [.halfDay]
  | 'F' => [.number .year, .literal '-', .number .month, .literal '-', .number .day]
  | 'D' | 'x' => slashedDay
  | 'v' => [.number .day, .literal '-', .monthName false, .literal '-', .number .year]
  | 'R' => [.number .hour, .literal ':', .number .minute]
  | 'T' | 'X' => clock .hour
  | 'r' => clock .hourOfHalfDay ++ [.blanks, .halfDay]
  | 'c' =>
    [.weekdayName false, .blanks, .monthName false, .blanks, .number .day, .blanks] ++ clock .hour ++
      [.blanks, .number .year]
  | 'Z' => [.zoneName]
  | 'z' => [.offset .plain]
  | '+' => zonedMoment
  | 'n' | 't' => [.blanks]
  | '%' => [.literal '%']
  | c => [((DatePart.ofLetter? c).map .number).getD .never]

def longDirectives : List (List Char × PatternItem) :=
  [(['.', 'f'], .fraction), (['.', '3', 'f'], .pointAndDigits 3), (['.', '6', 'f'], .pointAndDigits 6),
    (['.', '9', 'f'], .pointAndDigits 9), (['3', 'f'], .fractionDigits 3), (['6', 'f'], .fractionDigits 6),
    (['9', 'f'], .fractionDigits 9), ([':', 'z'], .offset .plain), ([':', ':', 'z'], .offset .plain),
    ([':', ':', ':', 'z'], .offset .plain), (['#', 'z'], .offset .short)]

/-- The elements of the directive at the front of `cs`, where the percent sign is gone already, and its
length.  A number may have a sign for its padding, which is of no account in reading. -/
def directive (cs : List Char) : List PatternItem × Nat :=
  match longDirectives.find? (·.1.isPrefixOf cs), cs with
  | some (spelling, item), _ => ([item], spelling.length)
  | none, [] => ([.never], 0)
  | none, c :: rest =>
    if c = '-' || c = '0' || c = '_' then
      ([((rest.head?.bind DatePart.ofLetter?).map .number).getD .never], 2)
    else (ofLetter c, 1)

/-- The elements of a pattern text, of which the first `skip` characters belong to an earlier element. -/
def ofCharsAfter : Nat → List Char → List PatternItem
  | _, [] => []
  | skip + 1, _ :: cs => ofCharsAfter skip cs
  | 0, c :: cs =>
    if c = '%' then (directive cs).1 ++ ofCharsAfter (directive cs).2 cs
    else (if Text.isBlank c then .blanks else .literal c) :: ofCharsAfter 0 cs

def ofChars (cs : List Char) : List PatternItem :=
  ofCharsAfter 0 cs

end PatternItem
end TabularReport
