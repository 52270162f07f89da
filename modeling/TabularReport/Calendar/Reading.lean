import TabularReport.Calendar.Pattern

set_option autoImplicit false

namespace TabularReport

def readDigits? (most : Nat) (cs : List Char) : Option (List Char × List Char) :=
  let ds := (cs.take most).takeWhile Char.isDigit
  if ds.isEmpty then none else some (ds, cs.drop ds.length)

/-- The number that `places` digits at the front of `cs` spell as a fraction, in billionths. -/
def readPlaces? (places : Nat) (cs : List Char) : Option (Nat × List Char) := do
  let (ds, rest) ← readDigits? places cs
  guard (ds.length = places)
  return (digitsValue ds * Nat.pow 10 (9 - places), rest)

namespace DatePart

/-- Years may have a sign, and then any number of digits. -/
def isSigned : DatePart → Bool
  | .year | .isoYear => true
  | _ => false

def width? : DatePart → Option Nat
  | .year | .isoYear => some 4
  | .dayOfYear => some 3
  | .quarter | .weekdayFromSunday | .weekdayFromMonday => some 1
  | .nano => some 9
  | .epochSeconds => none
  | _ => some 2

def read? (part : DatePart) (cs : List Char) : Option (Int × List Char) :=
  match part.isSigned, Text.trimStart cs with
  | true, '-' :: cs => do
    let (ds, rest) ← readDigits? cs.length cs
    return (-(digitsValue ds : Int), rest)
  | true, '+' :: cs => do
    let (ds, rest) ← readDigits? cs.length cs
    return (digitsValue ds, rest)
  | _, cs => do
    let (ds, rest) ← readDigits? (part.width?.getD cs.length) cs
    return (digitsValue ds, rest)

end DatePart

def monthNames : List (List Char × List Char) :=
  [("jan", "uary"), ("feb", "ruary"), ("mar", "ch"), ("apr", "il"), ("may", ""), ("jun", "e"),
    ("jul", "y"), ("aug", "ust"), ("sep", "tember"), ("oct", "ober"), ("nov", "ember"),
    ("dec", "ember")].map fun (a, b) => (a.toList, b.toList)

def weekdayNames : List (List Char × List Char) :=
  [("mon", "day"), ("tue", "sday"), ("wed", "nesday"), ("thu", "rsday"), ("fri", "day"),
    ("sat", "urday"), ("sun", "day")].map fun (a, b) => (a.toList, b.toList)

def afterWord? (word cs : List Char) : Option (List Char) :=
  if (cs.take word.length).map Char.toLower == word then some (cs.drop word.length) else none

/-- The place of the short name that starts `cs`; with `orLong` the rest of the name is taken too. -/
def readName? (names : List (List Char × List Char)) (orLong : Bool) (cs : List Char) :
    Option (Nat × List Char) := do
  let i ← names.findIdx? fun (short, _) => (afterWord? short cs).isSome
  let (short, others) ← names[i]?
  let rest := cs.drop short.length
  return (i, if orLong then (afterWord? others rest).getD rest else rest)

/-- Minutes of two digits below 60; with `orNone` the text may end instead. -/
def readOffsetMinutes? (orNone : Bool) : List Char → Option (Nat × List Char)
  | [] => if orNone then some (0, []) else none
  | a :: b :: rest =>
    if a.isDigit && a.toNat < '6'.toNat && b.isDigit then some (digitsValue [a, b], rest) else none
  | [_] => none

/-- Hours of two digits and minutes, in seconds.  Colons and blanks may stand between them. -/
def readOffsetTime? (orHours : Bool) (cs : List Char) : Option (Int × List Char) := do
  let (hours, rest) ← readDigits? 2 cs
  guard (hours.length = 2)
  let (minutes, rest) ← readOffsetMinutes? orHours (rest.dropWhile fun c => c = ':' || Text.isBlank c)
  return (3600 * digitsValue hours + 60 * minutes, rest)

def OffsetForm.read? (form : OffsetForm) (cs : List Char) : Option (Int × List Char) :=
  let cs := Text.trimStart cs
  match (if form = .named then afterWord? ['u', 't', 'c'] cs else none), cs with
  | some rest, _ => some (0, rest)
  | none, '+' :: rest => readOffsetTime? (form = .short) rest
  | none, '-' :: rest | none, '\u2212' :: rest => do
    let (n, rest) ← readOffsetTime? (form = .short) rest
    return (-n, rest)
  | none, c :: rest => if form ≠ .plain && (c = 'Z' || c = 'z') then some (0, rest) else none
  | none, [] => none

def PatternItem.read? (p : DateParts) (cs : List Char) : PatternItem → Option (DateParts × List Char)
  | .literal c =>
    match cs with
    | d :: rest => if c = d then some (p, rest) else none
    | [] => none
  | .oneOf choices =>
    match cs with
    | d :: rest => if choices.contains d then some (p, rest) else none
    | [] => none
  | .blanks => some (p, Text.trimStart cs)
  | .number part => do
    let (n, rest) ← part.read? cs
    return (← p.set? part n, rest)
  | .monthName orLong => do
    let (i, rest) ← readName? monthNames orLong cs
    return (← p.set? .month (i + 1), rest)
  | .weekdayName orLong => do
    let (i, rest) ← readName? weekdayNames orLong cs
    return (← p.set? .weekdayFromMonday (i + 1), rest)
  | .halfDay =>
    match afterWord? ['a', 'm'] cs, afterWord? ['p', 'm'] cs with
    | some rest, _ => (p.setHalf? 0).map (·, rest)
    | none, some rest => (p.setHalf? 1).map (·, rest)
    | none, none => none
  | .fraction =>
    match cs with
    | '.' :: cs => do
      let (ds, rest) ← readDigits? 9 cs
      let nano := digitsValue ds * Nat.pow 10 (9 - ds.length)
      return (← p.set? .nano nano, rest.dropWhile Char.isDigit)
    | cs => some (p, cs)
  | .pointAndDigits places =>
    match cs with
    | '.' :: cs => do
      let (nano, rest) ← readPlaces? places cs
      return (← p.set? .nano nano, rest)
    | cs => some (p, cs)
  | .fractionDigits places => do
    let (nano, rest) ← readPlaces? places cs
    return (← p.set? .nano nano, rest)
  | .zoneName => some (p, cs.dropWhile fun c => !Text.isBlank c)
  | .offset form => do
    let (seconds, rest) ← form.read? cs
    return (← p.setOffset? seconds, rest)
  | .never => none

def readParts? : List PatternItem → DateParts → List Char → Option DateParts
  | [], p, cs => if cs.isEmpty then some p else none
  | item :: items, p, cs => do
    let (p, rest) ← item.read? p cs
    readParts? items p rest

def DateTime.read? (pattern text : List Char) : Option DateTime := do
  (← readParts? (PatternItem.ofChars pattern) {} text).resolve?

end TabularReport
