import TabularReport.Calendar.DateTime

set_option autoImplicit false

namespace TabularReport

inductive Scalar where
  | null
  | text (s : String)
  | number (x : Double)
  | boolean (b : Bool)
  | date (t : DateTime)
  deriving DecidableEq

inductive ScalarKind where
  | null
  | text
  | number
  | boolean
  | date
  deriving DecidableEq

def ScalarKind.name : ScalarKind → String
  | .null => "null"
  | .text => "text"
  | .number => "number"
  | .boolean => "boolean"
  | .date => "date"

instance : Inhabited Scalar := ⟨.null⟩

def intText (i : Int) : String :=
  String.ofList (Double.signChars (i < 0) ++ digitsOf i.natAbs)

namespace Scalar

def kind : Scalar → ScalarKind
  | .null => .null
  | .text _ => .text
  | .number _ => .number
  | .boolean _ => .boolean
  | .date _ => .date

def isNull : Scalar → Bool
  | .null => true
  | _ => false

/-- The number of a number, or of a text that spells one between blanks. -/
def number? : Scalar → Option Double
  | .number x => some x
  | .text s => Double.readChars? (Text.trimList s.toList)
  | _ => none

def date? : Scalar → Option DateTime
  | .date t => some t
  | _ => none

/-- Whole numbers below 10^15 are written as such, so that zero has no sign. -/
def numberText (x : Double) : String :=
  if x.isWhole && x.magnitudeBelow (Nat.pow 10 15) then intText x.truncate else x.text

def display : Scalar → String
  | .null => ""
  | .text s => s
  | .number x => numberText x
  | .boolean b => if b then "True" else "False"
  | .date t => t.text

/-- Keys compare by their plain text, so that the number 42 and the text `42` meet.  Null is no key. -/
def key? : Scalar → Option String
  | .null => none
  | v => some v.display

end Scalar
end TabularReport
