import TabularReport.Settings.Json
import TabularReport.Calendar.Reading

set_option autoImplicit false

namespace TabularReport

inductive PlaceholderStyle where
  | colon
  | pyformat
  | atSign
  | dollar
  deriving DecidableEq

namespace PlaceholderStyle

def name : PlaceholderStyle → String
  | .colon => "colon"
  | .pyformat => "pyformat"
  | .atSign => "at_sign"
  | .dollar => "dollar"

def ofName? : String → Option PlaceholderStyle
  | "colon" => some .colon
  | "pyformat" => some .pyformat
  | "at_sign" => some .atSign
  | "dollar" => some .dollar
  | _ => none

def render (style : PlaceholderStyle) (name : String) : String :=
  match style with
  | .colon => ":" ++ name
  | .pyformat => "%(" ++ name ++ ")s"
  | .atSign => "@" ++ name
  | .dollar => "$" ++ name

end PlaceholderStyle

def defaultDateFormats : List String :=
  ["%Y-%m-%d", "%m/%d/%Y", "%d/%m/%Y", "%Y/%m/%d", "%Y-%m-%dT%H:%M:%S%.f", "%Y-%m-%d %H:%M:%S%.f"]

structure Settings where
  placeholderStyle : PlaceholderStyle := .colon
  dateFormats : List String := defaultDateFormats
  deriving DecidableEq

namespace Settings

/-- The moment that the text without its outer blanks spells in the first pattern that fits. -/
def readDate? (s : Settings) (text : String) : Option DateTime :=
  let cs := Text.trimList text.toList
  s.dateFormats.findSome? fun format => DateTime.read? format.toList cs

/-- A style is its name, or an object with its name as the only key and null as the value. -/
def styleOf? : Json → Option PlaceholderStyle
  | .string (some name) => PlaceholderStyle.ofName? name
  | .object [(some name, .null)] => PlaceholderStyle.ofName? name
  | _ => none

def formatsOf? : Json → Option (List String)
  | .array items => items.mapM fun
    | .string s => s
    | _ => none
  | _ => none

def ofParts? (style formats : Option Json) : Option Settings := do
  let placeholderStyle ← style.elim (some .colon) styleOf?
  let dateFormats ← formats.elim (some defaultDateFormats) formatsOf?
  return { placeholderStyle, dateFormats }

/-- The value of a key if it is there; a key that is there twice has none. -/
def member? (name : String) (members : List (Option String × Json)) : Option (Option Json) :=
  match members.filter (·.1 == some name) with
  | [] => some none
  | [m] => some (some m.2)
  | _ => none

/-- Settings are an object, of which other keys have no effect, or an array of their values in order. -/
def ofJson? : Json → Option Settings
  | .object members => do
    guard (members.all (·.1.isSome))
    ofParts? (← member? "placeholder_style" members) (← member? "date_input_formats" members)
  | .array items =>
    if items.length ≤ 2 then ofParts? items[0]? items[1]? else none
  | _ => none

def ofText? (s : String) : Option Settings :=
  (Json.read? s).bind ofJson?

end Settings
end TabularReport
