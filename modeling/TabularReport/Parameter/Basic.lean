import TabularReport.OrderedMap
import TabularReport.Definition.Basic
import TabularReport.Settings.Basic

set_option autoImplicit false

namespace TabularReport

inductive ParameterValue where
  | single (v : Scalar)
  | multi (vs : List Scalar)
  deriving DecidableEq

namespace ParameterValue

/-- The value that expressions see; an empty list shows as Null. -/
def first : ParameterValue → Scalar
  | .single v => v
  | .multi vs => vs.headD .null

def values : ParameterValue → List Scalar
  | .single v => [v]
  | .multi vs => vs

end ParameterValue

abbrev ParameterValues := OrderedMap String ParameterValue

def ParameterValues.first? (values : ParameterValues) (name : String) : Option Scalar :=
  (values.get? name).map (·.first)

/-- The truth value that a text spells, up to case and outer blanks. -/
def readBoolean? (s : String) : Option Bool :=
  if Text.sameIgnoringCase (Text.trim s) "true" then some true
  else if Text.sameIgnoringCase (Text.trim s) "false" then some false
  else none

namespace Scalar

def isBlankText : Scalar → Bool
  | .text s => (Text.trim s).isEmpty
  | _ => false

def toInteger? (v : Scalar) : Option Scalar :=
  (v.number?.filter (·.isWhole)).map .number

def toFloat? (v : Scalar) : Option Scalar :=
  (v.number?.filter (·.isFinite)).map .number

def toBoolean? : Scalar → Option Scalar
  | .boolean b => some (.boolean b)
  | .text s => (readBoolean? s).map .boolean
  | _ => none

def toDate? (settings : Settings) : Scalar → Option Scalar
  | .date t => some (.date t)
  | .text s => (settings.readDate? s).map .date
  | _ => none

def coerce? (settings : Settings) (type : ParameterType) (v : Scalar) : Option Scalar :=
  if v.isNull then some .null
  else
    match type with
    | .text => some (.text v.display)
    | .integer => if v.isBlankText then some .null else v.toInteger?
    | .float => if v.isBlankText then some .null else v.toFloat?
    | .boolean => if v.isBlankText then some .null else v.toBoolean?
    | .dateTime => if v.isBlankText then some .null else v.toDate? settings

end Scalar

namespace ParameterValue

/-- The value in the shape of a list or of a single value.  Null makes an empty list, and of a list the
first value is taken. -/
def reshape (multiValue : Bool) (v : ParameterValue) : ParameterValue :=
  match multiValue, v with
  | true, .single v => .multi (if v.isNull then [] else [v])
  | false, .multi vs => .single (vs.headD .null)
  | _, v => v

def mapM {ε : Type} (f : Scalar → Except ε Scalar) : ParameterValue → Except ε ParameterValue
  | .single v => .single <$> f v
  | .multi vs => .multi <$> vs.mapM f

end ParameterValue
end TabularReport
