import TabularReport.Expr.Basic
import TabularReport.Text.Basic

set_option autoImplicit false

namespace TabularReport

/-- A named connection; what it refers to is opaque here. -/
structure DataSource where
  name : String
  reference : String
  deriving DecidableEq

structure QueryParameter where
  name : String
  value : Expr
  deriving DecidableEq

inductive ColumnType where
  | text
  | number
  | date
  deriving DecidableEq

namespace ColumnType

def numberTypes : List String :=
  ["Int16", "Int32", "Int64", "UInt16", "UInt32", "UInt64", "Byte", "SByte", "Decimal", "Double", "Single"]

def dateTypes : List String :=
  ["DateTime", "DateTimeOffset", "Date"]

def dropRepeated (word : List Char) : Nat → List Char → List Char
  | 0, cs => cs
  | steps + 1, cs =>
    if word.isPrefixOf cs then dropRepeated word steps (cs.drop word.length) else cs

/-- The column type of a declared type name, of which any prefix `System.` is ignored. -/
def ofTypeName (name : String) : ColumnType :=
  let cs := Text.trimList name.toList
  let short := String.ofList (dropRepeated "System.".toList cs.length cs)
  if numberTypes.contains short then .number
  else if dateTypes.contains short then .date
  else .text

def ofKind : ScalarKind → ColumnType
  | .number => .number
  | .date => .date
  | _ => .text

end ColumnType

/-- A field of a dataset and the column of the query result that it reads. -/
structure Field where
  name : String
  dataField : String
  typeName : String
  deriving DecidableEq

def Field.columnType (f : Field) : ColumnType :=
  .ofTypeName f.typeName

structure DataSet where
  name : String
  sourceName : String
  command : String
  parameters : List QueryParameter
  fields : List Field
  deriving DecidableEq

namespace DataSet

def fieldNames (d : DataSet) : List String :=
  d.fields.map (·.name)

def field? (d : DataSet) (name : String) : Option Field :=
  d.fields.find? (·.name = name)

/-- The query parameter with this name, up to the case of ASCII letters. -/
def parameter? (d : DataSet) (name : String) : Option QueryParameter :=
  d.parameters.find? fun p => Text.sameIgnoringCase p.name name

end DataSet

inductive ParameterType where
  | text
  | boolean
  | integer
  | float
  | dateTime
  deriving DecidableEq

namespace ParameterType

def ofName? (name : String) : Option ParameterType :=
  match Text.trim name with
  | "String" => some .text
  | "Boolean" => some .boolean
  | "Integer" => some .integer
  | "Float" => some .float
  | "DateTime" => some .dateTime
  | _ => none

def name : ParameterType → String
  | .text => "Text"
  | .boolean => "Boolean"
  | .integer => "Integer"
  | .float => "Float"
  | .dateTime => "DateTime"

end ParameterType

structure ValidValue where
  value : String
  label : String
  deriving DecidableEq

inductive ValidValues where
  | static (choices : List ValidValue)
  | query (dataset valueField labelField : String)
  deriving DecidableEq

structure ReportParameter where
  name : String
  prompt : String
  type : ParameterType
  defaultValue : Option Expr
  multiValue : Bool
  validValues : Option ValidValues
  deriving DecidableEq

structure Style where
  backgroundColor : Option String := none
  verticalAlign : Option String := none
  fontSize : Option String := none
  fontWeight : Option String := none
  color : Option String := none
  format : Option String := none
  textAlign : Option String := none
  deriving DecidableEq

def Style.isEmpty (s : Style) : Bool :=
  s == {}

structure LinkParameter where
  name : String
  value : Expr
  deriving DecidableEq

structure Drillthrough where
  reportName : String
  parameters : List LinkParameter
  deriving DecidableEq

structure Column where
  name : String
  width : String
  headerText : String
  headerStyle : Style
  value : Expr
  detailStyle : Style
  type : ColumnType
  sort : Option Expr
  sortType : ColumnType
  drillthrough : Option Drillthrough
  deriving DecidableEq

namespace Column

def canSort (c : Column) : Bool :=
  c.sort.isSome

def linkParameters (c : Column) : List LinkParameter :=
  match c.drillthrough with
  | some d => d.parameters
  | none => []

/-- The value, the sort expression and the bindings of the link, in this order. -/
def expressions (c : Column) : List Expr :=
  c.value :: (c.sort.toList ++ c.linkParameters.map (·.value))

end Column

structure Tablix where
  name : String
  dataset : String
  columns : List Column
  deriving DecidableEq

namespace Tablix

def column? (t : Tablix) (name : String) : Option Column :=
  t.columns.find? (·.name = name)

def expressions (t : Tablix) : List Expr :=
  t.columns.flatMap (·.expressions)

end Tablix

structure Definition where
  sources : List DataSource := []
  datasets : List DataSet := []
  parameters : List ReportParameter := []
  tablixes : List Tablix := []
  deriving DecidableEq

namespace Definition

def source? (d : Definition) (name : String) : Option DataSource :=
  d.sources.find? (·.name = name)

def dataset? (d : Definition) (name : String) : Option DataSet :=
  d.datasets.find? (·.name = name)

def parameter? (d : Definition) (name : String) : Option ReportParameter :=
  d.parameters.find? (·.name = name)

def tablix? (d : Definition) (name : String) : Option Tablix :=
  d.tablixes.find? (·.name = name)

def declaresDataset (d : Definition) (name : String) : Bool :=
  (d.dataset? name).isSome

def tablixesOn (d : Definition) (dataset : String) : List Tablix :=
  d.tablixes.filter (·.dataset = dataset)

end Definition

/-- The declarations that a column of a table bound to `home` can refer to. -/
structure Declarations where
  home : String
  datasets : List DataSet
  parameters : List ReportParameter

namespace Declarations

/-- The declared type of a field; undeclared fields count as text. -/
def typeOfField (s : Declarations) (dataset field : String) : ColumnType :=
  match (s.datasets.find? (·.name = dataset)).bind (·.field? field) with
  | some f => f.columnType
  | none => .text

def typeOfParameter (s : Declarations) (name : String) : ColumnType :=
  match s.parameters.find? (·.name = name) with
  | some p =>
    match p.type with
    | .integer | .float => .number
    | .dateTime => .date
    | _ => .text
  | none => .text

def typeOf (s : Declarations) : Expr → ColumnType
  | .literal value => .ofKind value.kind
  | .field dataset name => s.typeOfField (dataset.getD s.home) name
  | .parameter name => s.typeOfParameter name
  | .rowNumber _ => .number
  | .lookup _ source _ valueField => s.typeOfField source valueField
  | .binary .concat _ _ => .text
  | .binary _ _ _ => .number
  | .negate _ => .number

end Declarations
end TabularReport
