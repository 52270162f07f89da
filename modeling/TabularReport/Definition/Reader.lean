import TabularReport.Expr.Parser
import TabularReport.Markup.Document
import TabularReport.Definition.Basic
/-!
Reading a report definition from its document.  Names are trimmed, not empty, and given once for each
kind; datasets name declared data sources, tables name declared datasets, and the fields of a table are
bound to its dataset.  The first fault in the order data sources, datasets, parameters, tables is
reported.
-/
set_option autoImplicit false

namespace TabularReport

inductive NamedKind where
  | datasource
  | dataset
  | field
  | parameter
  | tablix
  | textbox
  deriving DecidableEq

def NamedKind.text : NamedKind → String
  | .datasource => "datasource"
  | .dataset => "dataset"
  | .field => "field"
  | .parameter => "parameter"
  | .tablix => "tablix"
  | .textbox => "textbox"

inductive Place where
  | documentRoot
  | group (name : String)
  | dataset (name : String)
  | queryParameter (dataset parameter : String)
  | defaultValue (parameter : String)
  | tablix (name : String)
  | column (tablix column : String)
  | columnValue (tablix column : String)
  | columnSort (tablix column : String)
  | link (column : String)
  | linkParameter (column parameter : String)
  deriving DecidableEq

def Place.text : Place → String
  | .documentRoot => "document root"
  | .group name => name
  | .dataset name => "DataSet '" ++ name ++ "'"
  | .queryParameter d p => "DataSet '" ++ d ++ "' query parameter '" ++ p ++ "'"
  | .defaultValue p => "ReportParameter '" ++ p ++ "' default value"
  | .tablix name => "Tablix '" ++ name ++ "'"
  | .column t c => "Tablix '" ++ t ++ "' column '" ++ c ++ "'"
  | .columnValue t c => "Tablix '" ++ t ++ "' column '" ++ c ++ "' value"
  | .columnSort t c => "Tablix '" ++ t ++ "' column '" ++ c ++ "' sort expression"
  | .link c => "column '" ++ c ++ "' drillthrough"
  | .linkParameter c p => "column '" ++ c ++ "' drillthrough parameter '" ++ p ++ "'"

inductive Needed where
  | element (path : String)
  | nameOf (element : String)
  | datasource (name : String)
  | dataset (name : String)
  deriving DecidableEq

def Needed.text : Needed → String
  | .element path => path
  | .nameOf e => e ++ "@Name"
  | .datasource name => "DataSource '" ++ name ++ "'"
  | .dataset name => "DataSet '" ++ name ++ "'"

inductive DefinitionError where
  | malformed (cause : Markup.DocumentError)
  | unsupportedNamespace (name : String)
  | missing (needed : Needed) (place : Place)
  | duplicate (kind : NamedKind) (name : String)
  | invalidExpression (place : Place) (cause : SyntaxError)

def DefinitionError.message : DefinitionError → String
  | .malformed cause => "Malformed XML: " ++ cause.text
  | .unsupportedNamespace name => "Unsupported report definition namespace: " ++ name
  | .missing needed place => "Missing element " ++ needed.text ++ " in " ++ place.text
  | .duplicate kind name => "Duplicate " ++ kind.text ++ " name: " ++ name
  | .invalidExpression place cause => "Invalid expression in " ++ place.text ++ ": " ++ cause.message

namespace Definition
open Markup

/-- The namespaces of the four editions of the format that are read. -/
def supportedNamespaces : List String :=
  ["2005", "2008", "2010", "2016"].map fun year =>
    "http://schemas.microsoft.com/sqlserver/reporting/" ++ year ++ "/01/reportdefinition"

def defaultTypeName : String := "System.String"
def defaultWidth : String := "1in"

abbrev Read := Except DefinitionError

def require {α : Type} (needed : Needed) (place : Place) : Option α → Read α
  | some a => .ok a
  | none => .error (.missing needed place)

def noteName (kind : NamedKind) (seen : List String) (name : String) : Read (List String) :=
  if seen.contains name then .error (.duplicate kind name) else .ok (name :: seen)

def nonEmpty? (s : String) : Option String :=
  if s.isEmpty then none else some s

def trimmedName? (e : Element) : Option String :=
  ((e.attribute? "Name").map Text.trim).bind nonEmpty?

def requireName (e : Element) (place : Place) : Read String :=
  require (.nameOf e.name) place (trimmedName? e)

def trimmedChild? (e : Element) (name : String) : Option String :=
  (e.textOf? name).map Text.trim

def exprOf (place : Place) (text : String) : Read Expr :=
  match Expr.ofReportText text with
  | .ok e => .ok e
  | .error cause => .error (.invalidExpression place cause)

def boundExprOf (home : String) (place : Place) (text : String) : Read Expr := do
  return (← exprOf place text).qualify home

def inTurn {α : Type} (read : List String → Element → Read (List String × α)) :
    List String → List Element → Read (List α)
  | _, [] => .ok []
  | seen, e :: es => do
    let (seen, a) ← read seen e
    return a :: (← inTurn read seen es)

def sourceOf (seen : List String) (e : Element) : Read (List String × DataSource) := do
  let name ← requireName e (.group "DataSources")
  let seen ← noteName .datasource seen name
  return (seen, { name, reference := (trimmedChild? e "DataSourceReference").getD "" })

def sourcesOf (root : Element) : Read (List DataSource) :=
  inTurn sourceOf [] (root.descendants "DataSource")

/-- A query parameter; the marks in front of its name are not part of it. -/
def queryParameterOf (dataset : String) (e : Element) : Read QueryParameter := do
  let name ← requireName e (.dataset dataset)
  let value ← exprOf (.queryParameter dataset name) ((e.textOf? "Value").getD "")
  return { name := String.ofList (name.toList.dropWhile (· == '@')), value }

def fieldOf (dataset : String) (seen : List String) (e : Element) : Read (List String × Field) := do
  let name ← requireName e (.dataset dataset)
  let seen ← noteName .field seen name
  return (seen,
    { name
      dataField := ((trimmedChild? e "DataField").bind nonEmpty?).getD name
      typeName := ((trimmedChild? e "TypeName").bind nonEmpty?).getD defaultTypeName })

def datasetOf (sources : List DataSource) (seen : List String) (e : Element) :
    Read (List String × DataSet) := do
  let name ← requireName e (.group "DataSets")
  let seen ← noteName .dataset seen name
  let place := Place.dataset name
  let query ← require (.element "Query") place (e.child? "Query")
  let sourceName ← require (.element "Query/DataSourceName") place (trimmedChild? query "DataSourceName")
  let command ← require (.element "Query/CommandText") place (query.textOf? "CommandText")
  if !sources.any (·.name = sourceName) then throw (.missing (.datasource sourceName) place)
  let parameters ← (query.descendants "QueryParameter").mapM (queryParameterOf name)
  let fields ← inTurn (fieldOf name) [] (e.descendants "Field")
  return (seen, { name, sourceName, command, parameters, fields })

def datasetsOf (root : Element) (sources : List DataSource) : Read (List DataSet) :=
  inTurn (datasetOf sources) [] (root.descendants "DataSet")

/-- The choices of a parameter.  A value without a label is its own label. -/
def validValuesOf? (e : Element) : Option ValidValues :=
  match e.child? "DataSetReference" with
  | some r =>
    let text (name : String) := (trimmedChild? r name).getD ""
    some (.query (text "DataSetName") (text "ValueField") (text "LabelField"))
  | none =>
    (e.child? "ParameterValues").map fun values =>
      .static ((values.childrenCalled "ParameterValue").map fun v =>
        let value := (v.textOf? "Value").getD ""
        { value, label := (v.textOf? "Label").getD value })

/-- The default of a parameter.  A value that is marked as nil is Null. -/
def defaultOf (parameter : String) (e : Element) : Read (Option Expr) :=
  match e.follow? ["DefaultValue", "Values", "Value"] with
  | some value =>
    if value.localAttribute? "nil" = some "true" then .ok (some (.literal .null))
    else some <$> exprOf (.defaultValue parameter) value.text
  | none => .ok none

/-- A parameter; one of an unknown type is a text. -/
def parameterOf (seen : List String) (e : Element) : Read (List String × ReportParameter) := do
  let name ← requireName e (.group "ReportParameters")
  let seen ← noteName .parameter seen name
  let defaultValue ← defaultOf name e
  return (seen,
    { name
      prompt := (e.textOf? "Prompt").getD name
      type := ((trimmedChild? e "DataType").bind ParameterType.ofName?).getD .text
      defaultValue
      multiValue := trimmedChild? e "MultiValue" == some "true"
      validValues := (e.child? "ValidValues").bind validValuesOf? })

def parametersOf (root : Element) : Read (List ReportParameter) :=
  inTurn parameterOf [] (root.descendants "ReportParameter")

/-- The text of the first run inside a text box that has a value. -/
def runText (textbox : Element) : String :=
  (((textbox.descendants "TextRun").findSome? (·.child? "Value")).map (·.text)).getD ""

/-- The style of a text box: of the box, of its first run and of its first styled paragraph. -/
def styleOf (textbox : Element) : Style :=
  let box := textbox.child? "Style"
  let run := (textbox.find? "TextRun").bind (·.child? "Style")
  let paragraph := (textbox.descendants "Paragraph").findSome? (·.child? "Style")
  let text (e : Option Element) (name : String) := e.bind (trimmedChild? · name)
  { backgroundColor := text box "BackgroundColor"
    verticalAlign := text box "VerticalAlign"
    fontSize := text run "FontSize"
    fontWeight := text run "FontWeight"
    color := text run "Color"
    format := text run "Format"
    textAlign := text paragraph "TextAlign" }

def linkParameterOf (home column : String) (e : Element) : Read LinkParameter := do
  let name ← requireName e (.link column)
  let value ← boundExprOf home (.linkParameter column name) ((e.textOf? "Value").getD "")
  return { name, value }

/-- The link of a text box; without the name of a report there is none. -/
def linkOf (home column : String) (textbox : Element) : Read (Option Drillthrough) := do
  let action := (textbox.find? "ActionInfo").bind (·.follow? ["Actions", "Action", "Drillthrough"])
  match action with
  | none => return none
  | some link =>
    match trimmedChild? link "ReportName" with
    | none => return none
    | some reportName =>
      let parameters ← (link.descendants "Parameter").mapM (linkParameterOf home column)
      return some { reportName, parameters }

structure Header where
  text : String := ""
  style : Style := {}
  sort : Option Expr := none

def headerOf (home tablix column : String) : Option Element → Read Header
  | none => .ok {}
  | some textbox => do
    let sort ← (textbox.follow? ["UserSort", "SortExpression"]).mapM fun e =>
      boundExprOf home (.columnSort tablix column) e.text
    return { text := runText textbox, style := styleOf textbox, sort }

structure Detail where
  value : Expr := .literal (.text "")
  style : Style := {}
  link : Option Drillthrough := none

def detailOf (home tablix column : String) : Option Element → Read Detail
  | none => .ok {}
  | some textbox => do
    let value ← boundExprOf home (.columnValue tablix column) (runText textbox)
    let link ← linkOf home column textbox
    return { value, style := styleOf textbox, link }

/-- A column of a table at its place, counted from 1, with the text boxes of its two cells.  It is named
for the box of its detail cell, or else for the table and its place. -/
def columnOf (scope : Declarations) (tablix : String) (seen : List String) (place : Nat)
    (layout : Element) (headerBox detailBox : Option Element) : Read (List String × Column) := do
  let name := (detailBox.bind trimmedName?).getD (tablix ++ "_Column" ++ natText place)
  let seen ← noteName .textbox seen name
  let header ← headerOf scope.home tablix name headerBox
  let detail ← detailOf scope.home tablix name detailBox
  let type := scope.typeOf detail.value
  return (seen,
    { name
      width := ((trimmedChild? layout "Width").bind nonEmpty?).getD defaultWidth
      headerText := header.text
      headerStyle := header.style
      value := detail.value
      detailStyle := detail.style
      type
      sort := header.sort
      sortType := (header.sort.map scope.typeOf).getD type
      drillthrough := detail.link })

/-- The columns from the one at `place` on; the cells of the header row and of the detail row are taken
in step with them. -/
def columnsOf (scope : Declarations) (tablix : String) :
    List String → Nat → List Element → List Element → List Element → Read (List String × List Column)
  | seen, _, [], _, _ => .ok (seen, [])
  | seen, place, layout :: layouts, headers, details => do
    let box (cells : List Element) := cells.head?.bind (·.find? "Textbox")
    let (seen, column) ← columnOf scope tablix seen place layout (box headers) (box details)
    let (seen, columns) ←
      columnsOf scope tablix seen (place + 1) layouts (headers.drop 1) (details.drop 1)
    return (seen, column :: columns)

def rowCells : Option Element → List Element
  | some row => row.descendants "TablixCell"
  | none => []

def bodyParts (e : Element) (steps : List String) : List Element :=
  match e.find? "TablixBody" with
  | some body => body.reached steps
  | none => []

/-- All columns of a table: the first row has their headers, the second their details. -/
def bodyOf (scope : Declarations) (tablix : String) (seen : List String) (e : Element) :
    Read (List String × List Column) :=
  let rows := bodyParts e ["TablixRows", "TablixRow"]
  columnsOf scope tablix seen 1 (bodyParts e ["TablixColumns", "TablixColumn"]) (rowCells rows[0]?)
    (rowCells rows[1]?)

def checkDatasets (datasets : List DataSet) (tablix : String) (columns : List Column) : Read Unit :=
  columns.forM fun column =>
    column.expressions.forM fun e =>
      match e.datasetsNamed.find? fun name => !datasets.any (·.name = name) with
      | some name => throw (.missing (.dataset name) (.column tablix column.name))
      | none => pure ()

def tablixesOf (datasets : List DataSet) (parameters : List ReportParameter) :
    List String → List String → List Element → Read (List Tablix)
  | _, _, [] => .ok []
  | seen, boxes, e :: es => do
    let name ← requireName e (.group "ReportItems")
    let seen ← noteName .tablix seen name
    let dataset ← require (.element "DataSetName") (.tablix name)
      ((trimmedChild? e "DataSetName").bind nonEmpty?)
    if !datasets.any (·.name = dataset) then throw (.missing (.dataset dataset) (.tablix name))
    let (boxes, columns) ← bodyOf ⟨dataset, datasets, parameters⟩ name boxes e
    checkDatasets datasets name columns
    return { name, dataset, columns } :: (← tablixesOf datasets parameters seen boxes es)

def ofElement (root : Element) : Read Definition := do
  if root.name ≠ "Report" then throw (.missing (.element "Report") .documentRoot)
  match root.attribute? "xmlns" with
  | some name => if !supportedNamespaces.contains name then throw (.unsupportedNamespace name)
  | none => pure ()
  let sources ← sourcesOf root
  let datasets ← datasetsOf root sources
  let parameters ← parametersOf root
  let tablixes ← tablixesOf datasets parameters [] [] (root.descendants "Tablix")
  return { sources, datasets, parameters, tablixes }

def ofBytes (bytes : ByteArray) : Read Definition :=
  match Element.ofBytes bytes with
  | .ok root => ofElement root
  | .error cause => .error (.malformed cause)

end Definition
end TabularReport
