import TabularReport.Definition.Basic
import TabularReport.Text.Lower
import TabularReport.Store

set_option autoImplicit false

namespace TabularReport

/-- A digit string with a comma before every group of three digits, counted from its end. -/
def groupDigits : List Char → List Char
  | [] => []
  | d :: ds => d :: (if !ds.isEmpty && ds.length % 3 == 0 then ',' :: groupDigits ds else groupDigits ds)

/-- Groups the whole part of a decimal text, which may have a minus sign. -/
def groupThousands (cs : List Char) : List Char :=
  let (sign, digits) := match cs with
    | '-' :: cs => (['-'], cs)
    | cs => ([], cs)
  sign ++ groupDigits (digits.takeWhile (· != '.')) ++ digits.dropWhile (· != '.')

def Double.unsignedZero (x : Double) : Double :=
  if x.isZero then .finite false .zero else x

def Double.displayed (x : Double) : List Char :=
  if x.isFinite then groupThousands (x.unsignedZero.fixed (if x.isWhole then 0 else 2)) else x.chars

def Scalar.displayed : Scalar → String
  | .null => ""
  | .text s => s
  | .number x => String.ofList x.displayed
  | .boolean b => if b then "Yes" else "No"
  | .date t => t.dayText

inductive SortKey where
  | number (x : Double)
  | date (t : DateTime)
  | text (s : String)
  | null
  deriving DecidableEq

namespace SortKey

/-- The key of a value in a column of the given type.  A value that does not fit the type counts as its
text. -/
def ofValue (type : ColumnType) (v : Scalar) : SortKey :=
  let asText := SortKey.text (Text.lower v.display)
  match type, v with
  | _, .null => .null
  | .number, v =>
    match v.number? with
    | some x => if x.isNan then asText else .number x
    | none => asText
  | .date, .date t => .date t
  | _, _ => asText

def isNull : SortKey → Bool
  | .null => true
  | _ => false

def rank : SortKey → Nat
  | .number _ => 0
  | .date _ => 1
  | .text _ => 2
  | .null => 3

/-- The order of keys, which tells the two zeros apart. -/
def compareTo : SortKey → SortKey → Ordering
  | .number x, .number y => x.totalCompare y
  | .date t, .date s => t.compareTo s
  | .text a, .text b => compareOfLessAndEq a b
  | a, b => compare a.rank b.rank

/-- Equality of keys, for which the two zeros are one number. -/
def same : SortKey → SortKey → Bool
  | .number x, .number y => x.same y
  | .date t, .date s => t == s
  | .text a, .text b => a == b
  | .null, .null => true
  | _, _ => false

end SortKey

inductive SortDirection where
  | ascending
  | descending
  deriving DecidableEq

namespace SortDirection

/-- Whether `a` may stand before `b`.  Null comes last in both directions. -/
def precedes (direction : SortDirection) (a b : SortKey) : Bool :=
  if b.isNull then true
  else if a.isNull then false
  else
    match direction with
    | .ascending => (a.compareTo b).isLE
    | .descending => (b.compareTo a).isLE

def positions (direction : SortDirection) (keys : List SortKey) : List Nat :=
  (keys.zipIdx.mergeSort fun a b => direction.precedes a.1 b.1).map (·.2)

end SortDirection

structure Link where
  reportName : String
  parameters : List (String × Scalar)
  deriving DecidableEq

def fileOf (reportName : String) : String :=
  String.ofList (reportName.toList.reverse.takeWhile (· != '/')).reverse

def Link.file (l : Link) : String :=
  fileOf l.reportName

structure TableCell where
  value : Scalar
  type : ColumnType
  displayed : String
  style : Style
  sortKey : Option SortKey
  link : Option Link
  deriving DecidableEq

structure TableRow where
  ordinal : Nat
  cells : List TableCell
  deriving DecidableEq

structure TableHeader where
  name : String
  text : String
  style : Style
  type : ColumnType
  sortable : Bool
  width : String
  deriving DecidableEq

structure Table where
  tablix : String
  dataset : String
  headers : List TableHeader
  rows : List TableRow
  deriving DecidableEq

namespace Column

def header (c : Column) : TableHeader :=
  { name := c.name
    text := c.headerText
    style := c.headerStyle
    type := c.type
    sortable := c.canSort
    width := c.width }

/-- The sort key of a cell: of its evaluated sort expression, or of its value if the column can be
sorted. -/
def sortKeyOf (c : Column) (cell : Cell) : Option SortKey :=
  match cell.sortKey with
  | some v => some (.ofValue c.sortType v)
  | none => if c.canSort then some (.ofValue c.type cell.value) else none

/-- The link of a cell; a declared parameter that was not evaluated is Null. -/
def linkOf (c : Column) (cell : Cell) : Option Link :=
  c.drillthrough.map fun d =>
    { reportName := d.reportName
      parameters := d.parameters.map fun p =>
        (p.name, ((cell.links.find? (·.1 = p.name)).map (·.2)).getD .null) }

def tableCell (c : Column) (cell : Cell) : TableCell :=
  { value := cell.value
    type := c.type
    displayed := cell.value.displayed
    style := c.detailStyle
    sortKey := c.sortKeyOf cell
    link := c.linkOf cell }

end Column

namespace Tablix

/-- The row of the table for a row of the dataset; a column without a cell shows Null. -/
def tableRow (t : Tablix) (row : DataRow) : TableRow :=
  { ordinal := row.ordinal
    cells := t.columns.map fun c => c.tableCell ((row.cell? c.name).getD { value := .null }) }

def table (t : Tablix) (rows : List DataRow) : Table :=
  { tablix := t.name
    dataset := t.dataset
    headers := t.columns.map Column.header
    rows := rows.map t.tableRow }

end Tablix

namespace Table

def cell? (t : Table) (row column : Nat) : Option TableCell :=
  t.rows[row]?.bind (·.cells[column]?)

def keyOf (type : ColumnType) (column : Nat) (row : TableRow) : SortKey :=
  match row.cells[column]? with
  | some cell => cell.sortKey.getD (.ofValue type cell.value)
  | none => .null

def keys? (t : Table) (name : String) : Option (List SortKey) := do
  let column ← t.headers.findIdx? (·.name = name)
  let header ← t.headers[column]?
  return t.rows.map (keyOf header.type column)

def order? (t : Table) (name : String) (direction : SortDirection) : Option (List Nat) :=
  (t.keys? name).map direction.positions

def rowsAt (t : Table) (positions : List Nat) : List TableRow :=
  positions.filterMap (t.rows[·]?)

end Table

def Style.declarations (s : Style) : List (String × String) :=
  [("background-color", s.backgroundColor), ("color", s.color), ("font-size", s.fontSize),
    ("font-weight", s.fontWeight), ("text-align", s.textAlign.map Text.lower),
    ("vertical-align", s.verticalAlign.map Text.lower)].filterMap fun (property, value) =>
      value.map (property, ·)

def Style.css (s : Style) : String :=
  "; ".intercalate (s.declarations.map fun (property, value) => property ++ ": " ++ value)

end TabularReport
