import TabularReport.OrderedMap
import TabularReport.Scalar

set_option autoImplicit false

namespace TabularReport

abbrev Row := OrderedMap String Scalar

/-- The evaluated cell of a column.  The sort key is there if the column can be sorted; the links are the
bindings of the link in the order of their declaration. -/
structure Cell where
  value : Scalar
  sortKey : Option Scalar := none
  links : List (String × Scalar) := []
  deriving DecidableEq

/-- A row of a dataset: its position in the result, counted from 1, its declared fields, and the cells of
the columns that were evaluated. -/
structure DataRow where
  ordinal : Nat
  fields : Row
  cells : OrderedMap String Cell := ∅
  deriving DecidableEq

namespace DataRow

def field? (r : DataRow) (name : String) : Option Scalar :=
  r.fields.get? name

def cell? (r : DataRow) (column : String) : Option Cell :=
  r.cells.get? column

/-- The field with this name, or else the value of the cell. -/
def get? (r : DataRow) (name : String) : Option Scalar :=
  (r.field? name).or ((r.cell? name).map (·.value))

def numbered (rows : List Row) : List DataRow :=
  rows.mapIdx fun i fields => { ordinal := i + 1, fields }

end DataRow

abbrev KeyIndex := OrderedMap String Nat

namespace KeyIndex

/-- The key that a row has in a field.  Rows whose field is Null or missing have none. -/
def keyOf? (keyField : String) (row : DataRow) : Option String :=
  (row.get? keyField).bind (·.key?)

def addRows (keyField : String) (index : KeyIndex) (start : Nat) : List DataRow → KeyIndex
  | [] => index
  | row :: rows =>
    let index := match keyOf? keyField row with
      | some key => index.insertNew key start
      | none => index
    addRows keyField index (start + 1) rows

def ofRows (keyField : String) (rows : List DataRow) : KeyIndex :=
  addRows keyField .empty 0 rows

def position? (index : KeyIndex) (key : Scalar) : Option Nat :=
  key.key?.bind (OrderedMap.get? index ·)

end KeyIndex

structure Store where
  fetched : OrderedMap String (List DataRow) := ∅
  evaluated : OrderedMap String (List DataRow) := ∅
  indices : OrderedMap (String × String) KeyIndex := ∅

namespace Store

def rows? (s : Store) (dataset : String) : Option (List DataRow) :=
  s.fetched.get? dataset

def evaluated? (s : Store) (dataset : String) : Option (List DataRow) :=
  s.evaluated.get? dataset

def index? (s : Store) (dataset keyField : String) : Option KeyIndex :=
  s.indices.get? (dataset, keyField)

def isIndexed (s : Store) (dataset keyField : String) : Bool :=
  (s.index? dataset keyField).isSome

/-- Indices that are there already stay as they are. -/
def putRows (s : Store) (dataset : String) (rows : List DataRow) : Store :=
  { s with fetched := s.fetched.insert dataset rows }

def putEvaluated (s : Store) (dataset : String) (rows : List DataRow) : Store :=
  { s with evaluated := s.evaluated.insert dataset rows }

def withIndex? (s : Store) (dataset keyField : String) : Option Store :=
  (s.rows? dataset).map fun rows =>
    { s with indices := s.indices.insert (dataset, keyField) (.ofRows keyField rows) }

/-- Looks a key up.  There is no answer without an index, and no row in the answer without a match. -/
def find? (s : Store) (dataset keyField : String) (key : Scalar) : Option (Option DataRow) := do
  let index ← s.index? dataset keyField
  let rows ← s.rows? dataset
  return (index.position? key).bind (rows[·]?)

end Store
end TabularReport
