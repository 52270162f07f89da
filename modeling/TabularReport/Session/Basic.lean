import TabularReport.Parameter.Resolution
import TabularReport.Query.Command
/-!
Sessions: one execution of a report.  Each dataset is queried at most once with success, when its rows
are first wanted or first searched by a lookup.  The datasets that lookups search are only fetched; no
column of their own tables is evaluated for that, so datasets may search each other or themselves.
-/
set_option autoImplicit false

namespace TabularReport

structure Request where
  source : DataSource
  dataset : String
  command : Command
  deriving DecidableEq

/-- What runs queries.  Its reply to a request may depend on the requests made before. -/
abbrev Runner := List Request → Request → Except String (List Row)

structure Session where
  definition : Definition
  settings : Settings
  parameters : ParameterValues
  runner : Runner

/-- What a session has done so far: what it keeps, and the requests it made. -/
structure Progress where
  store : Store := {}
  requests : List Request := []

/-- The declared fields of a row of a result, by the column that each reads or else by its own name. -/
def DataSet.fieldsOf (dataset : DataSet) (result : Row) : Row :=
  .ofList (dataset.fields.map fun f =>
    (f.name, ((result.get? f.dataField).or (result.get? f.name)).getD .null))

def DataSet.rowsOf (dataset : DataSet) (reply : List Row) : List DataRow :=
  DataRow.numbered (reply.map dataset.fieldsOf)

namespace Session

def start (definition : Definition) (settings : Settings) (runner : Runner) (supplied : ParameterValues) :
    Except ReportError Session := do
  return { definition, settings, runner, parameters := ← definition.parameterValues settings supplied }

def request (s : Session) (dataset : DataSet) : Except ReportError Request := do
  match s.definition.source? dataset.sourceName with
  | none => throw (.unknownDatasource dataset.name dataset.sourceName)
  | some source =>
    let command ← dataset.commandFor s.definition s.settings s.parameters
    return { source, dataset := dataset.name, command }

def fetch (s : Session) (dataset : DataSet) (p : Progress) : Except ReportError Unit × Progress :=
  if (p.store.rows? dataset.name).isSome then (.ok (), p)
  else
    match s.request dataset with
    | .error e => (.error e, p)
    | .ok request =>
      let asked := { p with requests := p.requests ++ [request] }
      match s.runner p.requests request with
      | .error reason => (.error (.queryFailed dataset.name reason), asked)
      | .ok reply =>
        (.ok (), { asked with store := p.store.putRows dataset.name (dataset.rowsOf reply) })

/-- Sees to it that lookups have their indices.  Undeclared datasets are passed over. -/
def prepare (s : Session) : List LookupSite → Progress → Except ReportError Unit × Progress
  | [], p => (.ok (), p)
  | l :: ls, p =>
    if p.store.isIndexed l.source l.keyField then s.prepare ls p
    else
      match s.definition.dataset? l.source with
      | none => s.prepare ls p
      | some dataset =>
        match s.fetch dataset p with
        | (.error e, p) => (.error e, p)
        | (.ok (), p) =>
          s.prepare ls { p with store := (p.store.withIndex? l.source l.keyField).getD p.store }

def columnsFor (s : Session) (dataset : String) : List Column :=
  (s.definition.tablixesOn dataset).flatMap (·.columns)

def lookupsFor (s : Session) (dataset : String) : List LookupSite :=
  ((s.definition.tablixesOn dataset).flatMap (·.expressions)).flatMap (·.lookups)

def scopeOf (s : Session) (store : Store) (dataset : DataSet) (row : DataRow) : Scope :=
  { definition := s.definition
    parameters := s.parameters
    row := some { dataset, fields := row.fields, ordinal := row.ordinal }
    store := some store }

def evalOn (s : Session) (store : Store) (dataset : DataSet) (row : DataRow) (column : Column) (e : Expr) :
    Except ReportError Scalar :=
  match (s.scopeOf store dataset row).eval e with
  | .ok v => .ok v
  | .error cause => .error (.cell dataset.name row.ordinal column.name e cause)

def cellOn (s : Session) (store : Store) (dataset : DataSet) (row : DataRow) (column : Column) :
    Except ReportError Cell := do
  let eval := s.evalOn store dataset row column
  let value ← eval column.value
  let sortKey ← column.sort.mapM eval
  let links ← column.linkParameters.mapM fun l => do return (l.name, ← eval l.value)
  return { value, sortKey, links }

def evalRow (s : Session) (store : Store) (dataset : DataSet) (columns : List Column) (row : DataRow) :
    Except ReportError DataRow := do
  let cells ← columns.mapM fun c => do return (c.name, ← s.cellOn store dataset row c)
  return { row with cells := .ofList cells }

/-- The rows of a fetched dataset with their cells.  Without rows no lookup needs to be prepared. -/
def evalRows (s : Session) (dataset : DataSet) (p : Progress) :
    Except ReportError (List DataRow) × Progress :=
  match (p.store.rows? dataset.name).getD [] with
  | [] => (.ok [], p)
  | row :: rows =>
    match s.prepare (s.lookupsFor dataset.name) p with
    | (.error e, p) => (.error e, p)
    | (.ok (), p) => ((row :: rows).mapM (s.evalRow p.store dataset (s.columnsFor dataset.name)), p)

def rows (s : Session) (name : String) (p : Progress) : Except ReportError (List DataRow) × Progress :=
  match p.store.evaluated? name with
  | some rows => (.ok rows, p)
  | none =>
    match s.definition.dataset? name with
    | none => (.error (.unknownDataset name), p)
    | some dataset =>
      match s.fetch dataset p with
      | (.error e, p) => (.error e, p)
      | (.ok (), p) =>
        match s.evalRows dataset p with
        | (.error e, p) => (.error e, p)
        | (.ok rows, p) => (.ok rows, { p with store := p.store.putEvaluated name rows })

end Session

def Definition.rows (d : Definition) (settings : Settings) (runner : Runner) (supplied : ParameterValues)
    (dataset : String) : Except ReportError (List DataRow) × Progress :=
  if d.declaresDataset dataset then
    match Session.start d settings runner supplied with
    | .ok s => s.rows dataset {}
    | .error e => (.error e, {})
  else (.error (.unknownDataset dataset), {})

end TabularReport
