import TabularReport.Session.Basic
import TabularReport.Table.Basic

set_option autoImplicit false

namespace TabularReport

def Session.table (s : Session) (t : Tablix) (p : Progress) : Except ReportError Table × Progress :=
  match s.rows t.dataset p with
  | (.ok rows, p) => (.ok (t.table rows), p)
  | (.error e, p) => (.error e, p)

def Session.tables (s : Session) : List Tablix → Progress → Except ReportError (List Table) × Progress
  | [], p => (.ok [], p)
  | t :: ts, p =>
    match s.table t p with
    | (.error e, p) => (.error e, p)
    | (.ok table, p) =>
      match s.tables ts p with
      | (.error e, p) => (.error e, p)
      | (.ok tables, p) => (.ok (table :: tables), p)

namespace Definition

def table (d : Definition) (settings : Settings) (runner : Runner) (supplied : ParameterValues)
    (name : String) : Except ReportError Table × Progress :=
  match d.tablix? name with
  | none => (.error (.unknownTablix name), {})
  | some t =>
    match Session.start d settings runner supplied with
    | .error e => (.error e, {})
    | .ok s => s.table t {}

def tables (d : Definition) (settings : Settings) (runner : Runner) (supplied : ParameterValues) :
    Except ReportError (List Table) × Progress :=
  match Session.start d settings runner supplied with
  | .error e => (.error e, {})
  | .ok s => s.tables d.tablixes {}

end Definition
end TabularReport
