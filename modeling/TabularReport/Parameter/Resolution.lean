import TabularReport.Eval.Basic
/-!
Resolution of report parameters.  Values that were supplied win over defaults.  A default may refer to
other parameters, so defaults are evaluated after those that they refer to; there is no such order if
they form a cycle.
-/
set_option autoImplicit false

namespace TabularReport

namespace ReportParameter

def coerce (p : ReportParameter) (settings : Settings) (v : ParameterValue) :
    Except ReportError ParameterValue :=
  (v.reshape p.multiValue).mapM fun v =>
    (v.coerce? settings p.type).elim (.error (.invalidValue p.name v.display p.type)) .ok

/-- The parameters that the default refers to, in order, in so far as they are declared and need a
default themselves. -/
def dependencies (d : Definition) (supplied : ParameterValues) (p : ReportParameter) :
    List ReportParameter :=
  ((p.defaultValue.elim [] Expr.parametersRead).filter (!supplied.contains ·)).filterMap d.parameter?

def evalDefault (p : ReportParameter) (d : Definition) (values : ParameterValues) :
    Except ReportError ParameterValue :=
  match p.defaultValue with
  | none => .ok (.single .null)
  | some e =>
    match Scope.eval { definition := d, parameters := values } e with
    | .ok v => .ok (.single v)
    | .error cause => .error (.defaultValue p.name cause)

end ReportParameter

/-- The names from `name` on, with `name` again at the end. -/
def cycleOf (path : List String) (name : String) : List String :=
  path.dropWhile (· ≠ name) ++ [name]

namespace Definition

/-- Adds `p` to `order` after everything that it depends on.  The names in `path` wait for `p`. -/
def orderFrom (d : Definition) (supplied : ParameterValues) :
    Nat → List String → List ReportParameter → ReportParameter → Except ReportError (List ReportParameter)
  | 0, path, _, p => .error (.parameterCycle (cycleOf path p.name))
  | fuel + 1, path, order, p =>
    if order.any (·.name = p.name) then .ok order
    else if path.contains p.name then .error (.parameterCycle (cycleOf path p.name))
    else do
      let order ← (p.dependencies d supplied).foldlM (d.orderFrom supplied fuel (path ++ [p.name])) order
      return order ++ [p]

/-- The parameters without a supplied value, each after those that its default refers to.  No path has
more names than there are parameters. -/
def evaluationOrder (d : Definition) (supplied : ParameterValues) :
    Except ReportError (List ReportParameter) :=
  (d.parameters.filter fun p => !supplied.contains p.name).foldlM
    (d.orderFrom supplied (d.parameters.length + 1) []) []

def addSupplied (settings : Settings) (supplied values : ParameterValues) (p : ReportParameter) :
    Except ReportError ParameterValues :=
  match supplied.get? p.name with
  | some v => do return values.insert p.name (← p.coerce settings v)
  | none => .ok values

def suppliedValues (d : Definition) (settings : Settings) (supplied : ParameterValues) :
    Except ReportError ParameterValues :=
  d.parameters.foldlM (addSupplied settings supplied) ∅

def addDefault (d : Definition) (settings : Settings) (values : ParameterValues) (p : ReportParameter) :
    Except ReportError ParameterValues := do
  return values.insert p.name (← p.coerce settings (← p.evalDefault d values))

def parameterValues (d : Definition) (settings : Settings) (supplied : ParameterValues) :
    Except ReportError ParameterValues := do
  let given ← d.suppliedValues settings supplied
  let values ← (← d.evaluationOrder supplied).foldlM (d.addDefault settings) given
  return .ofList (d.parameters.filterMap fun p => (values.get? p.name).map (p.name, ·))

end Definition
end TabularReport
