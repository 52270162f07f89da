import TabularReport.Error
import TabularReport.Parameter.Basic
import TabularReport.Store
/-!
The value of an expression in its surroundings.  Texts that spell numbers count as numbers, a date can be
shifted by days, and the difference of two dates is in days.  Null stays Null; only `&` turns it into text.
Parameter defaults and query parameters are evaluated without a row and without a store, columns on the row of
their dataset.
-/
set_option autoImplicit false

namespace TabularReport

def millisPerDay : Nat := 86400000

def shiftLimit : Nat := 100000000

/-- The moment `days` days away, to the nearest millisecond. -/
def DateTime.addDays? (t : DateTime) (days : Double) : Option DateTime :=
  if days.magnitudeAtMost shiftLimit then t.addMillis? (days * .ofNat millisPerDay).nearestInt else none

def DateTime.daysSince (t s : DateTime) : Double :=
  .ofInt (t.millisSince s) / .ofNat millisPerDay

namespace Scalar

def numbers? (left right : Scalar) : Option (Double × Double) := do
  return (← left.number?, ← right.number?)

/-- The sum: of numbers, of a date and days, or of two texts end to end. -/
def add? (left right : Scalar) : Option Scalar :=
  match left.numbers? right with
  | some (x, y) => some (.number (x + y))
  | none =>
    match left, right with
    | .date t, days => do return .date (← t.addDays? (← days.number?))
    | days, .date t => do return .date (← t.addDays? (← days.number?))
    | .text a, .text b => some (.text (a ++ b))
    | _, _ => none

/-- The difference: of numbers, of two dates in days, or of a date and days. -/
def subtract? (left right : Scalar) : Option Scalar :=
  match left.numbers? right with
  | some (x, y) => some (.number (x - y))
  | none =>
    match left, right with
    | .date t, .date s => some (.number (t.daysSince s))
    | .date t, days => do return .date (← t.addDays? (-(← days.number?)))
    | _, _ => none

def multiply? (left right : Scalar) : Option Scalar :=
  (left.numbers? right).map fun (x, y) => .number (x * y)

end Scalar

def Operator.applyNonNull (op : Operator) (left right : Scalar) : Except EvalError Scalar :=
  let mismatch := EvalError.typeMismatch op left.kind (some right.kind)
  match op with
  | .concat => .ok (.text (left.display ++ right.display))
  | .add => ((left.add? right).elim (.error mismatch)) .ok
  | .subtract => ((left.subtract? right).elim (.error mismatch)) .ok
  | .multiply => ((left.multiply? right).elim (.error mismatch)) .ok
  | .divide =>
    match left.numbers? right with
    | some (x, y) => if y.isZero then .error .divisionByZero else .ok (.number (x / y))
    | none => .error mismatch

/-- Applies an operator.  Arithmetic with Null is Null. -/
def Operator.apply (op : Operator) (left right : Scalar) : Except EvalError Scalar :=
  if op ≠ .concat ∧ (left.isNull ∨ right.isNull) then .ok .null else op.applyNonNull left right

def Scalar.negate (v : Scalar) : Except EvalError Scalar :=
  if v.isNull then .ok .null
  else
    match v.number? with
    | some x => .ok (.number (-x))
    | none => .error (.typeMismatch .subtract v.kind none)

structure CurrentRow where
  dataset : DataSet
  fields : Row
  ordinal : Nat

structure Scope where
  definition : Definition
  parameters : ParameterValues
  row : Option CurrentRow := none
  store : Option Store := none

namespace Scope

def needRow (s : Scope) (reference : String) : Except EvalError CurrentRow :=
  s.row.elim (.error (.noRow reference)) .ok

def needDataset (s : Scope) (name : String) : Except EvalError DataSet :=
  (s.definition.dataset? name).elim (.error (.unknownDataset name)) .ok

def needField (dataset : DataSet) (name : String) : Except EvalError Unit :=
  if (dataset.field? name).isSome then .ok () else .error (.unknownField dataset.name name)

/-- A field of the current row; a declared field without a value is Null. -/
def evalField (s : Scope) (dataset : Option String) (name : String) : Except EvalError Scalar := do
  let row ← s.needRow ("Fields!" ++ name ++ ".Value")
  match dataset with
  | some target =>
    if target ≠ row.dataset.name then throw (.foreignField row.dataset.name target name)
  | none => pure ()
  needField row.dataset name
  return (row.fields.get? name).getD .null

def evalParameter (s : Scope) (name : String) : Except EvalError Scalar :=
  (s.parameters.first? name).elim (.error (.unknownParameter name)) .ok

def evalOrdinal (s : Scope) (dataset : String) : Except EvalError Scalar := do
  let _ ← s.needDataset dataset
  let row ← s.needRow ("RowNumber(\"" ++ dataset ++ "\")")
  return .number (.ofNat row.ordinal)

/-- Looks `key` up in a prepared index.  No match is Null. -/
def evalMatch (s : Scope) (source keyField valueField : String) (key : Scalar) :
    Except EvalError Scalar :=
  if key.isNull then .ok .null
  else
    match s.store.bind (·.find? source keyField key) with
    | some row => .ok ((row.bind (·.field? valueField)).getD .null)
    | none => .error (.lookupNotPrepared source keyField)

def eval (s : Scope) : Expr → Except EvalError Scalar
  | .literal value => .ok value
  | .field dataset name => s.evalField dataset name
  | .parameter name => s.evalParameter name
  | .rowNumber dataset => s.evalOrdinal dataset
  | .lookup key source keyField valueField => do
    let dataset ← s.needDataset source
    needField dataset keyField
    needField dataset valueField
    s.evalMatch source keyField valueField (← s.eval key)
  | .binary op left right => do
    let l ← s.eval left
    let r ← s.eval right
    op.apply l r
  | .negate operand => do
    (← s.eval operand).negate

end Scope
end TabularReport
