import TabularReport.Definition.Basic
import TabularReport.Expr.Parser

set_option autoImplicit false

namespace TabularReport

inductive EvalError where
  | unknownDataset (dataset : String)
  | unknownField (dataset field : String)
  | unknownParameter (name : String)
  | foreignField (home dataset field : String)
  | noRow (reference : String)
  | lookupNotPrepared (dataset keyField : String)
  | typeMismatch (op : Operator) (left : ScalarKind) (right : Option ScalarKind)
  | divisionByZero
  deriving DecidableEq

def EvalError.message : EvalError → String
  | .unknownDataset d => "Unknown dataset: " ++ d
  | .unknownField d f => "Unknown field '" ++ f ++ "' in dataset '" ++ d ++ "'"
  | .unknownParameter name => "Unknown parameter: " ++ name
  | .foreignField home d f =>
    "Field '" ++ f ++ "' of dataset '" ++ d ++ "' cannot be read from a row of '" ++ home ++
      "'; use Lookup"
  | .noRow reference => reference ++ " needs a current row, but none is available"
  | .lookupNotPrepared d k => "Lookup into '" ++ d ++ "' by '" ++ k ++ "' is not available in this context"
  | .typeMismatch op left right =>
    "Type mismatch: cannot apply '" ++ op.text ++ "' to " ++ left.name ++
      (right.elim "" fun kind => " and " ++ kind.name)
  | .divisionByZero => "Division by zero"

inductive ReportError where
  | unknownDataset (dataset : String)
  | unknownTablix (tablix : String)
  | unknownDatasource (dataset source : String)
  | unboundMarker (name : String)
  | parameterCycle (names : List String)
  | defaultValue (parameter : String) (cause : EvalError)
  | invalidValue (parameter value : String) (type : ParameterType)
  | queryParameter (dataset parameter : String) (cause : EvalError)
  | queryFailed (dataset reason : String)
  | cell (dataset : String) (row : Nat) (column : String) (e : Expr) (cause : EvalError)
  deriving DecidableEq

def ReportError.message : ReportError → String
  | .unknownDataset d => "Unknown dataset: " ++ d
  | .unknownTablix t => "Unknown tablix: " ++ t
  | .unknownDatasource d s => "Dataset '" ++ d ++ "' names undeclared datasource '" ++ s ++ "'"
  | .unboundMarker name => "Query marker @" ++ name ++ " has no matching query parameter"
  | .parameterCycle names => "Parameter defaults form a cycle: " ++ " -> ".intercalate names
  | .defaultValue p cause =>
    "Default value of parameter '" ++ p ++ "' could not be evaluated: " ++ cause.message
  | .invalidValue p value type =>
    "Value '" ++ value ++ "' is not a valid " ++ type.name ++ " for parameter '" ++ p ++ "'"
  | .queryParameter d p cause =>
    "Query parameter '" ++ p ++ "' of dataset '" ++ d ++ "' could not be evaluated: " ++ cause.message
  | .queryFailed d reason => "Query for dataset '" ++ d ++ "' failed: " ++ reason
  | .cell d row column e cause =>
    "Row " ++ natText row ++ " of dataset '" ++ d ++ "', column '" ++ column ++ "' (" ++ e.text ++ "): " ++
      cause.message

end TabularReport
