import TabularReport.Scalar
import TabularReport.Text.Basic

set_option autoImplicit false

namespace TabularReport

/-- Binary operators, the loosest first. -/
inductive Operator where
  | concat
  | add
  | subtract
  | multiply
  | divide
  deriving DecidableEq

namespace Operator

def symbol : Operator → Char
  | .concat => '&'
  | .add => '+'
  | .subtract => '-'
  | .multiply => '*'
  | .divide => '/'

def text (op : Operator) : String :=
  String.singleton op.symbol

def precedence : Operator → Nat
  | .concat => 1
  | .add | .subtract => 2
  | .multiply | .divide => 3

end Operator

/-- A report expression.  A field names its dataset only once it is bound to one. -/
inductive Expr where
  | literal (value : Scalar)
  | field (dataset : Option String) (name : String)
  | parameter (name : String)
  | rowNumber (dataset : String)
  | lookup (key : Expr) (source keyField valueField : String)
  | binary (op : Operator) (left right : Expr)
  | negate (operand : Expr)
  deriving DecidableEq

structure LookupSite where
  source : String
  keyField : String
  valueField : String
  deriving DecidableEq

namespace Expr

def isLiteral : Expr → Bool
  | .literal _ => true
  | _ => false

/-- The node and all nodes below it, parents first, in the order of the text. -/
def nodes : Expr → List Expr
  | .lookup key source keyField valueField => .lookup key source keyField valueField :: key.nodes
  | .binary op left right => .binary op left right :: (left.nodes ++ right.nodes)
  | .negate operand => .negate operand :: operand.nodes
  | e => [e]

def fieldsRead (e : Expr) : List (Option String × String) :=
  e.nodes.filterMap fun
    | .field dataset name => some (dataset, name)
    | _ => none

def parametersRead (e : Expr) : List String :=
  e.nodes.filterMap fun
    | .parameter name => some name
    | _ => none

def lookups (e : Expr) : List LookupSite :=
  e.nodes.filterMap fun
    | .lookup _ source keyField valueField => some ⟨source, keyField, valueField⟩
    | _ => none

def datasetsNamed (e : Expr) : List String :=
  e.nodes.filterMap fun
    | .rowNumber dataset => some dataset
    | .lookup _ source _ _ => some source
    | _ => none

def qualify (home : String) : Expr → Expr
  | .field dataset name => .field (some (dataset.getD home)) name
  | .lookup key source keyField valueField => .lookup (key.qualify home) source keyField valueField
  | .binary op left right => .binary op (left.qualify home) (right.qualify home)
  | .negate operand => .negate (operand.qualify home)
  | e => e

/-- Whether the expression needs parentheses as an operand: if it binds looser than `op`, or as loosely
to its right. -/
def needsParens (op : Operator) (onRight : Bool) : Expr → Bool
  | .binary inner _ _ =>
    inner.precedence < op.precedence || (onRight && inner.precedence == op.precedence)
  | _ => false

def isBinary : Expr → Bool
  | .binary _ _ _ => true
  | _ => false

def parenthesized (b : Bool) (s : String) : String :=
  if b then "(" ++ s ++ ")" else s

/-- The text of a literal.  A date is written as a quoted text. -/
def literalText : Scalar → String
  | .null => "Nothing"
  | .text s => Text.quoted s
  | .date t => Text.quoted t.text
  | v => v.display

def text : Expr → String
  | .literal value => literalText value
  | .field _ name => "Fields!" ++ name ++ ".Value"
  | .parameter name => "Parameters!" ++ name ++ ".Value"
  | .rowNumber dataset => "RowNumber(" ++ Text.quoted dataset ++ ")"
  | .lookup key source keyField valueField =>
    "Lookup(" ++ key.text ++ ", " ++ Text.quoted source ++ ", " ++ Text.quoted keyField ++ ", " ++
      Text.quoted valueField ++ ")"
  | .binary op left right =>
    parenthesized (left.needsParens op false) left.text ++ " " ++ op.text ++ " " ++
      parenthesized (right.needsParens op true) right.text
  | .negate operand => "-" ++ parenthesized operand.isBinary operand.text

end Expr
end TabularReport
