import TabularReport.Proofs.Eval.Coincidence
import TabularReport.Proofs.Expr.References

set_option autoImplicit false

namespace TabularReport

namespace Expr

theorem nodes_qualify (home : String) (e : Expr) : (e.qualify home).nodes = e.nodes.map (qualify home) := by
  induction e with
  | literal value | field dataset name | parameter name | rowNumber dataset => rfl
  | lookup key source keyField valueField ih => simp [qualify, nodes, ih]
  | binary op left right ihl ihr => simp [qualify, nodes, ihl, ihr]
  | negate operand ih => simp [qualify, nodes, ih]

theorem filterMap_nodes_qualify {α : Type} {collect : Expr → Option α} {home : String}
    (h : ∀ node, collect (node.qualify home) = collect node) (e : Expr) :
    (e.qualify home).nodes.filterMap collect = e.nodes.filterMap collect := by
  rw [nodes_qualify, List.filterMap_map]
  exact List.filterMap_congr fun node _ => h node

theorem parametersRead_qualify (home : String) (e : Expr) :
    (e.qualify home).parametersRead = e.parametersRead :=
  filterMap_nodes_qualify (fun node => by cases node <;> rfl) e

theorem lookups_qualify (home : String) (e : Expr) : (e.qualify home).lookups = e.lookups :=
  filterMap_nodes_qualify (fun node => by cases node <;> rfl) e

theorem datasetsNamed_qualify (home : String) (e : Expr) :
    (e.qualify home).datasetsNamed = e.datasetsNamed :=
  filterMap_nodes_qualify (fun node => by cases node <;> rfl) e

theorem needsParens_qualify (op : Operator) (onRight : Bool) (home : String) (e : Expr) :
    (e.qualify home).needsParens op onRight = e.needsParens op onRight := by
  cases e <;> rfl

theorem isBinary_qualify (home : String) (e : Expr) : (e.qualify home).isBinary = e.isBinary := by
  cases e <;> rfl

theorem text_qualify (home : String) (e : Expr) : (e.qualify home).text = e.text := by
  induction e with
  | literal value | field dataset name | parameter name | rowNumber dataset => rfl
  | lookup key source keyField valueField ih => simp only [qualify, text, ih]
  | binary op left right ihl ihr => simp only [qualify, text, needsParens_qualify, ihl, ihr]
  | negate operand ih => simp only [qualify, text, isBinary_qualify, ih]

theorem qualify_qualify (home other : String) (e : Expr) :
    (e.qualify home).qualify other = e.qualify home := by
  induction e with
  | literal value | field dataset name | parameter name | rowNumber dataset => rfl
  | lookup key source keyField valueField ih => simp only [qualify, ih]
  | binary op left right ihl ihr => simp only [qualify, ihl, ihr]
  | negate operand ih => simp only [qualify, ih]

end Expr

namespace Scope

def IsAt (s : Scope) (home : String) : Prop :=
  ∀ row, s.row = some row → row.dataset.name = home

theorem IsAt.evalField_eq {s : Scope} {home : String} (h : s.IsAt home) (dataset : Option String)
    (name : String) : s.evalField (some (dataset.getD home)) name = s.evalField dataset name := by
  cases dataset with
  | some target => rfl
  | none =>
    unfold evalField needRow
    cases hrow : s.row with
    | none => rfl
    | some row => simp [bind, Except.bind, h row hrow]

theorem IsAt.eval_qualify {s : Scope} {home : String} (h : s.IsAt home) (e : Expr) :
    s.eval (e.qualify home) = s.eval e := by
  induction e with
  | literal value | parameter name | rowNumber dataset => rfl
  | field dataset name => exact h.evalField_eq dataset name
  | lookup key source keyField valueField ih => simp only [Expr.qualify, eval, ih]
  | binary op left right ihl ihr => simp only [Expr.qualify, eval, ihl, ihr]
  | negate operand ih => simp only [Expr.qualify, eval, ih]

/-- Binding the fields of an expression to the home dataset changes neither its value, nor its error, nor
its text, nor any of its references but those to fields, of which all that named no dataset name this one
then; so nothing is left to be bound again. -/
theorem eval_of_qualified (e : Expr) (home : String) :
    (∀ s : Scope, s.IsAt home → s.eval (e.qualify home) = s.eval e) ∧
      (e.qualify home).text = e.text ∧
      (e.qualify home).parametersRead = e.parametersRead ∧
      (e.qualify home).lookups = e.lookups ∧
      (e.qualify home).datasetsNamed = e.datasetsNamed ∧
      (e.qualify home).fieldsRead = e.fieldsRead.map (fun f => (some (f.1.getD home), f.2)) ∧
      ∀ other, (e.qualify home).qualify other = e.qualify home :=
  ⟨fun _ hs => hs.eval_qualify e, e.text_qualify home, e.parametersRead_qualify home, e.lookups_qualify home,
    e.datasetsNamed_qualify home, e.fieldsRead_qualify home, fun other => e.qualify_qualify home other⟩

def misnamed : Expr :=
  .binary .concat (.lookup (.field none "Item") "Items" "Id" "Name") (.negate (.field none "Price"))

theorem eval_of_misnamed :
    (orderedWith .null (.single .null) .null).IsAt "Orders" ∧
      misnamed.qualify "Orders" = .binary .concat (.lookup (.field (some "Orders") "Item") "Items" "Id" "Name")
        (.negate (.field (some "Orders") "Price")) ∧
      (orderedWith .null (.single .null) .null).eval (misnamed.qualify "Orders") =
        .error (.unknownField "Orders" "Price") := by
  have hat : (orderedWith .null (.single .null) .null).IsAt "Orders" := by
    rintro row ⟨⟩
    rfl
  refine ⟨hat, rfl, ?_⟩
  rw [(eval_of_qualified misnamed "Orders").1 _ hat]
  decide +kernel

end Scope
end TabularReport
