import TabularReport.Proofs.Eval.Scope
import TabularReport.Proofs.Store.Search

set_option autoImplicit false

namespace TabularReport

/-- What a lookup finds in rows that are read one after the other: the value field of the first row with
the key, or Null. -/
def DataRow.scan (rows : List DataRow) (keyField valueField : String) (key : Scalar) : Scalar :=
  ((scan? keyField key rows).bind (·.field? valueField)).getD .null

namespace Scope

/-- The value of an expression whose lookups read the rows of `sources`, by the name of the dataset. -/
def evalByScan (s : Scope) (sources : String → List DataRow) : Expr → Except EvalError Scalar
  | .literal value => .ok value
  | .field dataset name => s.evalField dataset name
  | .parameter name => s.evalParameter name
  | .rowNumber dataset => s.evalOrdinal dataset
  | .lookup key source keyField valueField => do
    let dataset ← s.needDataset source
    needField dataset keyField
    needField dataset valueField
    return DataRow.scan (sources source) keyField valueField (← s.evalByScan sources key)
  | .binary op left right => do
    let l ← s.evalByScan sources left
    let r ← s.evalByScan sources right
    op.apply l r
  | .negate operand => do
    (← s.evalByScan sources operand).negate

/-- Whether the lookup has the answers that reading the rows of its source one after the other gives. -/
def Scans (s : Scope) (sources : String → List DataRow) (l : LookupSite) : Prop :=
  ∀ key, s.answer? l key = some (DataRow.scan? l.keyField key (sources l.source))

theorem evalMatch_of_scans {s : Scope} {sources : String → List DataRow} {l : LookupSite}
    (h : s.Scans sources l) (key : Scalar) :
    s.evalMatch l.source l.keyField l.valueField key =
      .ok (DataRow.scan (sources l.source) l.keyField l.valueField key) := by
  have hanswer := h key
  unfold answer? at hanswer
  unfold evalMatch
  split
  · rename_i hnull
    simp [DataRow.scan, DataRow.scan?, hnull]
  · rw [hanswer]
    rfl

theorem eval_eq_evalByScan {s : Scope} {sources : String → List DataRow} {e : Expr}
    (h : ∀ l ∈ e.lookups, s.definition.declaresDataset l.source = true → s.Scans sources l) :
    s.eval e = evalByScan { s with store := none } sources e := by
  induction e with
  | literal value => rfl
  | field dataset name => rfl
  | parameter name => rfl
  | rowNumber dataset => rfl
  | lookup key source keyField valueField ih =>
    have hkey := ih fun l hl => h l (by simp [hl])
    rw [eval, evalByScan, hkey]
    cases hd : s.definition.dataset? source with
    | none => simp [needDataset, hd, bind, Except.bind]
    | some dataset =>
      have hdeclared : s.definition.declaresDataset source = true := by simp [Definition.declaresDataset, hd]
      have hmatch : ∀ v, s.evalMatch source keyField valueField v =
          .ok (DataRow.scan (sources source) keyField valueField v) :=
        evalMatch_of_scans (h ⟨source, keyField, valueField⟩ (by simp) hdeclared)
      simp only [hmatch]
      rfl
  | binary op left right ihl ihr =>
    have hleft := ihl fun l hl => h l (by simp [hl])
    have hright := ihr fun l hl => h l (by simp [hl])
    rw [eval, evalByScan, hleft, hright]
  | negate operand ih => rw [eval, evalByScan, ih h]

theorem eval_lookup_of_scans {s : Scope} {sources : String → List DataRow} {key : Expr}
    {source keyField valueField : String} {dataset : DataSet} {v : Scalar}
    (hd : s.definition.dataset? source = some dataset) (hk : (dataset.field? keyField).isSome)
    (hv : (dataset.field? valueField).isSome) (h : s.Scans sources ⟨source, keyField, valueField⟩)
    (hkey : s.eval key = .ok v) :
    s.eval (.lookup key source keyField valueField) =
      .ok (DataRow.scan (sources source) keyField valueField v) := by
  have hdataset : s.needDataset source = .ok dataset := by simp [needDataset, hd]
  have hkeyField : needField dataset keyField = .ok () := by simp [needField, hk]
  have hvalueField : needField dataset valueField = .ok () := by simp [needField, hv]
  rw [eval, hdataset, hkey]
  simp only [bind, Except.bind, hkeyField, hvalueField]
  exact evalMatch_of_scans h v

end Scope
end TabularReport
