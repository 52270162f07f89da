import TabularReport.Eval.Basic
import TabularReport.Proofs.Definition.Linked
/-!
What evaluation reads of its surroundings, and how it can fail.  A store is only read through the answers
to the lookups of the expression, and parameters through the names that it refers to.  Where these are
prepared, and where the expression is bound to the dataset of the row and names declared datasets only,
nothing is left to fail but undeclared fields and parameters and the operations themselves.
-/
set_option autoImplicit false

namespace TabularReport

/-- Whether the error can arise although the expression stands on a row of the dataset it is bound to
and its lookups are prepared. -/
def EvalError.isOperational : EvalError → Bool
  | .unknownField _ _ | .unknownParameter _ | .typeMismatch _ _ _ | .divisionByZero => true
  | .unknownDataset _ | .foreignField _ _ _ | .noRow _ | .lookupNotPrepared _ _ => false

theorem isOperational_of_elim {o : Option Scalar} {op : Operator} {left : ScalarKind}
    {right : Option ScalarKind} {cause : EvalError}
    (h : o.elim (.error (.typeMismatch op left right)) Except.ok = .error cause) :
    cause.isOperational = true := by
  cases o with
  | none =>
    cases h
    rfl
  | some v => contradiction

theorem Operator.isOperational_of_apply {op : Operator} {left right : Scalar} {cause : EvalError}
    (h : op.apply left right = .error cause) : cause.isOperational = true := by
  unfold Operator.apply at h
  split at h
  · contradiction
  · cases op with
    | concat => contradiction
    | add => exact isOperational_of_elim h
    | subtract => exact isOperational_of_elim h
    | multiply => exact isOperational_of_elim h
    | divide =>
      unfold Operator.applyNonNull at h
      dsimp only at h
      split at h
      · split at h
        · cases h
          rfl
        · contradiction
      · cases h
        rfl

theorem Scalar.isOperational_of_negate {v : Scalar} {cause : EvalError} (h : v.negate = .error cause) :
    cause.isOperational = true := by
  unfold Scalar.negate at h
  split at h
  · contradiction
  · split at h
    · contradiction
    · cases h
      rfl

namespace Scope

/-- The answer to a lookup: none if it is not prepared. -/
def answer? (s : Scope) (l : LookupSite) (key : Scalar) : Option (Option DataRow) :=
  s.store.bind (·.find? l.source l.keyField key)

theorem isOperational_of_needField {dataset : DataSet} {name : String} {cause : EvalError}
    (h : needField dataset name = .error cause) : cause.isOperational = true := by
  unfold needField at h
  split at h
  · contradiction
  · cases h
    rfl

theorem needDataset_of_declared {s : Scope} {name : String} (h : s.definition.declaresDataset name = true) :
    ∃ dataset, s.definition.dataset? name = some dataset ∧ s.needDataset name = .ok dataset := by
  obtain ⟨dataset, hd⟩ := Option.isSome_iff_exists.1 h
  exact ⟨dataset, hd, by simp [needDataset, hd]⟩

theorem isOperational_of_evalField {s : Scope} {row : CurrentRow} {name : String} {cause : EvalError}
    (hr : s.row = some row) (h : s.evalField (some row.dataset.name) name = .error cause) :
    cause.isOperational = true := by
  simp only [evalField, needRow, hr, Option.elim_some] at h
  rcases bind_eq_error.1 h with h | ⟨_, hrow, h⟩
  · contradiction
  cases hrow
  rw [if_neg (by simp)] at h
  rcases bind_eq_error.1 h with h | ⟨_, _, h⟩
  · exact isOperational_of_needField h
  · contradiction

theorem isOperational_of_evalMatch {s : Scope} {l : LookupSite} {key : Scalar} {cause : EvalError}
    (hl : (s.answer? l key).isSome) (h : s.evalMatch l.source l.keyField l.valueField key = .error cause) :
    cause.isOperational = true := by
  unfold evalMatch at h
  split at h
  · contradiction
  · split at h
    · contradiction
    · rename_i hnone
      rw [answer?, hnone] at hl
      contradiction

/-- What can fail on a row of the dataset that the expression is bound to, with all lookups prepared. -/
theorem isOperational_of_eval {s : Scope} {row : CurrentRow} {e : Expr} {cause : EvalError}
    (hr : s.row = some row) (hb : e.BoundTo row.dataset.name)
    (hn : ∀ name ∈ e.datasetsNamed, s.definition.declaresDataset name = true)
    (hl : ∀ l ∈ e.lookups, ∀ key, (s.answer? l key).isSome) (h : s.eval e = .error cause) :
    cause.isOperational = true := by
  induction e generalizing cause with
  | literal value => contradiction
  | field dataset name =>
    have hd : dataset = some row.dataset.name := hb (dataset, name) (by simp)
    subst hd
    exact isOperational_of_evalField hr h
  | parameter name =>
    rw [eval, evalParameter] at h
    cases hv : s.parameters.first? name with
    | none =>
      rw [hv] at h
      cases h
      rfl
    | some v => simp [hv] at h
  | rowNumber dataset =>
    obtain ⟨_, _, hd⟩ := needDataset_of_declared (hn dataset (by simp))
    simp [eval, evalOrdinal, needRow, hd, hr, bind, Except.bind, pure, Except.pure] at h
  | lookup key source keyField valueField ih =>
    obtain ⟨dataset, _, hd⟩ := needDataset_of_declared (hn source (by simp))
    have hkey := fun cause => @ih cause hb (fun name hm => hn name (by simp [hm])) fun l hm => hl l (by simp [hm])
    rw [eval, hd] at h
    rcases bind_eq_error.1 h with h | ⟨_, hd', h⟩
    · contradiction
    cases hd'
    rcases bind_eq_error.1 h with h | ⟨_, _, h⟩
    · exact isOperational_of_needField h
    rcases bind_eq_error.1 h with h | ⟨_, _, h⟩
    · exact isOperational_of_needField h
    rcases bind_eq_error.1 h with h | ⟨v, _, h⟩
    · exact hkey cause h
    · exact isOperational_of_evalMatch (hl ⟨source, keyField, valueField⟩ (by simp) v) h
  | binary op left right ihl ihr =>
    rw [eval] at h
    rcases bind_eq_error.1 h with h | ⟨_, _, h⟩
    · exact ihl (fun f hf => hb f (by simp [hf])) (fun name hm => hn name (by simp [hm]))
        (fun l hm => hl l (by simp [hm])) h
    rcases bind_eq_error.1 h with h | ⟨_, _, h⟩
    · exact ihr (fun f hf => hb f (by simp [hf])) (fun name hm => hn name (by simp [hm]))
        (fun l hm => hl l (by simp [hm])) h
    · exact Operator.isOperational_of_apply h
  | negate operand ih =>
    rw [eval] at h
    rcases bind_eq_error.1 h with h | ⟨_, _, h⟩
    · exact ih hb hn hl h
    · exact Scalar.isOperational_of_negate h

/-- Whether a node, its parts apart, reads the same in both scopes.  An undeclared source is not asked. -/
def SameAt (s t : Scope) : Expr → Prop
  | .field dataset name => s.evalField dataset name = t.evalField dataset name
  | .parameter name => s.evalParameter name = t.evalParameter name
  | .rowNumber dataset => s.evalOrdinal dataset = t.evalOrdinal dataset
  | .lookup _ source keyField valueField =>
    s.needDataset source = t.needDataset source ∧ (s.definition.declaresDataset source = true →
      ∀ key, s.evalMatch source keyField valueField key = t.evalMatch source keyField valueField key)
  | .literal _ | .binary _ _ _ | .negate _ => True

theorem eval_lookup_congr {s t : Scope} {key : Expr} {source keyField valueField : String}
    (hkey : s.eval key = t.eval key) (h : s.SameAt t (.lookup key source keyField valueField)) :
    s.eval (.lookup key source keyField valueField) = t.eval (.lookup key source keyField valueField) := by
  obtain ⟨hsource, hmatch⟩ := h
  rw [eval, eval, ← hsource, hkey]
  cases hd : s.definition.dataset? source with
  | none => simp [needDataset, hd, bind, Except.bind]
  | some dataset =>
    have hfun := funext (hmatch (by simp [Definition.declaresDataset, hd]))
    rw [hfun]

theorem eval_eq_of_sameAt {s t : Scope} {e : Expr} (h : ∀ node : Expr, node.Within e → s.SameAt t node) :
    s.eval e = t.eval e := by
  induction e with
  | literal value => rfl
  | field dataset name => exact h _ (.refl _)
  | parameter name => exact h _ (.refl _)
  | rowNumber dataset => exact h _ (.refl _)
  | lookup key source keyField valueField ih =>
    exact eval_lookup_congr (ih fun node hn => h node (.key hn)) (h _ (.refl _))
  | binary op left right ihl ihr =>
    have hleft := ihl fun node hn => h node (.left hn)
    have hright := ihr fun node hn => h node (.right hn)
    simp only [eval, hleft, hright]
  | negate operand ih =>
    have hoperand := ih fun node hn => h node (.operand hn)
    simp only [eval, hoperand]

/-- Scopes that declare the same datasets and agree on the parameters, the row and the answers to the
lookups of an expression give it the same value, or the same error.  Lookups into undeclared datasets
are not asked. -/
theorem eval_congr {s t : Scope} {e : Expr}
    (hd : ∀ name, s.definition.dataset? name = t.definition.dataset? name)
    (hp : s.parameters = t.parameters) (hr : s.row = t.row)
    (hl : ∀ l ∈ e.lookups, s.definition.declaresDataset l.source = true →
      ∀ key, s.answer? l key = t.answer? l key) :
    s.eval e = t.eval e := by
  refine eval_eq_of_sameAt fun node hn => ?_
  cases node with
  | literal value => trivial
  | field dataset name => simp only [SameAt, evalField, needRow, hr]
  | parameter name => simp only [SameAt, evalParameter, hp]
  | rowNumber dataset => simp only [SameAt, evalOrdinal, needDataset, needRow, hd, hr]
  | lookup key source keyField valueField =>
    refine ⟨by simp only [needDataset, hd], fun hdeclared v => ?_⟩
    have hanswer := hl ⟨source, keyField, valueField⟩ (Expr.mem_lookups_iff.2 ⟨key, hn⟩) hdeclared v
    simp only [answer?] at hanswer
    simp only [evalMatch, hanswer]
  | binary op left right => trivial
  | negate operand => trivial

theorem eval_congr_definition {s : Scope} {d d' : Definition} (h : ∀ name, d.dataset? name = d'.dataset? name)
    (e : Expr) : eval { s with definition := d } e = eval { s with definition := d' } e :=
  eval_congr h rfl rfl fun _ _ _ _ => rfl

theorem eval_congr_parameters {s : Scope} {a b : ParameterValues} {e : Expr}
    (h : ∀ name, (Expr.parameter name).Within e → a.get? name = b.get? name) :
    eval { s with parameters := a } e = eval { s with parameters := b } e := by
  refine eval_eq_of_sameAt fun node hn => ?_
  cases node with
  | literal value => trivial
  | field dataset name => rfl
  | parameter name => simp only [SameAt, evalParameter, ParameterValues.first?, h name hn]
  | rowNumber dataset => rfl
  | lookup key source keyField valueField => exact ⟨rfl, fun _ _ => rfl⟩
  | binary op left right => trivial
  | negate operand => trivial

end Scope
end TabularReport
