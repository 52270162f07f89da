import TabularReport.Proofs.Eval.Scope
/-!
What the type of an expression says of its value.  The type is read off the root of the expression, and it
is right where the fields and parameters that are read have the declared types, except that a sum or a
difference, which counts as numeric, may also be a date that was shifted or two texts end to end.
-/
set_option autoImplicit false

namespace TabularReport

namespace Scalar

/-- Whether the value can stand in a column of the type: Null in any, a truth value among texts. -/
def conformsTo : Scalar → ColumnType → Bool
  | .null, _ | .number _, .number | .date _, .date | .text _, .text | .boolean _, .text => true
  | _, _ => false

@[simp] theorem conformsTo_null (type : ColumnType) : Scalar.null.conformsTo type = true := by
  cases type <;> rfl

theorem conformsTo_ofKind (v : Scalar) : v.conformsTo (.ofKind v.kind) = true := by
  cases v <;> rfl

theorem numbers?_eq_none {x y : Scalar} : x.numbers? y = none ↔ x.number? = none ∨ y.number? = none := by
  unfold numbers?
  cases x.number? <;> cases y.number? <;> simp

/-- A sum is a number, a date that was shifted, or two texts of which one is no number. -/
theorem cases_of_add? {x y v : Scalar} (h : x.add? y = some v) :
    v.kind = .number ∨ ((x.kind = .date ∨ y.kind = .date) ∧ v.kind = .date) ∨
      (x.kind = .text ∧ y.kind = .text ∧ (x.number? = none ∨ y.number? = none) ∧ v.kind = .text) := by
  have hdate : ∀ (t : DateTime) (days : Scalar), (do return .date (← t.addDays? (← days.number?))) = some v →
      v.kind = .date := by
    intro t days hv
    simp only [Option.bind_eq_bind, Option.bind_eq_some_iff] at hv
    obtain ⟨_, _, _, _, hv⟩ := hv
    cases hv
    rfl
  unfold add? at h
  split at h
  · cases h
    exact .inl rfl
  · rename_i hnumbers
    split at h
    · exact .inr (.inl ⟨.inl rfl, hdate _ _ h⟩)
    · exact .inr (.inl ⟨.inr rfl, hdate _ _ h⟩)
    · cases h
      exact .inr (.inr ⟨rfl, rfl, numbers?_eq_none.1 hnumbers, rfl⟩)
    · contradiction

theorem cases_of_subtract? {x y v : Scalar} (h : x.subtract? y = some v) :
    v.kind = .number ∨ ((x.kind = .date ∨ y.kind = .date) ∧ v.kind = .date) := by
  unfold subtract? at h
  split at h
  · cases h
    exact .inl rfl
  · split at h
    · cases h
      exact .inl rfl
    · simp only [Option.bind_eq_bind, Option.bind_eq_some_iff] at h
      obtain ⟨_, _, _, _, h⟩ := h
      cases h
      exact .inr ⟨.inl rfl, rfl⟩
    · contradiction

theorem conformsTo_of_kind_number {v : Scalar} (h : v.kind = .number) : v.conformsTo .number = true := by
  have hv := v.conformsTo_ofKind
  rwa [h] at hv

theorem conformsTo_of_negate {x v : Scalar} (h : x.negate = .ok v) : v.conformsTo .number = true := by
  unfold negate at h
  split at h
  · cases h
    rfl
  · split at h
    · cases h
      rfl
    · contradiction

end Scalar

theorem eq_some_of_elim {o : Option Scalar} {cause : EvalError} {v : Scalar}
    (h : o.elim (.error cause) Except.ok = .ok v) : o = some v := by
  cases o with
  | none => contradiction
  | some w =>
    cases h
    rfl

namespace Operator

theorem cases_of_apply {op : Operator} {x y v : Scalar} (hop : op ≠ .concat) (h : op.apply x y = .ok v) :
    v.conformsTo .number = true ∨
      ((op = .add ∨ op = .subtract) ∧ (x.kind = .date ∨ y.kind = .date) ∧ v.kind = .date) ∨
      (op = .add ∧ x.kind = .text ∧ y.kind = .text ∧ (x.number? = none ∨ y.number? = none) ∧ v.kind = .text) := by
  unfold apply at h
  split at h
  · cases h
    exact .inl rfl
  · cases op with
    | concat => exact absurd rfl hop
    | add =>
      obtain hnumber | hdate | htext := Scalar.cases_of_add? (eq_some_of_elim h)
      · exact .inl (Scalar.conformsTo_of_kind_number hnumber)
      · exact .inr (.inl ⟨.inl rfl, hdate⟩)
      · exact .inr (.inr ⟨rfl, htext⟩)
    | subtract =>
      obtain hnumber | hdate := Scalar.cases_of_subtract? (eq_some_of_elim h)
      · exact .inl (Scalar.conformsTo_of_kind_number hnumber)
      · exact .inr (.inl ⟨.inr rfl, hdate⟩)
    | multiply =>
      obtain ⟨_, _, rfl⟩ := Option.map_eq_some_iff.1 (eq_some_of_elim h)
      exact .inl rfl
    | divide =>
      unfold applyNonNull at h
      dsimp only at h
      split at h
      · split at h
        · contradiction
        · cases h
          exact .inl rfl
      · contradiction

theorem conformsTo_of_concat {x y v : Scalar} (h : concat.apply x y = .ok v) : v.conformsTo .text = true := by
  cases h
  rfl

end Operator

namespace Scope

variable {s : Scope} {name : String} {v : Scalar}

theorem parts_of_evalField {row : CurrentRow} {dataset : Option String} (hr : s.row = some row)
    (h : s.evalField dataset name = .ok v) :
    dataset.getD row.dataset.name = row.dataset.name ∧ v = (row.fields.get? name).getD .null := by
  simp only [evalField, needRow, hr, Option.elim_some] at h
  obtain ⟨row', hrow, h⟩ := bind_eq_ok.1 h
  cases hrow
  have hvalue : ∀ u, (do needField row.dataset name; return (row.fields.get? name).getD .null) = Except.ok u →
      u = (row.fields.get? name).getD .null := by
    intro u hu
    obtain ⟨_, _, hu⟩ := bind_eq_ok.1 hu
    cases hu
    rfl
  cases dataset with
  | none => exact ⟨rfl, hvalue v h⟩
  | some target =>
    dsimp only at h
    split at h
    · contradiction
    · rename_i hsame
      exact ⟨not_ne_iff.1 hsame, hvalue v h⟩

theorem cases_of_evalMatch {source keyField valueField : String} {key : Scalar}
    (h : s.evalMatch source keyField valueField key = .ok v) :
    v = .null ∨ ∃ row, s.answer? ⟨source, keyField, valueField⟩ key = some (some row) ∧
      v = (row.fields.get? valueField).getD .null := by
  unfold evalMatch at h
  split at h
  · cases h
    exact .inl rfl
  · split at h
    · rename_i answer hanswer
      cases h
      cases answer with
      | none => exact .inl rfl
      | some row => exact .inr ⟨row, hanswer, rfl⟩
    · contradiction

end Scope

/-- Whether the value of an expression agrees with a column type.  A sum or a difference may be a date
instead where it shifts one, and a sum the text of two operands that are not both numbers. -/
inductive Scope.Fits (s : Scope) (e : Expr) (type : ColumnType) (v : Scalar) : Prop
  | conforms (conforms : v.conformsTo type = true)
  | shifted {op : Operator} {left right : Expr} {x y : Scalar} (root : e = .binary op left right)
      (arithmetic : op = .add ∨ op = .subtract) (leftValue : s.eval left = .ok x) (rightValue : s.eval right = .ok y)
      (operand : x.kind = .date ∨ y.kind = .date) (value : v.kind = .date)
  | joined {left right : Expr} {x y : Scalar} (root : e = .binary .add left right)
      (leftValue : s.eval left = .ok x) (rightValue : s.eval right = .ok y) (leftText : x.kind = .text)
      (rightText : y.kind = .text) (nonNumeric : x.number? = none ∨ y.number? = none) (value : v.kind = .text)

/-- Whether what a scope reads has the declared types.  Of the rows that lookups find only those of `sources`
are asked to. -/
structure Declarations.Describes (d : Declarations) (s : Scope) (sources : List String) : Prop where
  field : ∀ {dataset name v}, s.evalField dataset name = .ok v →
    v.conformsTo (d.typeOfField (dataset.getD d.home) name) = true
  parameter : ∀ {name v}, s.evalParameter name = .ok v → v.conformsTo (d.typeOfParameter name) = true
  matched : ∀ {source keyField valueField key v}, source ∈ sources →
    s.evalMatch source keyField valueField key = .ok v → v.conformsTo (d.typeOfField source valueField) = true

/-- The value of an expression agrees with its type, where what the scope reads has the declared types. -/
theorem Declarations.Describes.fits {d : Declarations} {s : Scope} {sources : List String}
    (h : d.Describes s sources) {e : Expr} (hsources : ∀ l ∈ e.lookups, l.source ∈ sources) {v : Scalar}
    (hv : s.eval e = .ok v) : s.Fits e (d.typeOf e) v := by
  cases e with
  | literal value =>
    cases hv
    exact .conforms (Scalar.conformsTo_ofKind _)
  | field dataset name => exact .conforms (h.field hv)
  | parameter name => exact .conforms (h.parameter hv)
  | rowNumber dataset =>
    obtain ⟨_, _, hv⟩ := bind_eq_ok.1 hv
    obtain ⟨_, _, hv⟩ := bind_eq_ok.1 hv
    cases hv
    exact .conforms rfl
  | lookup key source keyField valueField =>
    obtain ⟨_, _, hv⟩ := bind_eq_ok.1 hv
    obtain ⟨_, _, hv⟩ := bind_eq_ok.1 hv
    obtain ⟨_, _, hv⟩ := bind_eq_ok.1 hv
    obtain ⟨_, _, hv⟩ := bind_eq_ok.1 hv
    exact .conforms (h.matched (hsources ⟨source, keyField, valueField⟩ (by simp)) hv)
  | binary op left right =>
    obtain ⟨x, hx, hv⟩ := bind_eq_ok.1 hv
    obtain ⟨y, hy, hv⟩ := bind_eq_ok.1 hv
    by_cases hop : op = .concat
    · subst hop
      exact .conforms (Operator.conformsTo_of_concat hv)
    · have htype : d.typeOf (.binary op left right) = .number := by
        cases op <;> first | rfl | contradiction
      rw [htype]
      obtain hnumber | ⟨hop, hoperand, hdate⟩ | ⟨rfl, hleft, hright, hnumbers, htext⟩ :=
        Operator.cases_of_apply hop hv
      · exact .conforms hnumber
      · exact .shifted rfl hop hx hy hoperand hdate
      · exact .joined rfl hx hy hleft hright hnumbers htext
  | negate operand =>
    obtain ⟨_, _, hv⟩ := bind_eq_ok.1 hv
    exact .conforms (Scalar.conformsTo_of_negate hv)

end TabularReport
