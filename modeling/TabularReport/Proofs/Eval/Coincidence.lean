import TabularReport.Proofs.Eval.Scope
import TabularReport.Proofs.Store

set_option autoImplicit false

namespace TabularReport.Scope

def fieldValue? (s : Scope) (name : String) : Option Scalar :=
  s.row.map fun row => (row.fields.get? name).getD .null

/-- What a lookup finds for a key: the value field of the first match, or Null without one.  There is no
such value where the lookup is not prepared. -/
def found? (s : Scope) (l : LookupSite) (key : Scalar) : Option Scalar :=
  (s.answer? l key).map fun row => (row.bind (·.field? l.valueField)).getD .null

section

variable {s t : Scope}

theorem needDataset_congr {name : String} (h : s.definition.dataset? name = t.definition.dataset? name) :
    s.needDataset name = t.needDataset name := by
  rw [needDataset, needDataset, h]

theorem rows_of_map_eq {α : Type} {f : CurrentRow → α} (h : s.row.map f = t.row.map f) :
    (s.row = none ∧ t.row = none) ∨ ∃ row row', s.row = some row ∧ t.row = some row' ∧ f row = f row' := by
  cases hs : s.row with
  | none => exact .inl ⟨rfl, by simpa [hs] using h.symm⟩
  | some row =>
    obtain ⟨row', ht, hsame⟩ : ∃ row', t.row = some row' ∧ f row' = f row := by simpa [hs] using h.symm
    exact .inr ⟨row, row', rfl, ht, hsame.symm⟩

theorem evalField_congr {dataset : Option String} {name : String}
    (hhome : s.row.map (·.dataset) = t.row.map (·.dataset)) (hvalue : s.fieldValue? name = t.fieldValue? name) :
    s.evalField dataset name = t.evalField dataset name := by
  unfold fieldValue? at hvalue
  unfold evalField needRow
  obtain ⟨hs, ht⟩ | ⟨row, row', hs, ht, hdataset⟩ := rows_of_map_eq hhome
  · rw [hs, ht]
  · simp only [hs, ht, Option.map_some, Option.some.injEq] at hvalue
    simp only [hs, ht, Option.elim_some, bind, Except.bind, hdataset, hvalue]

theorem evalParameter_congr {name : String} (h : s.parameters.first? name = t.parameters.first? name) :
    s.evalParameter name = t.evalParameter name := by
  rw [evalParameter, evalParameter, h]

theorem evalOrdinal_congr {dataset : String}
    (hd : s.definition.dataset? dataset = t.definition.dataset? dataset)
    (h : s.row.map (·.ordinal) = t.row.map (·.ordinal)) : s.evalOrdinal dataset = t.evalOrdinal dataset := by
  unfold evalOrdinal needRow
  rw [needDataset_congr hd]
  obtain ⟨hs, ht⟩ | ⟨row, row', hs, ht, hordinal⟩ := rows_of_map_eq h
  · rw [hs, ht]
  · simp only [hs, ht, Option.elim_some, bind, Except.bind, hordinal]

theorem evalMatch_eq (s : Scope) (l : LookupSite) (key : Scalar) :
    s.evalMatch l.source l.keyField l.valueField key =
      if key.isNull then .ok .null
      else (s.found? l key).elim (.error (.lookupNotPrepared l.source l.keyField)) .ok := by
  unfold evalMatch found? answer?
  cases s.store.bind (·.find? l.source l.keyField key) <;> rfl

end

/-- The lists of references are complete.  In scopes with the same declared datasets and the same home
dataset, or both without a row, an expression has the same value or the same error if they agree on the
fields, the parameters and the lookups in its lists and, where it has a row number, on the ordinal. -/
theorem eval_of_agree {s t : Scope} {e : Expr}
    (hdeclared : ∀ name, s.definition.dataset? name = t.definition.dataset? name)
    (hhome : s.row.map (·.dataset) = t.row.map (·.dataset))
    (hfields : ∀ f ∈ e.fieldsRead, s.fieldValue? f.2 = t.fieldValue? f.2)
    (hparameters : ∀ name ∈ e.parametersRead, s.parameters.first? name = t.parameters.first? name)
    (hordinal : ∀ dataset, (Expr.rowNumber dataset).Within e → s.row.map (·.ordinal) = t.row.map (·.ordinal))
    (hlookups : ∀ l ∈ e.lookups, ∀ key, s.found? l key = t.found? l key) :
    s.eval e = t.eval e := by
  refine eval_eq_of_sameAt fun node hn => ?_
  cases node with
  | literal value => trivial
  | field dataset name => exact evalField_congr hhome (hfields _ (Expr.mem_fieldsRead_iff.2 hn))
  | parameter name => exact evalParameter_congr (hparameters name (Expr.mem_parametersRead_iff.2 hn))
  | rowNumber dataset => exact evalOrdinal_congr (hdeclared dataset) (hordinal dataset hn)
  | lookup key source keyField valueField =>
    have hsite : (⟨source, keyField, valueField⟩ : LookupSite) ∈ e.lookups := Expr.mem_lookups_iff.2 ⟨key, hn⟩
    refine ⟨needDataset_congr (hdeclared source), fun _ v => ?_⟩
    have hs := s.evalMatch_eq ⟨source, keyField, valueField⟩ v
    have ht := t.evalMatch_eq ⟨source, keyField, valueField⟩ v
    rw [hlookups _ hsite v] at hs
    exact hs.trans ht.symm
  | binary op left right => trivial
  | negate operand => trivial

def labelled : Expr :=
  .binary .concat (.lookup (.field none "Item") "Items" "Id" "Name")
    (.binary .concat (.parameter "Unit") (.rowNumber "Orders"))

def ordered : DataSet :=
  ⟨"Orders", "S", "orders", [], [⟨"Item", "Item", ""⟩, ⟨"Note", "Note", ""⟩]⟩

def pricedAt (price : Scalar) : List DataRow :=
  DataRow.numbered [.ofList [("Id", .text "7"), ("Name", .text "ink"), ("Price", price)],
    .ofList [("Id", .text "8"), ("Name", .text "pen"), ("Price", price)]]

def storeAt (price : Scalar) : Store where
  fetched := .ofList [("Items", pricedAt price)]
  indices := .ofList [(("Items", "Id"), .ofRows "Id" (pricedAt price))]

def orderedWith (note : Scalar) (unit : ParameterValue) (price : Scalar) : Scope where
  definition := { datasets := [ordered, ⟨"Items", "S", "items", [],
    [⟨"Id", "Id", ""⟩, ⟨"Name", "Name", ""⟩, ⟨"Price", "Price", ""⟩]⟩] }
  parameters := .ofList [("Unit", unit)]
  row := some ⟨ordered, .ofList [("Item", .text "7"), ("Note", note)], 3⟩
  store := some (storeAt price)

theorem eval_of_orderedWith :
    (orderedWith .null (.single (.text "x")) .null).eval labelled =
        (orderedWith (.text "late") (.multi [.text "x", .text "y"]) (.text "2")).eval labelled ∧
      (orderedWith .null (.single (.text "x")) .null).eval labelled = .ok (.text "inkx3") := by
  refine ⟨eval_of_agree (fun _ => rfl) rfl ?_ ?_ (fun _ _ => rfl) ?_, by decide +kernel⟩
  · decide +kernel
  · decide +kernel
  · intro l hl key
    obtain rfl : l = ⟨"Items", "Id", "Name"⟩ := List.mem_singleton.1 hl
    have hfind : ∀ price, (storeAt price).find? "Items" "Id" key =
        some ((KeyIndex.position? (.ofList [("7", 0), ("8", 1)]) key).bind ((pricedAt price)[·]?)) :=
      fun _ => Store.find?_eq_some rfl rfl key
    simp only [found?, answer?, orderedWith, Option.bind_some, hfind]
    -- The rows differ in their price only, so that each place holds the same name.
    obtain _ | _ | _ | i := KeyIndex.position? (.ofList [("7", 0), ("8", 1)]) key <;> rfl

end TabularReport.Scope
