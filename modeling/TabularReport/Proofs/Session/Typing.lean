import TabularReport.Proofs.Definition.WellFormed
import TabularReport.Proofs.Eval.Typing
import TabularReport.Proofs.Parameter.Typed
import TabularReport.Proofs.Session.Lookup

set_option autoImplicit false

namespace TabularReport

/-- The value of the field in a row of a result: that of the column it reads, or else of its own name. -/
def Field.valueIn (f : Field) (result : Row) : Scalar :=
  ((result.get? f.dataField).or (result.get? f.name)).getD .null

/-- Whether the fields of the dataset have values of their declared types in the rows of the reply. -/
def DataSet.Describes (dataset : DataSet) (reply : List Row) : Prop :=
  ∀ result ∈ reply, ∀ f ∈ dataset.fields, (f.valueIn result).conformsTo f.columnType = true

theorem DataSet.exists_of_mem_rowsOf {dataset : DataSet} {reply : List Row} {row : DataRow}
    (h : row ∈ dataset.rowsOf reply) : ∃ result ∈ reply, row.fields = dataset.fieldsOf result := by
  obtain ⟨i, hi⟩ := List.mem_iff_getElem?.1 h
  rw [dataset.getElem?_rowsOf, Option.map_eq_some_iff] at hi
  obtain ⟨result, hresult, rfl⟩ := hi
  exact ⟨result, List.mem_of_getElem? hresult, rfl⟩

theorem DataSet.exists_field_of_fieldsOf {dataset : DataSet} {result : Row} {name : String} {v : Scalar}
    (h : (dataset.fieldsOf result).get? name = some v) :
    ∃ f ∈ dataset.fields, f.name = name ∧ v = f.valueIn result := by
  obtain ⟨f, hf, hentry⟩ := List.mem_map.1 (OrderedMap.mem_of_get?_ofList h)
  cases hentry
  exact ⟨f, hf, rfl, rfl⟩

theorem DataSet.field?_of_mem {dataset : DataSet} (hn : (dataset.fields.map (·.name)).Nodup) {f : Field}
    (hf : f ∈ dataset.fields) : dataset.field? f.name = some f :=
  OrderedMap.find?_of_nodup_map hn hf

theorem DataSet.Describes.conformsTo {dataset : DataSet} {reply : List Row} (h : dataset.Describes reply)
    (hn : (dataset.fields.map (·.name)).Nodup) {d : Declarations}
    (hd : d.datasets.find? (·.name = dataset.name) = some dataset) {row : DataRow}
    (hrow : row ∈ dataset.rowsOf reply) (name : String) :
    ((row.fields.get? name).getD .null).conformsTo (d.typeOfField dataset.name name) = true := by
  obtain ⟨result, hresult, hfields⟩ := exists_of_mem_rowsOf hrow
  cases hv : row.fields.get? name with
  | none => exact Scalar.conformsTo_null _
  | some v =>
    rw [hfields] at hv
    obtain ⟨f, hf, rfl, rfl⟩ := exists_field_of_fieldsOf hv
    simp only [Declarations.typeOfField, hd, Option.bind_some, field?_of_mem hn hf]
    exact h result hresult f hf

def Definition.declarationsOf (d : Definition) (t : Tablix) : Declarations :=
  ⟨t.dataset, d.datasets, d.parameters⟩

namespace Definition
open Markup

theorem types_of_columnOf {scope : Declarations} {tablix : String} {before after : List String} {place : Nat}
    {layout : Element} {headerBox detailBox : Option Element} {column : Column}
    (h : columnOf scope tablix before place layout headerBox detailBox = .ok (after, column)) :
    column.type = scope.typeOf column.value ∧ ∀ e, column.sort = some e → column.sortType = scope.typeOf e := by
  unfold columnOf at h
  simp only [bind_eq_ok] at h
  obtain ⟨_, _, header, _, detail, _, h⟩ := h
  cases h
  refine ⟨rfl, fun e he => ?_⟩
  dsimp only at he ⊢
  rw [he]
  rfl

theorem types_of_ofElement {root : Element} {d : Definition} (h : ofElement root = .ok d) {t : Tablix}
    (ht : t ∈ d.tablixes) {column : Column} (hc : column ∈ t.columns) :
    column.type = (d.declarationsOf t).typeOf column.value ∧
      ∀ e, column.sort = some e → column.sortType = (d.declarationsOf t).typeOf e := by
  obtain ⟨_, _, _, htablixes⟩ := parts_of_ofElement h
  obtain ⟨_, _, _, _, _, hbody, _⟩ := exists_of_mem_tablixesOf htablixes ht
  obtain ⟨_, _, _, _, _, _, hcolumn⟩ := exists_of_mem_columnsOf hbody hc
  exact types_of_columnOf hcolumn

end Definition

theorem ParameterValue.first_cases (v : ParameterValue) : v.first = .null ∨ v.first ∈ v.values := by
  cases v with
  | single x => exact .inr List.mem_cons_self
  | multi vs =>
    cases vs with
    | nil => exact .inl rfl
    | cons x xs => exact .inr List.mem_cons_self

theorem ReportParameter.Admits.conformsTo {p : ReportParameter} {w : ParameterValue} (h : p.Admits w)
    {d : Declarations} (hd : d.parameters.find? (·.name = p.name) = some p) :
    w.first.conformsTo (d.typeOfParameter p.name) = true := by
  have htyped : w.first = .null ∨ w.first.hasType p.type = true := w.first_cases.elim .inl (h.typed _)
  obtain hnull | htype := htyped
  · rw [hnull]
    exact Scalar.conformsTo_null _
  · simp only [Declarations.typeOfParameter, hd]
    cases hp : p.type <;> rw [hp] at htype <;> cases hw : w.first <;> rw [hw] at htype <;> first | rfl | contradiction

namespace Session

variable {s : Session}

/-- Whether the rows that the runner returned for the dataset and for the sources of its lookups have values of
the declared types. -/
def DescribedReplies (s : Session) (log : List Request) (dataset : String) : Prop :=
  ∀ name ∈ dataset :: (s.lookupsFor dataset).map (·.source), ∀ searched reply,
    s.definition.dataset? name = some searched → s.Returned log name reply → searched.Describes reply

theorem conformsTo_of_evalParameter (hd : (s.definition.parameters.map (·.name)).Nodup)
    {supplied : ParameterValues} (hs : s.definition.parameterValues s.settings supplied = .ok s.parameters)
    {d : Declarations} (hparameters : d.parameters = s.definition.parameters) {name : String} {v : Scalar}
    (hv : s.parameters.first? name = some v) : v.conformsTo (d.typeOfParameter name) = true := by
  obtain ⟨_, hkeys, hsolves⟩ := (Definition.parameterValues_eq_ok_iff hd).1 hs
  obtain ⟨w, hw, rfl⟩ := Option.map_eq_some_iff.1 hv
  have hname : name ∈ s.definition.parameters.map (·.name) := by
    rw [← hkeys, OrderedMap.mem_keys_iff, hw]
    rfl
  obtain ⟨p, hp, rfl⟩ := List.mem_map.1 hname
  obtain ⟨w', hw', hadmits⟩ := hsolves.exists_admits hp
  obtain rfl : w = w' := Option.some.inj (hw.symm.trans hw')
  refine hadmits.conformsTo ?_
  rw [hparameters]
  exact OrderedMap.find?_of_nodup_map hd hp

theorem Consistent.conformsTo {p : Progress} (h : s.Consistent p) (hw : s.definition.WellFormed)
    {home name : String} (hreplies : s.DescribedReplies p.requests home)
    (hname : name ∈ home :: (s.lookupsFor home).map (·.source)) {d : Declarations}
    (hdatasets : d.datasets = s.definition.datasets) {rows : List DataRow} (hrows : p.store.rows? name = some rows)
    {row : DataRow} (hrow : row ∈ rows) (field : String) :
    ((row.fields.get? field).getD .null).conformsTo (d.typeOfField name field) = true := by
  obtain ⟨dataset, reply, hd, hreturned, rfl⟩ := h.exists_returned hrows
  obtain rfl := Definition.name_of_dataset? hd
  have hfind : d.datasets.find? (·.name = dataset.name) = some dataset := by
    rw [hdatasets]
    exact hd
  exact (hreplies _ hname dataset reply hd hreturned).conformsTo
    (hw.fields dataset (List.mem_of_find?_eq_some hd)).distinct hfind hrow field

theorem describes_of_replies {p : Progress} (h : s.Consistent p) (hw : s.definition.WellFormed)
    {supplied : ParameterValues} (hs : s.definition.parameterValues s.settings supplied = .ok s.parameters)
    {t : Tablix} {dataset : DataSet} (hd : s.definition.dataset? t.dataset = some dataset)
    (hreplies : s.DescribedReplies p.requests t.dataset) {rows : List DataRow}
    (hrows : p.store.rows? t.dataset = some rows) {row : DataRow} (hrow : row ∈ rows) :
    (s.definition.declarationsOf t).Describes (s.scopeOf p.store dataset row)
      ((s.lookupsFor t.dataset).map (·.source)) := by
  have hhome := Definition.name_of_dataset? hd
  constructor
  case field =>
    intro target name v hv
    obtain ⟨htarget, rfl⟩ := Scope.parts_of_evalField rfl hv
    rw [hhome] at htarget
    rw [Definition.declarationsOf, htarget]
    exact h.conformsTo hw hreplies List.mem_cons_self rfl hrows hrow name
  case parameter =>
    intro name v hv
    exact conformsTo_of_evalParameter hw.parameters.distinct hs rfl (eq_some_of_elim hv)
  case matched =>
    intro source keyField valueField key v hsource hv
    obtain rfl | ⟨found, hanswer, rfl⟩ := Scope.cases_of_evalMatch hv
    · exact Scalar.conformsTo_null _
    · obtain ⟨index, searched, _, hsearched, hfound⟩ := Store.find?_eq_some_iff.1 hanswer
      obtain ⟨i, _, hi⟩ := Option.bind_eq_some_iff.1 hfound.symm
      exact h.conformsTo hw hreplies (List.mem_cons_of_mem _ hsource) rfl hsearched (List.mem_of_getElem? hi) valueField

/-- Column types agree with what evaluation gives.  For every document that is accepted, at any moment of a
session whose runner returned values of the declared types for the dataset and for the sources of its lookups:
what a value or a sort expression gives on a row agrees with the column type or the sort type, except that a sum
or a difference may be a shifted date, and a sum two texts end to end that are not both numbers. -/
theorem fits_of_replies {bytes : ByteArray} {d : Definition} {settings : Settings} {runner : Runner}
    {supplied : ParameterValues} {p : Progress} {t : Tablix} {dataset : DataSet} {rows : List DataRow} {row : DataRow}
    {column : Column} (hbytes : Definition.ofBytes bytes = .ok d)
    (hs : Session.start d settings runner supplied = .ok s) (hp : s.Moment p) (ht : t ∈ d.tablixes)
    (hc : column ∈ t.columns) (hd : d.dataset? t.dataset = some dataset)
    (hrows : p.store.rows? t.dataset = some rows) (hrow : row ∈ rows)
    (hreplies : s.DescribedReplies p.requests t.dataset) :
    (∀ v, (s.scopeOf p.store dataset row).eval column.value = .ok v →
      (s.scopeOf p.store dataset row).Fits column.value column.type v) ∧
    ∀ e v, column.sort = some e → (s.scopeOf p.store dataset row).eval e = .ok v →
      (s.scopeOf p.store dataset row).Fits e column.sortType v := by
  obtain ⟨root, hroot⟩ := Definition.exists_root_of_ofBytes hbytes
  obtain ⟨rfl, rfl, _, hvalues⟩ := parts_of_start hs
  have hdescribes := describes_of_replies hp.consistent (Definition.wellFormed_of_ofElement hroot) hvalues hd hreplies
    hrows hrow
  obtain ⟨htype, hsortType⟩ := Definition.types_of_ofElement hroot ht hc
  have hsources : ∀ e ∈ column.expressions, ∀ l ∈ e.lookups,
      l.source ∈ (s.lookupsFor t.dataset).map (·.source) := fun e he l hl =>
    List.mem_map_of_mem (mem_lookupsFor (mem_columnsFor ht hc) he hl)
  constructor
  · intro v hv
    rw [htype]
    exact hdescribes.fits (hsources _ column.value_mem_expressions) hv
  · intro e v he hv
    rw [hsortType e he]
    exact hdescribes.fits (hsources e (Column.sort_mem_expressions he)) hv

def dueDocument : List Char :=
  ["<Report>", "<DataSource Name=\"S\"/>", "<DataSet Name=\"D\">", "<Query>", "<DataSourceName>", "S",
   "</DataSourceName>", "<CommandText>", "q", "</CommandText>", "</Query>", "<Field Name=\"Sent\">", "<TypeName>",
   "System.DateTime", "</TypeName>", "</Field>", "</DataSet>", "<ReportParameter Name=\"Days\">", "<DataType>",
   "Integer", "</DataType>", "</ReportParameter>", "<Tablix Name=\"T\">", "<DataSetName>", "D", "</DataSetName>",
   "<TablixBody>", "<TablixColumns>", "<TablixColumn/>", "</TablixColumns>", "<TablixRows>", "<TablixRow>",
   "<TablixCell>", "<Textbox>", "<UserSort>", "<SortExpression>", "=Fields!Sent.Value", "</SortExpression>",
   "</UserSort>", "</Textbox>", "</TablixCell>", "</TablixRow>", "<TablixRow>", "<TablixCell>", "<Textbox>",
   "<TextRun>", "<Value>", "=Fields!Sent.Value + Parameters!Days.Value", "</Value>", "</TextRun>", "</Textbox>",
   "</TablixCell>", "</TablixRow>", "</TablixRows>", "</TablixBody>", "</Tablix>",
   "</Report>"].flatMap String.toList

def sent : Expr := .field (some "D") "Sent"

def dueColumn : Column :=
  ⟨"T_Column1", "1in", "", {}, .binary .add sent (.parameter "Days"), {}, .number, some sent, .date, none⟩

def dueTable : Tablix :=
  ⟨"T", "D", [dueColumn]⟩

def sentDates : DataSet :=
  ⟨"D", "S", "q", [], [⟨"Sent", "Sent", "System.DateTime"⟩]⟩

def midnight (day : Int) (first : firstDay ≤ day) (last : day ≤ lastDay) : DateTime :=
  ⟨day, 0, 0, first, last, by decide, by decide, by decide⟩

def firstSent : DateTime := midnight 739000 (by decide) (by decide)

def due : Session where
  definition := {
    sources := [⟨"S", ""⟩]
    datasets := [sentDates]
    parameters := [⟨"Days", "Days", .integer, none, false, none⟩]
    tablixes := [dueTable] }
  settings := {}
  parameters := .ofList [("Days", .single (.number (.ofNat 7)))]
  runner _ _ := .ok [.ofList [("Sent", .date firstSent)]]

def firstDue : DataRow where
  ordinal := 1
  fields := .ofList [("Sent", .date firstSent)]

theorem fits_of_due :
    let p := (due.rows "D" {}).2
    (due.scopeOf p.store sentDates firstDue).eval dueColumn.value =
        .ok (.date (midnight 739007 (by decide) (by decide))) ∧
      (due.scopeOf p.store sentDates firstDue).Fits dueColumn.value .number
        (.date (midnight 739007 (by decide) (by decide))) ∧
      (due.scopeOf p.store sentDates firstDue).Fits sent .date (.date firstSent) := by
  intro p
  have hread : Definition.ofBytes (String.ofList dueDocument).toUTF8 = .ok due.definition := by
    rw [Definition.ofBytes, Markup.Element.ofBytes_ofList (by decide +kernel)]
    refine toOption_eq_some.1 ?_
    decide +kernel
  have hvalues : due.definition.parameterValues {} (.ofList [("Days", .single (.text "7"))]) = .ok due.parameters := by
    decide +kernel
  have hstart : start due.definition {} due.runner (.ofList [("Days", .single (.text "7"))]) = .ok due := by
    rw [start, hvalues]
    rfl
  have hfetched : p.store.rows? "D" = some [firstDue] := by decide +kernel
  have hreplies : due.DescribedReplies p.requests "D" := by
    intro name hname searched reply hsearched hreturned
    obtain ⟨_, _, _, _, _, hreply⟩ := hreturned
    cases hreply
    have hd : name = "D" := by
      have hnone : due.lookupsFor "D" = [] := by decide
      simpa [hnone] using hname
    subst hd
    obtain rfl : sentDates = searched := Option.some.inj hsearched
    simp only [DataSet.Describes]
    decide +kernel
  have ht : dueTable ∈ due.definition.tablixes := List.mem_cons_self
  have hc : dueColumn ∈ dueTable.columns := List.mem_cons_self
  obtain ⟨hvalue, hsort⟩ :=
    fits_of_replies hread hstart (.rows "D" .start) ht hc rfl hfetched List.mem_cons_self hreplies
  have hsum : (due.scopeOf p.store sentDates firstDue).eval dueColumn.value =
      .ok (.date (midnight 739007 (by decide) (by decide))) := by decide +kernel
  exact ⟨hsum, hvalue _ hsum, hsort sent _ rfl (by decide +kernel)⟩

end Session
end TabularReport
