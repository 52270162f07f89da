import TabularReport.Proofs.Markup.Element
import TabularReport.Proofs.Session.Snapshot

set_option autoImplicit false

namespace TabularReport

/-- Whether the error can arise although what the definition names is declared in it. -/
def ReportError.isOperational : ReportError → Bool
  | .unknownDataset _ | .unknownDatasource _ _ => false
  | .cell _ _ _ _ cause => cause.isOperational
  | .unknownTablix _ | .unboundMarker _ | .parameterCycle _ | .defaultValue _ _ | .invalidValue _ _ _
  | .queryParameter _ _ _ | .queryFailed _ _ => true

theorem Command.isOperational_of_ofText {style : PlaceholderStyle} {bindings : ParameterValues} {text : String}
    {e : ReportError} (h : ofText style bindings text = .error e) : e.isOperational = true := by
  rcases bind_eq_error.1 h with h | ⟨_, _, h⟩
  · obtain ⟨segment, _, h⟩ := exists_of_mapM_eq_error h
    cases segment with
    | verbatim cs => contradiction
    | marker name =>
      cases hb : binding? bindings (String.ofList name) with
      | none =>
        simp only [ofSegment, hb] at h
        cases h
        rfl
      | some b =>
        simp only [ofSegment, hb] at h
        contradiction
  · contradiction

theorem DataSet.isOperational_of_bindings {dataset : DataSet} {d : Definition} {values : ParameterValues}
    {e : ReportError} (h : dataset.bindings d values = .error e) : e.isOperational = true := by
  obtain ⟨bindings, q, _, h⟩ := exists_of_foldlM_eq_error h
  unfold addBinding at h
  split at h
  · contradiction
  · cases h
    rfl

namespace Session

theorem isOperational_of_request {s : Session} {dataset : DataSet} {e : ReportError}
    (hlinked : s.definition.Linked) (hd : s.definition.dataset? dataset.name = some dataset)
    (h : s.request dataset = .error e) : e.isOperational = true := by
  have hsource := hlinked.sources dataset (List.mem_of_find?_eq_some hd)
  unfold request at h
  split at h
  · rename_i hnone
    simp [hnone] at hsource
  · rcases bind_eq_error.1 h with h | ⟨_, _, h⟩
    · rcases bind_eq_error.1 h with h | ⟨_, _, h⟩
      · exact DataSet.isOperational_of_bindings h
      · exact Command.isOperational_of_ofText h
    · contradiction

theorem isOperational_of_fetch {s : Session} {dataset : DataSet} {p q : Progress} {e : ReportError}
    (hlinked : s.definition.Linked) (hd : s.definition.dataset? dataset.name = some dataset)
    (h : s.fetch dataset p = (.error e, q)) : e.isOperational = true := by
  obtain ⟨_, _, h'⟩ | ⟨_, ⟨_, ha, h'⟩ | ⟨_, _, _, _, h'⟩ | ⟨_, _, _, _, h'⟩⟩ := s.fetch_cases dataset p <;>
    rw [h'] at h <;> cases h
  · exact isOperational_of_request hlinked hd ha
  · rfl

theorem isOperational_of_prepare {s : Session} {ls : List LookupSite} {p q : Progress} {e : ReportError}
    (hlinked : s.definition.Linked) (h : s.prepare ls p = (.error e, q)) : e.isOperational = true := by
  induction ls generalizing p with
  | nil => cases h
  | cons l ls ih =>
    obtain ⟨_, h'⟩ | ⟨_, dataset, hd, ⟨_, _, hf, h'⟩ | ⟨_, _, _, _, _, h'⟩⟩ := s.prepare_cons_cases l ls p <;>
      rw [h'] at h
    · exact ih h
    · cases h
      exact isOperational_of_fetch hlinked (Definition.dataset?_name hd) hf
    · exact ih h

theorem isOperational_of_evalRow {s : Session} {store : Store} {dataset : DataSet} {row : DataRow}
    {err : ReportError} (hlinked : s.definition.Linked) (hstore : store.UpToDate)
    (hprepared : s.Prepared store (s.lookupsFor dataset.name))
    (h : s.evalRow store dataset (s.columnsFor dataset.name) row = .error err) : err.isOperational = true := by
  obtain ⟨column, hc, e, he, h⟩ := exists_of_evalRow_eq_error h
  obtain ⟨t, ht, hcolumn⟩ := List.mem_flatMap.1 hc
  obtain ⟨ht, hhome⟩ := List.mem_filter.1 ht
  have hexpr : e ∈ t.expressions := List.mem_flatMap.2 ⟨column, hcolumn, he⟩
  have hnamed := hlinked.named t ht e hexpr
  have hbound : e.BoundTo dataset.name := by
    have hb := hlinked.bound t ht e hexpr
    rwa [of_decide_eq_true hhome] at hb
  unfold evalOn at h
  split at h
  · contradiction
  · rename_i cause hcause
    cases h
    have hanswers : ∀ l ∈ e.lookups, ∀ key, ((s.scopeOf store dataset row).answer? l key).isSome := by
      intro l hl key
      have hdeclared := hnamed l.source (Expr.source_mem_datasetsNamed hl)
      exact hstore.isSome_find? (hprepared l (mem_lookupsFor hc he hl) hdeclared) key
    exact Scope.isOperational_of_eval rfl hbound hnamed hanswers hcause

theorem isOperational_of_evalRows {s : Session} {dataset : DataSet} {p q : Progress} {fetched : List DataRow}
    {err : ReportError} (hlinked : s.definition.Linked) (hp : s.Consistent p)
    (hf : p.store.rows? dataset.name = some fetched) (h : s.evalRows dataset p = (.error err, q)) :
    err.isOperational = true := by
  obtain ⟨_, h'⟩ | ⟨_, ⟨_, _, hprepare, h'⟩ | ⟨q', hprepare, h'⟩⟩ := s.evalRows_cases hf <;> rw [h'] at h
  · cases h
  · cases h
    exact isOperational_of_prepare hlinked hprepare
  · obtain ⟨hrows, _⟩ := Prod.mk.inj h
    obtain ⟨row, _, hrow⟩ := exists_of_mapM_eq_error hrows
    have hstore := (hp.of_prepare hprepare).upToDate
    exact isOperational_of_evalRow hlinked hstore (prepared_of_prepare hprepare) hrow

theorem isOperational_of_rows {s : Session} {p : Progress} {name : String} {err : ReportError}
    (hlinked : s.definition.Linked) (hp : s.Consistent p) (hname : s.definition.declaresDataset name = true)
    (h : (s.rows name p).1 = .error err) : err.isOperational = true := by
  obtain ⟨_, _, h'⟩ | ⟨_, ⟨hd, _⟩ | ⟨dataset, hd, ⟨_, _, hf, h'⟩ | ⟨fetched, q, hf, hq, hr⟩⟩⟩ :=
    s.rows_cases name p
  · rw [h'] at h
    contradiction
  · simp [Definition.declaresDataset, hd] at hname
  · rw [h'] at h
    cases h
    exact isOperational_of_fetch hlinked (Definition.dataset?_name hd) hf
  · have hconsistent := hp.of_fetch (Definition.dataset?_name hd) hf
    obtain ⟨_, _, he, h'⟩ | ⟨_, _, he, h'⟩ := hr <;> rw [h'] at h
    · cases h
      exact isOperational_of_evalRows hlinked hconsistent hq he
    · contradiction

/-- A definition that was read from a document cannot make a call for declared rows fail because of a name
that is not declared, nor a cell because of a missing row, a foreign field or a lookup that is not
prepared, whatever was called before. -/
theorem operational_of_ofBytes {bytes : ByteArray} {d : Definition} {settings : Settings} {runner : Runner}
    {supplied : ParameterValues} {s : Session} (hd : Definition.ofBytes bytes = .ok d)
    (hs : Session.start d settings runner supplied = .ok s) (calls : List String) {name : String}
    (hname : d.declaresDataset name = true) {err : ReportError}
    (h : (s.rows name (s.after calls {})).1 = .error err) :
    (∀ dataset, err ≠ .unknownDataset dataset) ∧ (∀ dataset source, err ≠ .unknownDatasource dataset source) ∧
      ∀ dataset row column e cause, err = .cell dataset row column e cause → cause.isOperational = true := by
  obtain ⟨rfl, _, _, _⟩ := parts_of_start hs
  have hafter := (Moment.after .start calls : s.Moment _).consistent
  have hoperational := isOperational_of_rows (Definition.linked_of_ofBytes hd) hafter hname h
  refine ⟨?_, ?_, ?_⟩
  · rintro dataset rfl
    contradiction
  · rintro dataset source rfl
    contradiction
  · rintro dataset row column e cause rfl
    exact hoperational

def undeclaredFieldDocument : List Char :=
  ["<Report>", "<DataSource Name=\"S\"/>", "<DataSet Name=\"D\">", "<Query>", "<DataSourceName>", "S",
   "</DataSourceName>", "<CommandText>", "q", "</CommandText>", "</Query>", "</DataSet>",
   "<Tablix Name=\"T\">", "<DataSetName>", "D", "</DataSetName>", "<TablixBody>", "<TablixColumns>",
   "<TablixColumn/>", "</TablixColumns>", "<TablixRows>", "<TablixRow/>", "<TablixRow>", "<TablixCell>",
   "<Textbox>", "<TextRun>", "<Value>", "=Fields!A.Value", "</Value>", "</TextRun>", "</Textbox>",
   "</TablixCell>", "</TablixRow>", "</TablixRows>", "</TablixBody>", "</Tablix>",
   "</Report>"].flatMap String.toList

def undeclaredField : Session where
  definition := {
    sources := [⟨"S", ""⟩]
    datasets := [⟨"D", "S", "q", [], []⟩]
    tablixes := [⟨"T", "D", [⟨"T_Column1", "1in", "", {}, .field (some "D") "A", {}, .text, none, .text, none⟩]⟩] }
  settings := {}
  parameters := ∅
  runner _ _ := .ok [∅]

theorem operational_of_undeclaredField :
    Definition.ofBytes (String.ofList undeclaredFieldDocument).toUTF8 = .ok undeclaredField.definition ∧
      Session.start undeclaredField.definition {} undeclaredField.runner ∅ = .ok undeclaredField ∧
      (undeclaredField.rows "D" {}).1 =
        .error (.cell "D" 1 "T_Column1" (.field (some "D") "A") (.unknownField "D" "A")) ∧
      (EvalError.unknownField "D" "A").isOperational = true := by
  have hread : Definition.ofBytes (String.ofList undeclaredFieldDocument).toUTF8 =
      .ok undeclaredField.definition := by
    rw [Definition.ofBytes, Markup.Element.ofBytes_ofList (by decide +kernel)]
    refine toOption_eq_some.1 ?_
    decide +kernel
  have hstart : start undeclaredField.definition {} undeclaredField.runner ∅ = .ok undeclaredField := rfl
  have hfail : (undeclaredField.rows "D" {}).1 =
      .error (.cell "D" 1 "T_Column1" (.field (some "D") "A") (.unknownField "D" "A")) := by decide +kernel
  obtain ⟨_, _, hcause⟩ := operational_of_ofBytes hread hstart [] rfl hfail
  exact ⟨hread, hstart, hfail, hcause _ _ _ _ _ rfl⟩

end Session
end TabularReport
