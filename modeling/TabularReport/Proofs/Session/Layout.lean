import TabularReport.Proofs.Parameter.Independence
import TabularReport.Proofs.Session.Fresh

set_option autoImplicit false

namespace TabularReport

def Definition.withTablixes (d : Definition) (ts : List Tablix) : Definition :=
  { d with tablixes := ts }

def Session.withTablixes (s : Session) (ts : List Tablix) : Session :=
  { s with definition := s.definition.withTablixes ts }

section

variable (d : Definition) (ts : List Tablix)

@[simp] theorem Definition.dataset?_withTablixes (name : String) :
    (d.withTablixes ts).dataset? name = d.dataset? name := rfl

theorem Definition.parameterValues_withTablixes (settings : Settings) (supplied : ParameterValues) :
    (d.withTablixes ts).parameterValues settings supplied = d.parameterValues settings supplied := by
  have horder : (d.withTablixes ts).evaluationOrder supplied = d.evaluationOrder supplied := by
    have hfrom := orderFrom_congr (d := d) (fun p => rfl : ∀ p : ReportParameter,
      p.dependencies (d.withTablixes ts) supplied = p.dependencies d supplied)
    simp only [evaluationOrder, hfrom]
    rfl
  have hdefault : (d.withTablixes ts).addDefault settings = d.addDefault settings := by
    funext values p
    rw [addDefault, addDefault, p.evalDefault_congr_datasets (d.dataset?_withTablixes ts)]
  rw [parameterValues, parameterValues, horder, hdefault]
  rfl

theorem QueryParameter.evaluate_withTablixes (q : QueryParameter) (values : ParameterValues) :
    q.evaluate (d.withTablixes ts) values = q.evaluate d values := by
  have hvalue := Scope.eval_congr_definition (s := { definition := d, parameters := values })
    (d.dataset?_withTablixes ts)
  simp only [evaluate, hvalue]

theorem DataSet.commandFor_withTablixes (dataset : DataSet) (settings : Settings) (values : ParameterValues) :
    dataset.commandFor (d.withTablixes ts) settings values = dataset.commandFor d settings values := by
  have hbinding : dataset.addBinding (d.withTablixes ts) values = dataset.addBinding d values := by
    funext bindings q
    rw [addBinding, addBinding, q.evaluate_withTablixes]
  rw [commandFor, commandFor, bindings, bindings, hbinding]

end

namespace Session

section

variable (s : Session) (ts : List Tablix)

theorem request_withTablixes : (s.withTablixes ts).request = s.request := by
  funext dataset
  unfold request
  simp only [withTablixes, DataSet.commandFor_withTablixes]
  rfl

theorem fetch_withTablixes : (s.withTablixes ts).fetch = s.fetch := by
  funext dataset p
  rw [fetch, fetch, request_withTablixes]
  rfl

theorem prepare_withTablixes (ls : List LookupSite) (p : Progress) :
    (s.withTablixes ts).prepare ls p = s.prepare ls p := by
  induction ls generalizing p with
  | nil => rfl
  | cons l ls ih =>
    simp only [prepare, ih, fetch_withTablixes]
    rfl

theorem evalOn_withTablixes : (s.withTablixes ts).evalOn = s.evalOn := by
  funext store dataset row column e
  have hvalue : ((s.withTablixes ts).scopeOf store dataset row).eval e = (s.scopeOf store dataset row).eval e :=
    Scope.eval_congr_definition (s := s.scopeOf store dataset row) (s.definition.dataset?_withTablixes ts) e
  rw [evalOn, evalOn, hvalue]

theorem evalRow_withTablixes : (s.withTablixes ts).evalRow = s.evalRow := by
  funext store dataset columns row
  have hcell : (s.withTablixes ts).cellOn = s.cellOn := by
    funext store dataset row column
    rw [cellOn, cellOn, evalOn_withTablixes]
  rw [evalRow, evalRow, hcell]

end

section

variable {s : Session} {ts : List Tablix}

theorem evalRows_withTablixes {dataset : DataSet}
    (h : (s.definition.withTablixes ts).tablixesOn dataset.name = s.definition.tablixesOn dataset.name)
    (p : Progress) : (s.withTablixes ts).evalRows dataset p = s.evalRows dataset p := by
  have hlookups : (s.withTablixes ts).lookupsFor dataset.name = s.lookupsFor dataset.name := by
    rw [lookupsFor, lookupsFor, ← h]
    rfl
  have hcolumns : (s.withTablixes ts).columnsFor dataset.name = s.columnsFor dataset.name := by
    rw [columnsFor, columnsFor, ← h]
    rfl
  simp only [evalRows, hlookups, hcolumns, prepare_withTablixes, evalRow_withTablixes]

/-- At any point of a session the rows of a dataset are evaluated in the same way, with the same requests,
where only tables bound to other datasets differ. -/
theorem rows_withTablixes {name : String}
    (h : (s.definition.withTablixes ts).tablixesOn name = s.definition.tablixesOn name) (p : Progress) :
    (s.withTablixes ts).rows name p = s.rows name p := by
  have hdataset : (s.withTablixes ts).definition.dataset? name = s.definition.dataset? name := rfl
  rw [rows, rows, hdataset, fetch_withTablixes]
  cases hd : s.definition.dataset? name with
  | none => rfl
  | some dataset =>
    rw [← Definition.name_of_dataset? hd] at h
    have hrows := fun p => evalRows_withTablixes h p
    simp only [hrows]

theorem start_withTablixes (d : Definition) (ts : List Tablix) (settings : Settings) (runner : Runner)
    (supplied : ParameterValues) : start (d.withTablixes ts) settings runner supplied =
      (start d settings runner supplied).map (·.withTablixes ts) := by
  rw [start, start, d.parameterValues_withTablixes]
  cases d.parameterValues settings supplied <;> rfl

end

/-- The rows of a dataset do not depend on tables that are bound to other datasets.  Two definitions that
differ in such tables only give the same rows or the same error, and the same requests on the way, whether
or not those tables could be evaluated. -/
theorem rows_of_sameLayout {d d' : Definition} {name : String} (hsources : d'.sources = d.sources)
    (hdatasets : d'.datasets = d.datasets) (hparameters : d'.parameters = d.parameters)
    (htables : d'.tablixesOn name = d.tablixesOn name) (settings : Settings) (runner : Runner)
    (supplied : ParameterValues) :
    d'.rows settings runner supplied name = d.rows settings runner supplied name := by
  obtain ⟨ts, rfl⟩ : ∃ ts, d' = d.withTablixes ts := by
    refine ⟨d'.tablixes, ?_⟩
    rw [Definition.withTablixes, ← hsources, ← hdatasets, ← hparameters]
  rw [Definition.rows, Definition.rows, start_withTablixes]
  cases hs : start d settings runner supplied with
  | error e => rfl
  | ok s =>
    obtain ⟨rfl, _⟩ := parts_of_start hs
    have hrows := rows_withTablixes htables {}
    simp only [Except.map, hrows]
    rfl

def misprinted : Definition :=
  orders.withTablixes (⟨"Broken", "Items", [⟨"Ratio", "1in", "", {},
    .binary .divide (.literal (.text "1")) (.literal (.text "0")), {}, .text, none, .text, none⟩]⟩ :: orders.tablixes)

theorem rows_of_misprinted :
    (misprinted.rows {} (fun _ => ordersReply) ∅ "Items").1 =
        .error (.cell "Items" 1 "Ratio" (.binary .divide (.literal (.text "1")) (.literal (.text "0")))
          .divisionByZero) ∧
      misprinted.rows {} (fun _ => ordersReply) ∅ "Orders" = orders.rows {} (fun _ => ordersReply) ∅ "Orders" ∧
      (misprinted.rows {} (fun _ => ordersReply) ∅ "Orders").1 =
        .ok [{ ordinal := 1, fields := .ofList [("Item", .text "i")]
               cells := .ofList [("Name", { value := .text "ink" })] }] := by
  have hrows : misprinted.rows {} (fun _ => ordersReply) ∅ "Orders" =
      orders.rows {} (fun _ => ordersReply) ∅ "Orders" :=
    rows_of_sameLayout rfl rfl rfl (by decide +kernel) {} (fun _ => ordersReply) ∅
  refine ⟨by decide +kernel, hrows, ?_⟩
  rw [hrows]
  decide +kernel

end Session
end TabularReport
