import TabularReport.Proofs.Session.Snapshot

set_option autoImplicit false

namespace TabularReport

/-- An expression with the row and the column that it is evaluated for. -/
structure Evaluand where
  row : DataRow
  column : Column
  e : Expr
  deriving DecidableEq

/-- What is evaluated for the cell of a column on a row: the value, the sort expression and the bindings of the
link. -/
def Column.evaluands (column : Column) (row : DataRow) : List Evaluand :=
  ⟨row, column, column.value⟩ ::
    (column.sort.toList.map (⟨row, column, ·⟩) ++
      column.drillthrough.toList.flatMap fun link => link.parameters.map (⟨row, column, ·.value⟩))

/-- What is evaluated on the rows of a dataset: row after row, for each table bound to the dataset and each of
its columns. -/
def Definition.evaluands (d : Definition) (dataset : String) (rows : List DataRow) : List Evaluand :=
  rows.flatMap fun row =>
    (d.tablixes.filter (·.dataset = dataset)).flatMap fun t => t.columns.flatMap (·.evaluands row)

namespace Session

variable {s : Session}

def failureOf? (s : Session) (store : Store) (dataset : DataSet) (x : Evaluand) : Option ReportError :=
  errorOf? (s.evalOn store dataset x.row x.column x.e)

theorem failureOf?_eq_none {store : Store} {dataset : DataSet} {x : Evaluand} :
    s.failureOf? store dataset x = none ↔ ∃ v, (s.scopeOf store dataset x.row).eval x.e = .ok v := by
  rw [failureOf?, errorOf?_eq_none]
  simp only [evalOn_eq_ok]

theorem failureOf?_eq_some {store : Store} {dataset : DataSet} {x : Evaluand} {err : ReportError} :
    s.failureOf? store dataset x = some err ↔ ∃ cause, (s.scopeOf store dataset x.row).eval x.e = .error cause ∧
      err = .cell dataset.name x.row.ordinal x.column.name x.e cause := by
  rw [failureOf?, errorOf?_eq_some, evalOn]
  cases (s.scopeOf store dataset x.row).eval x.e <;> simp [eq_comm]

theorem errorOf?_cellOn (store : Store) (dataset : DataSet) (row : DataRow) (column : Column) :
    errorOf? (s.cellOn store dataset row column) =
      (column.evaluands row).findSome? (s.failureOf? store dataset) := by
  have hsort : errorOf? (column.sort.mapM (s.evalOn store dataset row column)) =
      (column.sort.toList.map (⟨row, column, ·⟩)).findSome? (s.failureOf? store dataset) := by
    rw [errorOf?_optionMapM, List.findSome?_map]
    rfl
  have hlinks : errorOf? (column.linkParameters.mapM fun l => do
        return (l.name, ← s.evalOn store dataset row column l.value)) =
      (column.drillthrough.toList.flatMap fun link =>
        link.parameters.map (⟨row, column, ·.value⟩)).findSome? (s.failureOf? store dataset) := by
    rw [errorOf?_mapM, column.linkParameters_eq, findSome?_flatMap, findSome?_flatMap]
    simp only [errorOf?_bind_pure, List.findSome?_map]
    rfl
  -- The value comes first, then the sort expression, then the bindings of the link.
  unfold cellOn
  rw [errorOf?_bind fun value => errorOf?_bind fun sortKey => errorOf?_bind_pure _ _, hsort, hlinks,
    ← List.findSome?_append, Column.evaluands, List.findSome?_cons, failureOf?]
  cases errorOf? (s.evalOn store dataset row column column.value) <;> rfl

theorem errorOf?_evalRows (store : Store) (dataset : DataSet) (rows : List DataRow) :
    errorOf? (rows.mapM (s.evalRow store dataset (s.columnsFor dataset.name))) =
      (s.definition.evaluands dataset.name rows).findSome? (s.failureOf? store dataset) := by
  rw [errorOf?_mapM, Definition.evaluands, findSome?_flatMap]
  congr 1
  funext row
  unfold evalRow
  rw [errorOf?_bind_pure, errorOf?_mapM, columnsFor, findSome?_flatMap, Definition.tablixesOn, findSome?_flatMap]
  simp only [findSome?_flatMap, errorOf?_bind_pure, errorOf?_cellOn]

theorem unfetched_of_fetch {dataset : DataSet} {p q : Progress} {e : ReportError}
    (h : s.fetch dataset p = (.error e, q)) : q.store.rows? dataset.name = none := by
  obtain ⟨_, _, h'⟩ | ⟨hf, ⟨_, _, h'⟩ | ⟨_, _, _, _, h'⟩ | ⟨_, _, _, _, h'⟩⟩ := s.fetch_cases dataset p <;>
    rw [h'] at h <;> cases h <;> exact hf

theorem exists_unfetched_of_prepare {ls : List LookupSite} {p q : Progress} {e : ReportError}
    (h : s.prepare ls p = (.error e, q)) :
    ∃ l ∈ ls, s.definition.declaresDataset l.source = true ∧ q.store.rows? l.source = none := by
  induction ls generalizing p with
  | nil => cases h
  | cons l ls ih =>
    obtain ⟨_, h'⟩ | ⟨_, dataset, hd, ⟨e', q', hf, h'⟩ | ⟨q', store, _, _, _, h'⟩⟩ := s.prepare_cons_cases l ls p <;>
      rw [h'] at h
    · obtain ⟨k, hk, hdeclared, hnone⟩ := ih h
      exact ⟨k, List.mem_cons_of_mem l hk, hdeclared, hnone⟩
    · cases h
      refine ⟨l, List.mem_cons_self, by simp [Definition.declaresDataset, hd], ?_⟩
      have hnone := unfetched_of_fetch hf
      rwa [Definition.name_of_dataset? hd] at hnone
    · obtain ⟨k, hk, hdeclared, hnone⟩ := ih h
      exact ⟨k, List.mem_cons_of_mem l hk, hdeclared, hnone⟩

/-- Whether these are the fetched rows of a dataset, and if there are any the sources of its lookups are fetched
too. -/
structure FetchedFor (s : Session) (store : Store) (dataset : String) (fetched : List DataRow) : Prop where
  rows : store.rows? dataset = some fetched
  sources : fetched ≠ [] → ∀ l ∈ s.lookupsFor dataset, s.definition.declaresDataset l.source = true →
    (store.rows? l.source).isSome

theorem FetchedFor.evalRows_eq {dataset : DataSet} {p q : Progress} {fetched : List DataRow}
    {outcome : Except ReportError (List DataRow)} (hf : s.FetchedFor q.store dataset.name fetched)
    (hp : p.store.rows? dataset.name = some fetched) (h : s.evalRows dataset p = (outcome, q)) :
    outcome = fetched.mapM (s.evalRow q.store dataset (s.columnsFor dataset.name)) := by
  obtain ⟨rfl, h'⟩ | ⟨hne, ⟨e, q', hprepare, h'⟩ | ⟨q', _, h'⟩⟩ := s.evalRows_cases hp <;> rw [h'] at h <;> cases h
  · rfl
  · obtain ⟨l, hl, hdeclared, hnone⟩ := exists_unfetched_of_prepare hprepare
    have hsome := hf.sources hne l hl hdeclared
    rw [hnone] at hsome
    contradiction
  · rfl

/-- Where a dataset and the sources of its lookups are fetched, its rows come out as evaluating the fetched
rows on what is kept does, whether they are evaluated now or were before. -/
theorem FetchedFor.rows_eq {dataset : DataSet} {p q : Progress} {fetched : List DataRow}
    {outcome : Except ReportError (List DataRow)} (hf : s.FetchedFor q.store dataset.name fetched)
    (hp : s.Consistent p) (hd : s.definition.dataset? dataset.name = some dataset)
    (h : s.rows dataset.name p = (outcome, q)) :
    outcome = fetched.mapM (s.evalRow q.store dataset (s.columnsFor dataset.name)) := by
  obtain ⟨rows, hv, h'⟩ | ⟨_, ⟨hnone, _⟩ | ⟨dataset', hd', ⟨e, q', he, h'⟩ | ⟨fetched', q', _, hq', hr⟩⟩⟩ :=
    s.rows_cases dataset.name p
  · rw [h'] at h
    cases h
    obtain ⟨dataset', fetched', hd', hf', _, hcells⟩ := hp.evaluated hv
    obtain rfl : dataset = dataset' := Option.some.inj (hd.symm.trans hd')
    obtain rfl : fetched = fetched' := Option.some.inj (hf.rows.symm.trans hf')
    exact hcells.symm
  · rw [hd] at hnone
    contradiction
  · obtain rfl : dataset = dataset' := Option.some.inj (hd.symm.trans hd')
    rw [h'] at h
    cases h
    have hfetched := hf.rows
    rw [unfetched_of_fetch he] at hfetched
    contradiction
  · obtain rfl : dataset = dataset' := Option.some.inj (hd.symm.trans hd')
    have hext := (s.evalRows_steps hq').extends
    obtain ⟨e, last, he, h'⟩ | ⟨rows, last, he, h'⟩ := hr <;> rw [h'] at h <;> cases h <;> rw [he] at hext
    · obtain rfl : fetched = fetched' := Option.some.inj (hf.rows.symm.trans (hext.rows hq'))
      exact hf.evalRows_eq hq' he
    · obtain rfl : fetched = fetched' := Option.some.inj (hf.rows.symm.trans (hext.rows hq'))
      have hlast : s.FetchedFor last.store dataset.name fetched := ⟨hf.rows, hf.sources⟩
      rw [hlast.evalRows_eq hq' he]
      -- Keeping the evaluated rows does not change what lookups find.
      exact mapM_congr fun row _ => evalRow_congr fun _ _ _ _ => rfl

theorem Consistent.ordinal_of_rows? {dataset : String} {p : Progress} {fetched : List DataRow} {i : Nat}
    {row : DataRow} (hp : s.Consistent p) (hf : p.store.rows? dataset = some fetched)
    (hrow : fetched[i]? = some row) : row.ordinal = i + 1 := by
  obtain ⟨dataset, _, reply, _, _, _, rfl⟩ := hp.fetched hf
  rw [dataset.getElem?_rowsOf, Option.map_eq_some_iff] at hrow
  obtain ⟨_, _, rfl⟩ := hrow
  rfl

/-- Evaluation is fail-fast in a fixed order.  Where a dataset and the sources of its lookups are fetched, its
rows are there if and only if all its expressions have values on all its rows.  Otherwise the error is that
of the first expression without a value, with the number of the row, counted from 1, the column, the
expression, of which the message has the text, and the cause. -/
theorem firstFailure_of_rows {dataset : DataSet} {p q : Progress} {fetched : List DataRow}
    {outcome : Except ReportError (List DataRow)} (hp : s.Moment p)
    (hd : s.definition.dataset? dataset.name = some dataset) (h : s.rows dataset.name p = (outcome, q))
    (hf : s.FetchedFor q.store dataset.name fetched) :
    (∀ (i : Nat) row, fetched[i]? = some row → row.ordinal = i + 1) ∧
    ((∃ rows, outcome = .ok rows) ↔ ∀ x ∈ s.definition.evaluands dataset.name fetched,
      ∃ v, (s.scopeOf q.store dataset x.row).eval x.e = .ok v) ∧
    ∀ err, outcome = .error err ↔ ∃ before x after cause,
      s.definition.evaluands dataset.name fetched = before ++ x :: after ∧
      (∀ y ∈ before, ∃ v, (s.scopeOf q.store dataset y.row).eval y.e = .ok v) ∧
      (s.scopeOf q.store dataset x.row).eval x.e = .error cause ∧
      err = .cell dataset.name x.row.ordinal x.column.name x.e cause ∧
      err.message = "Row " ++ natText x.row.ordinal ++ " of dataset '" ++ dataset.name ++ "', column '" ++
        x.column.name ++ "' (" ++ x.e.text ++ "): " ++ cause.message := by
  have hq : s.Consistent q := by
    have hsteps := s.rows_steps dataset.name p
    rw [h] at hsteps
    exact hsteps.consistent hp.consistent
  have herror : errorOf? outcome =
      (s.definition.evaluands dataset.name fetched).findSome? (s.failureOf? q.store dataset) := by
    rw [hf.rows_eq hp.consistent hd h, errorOf?_evalRows]
  refine ⟨fun i row => hq.ordinal_of_rows? hf.rows, ?_, fun err => ?_⟩
  · rw [← errorOf?_eq_none, herror, List.findSome?_eq_none_iff]
    simp only [failureOf?_eq_none]
  · rw [← errorOf?_eq_some, herror, List.findSome?_eq_some_iff]
    simp only [failureOf?_eq_none, failureOf?_eq_some]
    constructor
    · rintro ⟨before, x, after, hsplit, ⟨cause, hcause, rfl⟩, hbefore⟩
      exact ⟨before, x, after, cause, hsplit, hbefore, hcause, rfl, rfl⟩
    · rintro ⟨before, x, after, cause, hsplit, hbefore, hcause, rfl, _⟩
      exact ⟨before, x, after, hsplit, ⟨cause, hcause, rfl⟩, hbefore⟩

def tenOver (field : String) : Expr :=
  .binary .divide (.literal (.number (.ofNat 10))) (.field (some "D") field)

def ratios : DataSet :=
  ⟨"D", "S", "select A, B", [], [⟨"A", "A", ""⟩, ⟨"B", "B", ""⟩]⟩

def ratioRow (a b : Nat) : Row :=
  .ofList [("A", .number (.ofNat a)), ("B", .number (.ofNat b))]

def namedRatio (field : String) : Expr :=
  .lookup (tenOver field) "Names" "Id" "Name"

def linkedRatio : Column :=
  ⟨"Right", "1in", "", {}, .field (some "D") "B", {}, .number, none, .number,
    some ⟨"Ratio", [⟨"Of", .field (some "D") "A"⟩, ⟨"Name", namedRatio "B"⟩]⟩⟩

/-- A column that is sorted by a ratio and a column that is linked by the name of one.  The later column fails
on the second row, the earlier one on the third. -/
def undefinedRatios : Session where
  definition := {
    sources := [⟨"S", ""⟩]
    datasets := [ratios, ⟨"Names", "S", "names", [], [⟨"Id", "Id", ""⟩, ⟨"Name", "Name", ""⟩]⟩]
    tablixes := [⟨"T", "D", [
      ⟨"Left", "1in", "", {}, .field (some "D") "A", {}, .text, some (tenOver "A"), .number, none⟩,
      linkedRatio]⟩] }
  settings := {}
  parameters := ∅
  runner _ r :=
    .ok (if r.dataset = "D" then [ratioRow 1 2, ratioRow 2 0, ratioRow 0 1]
      else [.ofList [("Id", .number (.ofNat 5)), ("Name", .text "five")]])

theorem firstFailure_of_undefinedRatios :
    (undefinedRatios.rows "D" {}).1 = .error (.cell "D" 2 "Right" (namedRatio "B") .divisionByZero) := by
  let fetched := ratios.rowsOf [ratioRow 1 2, ratioRow 2 0, ratioRow 0 1]
  let evaluands := undefinedRatios.definition.evaluands "D" fetched
  have hrows : undefinedRatios.rows ratios.name {} =
      ((undefinedRatios.rows "D" {}).1, (undefinedRatios.rows "D" {}).2) := rfl
  have hfetched : undefinedRatios.FetchedFor (undefinedRatios.rows "D" {}).2.store ratios.name fetched :=
    ⟨by decide +kernel, fun _ => by decide +kernel⟩
  obtain ⟨_, _, herror⟩ := firstFailure_of_rows .start rfl hrows hfetched
  have hsplit : evaluands = evaluands.take 9 ++
      ⟨⟨2, ratios.fieldsOf (ratioRow 2 0), ∅⟩, linkedRatio, namedRatio "B"⟩ :: evaluands.drop 10 := by
    decide +kernel
  refine (herror _).2 ⟨_, _, _, .divisionByZero, hsplit, ?_, ?_, ?_, ?_⟩
  · simp only [← errorOf?_eq_none]
    decide +kernel
  · decide +kernel
  · decide +kernel
  · decide +kernel

end Session
end TabularReport
