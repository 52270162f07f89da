import Mathlib.Data.List.Flatten
import TabularReport.Session.Basic
import TabularReport.Proofs.Eval.Scope
import TabularReport.Proofs.OrderedMap

set_option autoImplicit false

namespace TabularReport

namespace Column

theorem linkParameters_eq (column : Column) :
    column.linkParameters = column.drillthrough.toList.flatMap (·.parameters) := by
  unfold linkParameters
  cases column.drillthrough <;> simp

theorem expressions_eq (column : Column) :
    column.expressions = column.value :: (column.sort.toList ++ column.drillthrough.toList.flatMap fun link =>
      link.parameters.map (·.value)) := by
  rw [expressions, linkParameters_eq, List.map_flatMap]

theorem value_mem_expressions (column : Column) : column.value ∈ column.expressions := by
  simp [expressions]

theorem sort_mem_expressions {column : Column} {e : Expr} (h : column.sort = some e) :
    e ∈ column.expressions := by
  simp [expressions, h]

theorem link_mem_expressions {column : Column} {l : LinkParameter} (h : l ∈ column.linkParameters) :
    l.value ∈ column.expressions := by
  have hl : l.value ∈ column.linkParameters.map (·.value) := List.mem_map_of_mem h
  simp [expressions, hl]

end Column

namespace Session

theorem columnsFor_sublist (s : Session) (dataset : String) :
    (s.columnsFor dataset).Sublist (s.definition.tablixes.flatMap (·.columns)) :=
  List.filter_sublist.flatMap _

theorem mem_columnsFor {s : Session} {t : Tablix} {column : Column} (ht : t ∈ s.definition.tablixes)
    (hc : column ∈ t.columns) : column ∈ s.columnsFor t.dataset :=
  List.mem_flatMap.2 ⟨t, List.mem_filter.2 ⟨ht, by simp⟩, hc⟩

theorem mem_lookupsFor_of_tablix {s : Session} {t : Tablix} {e : Expr} {l : LookupSite}
    (ht : t ∈ s.definition.tablixes) (he : e ∈ t.expressions) (hl : l ∈ e.lookups) :
    l ∈ s.lookupsFor t.dataset := by
  have hon : t ∈ s.definition.tablixesOn t.dataset := List.mem_filter.2 ⟨ht, by simp⟩
  exact List.mem_flatMap.2 ⟨e, List.mem_flatMap.2 ⟨t, hon, he⟩, hl⟩

theorem mem_lookupsFor {s : Session} {dataset : String} {column : Column} {e : Expr} {l : LookupSite}
    (hc : column ∈ s.columnsFor dataset) (he : e ∈ column.expressions) (hl : l ∈ e.lookups) :
    l ∈ s.lookupsFor dataset := by
  obtain ⟨t, hon, hcolumn⟩ := List.mem_flatMap.1 hc
  obtain ⟨ht, rfl⟩ : t ∈ s.definition.tablixes ∧ t.dataset = dataset := by
    simpa [Definition.tablixesOn] using hon
  exact mem_lookupsFor_of_tablix ht (List.mem_flatMap.2 ⟨column, hcolumn, he⟩) hl

theorem cellOn_congr {s : Session} {a b : Store} {dataset : DataSet} {row : DataRow} {column : Column}
    (h : ∀ e ∈ column.expressions, s.evalOn a dataset row column e = s.evalOn b dataset row column e) :
    s.cellOn a dataset row column = s.cellOn b dataset row column := by
  have hvalue := h column.value column.value_mem_expressions
  have hsort : column.sort.mapM (s.evalOn a dataset row column) =
      column.sort.mapM (s.evalOn b dataset row column) := by
    cases hsort : column.sort with
    | none => rfl
    | some e => simp [h e (Column.sort_mem_expressions hsort)]
  have hlinks : (column.linkParameters.mapM fun l => do
        return (l.name, ← s.evalOn a dataset row column l.value)) =
      column.linkParameters.mapM fun l => do return (l.name, ← s.evalOn b dataset row column l.value) := by
    refine mapM_congr fun l hl => ?_
    rw [h l.value (Column.link_mem_expressions hl)]
  simp only [cellOn, hvalue, hsort, hlinks]

theorem evalRow_congr {s : Session} {a b : Store} {dataset : DataSet} {row : DataRow}
    (h : ∀ l ∈ s.lookupsFor dataset.name, s.definition.declaresDataset l.source = true →
      ∀ key, a.find? l.source l.keyField key = b.find? l.source l.keyField key) :
    s.evalRow a dataset (s.columnsFor dataset.name) row = s.evalRow b dataset (s.columnsFor dataset.name) row := by
  have heval : ∀ column ∈ s.columnsFor dataset.name, ∀ e ∈ column.expressions,
      s.evalOn a dataset row column e = s.evalOn b dataset row column e := by
    intro column hc e he
    have hscope : (s.scopeOf a dataset row).eval e = (s.scopeOf b dataset row).eval e :=
      Scope.eval_congr (fun _ => rfl) rfl rfl fun l hl => h l (mem_lookupsFor hc he hl)
    simp only [evalOn, hscope]
  have hcells := mapM_congr (f := fun c : Column => do return (c.name, ← s.cellOn a dataset row c))
    (g := fun c : Column => do return (c.name, ← s.cellOn b dataset row c))
    fun column hc => by rw [cellOn_congr (heval column hc)]
  simp only [evalRow, hcells]

theorem fields_of_evalRow {s : Session} {store : Store} {dataset : DataSet} {columns : List Column}
    {row row' : DataRow} (h : s.evalRow store dataset columns row = .ok row') :
    (row'.ordinal, row'.fields) = (row.ordinal, row.fields) := by
  obtain ⟨cells, _, h⟩ := bind_eq_ok.1 h
  cases h
  rfl

theorem evalOn_eq_ok {s : Session} {store : Store} {dataset : DataSet} {row : DataRow} {column : Column}
    {e : Expr} {v : Scalar} :
    s.evalOn store dataset row column e = .ok v ↔ (s.scopeOf store dataset row).eval e = .ok v := by
  unfold evalOn
  cases (s.scopeOf store dataset row).eval e <;> simp

/-- A cell holds the value of its column, the value of the sort expression if there is one, and in order
the values that the link binds. -/
theorem parts_of_cellOn {s : Session} {store : Store} {dataset : DataSet} {row : DataRow} {column : Column}
    {cell : Cell} (h : s.cellOn store dataset row column = .ok cell) :
    (s.scopeOf store dataset row).eval column.value = .ok cell.value ∧
      (column.sort = none → cell.sortKey = none) ∧
      (∀ e, column.sort = some e → ∃ v, (s.scopeOf store dataset row).eval e = .ok v ∧ cell.sortKey = some v) ∧
      List.Forall₂ (fun l entry => entry.1 = l.name ∧ (s.scopeOf store dataset row).eval l.value = .ok entry.2)
        column.linkParameters cell.links := by
  obtain ⟨value, hvalue, h⟩ := bind_eq_ok.1 h
  obtain ⟨sortKey, hsort, h⟩ := bind_eq_ok.1 h
  obtain ⟨links, hlinks, h⟩ := bind_eq_ok.1 h
  cases h
  refine ⟨evalOn_eq_ok.1 hvalue, ?_, ?_, ?_⟩
  · intro hnone
    rw [hnone] at hsort
    cases hsort
    rfl
  · intro e he
    rw [he, Option.mapM_some, map_eq_ok] at hsort
    obtain ⟨v, hv, rfl⟩ := hsort
    exact ⟨v, evalOn_eq_ok.1 hv, rfl⟩
  · refine (mapM_eq_ok_iff.1 hlinks).imp fun l entry hentry => ?_
    obtain ⟨v, hv, hentry⟩ := bind_eq_ok.1 hentry
    cases hentry
    exact ⟨rfl, evalOn_eq_ok.1 hv⟩

/-- Where the names of columns are distinct, no cell takes the place of another. -/
theorem cell?_of_evalRow {s : Session} {store : Store} {dataset : DataSet} {columns : List Column}
    {row row' : DataRow} (hn : (columns.map (·.name)).Nodup)
    (h : s.evalRow store dataset columns row = .ok row') {column : Column} (hc : column ∈ columns) :
    ∃ cell, s.cellOn store dataset row column = .ok cell ∧ row'.cell? column.name = some cell := by
  obtain ⟨cells, hcells, h⟩ := bind_eq_ok.1 h
  cases h
  have hnames : cells.map (·.1) = columns.map (·.name) := by
    refine map_mapM_of_forall hcells fun c _ entry hentry => ?_
    obtain ⟨cell, _, hentry⟩ := bind_eq_ok.1 hentry
    cases hentry
    rfl
  have hkey : column.name ∈ cells.map (·.1) := hnames ▸ List.mem_map_of_mem hc
  obtain ⟨cell, hcell⟩ := Option.isSome_iff_exists.1 (OrderedMap.isSome_get?_ofList.2 hkey)
  obtain ⟨other, hother, hentry⟩ := exists_of_mem_mapM hcells (OrderedMap.mem_of_get?_ofList hcell)
  obtain ⟨cell', hcell', hentry⟩ := bind_eq_ok.1 hentry
  rw [pure_eq_ok, Prod.mk.injEq] at hentry
  obtain ⟨hname, rfl⟩ := hentry
  obtain rfl : other = column := List.inj_on_of_nodup_map hn hother hc hname
  exact ⟨cell', hcell', hcell⟩

theorem exists_of_cellOn_eq_error {s : Session} {store : Store} {dataset : DataSet} {row : DataRow}
    {column : Column} {err : ReportError} (h : s.cellOn store dataset row column = .error err) :
    ∃ e ∈ column.expressions, s.evalOn store dataset row column e = .error err := by
  rcases bind_eq_error.1 h with hvalue | ⟨_, _, h⟩
  · exact ⟨column.value, column.value_mem_expressions, hvalue⟩
  rcases bind_eq_error.1 h with hsort | ⟨_, _, h⟩
  · obtain ⟨e, he, hsort⟩ := exists_of_optionMapM_eq_error hsort
    exact ⟨e, Column.sort_mem_expressions he, hsort⟩
  rcases bind_eq_error.1 h with hlinks | ⟨_, _, h⟩
  · obtain ⟨l, hl, hlink⟩ := exists_of_mapM_eq_error hlinks
    rcases bind_eq_error.1 hlink with hlink | ⟨_, _, hlink⟩
    · exact ⟨l.value, Column.link_mem_expressions hl, hlink⟩
    · contradiction
  · contradiction

theorem exists_of_evalRow_eq_error {s : Session} {store : Store} {dataset : DataSet} {columns : List Column}
    {row : DataRow} {err : ReportError} (h : s.evalRow store dataset columns row = .error err) :
    ∃ column ∈ columns, ∃ e ∈ column.expressions, s.evalOn store dataset row column e = .error err := by
  rcases bind_eq_error.1 h with h | ⟨_, _, h⟩
  · obtain ⟨column, hc, h⟩ := exists_of_mapM_eq_error h
    rcases bind_eq_error.1 h with h | ⟨_, _, h⟩
    · exact ⟨column, hc, exists_of_cellOn_eq_error h⟩
    · contradiction
  · contradiction

end Session
end TabularReport
