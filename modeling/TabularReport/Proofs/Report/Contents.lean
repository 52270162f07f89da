import TabularReport.Proofs.Report.Shared
import TabularReport.Proofs.Session.Lookup
/-!
What tables hold.  A table has a row for each row of the reply for its dataset and in it a cell for each
of its columns, with the value that the column has on that row if lookups read the replies for their
sources one after the other.  Other tables on the dataset have their cells in the same rows; as the names
of columns are distinct in a definition that was read, none takes the place of another.
-/
set_option autoImplicit false

namespace TabularReport

/-- Whether the cell shows what the column has in the scope if its lookups read the rows of `sources`. -/
structure TableCell.Shows (cell : TableCell) (scope : Scope) (sources : String → List DataRow)
    (column : Column) : Prop where
  value : scope.evalByScan sources column.value = .ok cell.value
  displayed : cell.displayed = cell.value.displayed
  sortable : cell.sortKey.isSome = column.header.sortable
  sortKey : ∀ e, column.sort = some e → ∃ v, scope.evalByScan sources e = .ok v ∧
    cell.sortKey = some (.ofValue column.sortType v)

/-- What the columns of a table may read on a row of a result.  Nothing is kept. -/
def Session.scopeAt (s : Session) (dataset : DataSet) (result : Row) (ordinal : Nat) : Scope where
  definition := s.definition
  parameters := s.parameters
  row := some { dataset, fields := dataset.fieldsOf result, ordinal }

/-- Whether the table of the tablix holds the rows of the reply, each with a cell for each column. -/
structure Table.Shows (table : Table) (s : Session) (sources : String → List DataRow) (t : Tablix)
    (dataset : DataSet) (reply : List Row) : Prop where
  headers : table.headers = t.columns.map (·.header)
  length : table.rows.length = reply.length
  ordinal : ∀ (i : Nat) (row : TableRow), table.rows[i]? = some row → row.ordinal = i + 1
  cells : ∀ (i : Nat) (result : Row) (row : TableRow), reply[i]? = some result → table.rows[i]? = some row →
    List.Forall₂ (fun column cell => TableCell.Shows cell (s.scopeAt dataset result (i + 1)) sources column)
      t.columns row.cells

structure Table.Arranges (table : Table) (s : Session) (store : Store) (t : Tablix) (dataset : DataSet)
    (reply : List Row) : Prop where
  headers : table.headers = t.columns.map (·.header)
  length : table.rows.length = reply.length
  ordinal : ∀ (i : Nat) (row : TableRow), table.rows[i]? = some row → row.ordinal = i + 1
  cells : ∀ (i : Nat) (result : Row) (row : TableRow), reply[i]? = some result → table.rows[i]? = some row →
    List.Forall₂ (fun column shown => ∃ cell,
      s.cellOn store dataset { ordinal := i + 1, fields := dataset.fieldsOf result } column = .ok cell ∧
        shown = column.tableCell cell) t.columns row.cells

theorem DataSet.entries_fieldsOf {dataset : DataSet} (h : (dataset.fields.map (·.name)).Nodup) (result : Row) :
    (dataset.fieldsOf result).entries =
      dataset.fields.map fun f => (f.name, ((result.get? f.dataField).or (result.get? f.name)).getD .null) := by
  refine OrderedMap.entries_ofList ?_
  rwa [List.map_map]

theorem Column.shows_tableCell {column : Column} {cell : Cell} {scope : Scope}
    {sources : String → List DataRow} (hvalue : scope.evalByScan sources column.value = .ok cell.value)
    (hnone : column.sort = none → cell.sortKey = none)
    (hsort : ∀ e, column.sort = some e → ∃ v, scope.evalByScan sources e = .ok v ∧ cell.sortKey = some v) :
    (column.tableCell cell).Shows scope sources column := by
  refine ⟨hvalue, rfl, ?_, ?_⟩
  · cases hs : column.sort with
    | none => simp [tableCell, sortKeyOf, header, canSort, hs, hnone hs]
    | some e =>
      obtain ⟨v, _, hkey⟩ := hsort e hs
      simp [tableCell, sortKeyOf, header, canSort, hs, hkey]
  · intro e he
    obtain ⟨v, hv, hkey⟩ := hsort e he
    exact ⟨v, hv, by simp [tableCell, sortKeyOf, hkey]⟩

namespace Session

variable {s : Session} {q : Progress}

/-- What is kept has no part in the values of columns whose lookups are prepared. -/
theorem Consistent.eval_eq_evalByScan (h : s.Consistent q) {name : String}
    (hprepared : s.Prepared q.store (s.lookupsFor name)) {column : Column} (hc : column ∈ s.columnsFor name)
    {e : Expr} (he : e ∈ column.expressions) (dataset : DataSet) (result : Row) (ordinal : Nat) :
    (s.scopeOf q.store dataset { ordinal, fields := dataset.fieldsOf result }).eval e =
      (s.scopeAt dataset result ordinal).evalByScan q.store.sources e :=
  Scope.eval_eq_evalByScan fun l hl hdeclared =>
    h.scans (hprepared l (mem_lookupsFor hc he hl) hdeclared) dataset _

theorem Consistent.shows_tableCell (h : s.Consistent q) {name : String}
    (hprepared : s.Prepared q.store (s.lookupsFor name)) {column : Column} (hc : column ∈ s.columnsFor name)
    {dataset : DataSet} {result : Row} {ordinal : Nat} {cell : Cell}
    (hcell : s.cellOn q.store dataset { ordinal, fields := dataset.fieldsOf result } column = .ok cell) :
    (column.tableCell cell).Shows (s.scopeAt dataset result ordinal) q.store.sources column := by
  obtain ⟨hvalue, hnone, hsort, _⟩ := parts_of_cellOn hcell
  refine Column.shows_tableCell ?_ hnone ?_
  · rw [← h.eval_eq_evalByScan hprepared hc column.value_mem_expressions, hvalue]
  · intro e he
    obtain ⟨v, hv, hkey⟩ := hsort e he
    exact ⟨v, by rw [← h.eval_eq_evalByScan hprepared hc (Column.sort_mem_expressions he), hv], hkey⟩

theorem cells_of_evalRow {store : Store} {t : Tablix} (ht : t ∈ s.definition.tablixes)
    (hn : ((s.definition.tablixes.flatMap (·.columns)).map (·.name)).Nodup) {dataset : DataSet}
    {row row' : DataRow} (hrow : s.evalRow store dataset (s.columnsFor t.dataset) row = .ok row') :
    List.Forall₂ (fun column shown => ∃ cell, s.cellOn store dataset row column = .ok cell ∧
      shown = column.tableCell cell) t.columns (t.tableRow row').cells := by
  refine List.forall₂_map_right_iff.2 (List.forall₂_same.2 fun column hc => ?_)
  have hdistinct := hn.sublist ((s.columnsFor_sublist t.dataset).map (·.name))
  obtain ⟨cell, hcell, hfound⟩ := cell?_of_evalRow hdistinct hrow (mem_columnsFor ht hc)
  exact ⟨cell, hcell, by rw [hfound, Option.getD_some]⟩

theorem Consistent.exists_reply (h : s.Consistent q) {name : String} {rows : List DataRow}
    (hrows : q.store.evaluated? name = some rows) :
    ∃ dataset reply, s.definition.dataset? name = some dataset ∧ s.Returned q.requests name reply ∧
      (reply ≠ [] → s.Prepared q.store (s.lookupsFor name)) ∧ rows.length = reply.length ∧
      ∀ (i : Nat) (result : Row) (row : DataRow), reply[i]? = some result → rows[i]? = some row →
        s.evalRow q.store dataset (s.columnsFor name)
          { ordinal := i + 1, fields := dataset.fieldsOf result } = .ok row := by
  obtain ⟨dataset, fetched, hd, hf, hprepared, hcells⟩ := h.evaluated hrows
  obtain ⟨dataset', reply, hd', hreply, rfl⟩ := h.exists_returned hf
  obtain rfl : dataset = dataset' := Option.some.inj (hd.symm.trans hd')
  refine ⟨dataset, reply, hd, hreply, ?_, ?_, ?_⟩
  · -- Without rows nothing was prepared, but then there is no cell either.
    intro hne
    refine hprepared (List.ne_nil_of_length_pos ?_)
    rw [DataSet.length_rowsOf]
    exact List.length_pos_iff.2 hne
  · rw [length_of_mapM hcells, DataSet.length_rowsOf]
  · intro i result row hresult hrow
    refine getElem?_of_mapM hcells ?_ hrow
    rw [DataSet.getElem?_rowsOf, hresult, Option.map_some]

/-- Whatever else is in the rows of its dataset, the table of a tablix arranges the reply for the dataset. -/
theorem Consistent.arranges_table (h : s.Consistent q) {t : Tablix} (ht : t ∈ s.definition.tablixes)
    (hn : ((s.definition.tablixes.flatMap (·.columns)).map (·.name)).Nodup) {rows : List DataRow}
    (hrows : q.store.evaluated? t.dataset = some rows) :
    ∃ dataset reply, s.definition.dataset? t.dataset = some dataset ∧ s.Returned q.requests t.dataset reply ∧
      (reply ≠ [] → s.Prepared q.store (s.lookupsFor t.dataset)) ∧
      (t.table rows).Arranges s q.store t dataset reply := by
  obtain ⟨dataset, reply, hd, hreply, hprepared, hlength, hrow⟩ := h.exists_reply hrows
  refine ⟨dataset, reply, hd, hreply, hprepared, rfl, ?_, ?_, ?_⟩
  · rw [Tablix.table, List.length_map, hlength]
  · intro i tableRow htable
    rw [Tablix.table, List.getElem?_map, Option.map_eq_some_iff] at htable
    obtain ⟨row, hi, rfl⟩ := htable
    have hlt : i < reply.length := hlength ▸ (List.getElem?_eq_some_iff.1 hi).1
    exact congrArg Prod.fst (fields_of_evalRow (hrow i _ row (List.getElem?_eq_getElem hlt) hi))
  · intro i result tableRow hresult htable
    rw [Tablix.table, List.getElem?_map, Option.map_eq_some_iff] at htable
    obtain ⟨row, hi, rfl⟩ := htable
    exact cells_of_evalRow ht hn (hrow i result row hresult hi)

theorem forall₂_of_arranges {t : Tablix} (ht : t ∈ s.definition.tablixes) {table : Table} {dataset : DataSet}
    {reply : List Row} (h : table.Arranges s q.store t dataset reply)
    (hprepared : reply ≠ [] → s.Prepared q.store (s.lookupsFor t.dataset)) {P : Scope → Column → TableCell → Prop}
    (hP : ∀ {result : Row} {ordinal : Nat} {column : Column} {cell : Cell},
      s.Prepared q.store (s.lookupsFor t.dataset) → column ∈ s.columnsFor t.dataset →
      s.cellOn q.store dataset { ordinal, fields := dataset.fieldsOf result } column = .ok cell →
      P (s.scopeAt dataset result ordinal) column (column.tableCell cell))
    (i : Nat) (result : Row) (row : TableRow) (hresult : reply[i]? = some result)
    (hrow : table.rows[i]? = some row) :
    List.Forall₂ (P (s.scopeAt dataset result (i + 1))) t.columns row.cells := by
  have hne : reply ≠ [] := List.ne_nil_of_mem (List.mem_of_getElem? hresult)
  have hcells := h.cells i result row hresult hrow
  rw [List.forall₂_iff_zip] at hcells ⊢
  refine ⟨hcells.1, fun {column shown} hmem => ?_⟩
  obtain ⟨cell, hcell, rfl⟩ := hcells.2 hmem
  exact hP (hprepared hne) (mem_columnsFor ht (List.of_mem_zip hmem).1) hcell

theorem Consistent.shows_of_arranges (h : s.Consistent q) {t : Tablix} (ht : t ∈ s.definition.tablixes)
    {table : Table} {dataset : DataSet} {reply : List Row} (ha : table.Arranges s q.store t dataset reply)
    (hprepared : reply ≠ [] → s.Prepared q.store (s.lookupsFor t.dataset)) :
    table.Shows s q.store.sources t dataset reply :=
  ⟨ha.headers, ha.length, ha.ordinal,
    forall₂_of_arranges (P := fun scope column cell => cell.Shows scope q.store.sources column)
      ht ha hprepared fun hall hc hcell => h.shows_tableCell hall hc hcell⟩

theorem Consistent.evaluated_of_table {p : Progress} {t : Tablix} {table : Table} (h : s.Consistent p)
    (htable : s.table t p = (.ok table, q)) :
    s.Consistent q ∧ q.store.Extends p.store ∧
      ∃ rows, q.store.evaluated? t.dataset = some rows ∧ table = t.table rows := by
  obtain ⟨rows, hrows, rfl⟩ := exists_rows_of_table htable
  have hsteps := s.rows_steps t.dataset p
  have hkept := evaluated?_of_rows (congrArg Prod.fst hrows)
  rw [hrows] at hsteps hkept
  exact ⟨hsteps.consistent h, hsteps.extends, rows, hkept, rfl⟩

end Session

namespace Definition

variable {d : Definition} {settings : Settings} {runner : Runner} {supplied : ParameterValues}

theorem exists_start_of_table {t : Tablix} {table : Table} {p : Progress}
    (hd : (d.tablixes.map (·.name)).Nodup) (ht : t ∈ d.tablixes)
    (h : d.table settings runner supplied t.name = (.ok table, p)) :
    ∃ s, Session.start d settings runner supplied = .ok s ∧ s.table t {} = (.ok table, p) := by
  cases hs : Session.start d settings runner supplied with
  | error e => simp [Definition.table, tablix?_name hd ht, hs] at h
  | ok s => exact ⟨s, rfl, by rw [← h, table_of_start hs hd ht]⟩

/-- A table holds exactly the evaluated cells.  If the table of a tablix is made from a definition that
was read, it has a header for each column of the tablix and a row for each row of the only reply for its
dataset, numbered from 1, with a cell for each column.  The cell shows the value of the column where the
declared fields are read from that row of the reply and lookups from the replies for their sources, and
it has a sort key if and only if the column can be sorted, that of the evaluated sort expression. -/
theorem contents_of_table {bytes : ByteArray} {t : Tablix} {table : Table} {p : Progress}
    (hd : ofBytes bytes = .ok d) (ht : t ∈ d.tablixes)
    (h : d.table settings runner supplied t.name = (.ok table, p)) :
    ∃ s dataset reply, Session.start d settings runner supplied = .ok s ∧
      d.dataset? t.dataset = some dataset ∧ s.Returned p.requests t.dataset reply ∧
      (∀ other, s.Returned p.requests t.dataset other → other = reply) ∧
      (∀ result, (dataset.fieldsOf result).entries = dataset.fields.map fun f =>
        (f.name, ((result.get? f.dataField).or (result.get? f.name)).getD .null)) ∧
      (∀ name source found, d.dataset? name = some source → s.Returned p.requests name found →
        p.store.sources name = source.rowsOf found) ∧
      (reply ≠ [] → ∀ e ∈ t.expressions, ∀ l ∈ e.lookups, ∃ found, s.Returned p.requests l.source found) ∧
      table.Shows s p.store.sources t dataset reply := by
  obtain ⟨root, hroot⟩ := exists_root_of_ofBytes hd
  have hwell := wellFormed_of_ofElement hroot
  obtain ⟨s, hs, htable⟩ := exists_start_of_table hwell.tablixes.distinct ht h
  obtain ⟨rfl, _, _, _⟩ := Session.parts_of_start hs
  obtain ⟨hp, _, rows, hevaluated, rfl⟩ := s.consistent_empty.evaluated_of_table htable
  obtain ⟨dataset, reply, hdataset, hreply, hprepared, harranges⟩ :=
    hp.arranges_table ht hwell.columns.distinct hevaluated
  have hshows := hp.shows_of_arranges ht harranges hprepared
  refine ⟨s, dataset, reply, hs, hdataset, hreply, fun _ => hp.returned_unique hreply, ?_, ?_, ?_, hshows⟩
  · exact DataSet.entries_fieldsOf (hwell.fields dataset (List.mem_of_find?_eq_some hdataset)).distinct
  · intro name source found
    exact hp.sources_of_returned
  · intro hne e he l hl
    have hdeclared := (linked_of_ofBytes hd).named t ht e he l.source (Expr.source_mem_datasetsNamed hl)
    exact hp.exists_returned_of_isIndexed (hprepared hne l (Session.mem_lookupsFor_of_tablix ht he hl) hdeclared)

theorem contents_of_soldReport :
    ofBytes (String.ofList soldDocument).toUTF8 = .ok soldReport ∧
      ∃ table p, soldReport.table {} (fun _ => soldReply) ∅ "Sold" = (.ok table, p) ∧
        table.Shows ⟨soldReport, {}, ∅, fun _ => soldReply⟩ p.store.sources soldReport.tablixes[0]
          soldReport.datasets[0] soldOrders ∧
        table.rows.map (fun row => (row.ordinal, row.cells.map fun cell => (cell.value, cell.sortKey))) =
          [(1, [(.text "ink", some (.number (.ofNat 1)))]), (2, [(.null, some (.number (.ofNat 2)))])] := by
  have hrows : (fun table : Table => table.rows.map fun row =>
        (row.ordinal, row.cells.map fun cell => (cell.value, cell.sortKey))) <$>
      (soldReport.table {} (fun _ => soldReply) ∅ "Sold").1 =
        .ok [(1, [(.text "ink", some (.number (.ofNat 1)))]), (2, [(.null, some (.number (.ofNat 2)))])] := by
    decide +kernel
  obtain ⟨table, htable, hrows⟩ := map_eq_ok.1 hrows
  have hboth : soldReport.table {} (fun _ => soldReply) ∅ "Sold" =
      (.ok table, (soldReport.table {} (fun _ => soldReply) ∅ "Sold").2) := Prod.ext htable rfl
  obtain ⟨s, dataset, reply, hs, hdataset, _, hunique, _, _, _, hshows⟩ :=
    contents_of_table ofBytes_soldDocument (t := soldReport.tablixes[0]) (by decide) hboth
  have hstart : Session.start soldReport {} (fun _ => soldReply) ∅ =
      .ok ⟨soldReport, {}, ∅, fun _ => soldReply⟩ := rfl
  obtain rfl := Except.ok.inj (hs.symm.trans hstart)
  obtain rfl : dataset = soldReport.datasets[0] := Option.some.inj (hdataset.symm.trans rfl)
  obtain rfl : soldOrders = reply := hunique _
    ⟨⟨⟨"S", ""⟩, "Orders", ⟨"", ∅⟩⟩, rfl, [], [⟨⟨"S", ""⟩, "Items", ⟨"", ∅⟩⟩], by decide +kernel, rfl⟩
  exact ⟨ofBytes_soldDocument, table, _, hboth, hshows, hrows⟩

end Definition
end TabularReport
