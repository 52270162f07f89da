import TabularReport.Proofs.Definition.WellFormed
import TabularReport.Proofs.OrderedMap
import TabularReport.Proofs.Session.Fresh
import TabularReport.Report

set_option autoImplicit false

namespace TabularReport

theorem Definition.tablix?_name {d : Definition} {t : Tablix} (hd : (d.tablixes.map (·.name)).Nodup)
    (ht : t ∈ d.tablixes) : d.tablix? t.name = some t :=
  OrderedMap.find?_of_nodup_map hd ht

namespace Session

variable {s : Session}

theorem table_eq (s : Session) (t : Tablix) (p : Progress) :
    s.table t p = ((s.rows t.dataset p).1.map t.table, (s.rows t.dataset p).2) := by
  unfold table
  cases s.rows t.dataset p with
  | mk outcome q => cases outcome <;> rfl

theorem exists_rows_of_table {t : Tablix} {p q : Progress} {table : Table}
    (h : s.table t p = (.ok table, q)) : ∃ rows, s.rows t.dataset p = (.ok rows, q) ∧ table = t.table rows := by
  rw [table_eq] at h
  cases hrows : s.rows t.dataset p with
  | mk outcome q' =>
    rw [hrows] at h
    cases outcome with
    | error e => cases h
    | ok rows =>
      cases h
      exact ⟨rows, rfl, rfl⟩

theorem tables_cons (s : Session) (t : Tablix) (ts : List Tablix) (p : Progress) :
    (s.tables (t :: ts) p).1 = do
      let table ← (s.table t p).1
      let tables ← (s.tables ts (s.table t p).2).1
      return table :: tables := by
  rw [tables]
  cases s.table t p with
  | mk outcome q =>
    cases outcome with
    | error e => rfl
    | ok table =>
      simp only [bind, Except.bind]
      cases s.tables ts q with
      | mk outcome q' => cases outcome <;> rfl

/-- The tables of a shared session are those of sessions that have done nothing yet. -/
theorem tables_fst {reply : Request → Except String (List Row)} (hs : s.runner = fun _ => reply) {p : Progress}
    (hp : s.Consistent p) (ts : List Tablix) :
    (s.tables ts p).1 = ts.mapM fun t => (s.table t {}).1 := by
  induction ts generalizing p with
  | nil => rfl
  | cons t ts ih =>
    have htable : (s.table t p).1 = (s.table t {}).1 := by
      rw [table_eq, table_eq, hp.rows_fst, evaluation_eq hs hp s.consistent_empty,
        ← s.consistent_empty.rows_fst]
    have hq : s.Consistent (s.table t p).2 := by
      rw [table_eq]
      exact (s.rows_steps t.dataset p).consistent hp
    rw [tables_cons, ih hq, htable, List.mapM_cons]

/-- Whether no dataset was asked for twice, and all that were asked for are fetched. -/
structure Unrepeated (p : Progress) : Prop where
  distinct : (p.requests.map (·.dataset)).Nodup
  fetched : ∀ r ∈ p.requests, (p.store.rows? r.dataset).isSome

theorem unrepeated_empty : Unrepeated {} :=
  ⟨List.nodup_nil, by simp⟩

theorem Unrepeated.of_store {p : Progress} {store : Store} (h : Unrepeated p)
    (hrows : ∀ name, store.rows? name = p.store.rows? name) : Unrepeated { p with store } :=
  ⟨h.distinct, fun r hr => by rw [hrows]; exact h.fetched r hr⟩

theorem Unrepeated.of_fetch {p q : Progress} {dataset : DataSet} (h : Unrepeated p)
    (hf : s.fetch dataset p = (.ok (), q)) : Unrepeated q := by
  obtain ⟨rows, _, h'⟩ | ⟨hnone, ⟨e, _, h'⟩ | ⟨request, reason, _, _, h'⟩ | ⟨request, reply, ha, _, h'⟩⟩ :=
    s.fetch_cases dataset p <;> rw [h'] at hf <;> cases hf
  · exact h
  · have hname := dataset_of_request ha
    constructor
    · -- The dataset was not fetched, so there was no request for it.
      rw [List.map_append, List.map_singleton, List.nodup_append]
      refine ⟨h.distinct, List.pairwise_singleton _ _, ?_⟩
      rintro name hmem _ hnew rfl
      obtain ⟨r, hr, rfl⟩ := List.mem_map.1 hmem
      have hfetched := h.fetched r hr
      rw [List.mem_singleton.1 hnew, hname, hnone] at hfetched
      contradiction
    · intro r hr
      rw [Store.rows?_putRows]
      split
      · rfl
      · rename_i hne
        rcases List.mem_append.1 hr with hr | hr
        · exact h.fetched r hr
        · rw [List.mem_singleton.1 hr] at hne
          exact absurd hname hne

theorem Unrepeated.of_prepare {p q : Progress} {ls : List LookupSite} (h : Unrepeated p)
    (hprepare : s.prepare ls p = (.ok (), q)) : Unrepeated q := by
  induction ls generalizing p with
  | nil =>
    cases hprepare
    exact h
  | cons l ls ih =>
    obtain ⟨_, h'⟩ | ⟨_, dataset, _, ⟨e, q', _, h'⟩ | ⟨q', store, hf, _, hstore, h'⟩⟩ :=
      s.prepare_cons_cases l ls p <;> rw [h'] at hprepare
    · exact ih h hprepare
    · cases hprepare
    · obtain ⟨rows, _, rfl⟩ := Store.withIndex?_eq_some.1 hstore
      refine ih ?_ hprepare
      exact (h.of_fetch hf).of_store fun _ => rfl

theorem Unrepeated.of_evalRows {p q : Progress} {dataset : DataSet} {fetched rows : List DataRow}
    (h : Unrepeated p) (hf : p.store.rows? dataset.name = some fetched)
    (he : s.evalRows dataset p = (.ok rows, q)) : Unrepeated q := by
  obtain ⟨_, h'⟩ | ⟨_, ⟨e, q', _, h'⟩ | ⟨q', hprepare, h'⟩⟩ := s.evalRows_cases hf <;> rw [h'] at he
  · cases he
    exact h
  · cases he
  · obtain ⟨_, rfl⟩ := Prod.mk.inj he
    exact h.of_prepare hprepare

theorem Unrepeated.of_rows {p q : Progress} {name : String} {rows : List DataRow} (h : Unrepeated p)
    (hrows : s.rows name p = (.ok rows, q)) : Unrepeated q := by
  obtain ⟨_, _, h'⟩ | ⟨_, ⟨_, h'⟩ | ⟨dataset, _, ⟨_, _, _, h'⟩ | ⟨fetched, q', hf, hq, hr⟩⟩⟩ :=
    s.rows_cases name p
  · rw [h'] at hrows
    cases hrows
    exact h
  · rw [h'] at hrows
    cases hrows
  · rw [h'] at hrows
    cases hrows
  · obtain ⟨_, _, _, h'⟩ | ⟨_, q'', he, h'⟩ := hr <;> rw [h'] at hrows <;> cases hrows
    exact ((h.of_fetch hf).of_evalRows hq he).of_store fun _ => rfl

theorem exists_of_tables_cons {t : Tablix} {ts : List Tablix} {p q : Progress} {tables : List Table}
    (h : s.tables (t :: ts) p = (.ok tables, q)) :
    ∃ table rest q', s.table t p = (.ok table, q') ∧ s.tables ts q' = (.ok rest, q) ∧ tables = table :: rest := by
  rw [Session.tables] at h
  cases htable : s.table t p with
  | mk outcome q' =>
    rw [htable] at h
    cases outcome with
    | error e => cases h
    | ok table =>
      cases hrest : s.tables ts q' with
      | mk outcome q'' =>
        cases outcome with
        | error e => simp [hrest] at h
        | ok rest =>
          simp only [hrest, Prod.mk.injEq, Except.ok.injEq] at h
          obtain ⟨rfl, rfl⟩ := h
          exact ⟨table, rest, q', rfl, hrest, rfl⟩

theorem Unrepeated.of_tables {p q : Progress} {ts : List Tablix} {tables : List Table} (h : Unrepeated p)
    (htables : s.tables ts p = (.ok tables, q)) : Unrepeated q := by
  induction ts generalizing p tables with
  | nil =>
    cases htables
    exact h
  | cons t ts ih =>
    obtain ⟨table, rest, q', htable, hrest, _⟩ := exists_of_tables_cons htables
    obtain ⟨rows, hrows, _⟩ := exists_rows_of_table htable
    exact ih (h.of_rows hrows) hrest

end Session

namespace Definition

variable {d : Definition} {settings : Settings} {supplied : ParameterValues}

theorem tables_of_start {runner : Runner} {s : Session} (hs : Session.start d settings runner supplied = .ok s) :
    d.tables settings runner supplied = s.tables d.tablixes {} := by
  simp only [tables, hs]

theorem table_of_start {runner : Runner} {s : Session} {t : Tablix}
    (hs : Session.start d settings runner supplied = .ok s) (hd : (d.tablixes.map (·.name)).Nodup)
    (ht : t ∈ d.tablixes) : d.table settings runner supplied t.name = s.table t {} := by
  simp only [table, tablix?_name hd ht, hs]

theorem tables_fst_eq_mapM {reply : Request → Except String (List Row)} {values : ParameterValues}
    (hd : (d.tablixes.map (·.name)).Nodup) (hv : d.parameterValues settings supplied = .ok values) :
    (d.tables settings (fun _ => reply) supplied).1 =
      d.tablixes.mapM fun t => (d.table settings (fun _ => reply) supplied t.name).1 := by
  have hs : Session.start d settings (fun _ => reply) supplied = .ok ⟨d, settings, values, fun _ => reply⟩ := by
    simp only [Session.start, hv]
    rfl
  rw [tables_of_start hs, Session.tables_fst rfl (Session.consistent_empty _)]
  exact mapM_congr fun t ht => by rw [table_of_start hs hd ht]

theorem requests_of_tables {runner : Runner} {tables : List Table}
    (h : (d.tables settings runner supplied).1 = .ok tables) :
    ((d.tables settings runner supplied).2.requests.map (·.dataset)).Nodup := by
  cases hs : Session.start d settings runner supplied with
  | error e => simp [Definition.tables, hs] at h
  | ok s =>
    rw [tables_of_start hs] at h ⊢
    exact (Session.unrepeated_empty.of_tables (Prod.ext h rfl)).distinct

/-- Sharing a session does not change a report.  For a definition that was read and parameters that
resolve, with a runner whose reply depends on the request alone, the report succeeds if and only if each
of its tables does in a session of its own, and then it holds these tables in the order of the definition;
otherwise its error is that of the first table that fails.  With any runner, a report that succeeds has
asked for each dataset at most once. -/
theorem tables_eq_separate {bytes : ByteArray} {reply : Request → Except String (List Row)}
    {values : ParameterValues} (hd : ofBytes bytes = .ok d)
    (hv : d.parameterValues settings supplied = .ok values) :
    ((∃ tables, (d.tables settings (fun _ => reply) supplied).1 = .ok tables) ↔
      ∀ t ∈ d.tablixes, ∃ table, (d.table settings (fun _ => reply) supplied t.name).1 = .ok table) ∧
    (∀ tables, (d.tables settings (fun _ => reply) supplied).1 = .ok tables →
      List.Forall₂ (fun t table => (d.table settings (fun _ => reply) supplied t.name).1 = .ok table)
        d.tablixes tables) ∧
    (∀ e, (d.tables settings (fun _ => reply) supplied).1 = .error e ↔
      ∃ before t after, d.tablixes = before ++ t :: after ∧
        (∀ u ∈ before, ∃ table, (d.table settings (fun _ => reply) supplied u.name).1 = .ok table) ∧
        (d.table settings (fun _ => reply) supplied t.name).1 = .error e) ∧
    (∀ runner tables, (d.tables settings runner supplied).1 = .ok tables →
      ((d.tables settings runner supplied).2.requests.map (·.dataset)).Nodup) := by
  obtain ⟨root, hroot⟩ := exists_root_of_ofBytes hd
  have heach : (d.tables settings (fun _ => reply) supplied).1 =
      d.tablixes.mapM fun t => (d.table settings (fun _ => reply) supplied t.name).1 :=
    tables_fst_eq_mapM (wellFormed_of_ofElement hroot).tablixes.distinct hv
  refine ⟨?_, ?_, ?_, ?_⟩
  · rw [heach]
    exact exists_mapM_eq_ok_iff
  · intro tables h
    rw [heach] at h
    exact mapM_eq_ok_iff.1 h
  · intro e
    rw [heach]
    exact mapM_eq_error_iff
  · intro runner tables
    exact requests_of_tables

def datasetText (name : String) (fields : List String) : List String :=
  ["<DataSet Name=\"", name, "\">", "<Query>", "<DataSourceName>", "S", "</DataSourceName>", "<CommandText/>",
    "</Query>"] ++ fields.flatMap (fun field => ["<Field Name=\"", field, "\"/>"]) ++ ["</DataSet>"]

def tableText (name sort value : String) : List String :=
  ["<Tablix Name=\"", name, "\">", "<DataSetName>", "Orders", "</DataSetName>", "<TablixBody>",
    "<TablixColumns>", "<TablixColumn/>", "</TablixColumns>", "<TablixRows>",
    "<TablixRow>", "<TablixCell>", "<Textbox>", "<UserSort>", "<SortExpression>", sort, "</SortExpression>",
    "</UserSort>", "</Textbox>", "</TablixCell>", "</TablixRow>",
    "<TablixRow>", "<TablixCell>", "<Textbox>", "<TextRun>", "<Value>", value, "</Value>", "</TextRun>",
    "</Textbox>", "</TablixCell>", "</TablixRow>", "</TablixRows>", "</TablixBody>", "</Tablix>"]

def soldDocument : List Char :=
  '<' :: (["Report>", "<DataSource Name=\"S\"/>"] ++ datasetText "Orders" ["Item"] ++
    datasetText "Items" ["Id", "Name"] ++
    tableText "Sold" "=RowNumber(\"Orders\")"
      "=Lookup(Fields!Item.Value, Fields!Id.Value, Fields!Name.Value, \"Items\")" ++
    tableText "Numbers" "=Fields!Item.Value" "=RowNumber(\"Orders\")" ++
    ["</Report>"]).flatMap String.toList

def soldTable (name : String) (sort value : Expr) (type sortType : ColumnType) : Tablix :=
  ⟨name, "Orders", [⟨name ++ "_Column1", "1in", "", {}, value, {}, type, some sort, sortType, none⟩]⟩

def soldReport : Definition where
  sources := [⟨"S", ""⟩]
  datasets := [⟨"Orders", "S", "", [], [⟨"Item", "Item", "System.String"⟩]⟩,
    ⟨"Items", "S", "", [], [⟨"Id", "Id", "System.String"⟩, ⟨"Name", "Name", "System.String"⟩]⟩]
  tablixes := [
    soldTable "Sold" (.rowNumber "Orders") (.lookup (.field (some "Orders") "Item") "Items" "Id" "Name")
      .text .number,
    soldTable "Numbers" (.field (some "Orders") "Item") (.rowNumber "Orders") .number .text]

theorem ofBytes_soldDocument : ofBytes (String.ofList soldDocument).toUTF8 = .ok soldReport := by
  rw [ofBytes, Markup.Element.ofBytes_ofList (by decide +kernel)]
  refine toOption_eq_some.1 ?_
  decide +kernel

def soldOrders : List Row :=
  [.ofList [("Item", .text "7")], .ofList [("Item", .text "8")]]

def soldReply (r : Request) : Except String (List Row) :=
  if r.dataset = "Orders" then .ok soldOrders
  else .ok [.ofList [("Id", .text "7"), ("Name", .text "ink")]]

theorem tables_of_soldReport :
    ofBytes (String.ofList soldDocument).toUTF8 = .ok soldReport ∧
      soldReport.parameterValues {} ∅ = .ok ∅ ∧
      ∃ tables, (soldReport.tables {} (fun _ => soldReply) ∅).1 = .ok tables ∧
        List.Forall₂ (fun t table => (soldReport.table {} (fun _ => soldReply) ∅ t.name).1 = .ok table)
          soldReport.tablixes tables ∧
        ((soldReport.tables {} (fun _ => soldReply) ∅).2.requests.map (·.dataset)).Nodup := by
  have hvalues : soldReport.parameterValues {} ∅ = .ok ∅ := rfl
  obtain ⟨hsucceeds, hseparate, _, honce⟩ :=
    @tables_eq_separate soldReport {} ∅ _ soldReply ∅ ofBytes_soldDocument hvalues
  have hsome : ∀ t ∈ soldReport.tablixes,
      (soldReport.table {} (fun _ => soldReply) ∅ t.name).1.toOption.isSome = true := by decide +kernel
  have heach : ∀ t ∈ soldReport.tablixes,
      ∃ table, (soldReport.table {} (fun _ => soldReply) ∅ t.name).1 = .ok table := by
    intro t ht
    obtain ⟨table, htable⟩ := Option.isSome_iff_exists.1 (hsome t ht)
    exact ⟨table, toOption_eq_some.1 htable⟩
  obtain ⟨tables, htables⟩ := hsucceeds.2 heach
  exact ⟨ofBytes_soldDocument, hvalues, tables, htables, hseparate tables htables, honce _ tables htables⟩

end Definition
end TabularReport
