import TabularReport.Proofs.Report.Contents
/-!
Links of rendered cells.  A cell whose column has a link is evaluated with the value of each binding, in
the order of the declaration.  The table then looks the values up by the names of the bindings: of two
bindings with one name, which are read without an error, both have the value of the first.
-/
set_option autoImplicit false

namespace TabularReport

/-- Whether there is an entry for each binding, in its place, of its own name and its own value. -/
def OwnValues (value : Expr → Except EvalError Scalar) (bindings : List LinkParameter)
    (entries : List (String × Scalar)) : Prop :=
  List.Forall₂ (fun b entry => entry.1 = b.name ∧ value b.value = .ok entry.2) bindings entries

/-- What a link has for its bindings: their names in order, each with the value of the first binding of
that name.  It has the own value of each if and only if bindings of one name have one value. -/
structure Link.Binds (link : Link) (value : Expr → Except EvalError Scalar) (d : Drillthrough) : Prop where
  reportName : link.reportName = d.reportName
  names : link.parameters.map (·.1) = d.parameters.map (·.name)
  defined : ∀ b ∈ d.parameters, ∃ v, value b.value = .ok v
  first : ∀ entry ∈ link.parameters, ∃ b, d.parameters.find? (·.name = entry.1) = some b ∧
    value b.value = .ok entry.2
  own_iff : OwnValues value d.parameters link.parameters ↔
    ∀ b ∈ d.parameters, ∀ c ∈ d.parameters, b.name = c.name → value b.value = value c.value

section Bindings

variable {value : Expr → Except EvalError Scalar} {bindings : List LinkParameter}
  {entries : List (String × Scalar)}

theorem OwnValues.exists_value (h : OwnValues value bindings entries) {b : LinkParameter} (hb : b ∈ bindings) :
    ∃ v, value b.value = .ok v := by
  induction h with
  | nil => cases hb
  | cons hentry _ ih =>
    cases hb with
    | head => exact ⟨_, hentry.2⟩
    | tail _ hb => exact ih hb

theorem OwnValues.find? (h : OwnValues value bindings entries) {name : String} {b : LinkParameter}
    (hb : bindings.find? (·.name = name) = some b) :
    ∃ v, value b.value = .ok v ∧ entries.find? (·.1 = name) = some (name, v) := by
  induction h with
  | nil => cases hb
  | @cons c entry _ _ hentry _ ih =>
    obtain ⟨hname, hvalue⟩ := hentry
    by_cases hc : c.name = name
    · rw [List.find?_cons_of_pos (by simpa using hc), Option.some.injEq] at hb
      subst hb hc
      exact ⟨entry.2, hvalue, by rw [List.find?_cons_of_pos (by simpa using hname), ← hname]⟩
    · rw [List.find?_cons_of_neg (by simpa using hc)] at hb
      obtain ⟨v, hv, hfound⟩ := ih hb
      exact ⟨v, hv, by rw [List.find?_cons_of_neg (by simpa [hname] using hc), hfound]⟩

def Cell.bound (cell : Cell) (name : String) : Scalar :=
  ((cell.links.find? (·.1 = name)).map (·.2)).getD .null

theorem OwnValues.bound {cell : Cell} (h : OwnValues value bindings cell.links) {b : LinkParameter}
    (hb : b ∈ bindings) :
    ∃ c, bindings.find? (·.name = b.name) = some c ∧ value c.value = .ok (cell.bound b.name) := by
  obtain ⟨c, hc⟩ := Option.isSome_iff_exists.1
    (List.find?_isSome.2 ⟨b, hb, by simp⟩ : (bindings.find? (·.name = b.name)).isSome)
  obtain ⟨v, hv, hfound⟩ := h.find? hc
  exact ⟨c, hc, by rw [hv, Cell.bound, hfound]; rfl⟩

/-- Entries that have for each name the value of its first binding have the own value of each binding if
and only if the bindings of a name agree. -/
theorem ownValues_iff {f : String → Scalar}
    (h : ∀ b ∈ bindings, ∃ c, bindings.find? (·.name = b.name) = some c ∧ value c.value = .ok (f b.name)) :
    OwnValues value bindings (bindings.map fun b => (b.name, f b.name)) ↔
      ∀ b ∈ bindings, ∀ c ∈ bindings, b.name = c.name → value b.value = value c.value := by
  rw [OwnValues, List.forall₂_map_right_iff, List.forall₂_same]
  constructor
  · intro hown b hb c hc hname
    rw [(hown b hb).2, (hown c hc).2, hname]
  · intro hagree b hb
    obtain ⟨c, hc, hv⟩ := h b hb
    have hname : c.name = b.name := by simpa using List.find?_some hc
    exact ⟨rfl, (hagree b hb c (List.mem_of_find?_eq_some hc) hname.symm).trans hv⟩

end Bindings

def TableCell.Binds (cell : TableCell) (value : Expr → Except EvalError Scalar) (column : Column) : Prop :=
  Option.Rel (fun link d => Link.Binds link value d) cell.link column.drillthrough

theorem Column.linkOf_eq {column : Column} {cell : Cell} {d : Drillthrough} (h : column.drillthrough = some d) :
    column.linkOf cell =
      some { reportName := d.reportName, parameters := d.parameters.map fun b => (b.name, cell.bound b.name) } := by
  rw [linkOf, h]
  rfl

theorem Column.binds_tableCell {column : Column} {cell : Cell} {value : Expr → Except EvalError Scalar}
    (h : OwnValues value column.linkParameters cell.links) :
    (column.tableCell cell).Binds value column := by
  rw [TableCell.Binds, tableCell]
  cases hd : column.drillthrough with
  | none =>
    rw [linkOf, hd]
    exact .none
  | some d =>
    have hlinks : OwnValues value d.parameters cell.links := by
      rwa [linkParameters, hd] at h
    rw [linkOf_eq hd]
    refine .some ⟨rfl, by simp, fun b hb => hlinks.exists_value hb, ?_, ownValues_iff fun b hb => hlinks.bound hb⟩
    intro entry hentry
    obtain ⟨b, hb, rfl⟩ := List.mem_map.1 hentry
    exact hlinks.bound hb

namespace Session

variable {s : Session} {p q : Progress}

theorem Consistent.binds_tableCell (h : s.Consistent q) {name : String}
    (hprepared : s.Prepared q.store (s.lookupsFor name)) {column : Column} (hc : column ∈ s.columnsFor name)
    {dataset : DataSet} {result : Row} {ordinal : Nat} {cell : Cell}
    (hcell : s.cellOn q.store dataset { ordinal, fields := dataset.fieldsOf result } column = .ok cell) :
    (column.tableCell cell).Binds ((s.scopeAt dataset result ordinal).evalByScan q.store.sources) column := by
  obtain ⟨_, _, _, hlinks⟩ := parts_of_cellOn hcell
  refine Column.binds_tableCell ?_
  rw [OwnValues, List.forall₂_iff_zip] at *
  refine ⟨hlinks.1, fun {b entry} hmem => ?_⟩
  obtain ⟨hname, hvalue⟩ := hlinks.2 hmem
  have hb := Column.link_mem_expressions (List.of_mem_zip hmem).1
  exact ⟨hname, by rw [← h.eval_eq_evalByScan hprepared hc hb, hvalue]⟩

/-- When the last table of a session is made, the rows of every table before are still kept. -/
theorem Consistent.evaluated_of_tables {ts : List Tablix} {tables : List Table} (h : s.Consistent p)
    (htables : s.tables ts p = (.ok tables, q)) :
    s.Consistent q ∧ q.store.Extends p.store ∧ List.Forall₂
      (fun t table => ∃ rows, q.store.evaluated? t.dataset = some rows ∧ table = t.table rows) ts tables := by
  induction ts generalizing p tables with
  | nil =>
    cases htables
    exact ⟨h, .refl _, .nil⟩
  | cons t ts ih =>
    obtain ⟨table, rest, q', htable, hrest, rfl⟩ := exists_of_tables_cons htables
    obtain ⟨hq', hmore, rows, hrows, rfl⟩ := h.evaluated_of_table htable
    obtain ⟨hq, hlater, hall⟩ := ih hq' hrest
    exact ⟨hq, hlater.trans hmore, .cons ⟨rows, hlater.evaluated hrows, rfl⟩ hall⟩

end Session

namespace Definition

variable {d : Definition} {settings : Settings} {runner : Runner} {supplied : ParameterValues}

/-- Whether the table of the tablix is made, on its own or in one session with those of all tablixes. -/
inductive Rendered (d : Definition) (settings : Settings) (runner : Runner) (supplied : ParameterValues)
    (t : Tablix) (table : Table) (p : Progress) : Prop
  | alone : d.table settings runner supplied t.name = (.ok table, p) →
      Rendered d settings runner supplied t table p
  | together {tables : List Table} : d.tables settings runner supplied = (.ok tables, p) →
      (t, table) ∈ d.tablixes.zip tables → Rendered d settings runner supplied t table p

theorem Rendered.exists_evaluated {t : Tablix} {table : Table} {p : Progress}
    (hd : (d.tablixes.map (·.name)).Nodup) (ht : t ∈ d.tablixes)
    (h : d.Rendered settings runner supplied t table p) :
    ∃ s rows, Session.start d settings runner supplied = .ok s ∧ s.Consistent p ∧
      p.store.evaluated? t.dataset = some rows ∧ table = t.table rows := by
  cases h with
  | alone h =>
    obtain ⟨s, hs, htable⟩ := exists_start_of_table hd ht h
    obtain ⟨hp, _, rows, hrows, htable⟩ := s.consistent_empty.evaluated_of_table htable
    exact ⟨s, rows, hs, hp, hrows, htable⟩
  | together h hplace =>
    cases hs : Session.start d settings runner supplied with
    | error e => simp [tables, hs] at h
    | ok s =>
      rw [tables_of_start hs] at h
      obtain ⟨hp, _, hall⟩ := s.consistent_empty.evaluated_of_tables h
      obtain ⟨rows, hrows, htable⟩ := (List.forall₂_iff_zip.1 hall).2 hplace
      exact ⟨s, rows, rfl, hp, hrows, htable⟩

/-- Links have a value for each binding that was declared, the own one unless the name was bound before.
If a table is made from a definition that was read, on its own or with the other tables, then in each of
its rows the cells of the columns with a link have a link to the same report.  Its entries have the names
of the bindings in order, and each the value of the first binding of its name on the row of the reply,
where lookups read the replies for their sources.  All entries have the values of their own bindings if
and only if bindings of one name have one value on the row. -/
theorem links_of_rendered {bytes : ByteArray} {t : Tablix} {table : Table} {p : Progress}
    (hd : ofBytes bytes = .ok d) (ht : t ∈ d.tablixes) (h : d.Rendered settings runner supplied t table p) :
    ∃ s dataset reply, Session.start d settings runner supplied = .ok s ∧
      d.dataset? t.dataset = some dataset ∧ s.Returned p.requests t.dataset reply ∧
      (∀ other, s.Returned p.requests t.dataset other → other = reply) ∧
      (∀ name source found, d.dataset? name = some source → s.Returned p.requests name found →
        p.store.sources name = source.rowsOf found) ∧
      table.rows.length = reply.length ∧
      ∀ (i : Nat) (result : Row) (row : TableRow), reply[i]? = some result → table.rows[i]? = some row →
        List.Forall₂ (fun column cell => TableCell.Binds cell
          ((s.scopeAt dataset result (i + 1)).evalByScan p.store.sources) column) t.columns row.cells := by
  obtain ⟨root, hroot⟩ := exists_root_of_ofBytes hd
  have hwell := wellFormed_of_ofElement hroot
  obtain ⟨s, rows, hs, hp, hrows, rfl⟩ := h.exists_evaluated hwell.tablixes.distinct ht
  obtain ⟨rfl, _, _, _⟩ := Session.parts_of_start hs
  obtain ⟨dataset, reply, hdataset, hreply, hprepared, harranges⟩ :=
    hp.arranges_table ht hwell.columns.distinct hrows
  refine ⟨s, dataset, reply, hs, hdataset, hreply, fun _ => hp.returned_unique hreply,
    fun _ _ _ => hp.sources_of_returned, harranges.length, ?_⟩
  exact Session.forall₂_of_arranges
    (P := fun scope column cell => cell.Binds (scope.evalByScan p.store.sources) column)
    ht harranges hprepared fun hall hc hcell => hp.binds_tableCell hall hc hcell

/-- A table of the orders with one column, whose link binds the item to one name and the owner to another. -/
def linkedDocument (item owner : String) : List Char :=
  '<' :: (["Report>", "<DataSource Name=\"S\"/>"] ++ datasetText "Orders" ["Item", "Owner"] ++
    ["<Tablix Name=\"Open\">", "<DataSetName>", "Orders", "</DataSetName>", "<TablixBody>",
      "<TablixColumns>", "<TablixColumn/>", "</TablixColumns>", "<TablixRows>", "<TablixRow/>",
      "<TablixRow>", "<TablixCell>", "<Textbox>", "<ActionInfo>", "<Actions>", "<Action>", "<Drillthrough>",
      "<ReportName>", "/Sales/Order", "</ReportName>", "<Parameters>",
      "<Parameter Name=\"", item, "\">", "<Value>", "=Fields!Item.Value", "</Value>", "</Parameter>",
      "<Parameter Name=\"", owner, "\">", "<Value>", "=Fields!Owner.Value", "</Value>", "</Parameter>",
      "</Parameters>", "</Drillthrough>", "</Action>", "</Actions>", "</ActionInfo>", "</Textbox>",
      "</TablixCell>", "</TablixRow>", "</TablixRows>", "</TablixBody>", "</Tablix>"] ++
    ["</Report>"]).flatMap String.toList

def linkedTo (item owner : String) : Drillthrough where
  reportName := "/Sales/Order"
  parameters := [⟨item, .field (some "Orders") "Item"⟩, ⟨owner, .field (some "Orders") "Owner"⟩]

def ownedOrders : DataSet :=
  ⟨"Orders", "S", "", [], [⟨"Item", "Item", "System.String"⟩, ⟨"Owner", "Owner", "System.String"⟩]⟩

def linkedTable (item owner : String) : Tablix :=
  ⟨"Open", "Orders",
    [⟨"Open_Column1", "1in", "", {}, .literal (.text ""), {}, .text, none, .text, some (linkedTo item owner)⟩]⟩

def linkedReport (item owner : String) : Definition where
  sources := [⟨"S", ""⟩]
  datasets := [ownedOrders]
  tablixes := [linkedTable item owner]

def ownedOrder : Row :=
  .ofList [("Item", .text "ink"), ("Owner", .text "Ann")]

def ownedReply (_ : Request) : Except String (List Row) :=
  .ok [ownedOrder]

def owned (item owner : String) : Session where
  definition := linkedReport item owner
  settings := {}
  parameters := ∅
  runner := fun _ => ownedReply

def ownedScope (item owner : String) : Scope :=
  (owned item owner).scopeAt ownedOrders ownedOrder 1

def orderLink (item owner : String) : Link where
  reportName := "/Sales/Order"
  parameters := [(item, .text "ink"), (owner, .text "Ann")]

def linksOf (table : Table) : List (List (Option Link)) :=
  table.rows.map fun row => row.cells.map (·.link)

theorem ofBytes_linkedDocument :
    ofBytes (String.ofList (linkedDocument "Item" "Owner")).toUTF8 = .ok (linkedReport "Item" "Owner") := by
  rw [ofBytes, Markup.Element.ofBytes_ofList (by decide +kernel)]
  refine toOption_eq_some.1 ?_
  decide +kernel

/-- With two names, the link has the owner of the order under the name of the second binding. -/
theorem links_of_linkedReport :
    ofBytes (String.ofList (linkedDocument "Item" "Owner")).toUTF8 = .ok (linkedReport "Item" "Owner") ∧
      ∃ table p, (linkedReport "Item" "Owner").Rendered {} (fun _ => ownedReply) ∅
          (linkedTable "Item" "Owner") table p ∧
        linksOf table = [[some (orderLink "Item" "Owner")]] ∧
        (orderLink "Item" "Owner").Binds ((ownedScope "Item" "Owner").evalByScan p.store.sources)
          (linkedTo "Item" "Owner") := by
  have hlinks : linksOf <$> ((linkedReport "Item" "Owner").table {} (fun _ => ownedReply) ∅ "Open").1 =
      .ok [[some (orderLink "Item" "Owner")]] := by
    decide +kernel
  obtain ⟨table, htable, hlinks⟩ := map_eq_ok.1 hlinks
  have hrendered : (linkedReport "Item" "Owner").Rendered {} (fun _ => ownedReply) ∅
      (linkedTable "Item" "Owner") table _ := .alone (Prod.ext htable rfl)
  obtain ⟨s, dataset, reply, hs, hdataset, _, hunique, _, _, hall⟩ :=
    links_of_rendered ofBytes_linkedDocument (by decide) hrendered
  have hstart : Session.start (linkedReport "Item" "Owner") {} (fun _ => ownedReply) ∅ =
      .ok (owned "Item" "Owner") := rfl
  obtain rfl := Except.ok.inj (hs.symm.trans hstart)
  obtain rfl : dataset = ownedOrders := Option.some.inj (hdataset.symm.trans rfl)
  obtain rfl : [ownedOrder] = reply := hunique _
    ⟨⟨⟨"S", ""⟩, "Orders", ⟨"", ∅⟩⟩, rfl, [], [], by decide +kernel, rfl⟩
  refine ⟨ofBytes_linkedDocument, table, _, hrendered, hlinks, ?_⟩
  obtain ⟨row, hrow, hcells⟩ := List.map_eq_singleton_iff.1 hlinks
  obtain ⟨cell, hcell, hlink⟩ := List.map_eq_singleton_iff.1 hcells
  have hbinds := hall 0 ownedOrder row rfl (by rw [hrow]; rfl)
  rw [hcell] at hbinds
  cases hbinds with
  | cons hbinds _ =>
    rw [TableCell.Binds, hlink] at hbinds
    cases hbinds with
    | some hbinds => exact hbinds

/-- Where both bindings have the name `Key`, the link has the item for the second too, and its owner in
no place. -/
theorem confused_of_sharedName :
    ofBytes (String.ofList (linkedDocument "Key" "Key")).toUTF8 = .ok (linkedReport "Key" "Key") ∧
      ∃ table p link, (linkedReport "Key" "Key").table {} (fun _ => ownedReply) ∅ "Open" = (.ok table, p) ∧
        linksOf table = [[some link]] ∧ link.parameters = [("Key", .text "ink"), ("Key", .text "ink")] ∧
        (linkedTo "Key" "Key").parameters.map
            (fun b => (b.name, (ownedScope "Key" "Key").evalByScan p.store.sources b.value)) =
          [("Key", .ok (.text "ink")), ("Key", .ok (.text "Ann"))] ∧
        ¬ OwnValues ((ownedScope "Key" "Key").evalByScan p.store.sources) (linkedTo "Key" "Key").parameters
          link.parameters := by
  have hread : ofBytes (String.ofList (linkedDocument "Key" "Key")).toUTF8 = .ok (linkedReport "Key" "Key") := by
    rw [ofBytes, Markup.Element.ofBytes_ofList (by decide +kernel)]
    refine toOption_eq_some.1 ?_
    decide +kernel
  have hlinks : linksOf <$> ((linkedReport "Key" "Key").table {} (fun _ => ownedReply) ∅ "Open").1 =
      .ok [[some ⟨"/Sales/Order", [("Key", .text "ink"), ("Key", .text "ink")]⟩]] := by
    decide +kernel
  obtain ⟨table, htable, hlinks⟩ := map_eq_ok.1 hlinks
  refine ⟨hread, table, _, _, Prod.ext htable rfl, hlinks, rfl, rfl, ?_⟩
  intro hown
  cases hown with
  | cons _ hrest =>
    cases hrest with
    | cons howner _ => exact absurd howner.2 (by decide)

end Definition
end TabularReport
