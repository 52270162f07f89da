import TabularReport.Definition.Reader
import TabularReport.Proofs.Expr.References

set_option autoImplicit false

namespace TabularReport

def Expr.BoundTo (home : String) (e : Expr) : Prop :=
  ∀ f ∈ e.fieldsRead, f.1 = some home

/-- Whether what the parts of a definition name is declared in it. -/
structure Definition.Linked (d : Definition) : Prop where
  sources : ∀ dataset ∈ d.datasets, (d.source? dataset.sourceName).isSome
  datasets : ∀ t ∈ d.tablixes, d.declaresDataset t.dataset = true
  bound : ∀ t ∈ d.tablixes, ∀ e ∈ t.expressions, e.BoundTo t.dataset
  named : ∀ t ∈ d.tablixes, ∀ e ∈ t.expressions, ∀ name ∈ e.datasetsNamed, d.declaresDataset name = true

namespace Definition
open Markup

theorem exists_of_mem_inTurn {α : Type} {read : List String → Element → Read (List String × α)}
    {seen : List String} {es : List Element} {as : List α} {a : α} (h : inTurn read seen es = .ok as)
    (ha : a ∈ as) : ∃ e ∈ es, ∃ before after, read before e = .ok (after, a) := by
  induction es generalizing seen as with
  | nil =>
    rw [inTurn] at h
    cases h
    simp at ha
  | cons e es ih =>
    rw [inTurn] at h
    obtain ⟨⟨after, b⟩, hb, h⟩ := bind_eq_ok.1 h
    obtain ⟨bs, hbs, h⟩ := bind_eq_ok.1 h
    cases h
    rcases List.mem_cons.1 ha with rfl | ha
    · exact ⟨e, List.mem_cons_self, seen, after, hb⟩
    · obtain ⟨e', he', h'⟩ := ih hbs ha
      exact ⟨e', List.mem_cons_of_mem e he', h'⟩

theorem declared_source_of_datasetOf {sources : List DataSource} {before after : List String} {e : Element}
    {dataset : DataSet} (h : datasetOf sources before e = .ok (after, dataset)) :
    sources.any (·.name = dataset.sourceName) = true := by
  unfold datasetOf at h
  simp only [bind_eq_ok] at h
  obtain ⟨name, _, _, _, query, _, sourceName, _, command, _, h⟩ := h
  split at h
  · contradiction
  · rename_i hs
    simp only [bind_eq_ok] at h
    obtain ⟨parameters, _, fields, _, h⟩ := h
    cases h
    simpa using hs

theorem boundTo_of_boundExprOf {home text : String} {place : Place} {e : Expr}
    (h : boundExprOf home place text = .ok e) : e.BoundTo home := by
  unfold boundExprOf at h
  obtain ⟨e', he, h⟩ := bind_eq_ok.1 h
  cases h
  unfold exprOf at he
  split at he
  · rename_i hr
    cases he
    exact fun f hf => (Expr.unbound_of_ofReportText hr).fst_of_mem_qualify hf
  · contradiction

theorem boundTo_of_headerOf {home tablix column : String} {box : Option Element} {header : Header} {e : Expr}
    (h : headerOf home tablix column box = .ok header) (he : header.sort = some e) : e.BoundTo home := by
  unfold headerOf at h
  split at h
  · cases h
    contradiction
  · obtain ⟨sort, hs, h⟩ := bind_eq_ok.1 h
    cases h
    subst he
    obtain ⟨_, _, hr⟩ := exists_of_optionMapM hs
    exact boundTo_of_boundExprOf hr

theorem boundTo_of_linkOf {home column : String} {box : Element} {link : Drillthrough} {l : LinkParameter}
    (h : linkOf home column box = .ok (some link)) (hl : l ∈ link.parameters) : l.value.BoundTo home := by
  unfold linkOf at h
  dsimp only at h
  split at h
  · cases h
  · split at h
    · cases h
    · obtain ⟨parameters, hp, h⟩ := bind_eq_ok.1 h
      cases h
      obtain ⟨e, _, hr⟩ := exists_of_mem_mapM hp hl
      unfold linkParameterOf at hr
      simp only [bind_eq_ok] at hr
      obtain ⟨name, _, value, hv, hr⟩ := hr
      cases hr
      exact boundTo_of_boundExprOf hv

theorem boundTo_of_detailOf {home tablix column : String} {box : Option Element} {detail : Detail}
    (h : detailOf home tablix column box = .ok detail) :
    detail.value.BoundTo home ∧
      ∀ link, detail.link = some link → ∀ l ∈ link.parameters, l.value.BoundTo home := by
  unfold detailOf at h
  split at h
  · cases h
    simp [Expr.BoundTo, Expr.fieldsRead, Expr.nodes]
  · simp only [bind_eq_ok] at h
    obtain ⟨value, hv, link, hk, h⟩ := h
    cases h
    refine ⟨boundTo_of_boundExprOf hv, ?_⟩
    rintro link rfl l hl
    exact boundTo_of_linkOf hk hl

theorem boundTo_of_columnOf {scope : Declarations} {tablix : String} {before after : List String}
    {place : Nat} {layout : Element} {headerBox detailBox : Option Element} {column : Column}
    (h : columnOf scope tablix before place layout headerBox detailBox = .ok (after, column)) :
    ∀ e ∈ column.expressions, e.BoundTo scope.home := by
  unfold columnOf at h
  simp only [bind_eq_ok] at h
  obtain ⟨_, _, header, hh, detail, hd, h⟩ := h
  cases h
  obtain ⟨hv, hl⟩ := boundTo_of_detailOf hd
  intro e he
  simp only [Column.expressions, List.mem_cons, List.mem_append, Option.mem_toList, List.mem_map] at he
  rcases he with rfl | he | ⟨l, hm, rfl⟩
  · exact hv
  · exact boundTo_of_headerOf hh he
  · unfold Column.linkParameters at hm
    split at hm
    · rename_i link hk
      exact hl link hk l hm
    · simp at hm

theorem exists_of_mem_columnsOf {scope : Declarations} {tablix : String} {before after : List String}
    {place : Nat} {layouts headers details : List Element} {columns : List Column} {column : Column}
    (h : columnsOf scope tablix before place layouts headers details = .ok (after, columns))
    (hc : column ∈ columns) :
    ∃ before after place layout headerBox detailBox,
      columnOf scope tablix before place layout headerBox detailBox = .ok (after, column) := by
  induction layouts generalizing before after place headers details columns with
  | nil =>
    cases h
    simp at hc
  | cons layout layouts ih =>
    rw [columnsOf] at h
    obtain ⟨⟨middle, first⟩, hf, h⟩ := bind_eq_ok.1 h
    obtain ⟨⟨last, others⟩, ho, h⟩ := bind_eq_ok.1 h
    cases h
    rcases List.mem_cons.1 hc with rfl | hc
    · exact ⟨_, _, _, _, _, _, hf⟩
    · exact ih ho hc

theorem declared_of_checkDatasets {datasets : List DataSet} {tablix : String} {columns : List Column}
    (h : checkDatasets datasets tablix columns = .ok ()) :
    ∀ column ∈ columns, ∀ e ∈ column.expressions, ∀ name ∈ e.datasetsNamed,
      datasets.any (·.name = name) = true := by
  intro column hc e he name hn
  have hcolumn := forM_eq_ok.1 h column hc
  have hexpr := forM_eq_ok.1 hcolumn e he
  split at hexpr
  · contradiction
  · rename_i hnone
    simpa using List.find?_eq_none.1 hnone name hn

/-- What reading one table meets: the names and text boxes used before it and after it. -/
structure ReadTablix (datasets : List DataSet) (parameters : List ReportParameter)
    (seen boxes : List String) (e : Element) (seen' boxes' : List String) (t : Tablix) : Prop where
  name : requireName e (.group "ReportItems") = .ok t.name
  noted : noteName .tablix seen t.name = .ok seen'
  dataset : (trimmedChild? e "DataSetName").bind nonEmpty? = some t.dataset
  declared : datasets.any (·.name = t.dataset) = true
  body : bodyOf ⟨t.dataset, datasets, parameters⟩ t.name boxes e = .ok (boxes', t.columns)
  checked : checkDatasets datasets t.name t.columns = .ok ()

theorem require_eq_ok {α : Type} {needed : Needed} {place : Place} {o : Option α} {a : α} :
    require needed place o = .ok a ↔ o = some a := by
  cases o <;> simp [require]

theorem exists_of_tablixesOf_cons {datasets : List DataSet} {parameters : List ReportParameter}
    {seen boxes : List String} {e : Element} {es : List Element} {ts : List Tablix}
    (h : tablixesOf datasets parameters seen boxes (e :: es) = .ok ts) :
    ∃ t rest seen' boxes', ReadTablix datasets parameters seen boxes e seen' boxes' t ∧
      tablixesOf datasets parameters seen' boxes' es = .ok rest ∧ ts = t :: rest := by
  rw [tablixesOf] at h
  simp only [bind_eq_ok] at h
  obtain ⟨name, hname, seen', hseen, dataset, hdataset, h⟩ := h
  split at h
  · contradiction
  · rename_i hdeclared
    simp only [bind_eq_ok] at h
    obtain ⟨⟨boxes', columns⟩, hbody, _, hchecked, rest, hrest, h⟩ := h
    cases h
    exact ⟨⟨name, dataset, columns⟩, rest, seen', boxes',
      ⟨hname, hseen, require_eq_ok.1 hdataset, by simpa using hdeclared, hbody, hchecked⟩, hrest, rfl⟩

theorem exists_of_mem_tablixesOf {datasets : List DataSet} {parameters : List ReportParameter}
    {seen boxes : List String} {es : List Element} {ts : List Tablix} {t : Tablix}
    (h : tablixesOf datasets parameters seen boxes es = .ok ts) (ht : t ∈ ts) :
    ∃ e ∈ es, ∃ before after, datasets.any (·.name = t.dataset) = true ∧
      bodyOf ⟨t.dataset, datasets, parameters⟩ t.name before e = .ok (after, t.columns) ∧
      checkDatasets datasets t.name t.columns = .ok () := by
  induction es generalizing seen boxes ts with
  | nil =>
    cases h
    simp at ht
  | cons e es ih =>
    obtain ⟨first, rest, seen', boxes', hfirst, hrest, rfl⟩ := exists_of_tablixesOf_cons h
    rcases List.mem_cons.1 ht with rfl | ht
    · exact ⟨e, List.mem_cons_self, boxes, boxes', hfirst.declared, hfirst.body, hfirst.checked⟩
    · obtain ⟨e', he', h'⟩ := ih hrest ht
      exact ⟨e', List.mem_cons_of_mem e he', h'⟩

theorem declaresDataset_iff {d : Definition} {name : String} :
    d.declaresDataset name = true ↔ d.datasets.any (·.name = name) = true := by
  simp [declaresDataset, dataset?]

theorem parts_of_ofElement {root : Element} {d : Definition} (h : ofElement root = .ok d) :
    sourcesOf root = .ok d.sources ∧ datasetsOf root d.sources = .ok d.datasets ∧
      parametersOf root = .ok d.parameters ∧
      tablixesOf d.datasets d.parameters [] [] (root.descendants "Tablix") = .ok d.tablixes := by
  have hparts : (do
      let sources ← sourcesOf root
      let datasets ← datasetsOf root sources
      let parameters ← parametersOf root
      let tablixes ← tablixesOf datasets parameters [] [] (root.descendants "Tablix")
      return { sources, datasets, parameters, tablixes }) = Except.ok d := by
    unfold ofElement at h
    dsimp only at h
    split at h
    · contradiction
    · split at h
      · split at h
        · contradiction
        · exact h
      · exact h
  simp only [bind_eq_ok] at hparts
  obtain ⟨sources, hs, datasets, hd, parameters, hp, tablixes, ht, hparts⟩ := hparts
  cases hparts
  exact ⟨hs, hd, hp, ht⟩

theorem linked_of_ofElement {root : Element} {d : Definition} (h : ofElement root = .ok d) : d.Linked := by
  obtain ⟨_, hd, _, ht⟩ := parts_of_ofElement h
  refine ⟨?_, ?_, ?_, ?_⟩
  · intro dataset hm
    obtain ⟨_, _, _, _, hr⟩ := exists_of_mem_inTurn hd hm
    simpa [source?] using declared_source_of_datasetOf hr
  · intro t hm
    obtain ⟨_, _, _, _, ha, _, _⟩ := exists_of_mem_tablixesOf ht hm
    exact declaresDataset_iff.2 ha
  · intro t hm e he
    obtain ⟨_, _, _, _, _, hb, _⟩ := exists_of_mem_tablixesOf ht hm
    obtain ⟨column, hc, he⟩ := List.mem_flatMap.1 he
    obtain ⟨_, _, _, _, _, _, hr⟩ := exists_of_mem_columnsOf hb hc
    exact boundTo_of_columnOf hr e he
  · intro t hm e he name hn
    obtain ⟨_, _, _, _, _, _, hk⟩ := exists_of_mem_tablixesOf ht hm
    obtain ⟨column, hc, he⟩ := List.mem_flatMap.1 he
    exact declaresDataset_iff.2 (declared_of_checkDatasets hk column hc e he name hn)

theorem exists_root_of_ofBytes {bytes : ByteArray} {d : Definition} (h : ofBytes bytes = .ok d) :
    ∃ root, ofElement root = .ok d := by
  unfold ofBytes at h
  split at h
  · exact ⟨_, h⟩
  · contradiction

theorem linked_of_ofBytes {bytes : ByteArray} {d : Definition} (h : ofBytes bytes = .ok d) : d.Linked := by
  obtain ⟨root, hroot⟩ := exists_root_of_ofBytes h
  exact linked_of_ofElement hroot

end Definition
end TabularReport
