import TabularReport.Proofs.Table.Alignment
import TabularReport.Proofs.Number.Digits

set_option autoImplicit false

namespace TabularReport

inductive Column.Holds (c : Column) : Expr → Prop where
  | value : Column.Holds c c.value
  | sort {e : Expr} : c.sort = some e → Column.Holds c e
  | link {link : Drillthrough} {l : LinkParameter} : c.drillthrough = some link → l ∈ link.parameters →
      Column.Holds c l.value

theorem Column.Holds.mem_expressions {c : Column} {e : Expr} (h : c.Holds e) : e ∈ c.expressions := by
  cases h with
  | value => simp [Column.expressions]
  | sort hs => simp [Column.expressions, hs]
  | link hd hl =>
    have hmem := List.mem_map_of_mem (f := (·.value)) hl
    simp [Column.expressions, Column.linkParameters, hd] at hmem ⊢
    grind

theorem Column.Holds.mem_tablix {t : Tablix} {c : Column} {e : Expr} (hc : c ∈ t.columns) (h : c.Holds e) :
    e ∈ t.expressions :=
  List.mem_flatMap.2 ⟨c, hc, h.mem_expressions⟩

/-- Whether the names are not empty, trimmed, and each there once. -/
structure ProperNames (names : List String) : Prop where
  nonempty : ∀ name ∈ names, name ≠ ""
  trimmed : ∀ name ∈ names, Text.trim name = name
  distinct : names.Nodup

structure Definition.WellFormed (d : Definition) : Prop where
  sources : ProperNames (d.sources.map (·.name))
  datasets : ProperNames (d.datasets.map (·.name))
  parameters : ProperNames (d.parameters.map (·.name))
  tablixes : ProperNames (d.tablixes.map (·.name))
  fields : ∀ dataset ∈ d.datasets, ProperNames (dataset.fields.map (·.name))
  columns : ProperNames ((d.tablixes.flatMap (·.columns)).map (·.name))
  source : ∀ dataset ∈ d.datasets, ∃ source ∈ d.sources, source.name = dataset.sourceName
  dataset : ∀ t ∈ d.tablixes, ∃ dataset ∈ d.datasets, dataset.name = t.dataset
  bound : ∀ t ∈ d.tablixes, ∀ c ∈ t.columns, ∀ e, c.Holds e → ∀ home name,
    (Expr.field home name).Within e → home = some t.dataset
  numbered : ∀ t ∈ d.tablixes, ∀ c ∈ t.columns, ∀ e, c.Holds e → ∀ name,
    (Expr.rowNumber name).Within e → ∃ dataset ∈ d.datasets, dataset.name = name
  lookedUp : ∀ t ∈ d.tablixes, ∀ c ∈ t.columns, ∀ e, c.Holds e → ∀ key name keyField valueField,
    (Expr.lookup key name keyField valueField).Within e → ∃ dataset ∈ d.datasets, dataset.name = name

namespace Definition
open Markup

/-- Whether the names were noted in between: none of them before, and each once. -/
structure Noted (before after names : List String) : Prop where
  proper : ∀ name ∈ names, Text.IsProper name
  distinct : names.Nodup
  fresh : ∀ name ∈ names, name ∉ before
  mem_after : ∀ name, name ∈ after ↔ name ∈ names ∨ name ∈ before

theorem Noted.properNames {before after names : List String} (h : Noted before after names) :
    ProperNames names where
  nonempty name hname := (Text.isProper_iff.1 (h.proper name hname)).1
  trimmed name hname := (Text.isProper_iff.1 (h.proper name hname)).2
  distinct := h.distinct

theorem Noted.nil (seen : List String) : Noted seen seen [] :=
  ⟨by simp, List.nodup_nil, by simp, by simp⟩

theorem Noted.append {before middle after names others : List String} (h : Noted before middle names)
    (h' : Noted middle after others) : Noted before after (names ++ others) := by
  refine ⟨?_, ?_, ?_, ?_⟩
  · exact List.forall_mem_append.2 ⟨h.proper, h'.proper⟩
  · refine List.nodup_append.2 ⟨h.distinct, h'.distinct, ?_⟩
    rintro name hname _ hother rfl
    exact h'.fresh name hother ((h.mem_after name).2 (.inl hname))
  · refine List.forall_mem_append.2 ⟨h.fresh, ?_⟩
    intro name hname hbefore
    exact h'.fresh name hname ((h.mem_after name).2 (.inr hbefore))
  · intro name
    rw [h'.mem_after, h.mem_after, List.mem_append]
    grind

theorem Noted.of_noteName {kind : NamedKind} {before after : List String} {name : String}
    (hname : Text.IsProper name) (h : noteName kind before name = .ok after) : Noted before after [name] := by
  unfold noteName at h
  split at h
  · contradiction
  · rename_i hfresh
    cases h
    exact ⟨by simpa using hname, List.pairwise_singleton _ _, by simpa using hfresh, by simp⟩

theorem nonEmpty?_eq_some {s t : String} : nonEmpty? s = some t ↔ s.isEmpty = false ∧ s = t := by
  simp [nonEmpty?]

theorem isProper_of_trimmedName? {e : Element} {name : String} (h : trimmedName? e = some name) :
    Text.IsProper name := by
  obtain ⟨trimmed, htrimmed, hne⟩ := Option.bind_eq_some_iff.1 h
  obtain ⟨raw, _, rfl⟩ := Option.map_eq_some_iff.1 htrimmed
  obtain ⟨hnonempty, rfl⟩ := nonEmpty?_eq_some.1 hne
  exact Text.isProper_trim hnonempty

theorem isProper_of_requireName {e : Element} {place : Place} {name : String}
    (h : requireName e place = .ok name) : Text.IsProper name :=
  isProper_of_trimmedName? (require_eq_ok.1 h)

theorem Noted.of_sourceOf {before after : List String} {e : Element} {source : DataSource}
    (h : sourceOf before e = .ok (after, source)) : Noted before after [source.name] := by
  simp only [sourceOf, bind_eq_ok] at h
  obtain ⟨name, hname, seen, hseen, h⟩ := h
  cases h
  exact .of_noteName (isProper_of_requireName hname) hseen

theorem Noted.of_fieldOf {dataset : String} {before after : List String} {e : Element} {field : Field}
    (h : fieldOf dataset before e = .ok (after, field)) : Noted before after [field.name] := by
  simp only [fieldOf, bind_eq_ok] at h
  obtain ⟨name, hname, seen, hseen, h⟩ := h
  cases h
  exact .of_noteName (isProper_of_requireName hname) hseen

theorem Noted.of_parameterOf {before after : List String} {e : Element} {p : ReportParameter}
    (h : parameterOf before e = .ok (after, p)) : Noted before after [p.name] := by
  simp only [parameterOf, bind_eq_ok] at h
  obtain ⟨name, hname, seen, hseen, _, _, h⟩ := h
  cases h
  exact .of_noteName (isProper_of_requireName hname) hseen

theorem exists_noted_of_inTurn {α : Type} {read : List String → Element → Read (List String × α)}
    {name : α → String}
    (hread : ∀ before e after a, read before e = .ok (after, a) → Noted before after [name a])
    {seen : List String} {es : List Element} {as : List α} (h : inTurn read seen es = .ok as) :
    ∃ after, Noted seen after (as.map name) := by
  induction es generalizing seen as with
  | nil =>
    rw [inTurn] at h
    cases h
    exact ⟨seen, .nil seen⟩
  | cons e es ih =>
    rw [inTurn] at h
    obtain ⟨⟨middle, a⟩, ha, h⟩ := bind_eq_ok.1 h
    obtain ⟨as', has, h⟩ := bind_eq_ok.1 h
    cases h
    obtain ⟨after, hafter⟩ := ih has
    exact ⟨after, (hread _ _ _ _ ha).append hafter⟩

theorem parts_of_datasetOf {sources : List DataSource} {before after : List String} {e : Element}
    {dataset : DataSet} (h : datasetOf sources before e = .ok (after, dataset)) :
    Noted before after [dataset.name] ∧
      inTurn (fieldOf dataset.name) [] (e.descendants "Field") = .ok dataset.fields := by
  unfold datasetOf at h
  simp only [bind_eq_ok] at h
  obtain ⟨name, hname, seen, hseen, query, _, sourceName, _, command, _, h⟩ := h
  split at h
  · contradiction
  · simp only [bind_eq_ok] at h
    obtain ⟨parameters, _, fields, hfields, h⟩ := h
    cases h
    exact ⟨.of_noteName (isProper_of_requireName hname) hseen, hfields⟩

theorem Noted.of_columnOf {scope : Declarations} {tablix : String} {before after : List String} {place : Nat}
    {layout : Element} {headerBox detailBox : Option Element} {column : Column} (ht : Text.IsProper tablix)
    (h : columnOf scope tablix before place layout headerBox detailBox = .ok (after, column)) :
    Noted before after [column.name] := by
  unfold columnOf at h
  simp only [bind_eq_ok] at h
  obtain ⟨seen, hseen, header, _, detail, _, h⟩ := h
  cases h
  refine .of_noteName ?_ hseen
  cases hbox : detailBox.bind trimmedName? with
  | none =>
    -- The generated name starts with the name of the table and ends with a digit.
    have hcolumn : Text.IsProper "_Column" := Text.isProper_of_forall (by simp) (by simp [Text.isBlank])
    exact (ht.append hcolumn).append (Text.isProper_digitsOf place)
  | some name =>
    obtain ⟨_, _, hname⟩ := Option.bind_eq_some_iff.1 hbox
    exact isProper_of_trimmedName? hname

theorem Noted.of_columnsOf {scope : Declarations} {tablix : String} {before after : List String}
    {place : Nat} {layouts headers details : List Element} {columns : List Column}
    (ht : Text.IsProper tablix)
    (h : columnsOf scope tablix before place layouts headers details = .ok (after, columns)) :
    Noted before after (columns.map (·.name)) := by
  induction layouts generalizing before place headers details columns with
  | nil =>
    cases h
    exact .nil _
  | cons layout layouts ih =>
    rw [columnsOf] at h
    obtain ⟨⟨middle, column⟩, hcolumn, h⟩ := bind_eq_ok.1 h
    obtain ⟨⟨last, others⟩, hothers, h⟩ := bind_eq_ok.1 h
    cases h
    exact (Noted.of_columnOf ht hcolumn).append (ih hothers)

theorem exists_noted_of_tablixesOf {datasets : List DataSet} {parameters : List ReportParameter}
    {seen boxes : List String} {es : List Element} {ts : List Tablix}
    (h : tablixesOf datasets parameters seen boxes es = .ok ts) :
    (∃ after, Noted seen after (ts.map (·.name))) ∧
      ∃ after, Noted boxes after ((ts.flatMap (·.columns)).map (·.name)) := by
  induction es generalizing seen boxes ts with
  | nil =>
    cases h
    exact ⟨⟨seen, .nil seen⟩, boxes, .nil boxes⟩
  | cons e es ih =>
    obtain ⟨t, rest, _, _, ht, hrest, rfl⟩ := exists_of_tablixesOf_cons h
    have hproper := isProper_of_requireName ht.name
    obtain ⟨⟨after, hafter⟩, after', hafter'⟩ := ih hrest
    refine ⟨⟨after, (Noted.of_noteName hproper ht.noted).append hafter⟩, after', ?_⟩
    rw [List.flatMap_cons, List.map_append]
    exact (Noted.of_columnsOf hproper ht.body).append hafter'

theorem Noted.of_fields {sources : List DataSource} {es : List Element} {datasets : List DataSet}
    {dataset : DataSet} (h : inTurn (datasetOf sources) [] es = .ok datasets) (hm : dataset ∈ datasets) :
    ∃ after, Noted [] after (dataset.fields.map (·.name)) := by
  obtain ⟨_, _, _, _, hread⟩ := exists_of_mem_inTurn h hm
  exact exists_noted_of_inTurn (fun _ _ _ _ => Noted.of_fieldOf) (parts_of_datasetOf hread).2

theorem exists_dataset_of_declares {d : Definition} {name : String} (h : d.declaresDataset name = true) :
    ∃ dataset ∈ d.datasets, dataset.name = name := by
  simpa using declaresDataset_iff.1 h

theorem wellFormed_of_ofElement {root : Element} {d : Definition} (h : ofElement root = .ok d) :
    d.WellFormed := by
  obtain ⟨hsources, hdatasets, hparameters, htablixes⟩ := parts_of_ofElement h
  obtain ⟨_, hs⟩ := exists_noted_of_inTurn (fun _ _ _ _ => Noted.of_sourceOf) hsources
  obtain ⟨_, hd⟩ := exists_noted_of_inTurn (fun _ _ _ _ h => (parts_of_datasetOf h).1) hdatasets
  obtain ⟨_, hp⟩ := exists_noted_of_inTurn (fun _ _ _ _ => Noted.of_parameterOf) hparameters
  obtain ⟨⟨_, ht⟩, _, hc⟩ := exists_noted_of_tablixesOf htablixes
  have hlinked := linked_of_ofElement h
  constructor
  case sources => exact hs.properNames
  case datasets => exact hd.properNames
  case parameters => exact hp.properNames
  case tablixes => exact ht.properNames
  case columns => exact hc.properNames
  case fields =>
    intro dataset hm
    obtain ⟨_, hf⟩ := Noted.of_fields hdatasets hm
    exact hf.properNames
  case source =>
    intro dataset hm
    simpa [source?] using hlinked.sources dataset hm
  case dataset =>
    intro t hm
    exact exists_dataset_of_declares (hlinked.datasets t hm)
  case bound =>
    intro t hm c hc e he home name hw
    exact hlinked.bound t hm e (he.mem_tablix hc) (home, name) (Expr.mem_fieldsRead_iff.2 hw)
  case numbered =>
    intro t hm c hc e he name hw
    have hnamed : name ∈ e.datasetsNamed := Expr.mem_datasetsNamed_iff.2 (.inl hw)
    exact exists_dataset_of_declares (hlinked.named t hm e (he.mem_tablix hc) name hnamed)
  case lookedUp =>
    intro t hm c hc e he key name keyField valueField hw
    have hnamed : name ∈ e.datasetsNamed := Expr.mem_datasetsNamed_iff.2 (.inr ⟨key, keyField, valueField, hw⟩)
    exact exists_dataset_of_declares (hlinked.named t hm e (he.mem_tablix hc) name hnamed)

/-- Every document that is accepted gives a well-formed definition. -/
theorem wellFormed_of_ofBytes {bytes : ByteArray} {d : Definition} (h : ofBytes bytes = .ok d) :
    d.WellFormed := by
  unfold ofBytes at h
  split at h
  · exact wellFormed_of_ofElement h
  · contradiction

theorem wellFormed_of_stockDocument :
    ofBytes (String.ofList (stockDocument binTable)).toUTF8 = .ok stockWithBins ∧
      stockWithBins.WellFormed := by
  obtain ⟨_, _, _, _, h, _⟩ := exists_stockTables
  exact ⟨h.definition, wellFormed_of_ofBytes h.definition⟩

end Definition
end TabularReport
