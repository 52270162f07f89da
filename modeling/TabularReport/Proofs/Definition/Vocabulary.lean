import TabularReport.Definition.Reader
import TabularReport.Proofs.Markup.Vocabulary
import TabularReport.Proofs.Outcome

set_option autoImplicit false

namespace TabularReport.Definition
open Markup

def vocabulary : Vocabulary where
  names := [
    "DataSource", "DataSourceReference",
    "DataSet", "Query", "DataSourceName", "CommandText", "QueryParameter", "Value", "Field", "DataField", "TypeName",
    "ReportParameter", "DataType", "Prompt", "DefaultValue", "Values", "MultiValue", "ValidValues",
    "DataSetReference", "DataSetName", "ValueField", "LabelField", "ParameterValues", "ParameterValue", "Label",
    "Tablix", "TablixBody", "TablixColumns", "TablixColumn", "Width", "TablixRows", "TablixRow", "TablixCell",
    "Textbox", "UserSort", "SortExpression", "TextRun", "Paragraph",
    "ActionInfo", "Actions", "Action", "Drillthrough", "ReportName", "Parameter",
    "Style", "BackgroundColor", "VerticalAlign", "FontSize", "FontWeight", "Color", "Format", "TextAlign"]
  keys := ["Name", "xmlns"]
  localKeys := ["nil"]

theorem trimmedChild?_core {name : String} (h : name ∈ vocabulary.names) (e : Element) :
    trimmedChild? (e.core vocabulary) name = trimmedChild? e name := by
  rw [trimmedChild?, trimmedChild?, Element.textOf?_core h]

theorem trimmedName?_core (e : Element) : trimmedName? (e.core vocabulary) = trimmedName? e := by
  rw [trimmedName?, trimmedName?, Element.attribute?_core (by decide)]

theorem requireName_core (e : Element) : requireName (e.core vocabulary) = requireName e := by
  funext place
  rw [requireName, requireName, trimmedName?_core, Element.name_core]

theorem inTurn_map {α : Type} {read : List String → Element → Read (List String × α)} {f : Element → Element}
    (h : ∀ seen e, read seen (f e) = read seen e) (seen : List String) (es : List Element) :
    inTurn read seen (es.map f) = inTurn read seen es := by
  induction es generalizing seen with
  | nil => rfl
  | cons e es ih => simp only [List.map_cons, inTurn, h, ih]

theorem sourceOf_core (seen : List String) (e : Element) :
    sourceOf seen (e.core vocabulary) = sourceOf seen e := by
  simp (disch := decide) only [sourceOf, requireName_core, trimmedChild?_core]

theorem queryParameterOf_core (dataset : String) (e : Element) :
    queryParameterOf dataset (e.core vocabulary) = queryParameterOf dataset e := by
  simp (disch := decide) only [queryParameterOf, requireName_core, Element.textOf?_core]

theorem fieldOf_core (dataset : String) (seen : List String) (e : Element) :
    fieldOf dataset seen (e.core vocabulary) = fieldOf dataset seen e := by
  simp (disch := decide) only [fieldOf, requireName_core, trimmedChild?_core]

theorem datasetOf_core (sources : List DataSource) (seen : List String) (e : Element) :
    datasetOf sources seen (e.core vocabulary) = datasetOf sources seen e := by
  unfold datasetOf
  simp (disch := decide) only [requireName_core, Element.child?_core, Element.descendants_core,
    inTurn_map (fieldOf_core _)]
  cases e.child? "Query" with
  | none => rfl
  | some query =>
    simp (disch := decide) only [Option.map_some, require, bind, Except.bind, trimmedChild?_core,
      Element.textOf?_core, Element.descendants_core, List.mapM_map, Function.comp_def, queryParameterOf_core]

theorem validValuesOf?_core (e : Element) : validValuesOf? (e.core vocabulary) = validValuesOf? e := by
  unfold validValuesOf?
  simp (disch := decide) only [Element.child?_core]
  cases e.child? "DataSetReference" with
  | none =>
    simp (disch := decide) only [Option.map_none, Option.map_map, Function.comp_def, Element.childrenCalled_core,
      List.map_map, Element.textOf?_core]
  | some r => simp (disch := decide) only [Option.map_some, trimmedChild?_core]

theorem defaultOf_core (parameter : String) (e : Element) :
    defaultOf parameter (e.core vocabulary) = defaultOf parameter e := by
  unfold defaultOf
  rw [Element.follow?_core (by decide)]
  cases e.follow? ["DefaultValue", "Values", "Value"] with
  | none => rfl
  | some value => simp (disch := decide) only [Option.map_some, Element.localAttribute?_core, Element.text_core]

theorem parameterOf_core (seen : List String) (e : Element) :
    parameterOf seen (e.core vocabulary) = parameterOf seen e := by
  unfold parameterOf
  simp (disch := decide) only [requireName_core, defaultOf_core, Element.textOf?_core, trimmedChild?_core,
    Element.child?_core, Option.bind_map, Function.comp_def, validValuesOf?_core]

theorem findSome?_core {name : String} (h : name ∈ vocabulary.names) (es : List Element) :
    (es.map (·.core vocabulary)).findSome? (·.child? name) =
      (es.findSome? (·.child? name)).map (·.core vocabulary) := by
  rw [List.findSome?_map, List.map_findSome?]
  simp only [Function.comp_def, Element.child?_core h]

theorem runText_core (e : Element) : runText (e.core vocabulary) = runText e := by
  unfold runText
  simp (disch := decide) only [Element.descendants_core, findSome?_core, Option.map_map, Function.comp_def,
    Element.text_core]

theorem bind_child?_core {name : String} (h : name ∈ vocabulary.names) (o : Option Element) :
    (o.map (·.core vocabulary)).bind (·.child? name) = (o.bind (·.child? name)).map (·.core vocabulary) := by
  rw [Option.bind_map, Option.map_bind]
  simp only [Function.comp_def, Element.child?_core h]

theorem styleOf_core (e : Element) : styleOf (e.core vocabulary) = styleOf e := by
  unfold styleOf
  simp (disch := decide) only [Element.descendants_core, findSome?_core, Element.child?_core, Element.find?_core,
    bind_child?_core]
  simp (disch := decide) only [Option.bind_map, Function.comp_def, trimmedChild?_core]

theorem linkParameterOf_core (home column : String) (e : Element) :
    linkParameterOf home column (e.core vocabulary) = linkParameterOf home column e := by
  simp (disch := decide) only [linkParameterOf, requireName_core, Element.textOf?_core]

theorem linkOf_core (home column : String) (e : Element) :
    linkOf home column (e.core vocabulary) = linkOf home column e := by
  have haction : ((e.core vocabulary).find? "ActionInfo").bind (·.follow? ["Actions", "Action", "Drillthrough"]) =
      ((e.find? "ActionInfo").bind (·.follow? ["Actions", "Action", "Drillthrough"])).map (·.core vocabulary) := by
    rw [Element.find?_core (by decide), Option.bind_map, Option.map_bind]
    simp (disch := decide) only [Function.comp_def, Element.follow?_core]
  unfold linkOf
  dsimp only
  rw [haction]
  cases (e.find? "ActionInfo").bind (·.follow? ["Actions", "Action", "Drillthrough"]) with
  | none => rfl
  | some link =>
    simp (disch := decide) only [Option.map_some, trimmedChild?_core, Element.descendants_core, List.mapM_map,
      Function.comp_def, linkParameterOf_core]

theorem headerOf_core (home tablix column : String) (box : Option Element) :
    headerOf home tablix column (box.map (·.core vocabulary)) = headerOf home tablix column box := by
  cases box with
  | none => rfl
  | some e =>
    unfold headerOf
    simp (disch := decide) only [Option.map_some, runText_core, styleOf_core, Element.follow?_core]
    cases e.follow? ["UserSort", "SortExpression"] with
    | none => rfl
    | some sort => simp only [Option.map_some, Option.mapM_some, Element.text_core]

theorem detailOf_core (home tablix column : String) (box : Option Element) :
    detailOf home tablix column (box.map (·.core vocabulary)) = detailOf home tablix column box := by
  cases box with
  | none => rfl
  | some e => simp only [detailOf, Option.map_some, runText_core, styleOf_core, linkOf_core]

section

variable (scope : Declarations) (tablix : String)

theorem columnOf_core (seen : List String) (place : Nat) (layout : Element) (headerBox detailBox : Option Element) :
    columnOf scope tablix seen place (layout.core vocabulary) (headerBox.map (·.core vocabulary))
        (detailBox.map (·.core vocabulary)) =
      columnOf scope tablix seen place layout headerBox detailBox := by
  simp (disch := decide) only [columnOf, Option.bind_map, Function.comp_def, trimmedName?_core, headerOf_core,
    detailOf_core, trimmedChild?_core]

theorem columnsOf_core (seen : List String) (place : Nat) (layouts headers details : List Element) :
    columnsOf scope tablix seen place (layouts.map (·.core vocabulary)) (headers.map (·.core vocabulary))
        (details.map (·.core vocabulary)) =
      columnsOf scope tablix seen place layouts headers details := by
  have hbox : ∀ cells : List Element, (cells.map (·.core vocabulary)).head?.bind (·.find? "Textbox") =
      (cells.head?.bind (·.find? "Textbox")).map (·.core vocabulary) := by
    intro cells
    rw [List.head?_map, Option.bind_map, Option.map_bind]
    simp (disch := decide) only [Function.comp_def, Element.find?_core]
  induction layouts generalizing seen place headers details with
  | nil => rfl
  | cons layout layouts ih => simp only [List.map_cons, columnsOf, hbox, columnOf_core, ← List.map_drop, ih]

theorem rowCells_core (row : Option Element) :
    rowCells (row.map (·.core vocabulary)) = (rowCells row).map (·.core vocabulary) := by
  cases row with
  | none => rfl
  | some row => exact Element.descendants_core (by decide) row

theorem bodyParts_core {steps : List String} (h : ∀ step ∈ steps, step ∈ vocabulary.names) (e : Element) :
    bodyParts (e.core vocabulary) steps = (bodyParts e steps).map (·.core vocabulary) := by
  unfold bodyParts
  rw [Element.find?_core (by decide)]
  cases e.find? "TablixBody" with
  | none => rfl
  | some body => exact Element.reached_core h body

theorem bodyOf_core (seen : List String) (e : Element) :
    bodyOf scope tablix seen (e.core vocabulary) = bodyOf scope tablix seen e := by
  simp (disch := decide) only [bodyOf, bodyParts_core, List.getElem?_map, rowCells_core, columnsOf_core]

end

theorem tablixesOf_core (datasets : List DataSet) (parameters : List ReportParameter) (seen boxes : List String)
    (es : List Element) :
    tablixesOf datasets parameters seen boxes (es.map (·.core vocabulary)) =
      tablixesOf datasets parameters seen boxes es := by
  induction es generalizing seen boxes with
  | nil => rfl
  | cons e es ih =>
    simp (disch := decide) only [List.map_cons, tablixesOf, requireName_core, trimmedChild?_core, bodyOf_core, ih]

/-- The reader sees no more of a document than its core. -/
theorem ofElement_core (root : Element) : ofElement (root.core vocabulary) = ofElement root := by
  unfold ofElement sourcesOf datasetsOf parametersOf
  simp (disch := decide) only [Element.name_core, Element.attribute?_core, Element.descendants_core,
    inTurn_map sourceOf_core, inTurn_map (datasetOf_core _), inTurn_map parameterOf_core, tablixesOf_core]

/-- Unknown markup is ignored.  Whatever was inserted, at any place, of elements in which no name that the
reader asks for stands at any depth, whatever attributes were added that it does not ask for and however
qualifiers were changed, the same definition is read, or there is the same error. -/
theorem ofElement_of_edits {root root' : Element} (h : Relation.ReflTransGen (Element.Edit vocabulary) root root') :
    ofElement root' = ofElement root := by
  rw [← ofElement_core root', Element.core_eq_of_edits h, ofElement_core]

def plainSource : Element :=
  ⟨"DataSource", none, [("Name", "S")], [⟨"DataSourceReference", none, [], [], "shared"⟩], ""⟩

def plainReport : Element :=
  ⟨"Report", none, [], [plainSource], ""⟩

/-- A note with an element inside that is only read at the root. -/
def note : Element :=
  ⟨"Note", some "rd", [("Name", "S")], [⟨"Report", none, [], [], "draft"⟩], ""⟩

def notedSource : Element :=
  ⟨"DataSource", none, [("Name", "S")], note :: plainSource.children, ""⟩

def notedReport : Element :=
  ⟨"Report", none, [("rd:Name", "R")], [{ notedSource with qualifier := some "r" }], ""⟩

theorem ofElement_of_notedReport :
    ofElement notedReport = ofElement plainReport ∧ ofElement plainReport = .ok { sources := [⟨"S", "shared"⟩] } := by
  have hnote : note.Foreign vocabulary :=
    ⟨by decide, List.forall_mem_singleton.2 ⟨by decide, by simp⟩⟩
  have hinsert : plainSource.Edit vocabulary notedSource := .insert (List.nil_append _).symm hnote
  have hsource : notedSource.Edit vocabulary { notedSource with qualifier := some "r" } := .requalify (some "r")
  have hplain : plainReport.children = [] ++ plainSource :: [] := rfl
  have hnoted : [notedSource] = [] ++ notedSource :: [] := rfl
  have hattributes : plainReport.attributes = [] ++ [] := rfl
  have hedits : Relation.ReflTransGen (Element.Edit vocabulary) plainReport notedReport :=
    ((Relation.ReflTransGen.single (.inside hplain hinsert)).tail
      (.inside (e := { plainReport with children := [notedSource] }) hnoted hsource)).tail
      (.annotate (e := { plainReport with children := notedReport.children }) hattributes (by decide) (by decide))
  exact ⟨ofElement_of_edits hedits, toOption_eq_some.1 (by decide +kernel)⟩

end TabularReport.Definition
