import TabularReport.Proofs.Definition.Linked
import TabularReport.Proofs.Markup.Element
/-!
Which cells the columns of a table are read from.  A column takes the cells that are found in its place
anywhere inside the two first rows.  As cells inside a cell are found right after it, a row whose cells
contain others is displaced against the columns from there on.
-/
set_option autoImplicit false

namespace TabularReport
open Markup Definition

structure Column.ReadFrom (scope : Declarations) (tablix : String) (place : Nat) (layout : Element)
    (header detail : Option Element) (c : Column) : Prop where
  name : c.name = ((detail.bind (·.find? "Textbox")).bind trimmedName?).getD
    (tablix ++ "_Column" ++ natText place)
  width : c.width = ((trimmedChild? layout "Width").bind nonEmpty?).getD defaultWidth
  header : headerOf scope.home tablix c.name (header.bind (·.find? "Textbox")) =
    .ok ⟨c.headerText, c.headerStyle, c.sort⟩
  detail : detailOf scope.home tablix c.name (detail.bind (·.find? "Textbox")) =
    .ok ⟨c.value, c.detailStyle, c.drillthrough⟩
  type : c.type = scope.typeOf c.value
  sortType : c.sortType = (c.sort.map scope.typeOf).getD c.type

theorem Column.ReadFrom.unique {scope : Declarations} {tablix : String} {place : Nat} {layout : Element}
    {header detail : Option Element} {c c' : Column} (h : c.ReadFrom scope tablix place layout header detail)
    (h' : c'.ReadFrom scope tablix place layout header detail) : c = c' := by
  have hname : c.name = c'.name := h.name.trans h'.name.symm
  have hwidth : c.width = c'.width := h.width.trans h'.width.symm
  obtain ⟨htext, hstyle, hsort⟩ :
      c'.headerText = c.headerText ∧ c'.headerStyle = c.headerStyle ∧ c'.sort = c.sort := by
    have hheader := h.header
    rw [hname, h'.header] at hheader
    simpa using hheader
  obtain ⟨hvalue, hdetail, hlink⟩ :
      c'.value = c.value ∧ c'.detailStyle = c.detailStyle ∧ c'.drillthrough = c.drillthrough := by
    have hboth := h.detail
    rw [hname, h'.detail] at hboth
    simpa using hboth
  have htype : c.type = c'.type := by rw [h.type, h'.type, hvalue]
  have hsortType : c.sortType = c'.sortType := by rw [h.sortType, h'.sortType, hsort, htype]
  cases c
  cases c'
  simp_all

namespace Definition

theorem readFrom_of_columnOf {scope : Declarations} {tablix : String} {before after : List String}
    {place : Nat} {layout : Element} {header detail : Option Element} {c : Column}
    (h : columnOf scope tablix before place layout (header.bind (·.find? "Textbox"))
      (detail.bind (·.find? "Textbox")) = .ok (after, c)) :
    c.ReadFrom scope tablix place layout header detail := by
  unfold columnOf at h
  simp only [bind_eq_ok] at h
  obtain ⟨_, _, _, hheader, _, hdetail, h⟩ := h
  cases h
  exact ⟨rfl, rfl, hheader, hdetail, rfl, rfl⟩

theorem getElem?_columnsOf {scope : Declarations} {tablix : String} {before after : List String}
    {place : Nat} {layouts headers details : List Element} {columns : List Column}
    (h : columnsOf scope tablix before place layouts headers details = .ok (after, columns)) :
    columns.length = layouts.length ∧ ∀ (i : Nat) (c : Column) (layout : Element), columns[i]? = some c →
      layouts[i]? = some layout → c.ReadFrom scope tablix (place + i) layout headers[i]? details[i]? := by
  induction layouts generalizing before place headers details columns with
  | nil =>
    cases h
    simp
  | cons layout layouts ih =>
    rw [columnsOf] at h
    obtain ⟨⟨middle, column⟩, hcolumn, h⟩ := bind_eq_ok.1 h
    obtain ⟨⟨last, others⟩, hothers, h⟩ := bind_eq_ok.1 h
    cases h
    obtain ⟨hlength, hread⟩ := ih hothers
    refine ⟨by simp [hlength], ?_⟩
    intro i c l hc hl
    cases i with
    | zero =>
      obtain rfl : column = c := by simpa using hc
      obtain rfl : layout = l := by simpa using hl
      have hfirst : column.ReadFrom scope tablix place layout headers.head? details.head? :=
        readFrom_of_columnOf hcolumn
      rwa [List.head?_eq_getElem?, List.head?_eq_getElem?] at hfirst
    | succ i =>
      -- The cells are dropped in step with the layouts, so this is place `i` of what is left of all three.
      have h := hread i c l (by simpa using hc) (by simpa using hl)
      rw [List.getElem?_drop, List.getElem?_drop] at h
      simpa only [Nat.add_assoc, Nat.add_comm 1 i] using h

theorem drop_flatMap_cons {α : Type} (f : α → List α) (as : List α) (i : Nat) :
    (as.flatMap fun a => a :: f a).drop (i + ((as.take i).flatMap f).length) =
      (as.drop i).flatMap fun a => a :: f a := by
  induction as generalizing i with
  | nil => simp
  | cons a as ih =>
    cases i with
    | zero => simp
    | succ i =>
      -- One place for `a` itself and one for each of `f a`, before the places among the rest.
      have hplace : i + 1 + ((f a).length + ((as.take i).flatMap f).length) =
          (f a).length + (i + ((as.take i).flatMap f).length) + 1 := by omega
      rw [List.take_succ_cons, List.flatMap_cons, List.length_append, hplace, List.flatMap_cons,
        List.cons_append, List.drop_succ_cons, List.drop_length_add_append, ih, List.drop_succ_cons]

def tableColumns (e : Element) : List Element :=
  bodyParts e ["TablixColumns", "TablixColumn"]

def tableRow (e : Element) (n : Nat) : Option Element :=
  (bodyParts e ["TablixRows", "TablixRow"])[n]?

def ownCells : Option Element → List Element
  | some row => row.reached ["TablixCells", "TablixCell"]
  | none => []

def nestedIn (cells : List Element) : List Element :=
  cells.flatMap (Element.descendants "TablixCell")

/-- Whether all cells inside the row are cells of its own or are inside of one. -/
def IsLaid (row : Element) : Prop :=
  row.Confined "TablixCell" "TablixCells" ∧
    ∀ group ∈ row.childrenCalled "TablixCells", group.Confined "TablixCell" "TablixCell"

instance {row : Element} : Decidable (IsLaid row) := inferInstanceAs (Decidable (_ ∧ _))

theorem rowCells_eq_flatMap {row : Option Element} (h : ∀ r ∈ row, IsLaid r) :
    rowCells row = (ownCells row).flatMap fun c => c :: c.descendants "TablixCell" := by
  cases row with
  | none => rfl
  | some row =>
    obtain ⟨hgroups, hcells⟩ := h row rfl
    rw [rowCells, hgroups.descendants_eq_of_ne (by decide), ownCells, Element.reached_pair, List.flatMap_assoc]
    exact List.flatMap_congr fun group hgroup => (hcells group hgroup).descendants_eq_self

/-- Where the `i`th cell of a row is found: after all that is inside the cells before it. -/
def placeOf (row : Option Element) (i : Nat) : Nat :=
  i + (nestedIn ((ownCells row).take i)).length

theorem getElem?_rowCells {row : Option Element} (h : ∀ r ∈ row, IsLaid r) (i : Nat) :
    (rowCells row)[placeOf row i]? = (ownCells row)[i]? := by
  have hdrop := drop_flatMap_cons (Element.descendants "TablixCell") (ownCells row) i
  rw [← rowCells_eq_flatMap h] at hdrop
  have hhead := congrArg List.head? hdrop
  rw [List.head?_drop] at hhead
  rw [placeOf, nestedIn, hhead, ← List.head?_drop]
  cases (ownCells row).drop i <;> rfl

def ReadAt (d : Definition) (e : Element) (t : Tablix) (i : Nat) (header detail : Option Element) : Prop :=
  ∀ c layout, t.columns[i]? = some c → (tableColumns e)[i]? = some layout →
    c.ReadFrom ⟨t.dataset, d.datasets, d.parameters⟩ t.name (1 + i) layout header detail

/-- Whether each column is read from the cells in its place, of those that `cells` takes from a row. -/
structure ReadBy (d : Definition) (cells : Option Element → List Element) (e : Element) (t : Tablix) :
    Prop where
  name : trimmedName? e = some t.name
  dataset : (trimmedChild? e "DataSetName").bind nonEmpty? = some t.dataset
  length : t.columns.length = (tableColumns e).length
  column : ∀ i : Nat, d.ReadAt e t i (cells (tableRow e 0))[i]? (cells (tableRow e 1))[i]?

theorem getElem?_tablixesOf {d : Definition} {seen boxes : List String} {es : List Element} {ts : List Tablix}
    (h : tablixesOf d.datasets d.parameters seen boxes es = .ok ts) :
    ts.length = es.length ∧ ∀ (k : Nat) (e : Element) (t : Tablix), es[k]? = some e → ts[k]? = some t →
      d.ReadBy rowCells e t := by
  induction es generalizing seen boxes ts with
  | nil =>
    cases h
    simp
  | cons e es ih =>
    obtain ⟨t, rest, _, _, ht, hrest, rfl⟩ := exists_of_tablixesOf_cons h
    obtain ⟨hlength, hread⟩ := ih hrest
    refine ⟨by simp [hlength], ?_⟩
    intro k e' t' he' ht'
    cases k with
    | zero =>
      obtain rfl : e = e' := by simpa using he'
      obtain rfl : t = t' := by simpa using ht'
      obtain ⟨hcount, hcolumn⟩ := getElem?_columnsOf ht.body
      exact ⟨require_eq_ok.1 ht.name, ht.dataset, hcount, hcolumn⟩
    | succ k => exact hread k e' t' (by simpa using he') (by simpa using ht')

/-- Whether the document with these bytes is accepted, and what is read from it. -/
structure Accepted (bytes : ByteArray) (root : Element) (d : Definition) : Prop where
  document : Element.ofBytes bytes = .ok root
  definition : ofBytes bytes = .ok d

def HasTable (d : Definition) (root e : Element) (t : Tablix) : Prop :=
  ∃ k : Nat, (root.descendants "Tablix")[k]? = some e ∧ d.tablixes[k]? = some t

def HasLaidRows (e : Element) : Prop :=
  ∀ n < 2, ∀ row ∈ tableRow e n, IsLaid row

instance {e : Element} : Decidable (HasLaidRows e) := inferInstanceAs (Decidable (∀ n < 2, _))

/-- Whether cell `a` of the first row and cell `b` of the second are both found at place `i`. -/
def Lands (e : Element) (a b i : Nat) : Prop :=
  placeOf (tableRow e 0) a = i ∧ placeOf (tableRow e 1) b = i

instance {e : Element} {a b i : Nat} : Decidable (Lands e a b i) := inferInstanceAs (Decidable (_ ∧ _))

/-- Whether two tables are the same but for what is inside the cells at place `j` of their rows. -/
structure AgreeBut (j : Nat) (e e' : Element) : Prop where
  name : trimmedName? e = trimmedName? e'
  dataset : trimmedChild? e "DataSetName" = trimmedChild? e' "DataSetName"
  columns : tableColumns e = tableColumns e'
  before : ∀ n < 2, (ownCells (tableRow e n)).take j = (ownCells (tableRow e' n)).take j
  after : ∀ n < 2, (ownCells (tableRow e n)).drop (j + 1) = (ownCells (tableRow e' n)).drop (j + 1)

instance {j : Nat} {e e' : Element} : Decidable (AgreeBut j e e') :=
  decidable_of_iff
    (trimmedName? e = trimmedName? e' ∧ trimmedChild? e "DataSetName" = trimmedChild? e' "DataSetName" ∧
      tableColumns e = tableColumns e' ∧
      (∀ n < 2, (ownCells (tableRow e n)).take j = (ownCells (tableRow e' n)).take j) ∧
      ∀ n < 2, (ownCells (tableRow e n)).drop (j + 1) = (ownCells (tableRow e' n)).drop (j + 1))
    ⟨fun ⟨hname, hdataset, hcolumns, hbefore, hafter⟩ => ⟨hname, hdataset, hcolumns, hbefore, hafter⟩,
      fun h => ⟨h.name, h.dataset, h.columns, h.before, h.after⟩⟩

theorem AgreeBut.getElem?_ownCells {j : Nat} {e e' : Element} (h : AgreeBut j e e') {n i : Nat} (hn : n < 2)
    (hi : i ≠ j) : (ownCells (tableRow e n))[i]? = (ownCells (tableRow e' n))[i]? := by
  obtain hlt | hgt := Nat.lt_or_gt_of_ne hi
  · rw [← List.getElem?_take_of_lt hlt, h.before n hn, List.getElem?_take_of_lt hlt]
  · obtain ⟨k, rfl⟩ := Nat.exists_eq_add_of_lt hgt
    have hk := congrArg (·[k]?) (h.after n hn)
    rw [List.getElem?_drop, List.getElem?_drop] at hk
    rwa [Nat.add_right_comm]

theorem Accepted.tablixesOf {bytes : ByteArray} {root : Element} {d : Definition}
    (h : Accepted bytes root d) :
    tablixesOf d.datasets d.parameters [] [] (root.descendants "Tablix") = .ok d.tablixes := by
  have hroot := h.definition
  rw [ofBytes, h.document] at hroot
  exact (parts_of_ofElement hroot).2.2.2

theorem Accepted.readBy {bytes : ByteArray} {root : Element} {d : Definition} (h : Accepted bytes root d)
    {e : Element} {t : Tablix} (ht : d.HasTable root e t) : d.ReadBy rowCells e t := by
  obtain ⟨k, hk, hk'⟩ := ht
  exact (getElem?_tablixesOf h.tablixesOf).2 k e t hk hk'

theorem ReadBy.readAt {d : Definition} {e : Element} {t : Tablix} (h : d.ReadBy rowCells e t)
    (hlaid : HasLaidRows e) {a b i : Nat} (hi : Lands e a b i) :
    d.ReadAt e t i (ownCells (tableRow e 0))[a]? (ownCells (tableRow e 1))[b]? := by
  have hheader := getElem?_rowCells (hlaid 0 (by decide)) a
  have hdetail := getElem?_rowCells (hlaid 1 (by decide)) b
  rw [hi.1] at hheader
  rw [hi.2] at hdetail
  rw [← hheader, ← hdetail]
  exact h.column i

theorem columns_eq_of_agreeBut {d d' : Definition} {e e' : Element} {t t' : Tablix}
    (h : d.ReadBy rowCells e t) (h' : d'.ReadBy rowCells e' t') (hdatasets : d.datasets = d'.datasets)
    (hparameters : d.parameters = d'.parameters) (hlaid : HasLaidRows e) (hlaid' : HasLaidRows e') {j : Nat}
    (hagree : AgreeBut j e e') {a b i : Nat} (ha : a ≠ j) (hb : b ≠ j) (hi : Lands e a b i)
    (hi' : Lands e' a b i) : t.columns[i]? = t'.columns[i]? := by
  have hname : some t.name = some t'.name := h.name.symm.trans (hagree.name.trans h'.name)
  have hdataset : some t.dataset = some t'.dataset := by
    rw [← h.dataset, hagree.dataset, h'.dataset]
  have hlength : t.columns.length = t'.columns.length := by
    rw [h.length, h'.length, hagree.columns]
  by_cases hlt : i < t.columns.length
  · obtain ⟨layout, hlayout⟩ : ∃ layout, (tableColumns e)[i]? = some layout :=
      ⟨_, List.getElem?_eq_getElem (h.length ▸ hlt)⟩
    have hc := List.getElem?_eq_getElem hlt
    have hc' := List.getElem?_eq_getElem (hlength ▸ hlt)
    have hread := h.readAt hlaid hi _ layout hc hlayout
    have hread' := h'.readAt hlaid' hi' _ layout hc' (hagree.columns ▸ hlayout)
    rw [hagree.getElem?_ownCells (by decide) ha, hagree.getElem?_ownCells (by decide) hb,
      Option.some.inj hname, Option.some.inj hdataset, hdatasets, hparameters] at hread
    rw [hc, hc', hread.unique hread']
  · rw [List.getElem?_eq_none (by omega), List.getElem?_eq_none (by omega)]

/-- In every document that is accepted, each column of a table is read from the cells that are found in
its place, and so from the cells of the rows which land there.  What is inside other cells has no effect
on it unless it displaces these. -/
theorem columns_of_ownCells {bytes : ByteArray} {root : Element} {d : Definition}
    (h : Accepted bytes root d) :
    d.tablixes.length = (root.descendants "Tablix").length ∧
      ∀ e t, d.HasTable root e t → d.ReadBy rowCells e t ∧ (HasLaidRows e →
        (∀ i a b : Nat, Lands e a b i →
          d.ReadAt e t i (ownCells (tableRow e 0))[a]? (ownCells (tableRow e 1))[b]?) ∧
        ∀ bytes' root' d' e' t' j, Accepted bytes' root' d' → d'.HasTable root' e' t' → HasLaidRows e' →
          d.datasets = d'.datasets → d.parameters = d'.parameters → AgreeBut j e e' →
            ∀ i a b, a ≠ j → b ≠ j → Lands e a b i → Lands e' a b i → t.columns[i]? = t'.columns[i]?) := by
  refine ⟨(getElem?_tablixesOf h.tablixesOf).1, ?_⟩
  intro e t ht
  have hread := h.readBy ht
  refine ⟨hread, ?_⟩
  intro hlaid
  refine ⟨?_, ?_⟩
  · intro i a b hi
    exact hread.readAt hlaid hi
  · intro bytes' root' d' e' t' j h' ht' hlaid' hdatasets hparameters hagree i a b ha hb hi hi'
    exact columns_eq_of_agreeBut hread (h'.readBy ht') hdatasets hparameters hlaid hlaid' hagree ha hb hi hi'

def firstTable? (cs : List Char) : Option (Definition × Element) := do
  let root ← (Element.ofChars cs).toOption
  return (← (ofElement root).toOption, ← (root.descendants "Tablix")[0]?)

theorem exists_accepted_of_firstTable? {cs : List Char} {d : Definition} {e : Element}
    (hmark : cs.head? ≠ some '\ufeff') (h : firstTable? cs = some (d, e)) :
    ∃ root, Accepted (String.ofList cs).toUTF8 root d ∧ (root.descendants "Tablix")[0]? = some e := by
  obtain ⟨root, hroot, h⟩ := Option.bind_eq_some_iff.1 h
  obtain ⟨d', hd, h⟩ := Option.bind_eq_some_iff.1 h
  obtain ⟨e', he, h⟩ := Option.bind_eq_some_iff.1 h
  cases h
  have hdocument : Element.ofBytes (String.ofList cs).toUTF8 = .ok root := by
    rw [Element.ofBytes_ofList hmark, toOption_eq_some.1 hroot]
  refine ⟨root, ⟨hdocument, ?_⟩, he⟩
  rw [ofBytes, hdocument]
  exact toOption_eq_some.1 hd

def stockTable (name : String) (columns rows : List String) : List String :=
  ["<Tablix Name=\"", name, "\">", "<DataSetName>", "Stock", "</DataSetName>", "<TablixBody>",
    "<TablixColumns>"] ++ columns.map (fun _ => "<TablixColumn/>") ++ ["</TablixColumns>", "<TablixRows>"] ++ rows ++
    ["</TablixRows>", "</TablixBody>", "</Tablix>"]

def tablixRow (cells : List (List String)) : List String :=
  ["<TablixRow>", "<TablixCells>"] ++ cells.flatMap (fun cell => "<TablixCell>" :: cell ++ ["</TablixCell>"]) ++
    ["</TablixCells>", "</TablixRow>"]

def stockDocument (below : List String) : List Char :=
  '<' :: (["Report>", "<DataSource Name=\"Main\"/>", "<DataSet Name=\"Stock\">", "<Query>", "<DataSourceName>",
    "Main", "</DataSourceName>", "<CommandText/>", "</Query>", "</DataSet>"] ++
    stockTable "Items" ["Item", "Place", "Count"]
      ("<TablixRow/>" :: tablixRow
        [["<Textbox Name=\"Item\"/>"], "<Textbox Name=\"Place\"/>" :: below, ["<Textbox Name=\"Count\"/>"]]) ++
    ["</Report>"]).flatMap String.toList

def binTable : List String :=
  stockTable "Bins" ["Bin"] (tablixRow [["<Textbox Name=\"BinHead\"/>"]])

def stockDefinition (tables : List Tablix) : Definition where
  sources := [⟨"Main", ""⟩]
  datasets := [⟨"Stock", "Main", "", [], []⟩]
  tablixes := tables

def emptyColumn (name : String) : Column :=
  ⟨name, "1in", "", {}, .literal (.text ""), {}, .text, none, .text, none⟩

def itemsTable (last : String) : Tablix :=
  ⟨"Items", "Stock", ["Item", "Place", last].map emptyColumn⟩

def stockAlone : Definition :=
  stockDefinition [itemsTable "Count"]

def stockWithBins : Definition :=
  stockDefinition [itemsTable "BinHead", ⟨"Bins", "Stock", [emptyColumn "Bins_Column1"]⟩]

def StockTables (e e' : Element) : Prop :=
  HasLaidRows e ∧ HasLaidRows e' ∧ AgreeBut 1 e e' ∧ Lands e 0 0 0 ∧ Lands e' 0 0 0 ∧
    (tableColumns e)[2]?.isSome ∧
    ((ownCells (tableRow e 1))[2]?.bind (·.find? "Textbox")).bind trimmedName? = some "Count"

instance {e e' : Element} : Decidable (StockTables e e') := inferInstanceAs (Decidable (_ ∧ _))

theorem exists_stockTables :
    ∃ root root' e e', Accepted (String.ofList (stockDocument binTable)).toUTF8 root stockWithBins ∧
      Accepted (String.ofList (stockDocument [])).toUTF8 root' stockAlone ∧
      stockWithBins.HasTable root e (itemsTable "BinHead") ∧
      stockAlone.HasTable root' e' (itemsTable "Count") ∧ StockTables e e' := by
  have hboth : ((firstTable? (stockDocument binTable)).any fun (d, e) =>
      (firstTable? (stockDocument [])).any fun (d', e') =>
        decide (d = stockWithBins ∧ d' = stockAlone ∧ StockTables e e')) = true := by decide +kernel
  obtain ⟨⟨d, e⟩, hbins, hother⟩ := (Option.any_eq_true ..).1 hboth
  obtain ⟨⟨d', e'⟩, halone, hall⟩ := (Option.any_eq_true ..).1 hother
  obtain ⟨rfl, rfl, htables⟩ := of_decide_eq_true hall
  obtain ⟨root, h, he⟩ := exists_accepted_of_firstTable? (by decide) hbins
  obtain ⟨root', h', he'⟩ := exists_accepted_of_firstTable? (by decide) halone
  exact ⟨root, root', e, e', h, h', ⟨0, he, rfl⟩, ⟨0, he', rfl⟩, htables⟩

theorem columns_of_stockDocument :
    ∃ root root' e e' t t', Accepted (String.ofList (stockDocument binTable)).toUTF8 root stockWithBins ∧
      Accepted (String.ofList (stockDocument [])).toUTF8 root' stockAlone ∧
      stockWithBins.HasTable root e t ∧ stockAlone.HasTable root' e' t' ∧ HasLaidRows e ∧ HasLaidRows e' ∧
      AgreeBut 1 e e' ∧ Lands e 0 0 0 ∧ Lands e' 0 0 0 ∧ t.columns[0]? = t'.columns[0]? := by
  obtain ⟨root, root', e, e', h, h', ht, ht', hlaid, hlaid', hagree, hi, hi', _⟩ := exists_stockTables
  obtain ⟨_, hcolumns⟩ := (columns_of_ownCells h).2 e _ ht
  have hsame := (hcolumns hlaid).2 _ _ _ _ _ 1 h' ht' hlaid' rfl rfl hagree 0 0 0 (by decide) (by decide) hi hi'
  exact ⟨root, root', e, e', _, _, h, h', ht, ht', hlaid, hlaid', hagree, hi, hi', hsame⟩

/-- With the bins inside the cell of the places, the column of the counts is not read from its own cell,
and it differs although the two tables agree in it. -/
theorem misaligned_of_binTable :
    ∃ root root' e e' t t', Accepted (String.ofList (stockDocument binTable)).toUTF8 root stockWithBins ∧
      Accepted (String.ofList (stockDocument [])).toUTF8 root' stockAlone ∧
      stockWithBins.HasTable root e t ∧ stockAlone.HasTable root' e' t' ∧ AgreeBut 1 e e' ∧
      ¬ stockWithBins.ReadBy ownCells e t ∧ t.columns[2]? ≠ t'.columns[2]? := by
  obtain ⟨root, root', e, e', h, h', ht, ht', _, _, hagree, _, _, hlayout, hname⟩ := exists_stockTables
  refine ⟨root, root', e, e', _, _, h, h', ht, ht', hagree, ?_, by decide⟩
  intro hown
  obtain ⟨layout, hlayout⟩ := Option.isSome_iff_exists.1 hlayout
  have hread := (hown.column 2 (emptyColumn "BinHead") layout rfl hlayout).name
  rw [hname] at hread
  exact absurd hread (by decide)

end Definition
end TabularReport
