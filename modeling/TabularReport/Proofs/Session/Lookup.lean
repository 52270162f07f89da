import TabularReport.Proofs.Eval.Scan
import TabularReport.Proofs.Session.Snapshot

set_option autoImplicit false

namespace TabularReport

def Store.sources (s : Store) (name : String) : List DataRow :=
  (s.rows? name).getD []

namespace Session

/-- Whether the runner returned these rows for the dataset in answer to a request of the log. -/
def Returned (s : Session) (log : List Request) (name : String) (reply : List Row) : Prop :=
  ∃ r, r.dataset = name ∧ s.Answered log r reply

variable {s : Session}

theorem split_cases {α : Type} {earlier earlier' later later' : List α} {a a' : α}
    (h : earlier ++ a :: later = earlier' ++ a' :: later') :
    (earlier = earlier' ∧ a = a') ∨ a' ∈ later ∨ a ∈ later' := by
  obtain ⟨mid, rfl, hmid⟩ | ⟨mid, rfl, hmid⟩ := List.append_eq_append_iff.1 h
  · cases mid with
    | nil =>
      cases hmid
      exact .inl ⟨by simp, rfl⟩
    | cons b mid =>
      cases hmid
      exact .inr (.inl (by simp))
  · cases mid with
    | nil =>
      cases hmid
      exact .inl ⟨by simp, rfl⟩
    | cons b mid =>
      cases hmid
      exact .inr (.inr (by simp))

theorem Consistent.returned_unique {p : Progress} {name : String} {reply other : List Row}
    (h : s.Consistent p) (hr : s.Returned p.requests name reply) (ho : s.Returned p.requests name other) :
    other = reply := by
  obtain ⟨r, rfl, earlier, later, hlog, hreply⟩ := hr
  obtain ⟨r', hname, earlier', later', hlog', hother⟩ := ho
  obtain ⟨rfl, rfl⟩ | hlater | hlater := split_cases (hlog.symm.trans hlog')
  · rw [hreply] at hother
    cases hother
    rfl
  · exact absurd hname (h.askedOnce hlog hreply r' hlater)
  · exact absurd hname.symm (h.askedOnce hlog' hother r hlater)

theorem Consistent.exists_returned {p : Progress} {name : String} {rows : List DataRow}
    (h : s.Consistent p) (hrows : p.store.rows? name = some rows) :
    ∃ dataset reply, s.definition.dataset? name = some dataset ∧ s.Returned p.requests name reply ∧
      rows = dataset.rowsOf reply := by
  obtain ⟨dataset, r, reply, hd, ha, hanswered, rfl⟩ := h.fetched hrows
  have hname := (dataset_of_request ha).trans (Definition.name_of_dataset? hd)
  exact ⟨dataset, reply, hd, ⟨r, hname, hanswered⟩, rfl⟩

theorem Consistent.sources_of_returned {p : Progress} {name : String} {dataset : DataSet} {reply : List Row}
    (h : s.Consistent p) (hd : s.definition.dataset? name = some dataset)
    (hr : s.Returned p.requests name reply) : p.store.sources name = dataset.rowsOf reply := by
  obtain ⟨r, hname, hanswered⟩ := hr
  obtain ⟨rows, hrows⟩ := h.answered hanswered
  rw [hname] at hrows
  obtain ⟨dataset', other, hd', hother, rfl⟩ := h.exists_returned hrows
  obtain rfl : dataset = dataset' := Option.some.inj (hd.symm.trans hd')
  rw [Store.sources, hrows, Option.getD_some, h.returned_unique hother ⟨r, hname, hanswered⟩]

theorem Consistent.exists_returned_of_isIndexed {p : Progress} {name keyField : String} (h : s.Consistent p)
    (hi : p.store.isIndexed name keyField = true) : ∃ reply, s.Returned p.requests name reply := by
  obtain ⟨rows, hrows, _⟩ := h.upToDate.exists_of_isIndexed hi
  obtain ⟨_, reply, _, hreply, _⟩ := h.exists_returned hrows
  exact ⟨reply, hreply⟩

/-- What is kept answers a lookup that is prepared as reading the fetched rows does. -/
theorem Consistent.scans {q : Progress} {l : LookupSite} (h : s.Consistent q)
    (hi : q.store.isIndexed l.source l.keyField = true) (dataset : DataSet) (row : DataRow) :
    (s.scopeOf q.store dataset row).Scans q.store.sources l := by
  intro key
  obtain ⟨rows, hrows, _⟩ := h.upToDate.exists_of_isIndexed hi
  have hfind := h.upToDate.find?_eq_scan? hi hrows key
  simp only [scopeOf, Scope.answer?, Option.bind_some, hfind, Store.sources, hrows, Option.getD_some]

/-- Whether the row is evaluated on what is kept in `q`: at a moment of the session its dataset was
fetched, and then the lookups of its columns were prepared. -/
inductive Evaluating (s : Session) (dataset : DataSet) (row : DataRow) (q : Progress) : Prop
  | intro {p : Progress} {rows : List DataRow} (moment : s.Moment p)
      (declared : s.definition.dataset? dataset.name = some dataset)
      (fetched : p.store.rows? dataset.name = some rows) (member : row ∈ rows)
      (prepared : s.prepare (s.lookupsFor dataset.name) p = (.ok (), q))

theorem Evaluating.consistent {dataset : DataSet} {row : DataRow} {q : Progress}
    (h : s.Evaluating dataset row q) : s.Consistent q := by
  obtain ⟨moment, _, _, _, prepared⟩ := h
  exact moment.consistent.of_prepare prepared

theorem Evaluating.prepared {dataset : DataSet} {row : DataRow} {q : Progress}
    (h : s.Evaluating dataset row q) : s.Prepared q.store (s.lookupsFor dataset.name) := by
  obtain ⟨_, _, _, _, prepared⟩ := h
  exact prepared_of_prepare prepared

/-- A lookup is a naive scan.  Wherever it stands in a table, on every row that is evaluated a lookup into
declared fields gives Null for a Null key, and otherwise the value field of the first row that the runner
returned for the source whose key field is not Null and has the plain text of the key, or Null if there is
no such row. -/
theorem lookup_of_evaluating {dataset : DataSet} {row : DataRow} {q : Progress}
    (h : s.Evaluating dataset row q) {t : Tablix} (ht : t ∈ s.definition.tablixes)
    (hd : t.dataset = dataset.name) {e key : Expr} (he : e ∈ t.expressions)
    {source keyField valueField : String} (hw : (Expr.lookup key source keyField valueField).Within e)
    {searched : DataSet} (hs : s.definition.dataset? source = some searched)
    (hk : (searched.field? keyField).isSome) (hv : (searched.field? valueField).isSome) :
    ∃ reply, s.Returned q.requests source reply ∧ (∀ other, s.Returned q.requests source other → other = reply) ∧
      ∀ v, (s.scopeOf q.store dataset row).eval key = .ok v →
        (v.isNull = true →
          (s.scopeOf q.store dataset row).eval (.lookup key source keyField valueField) = .ok .null) ∧
        (v.isNull = false →
          (s.scopeOf q.store dataset row).eval (.lookup key source keyField valueField) =
            .ok ((((searched.rowsOf reply).find? (DataRow.hasKey keyField v)).bind (·.field? valueField)).getD
              .null)) := by
  have hsite : (⟨source, keyField, valueField⟩ : LookupSite) ∈ e.lookups := Expr.mem_lookups_iff.2 ⟨key, hw⟩
  have hmem := mem_lookupsFor_of_tablix ht he hsite
  rw [hd] at hmem
  have hi : q.store.isIndexed source keyField = true :=
    h.prepared _ hmem (by simp [Definition.declaresDataset, hs])
  have hq := h.consistent
  obtain ⟨reply, hreturned⟩ := hq.exists_returned_of_isIndexed hi
  refine ⟨reply, hreturned, fun other => hq.returned_unique hreturned, ?_⟩
  intro v hkey
  have hscans := hq.scans (l := ⟨source, keyField, valueField⟩) hi dataset row
  have hlookup := Scope.eval_lookup_of_scans hs hk hv hscans hkey
  rw [hq.sources_of_returned hs hreturned] at hlookup
  constructor
  · intro hnull
    rw [hlookup]
    simp [DataRow.scan, DataRow.scan?, hnull]
  · intro hvalue
    rw [hlookup]
    simp [DataRow.scan, DataRow.scan?, hvalue]

def items : DataSet :=
  ⟨"Items", "S", "items", [], [⟨"Id", "Id", ""⟩, ⟨"Name", "Name", ""⟩]⟩

def itemRows : List Row :=
  [.ofList [("Id", .null), ("Name", .text "none")], .ofList [("Id", .text "7"), ("Name", .text "ink")],
    .ofList [("Id", .number (.ofNat 7)), ("Name", .text "pen")]]

def orderedName : Expr :=
  .lookup (.lookup (.field (some "Items") "Id") "Orders" "Item" "Item") "Items" "Id" "Name"

def exchange : Session where
  definition := {
    sources := [⟨"S", ""⟩]
    datasets := [⟨"Orders", "S", "orders", [], [⟨"Item", "Item", ""⟩]⟩, items]
    tablixes := [
      ⟨"T", "Orders", [⟨"Name", "1in", "", {}, .lookup (.field (some "Orders") "Item") "Items" "Id" "Name", {}, .text,
        none, .text, none⟩]⟩,
      ⟨"U", "Items", [⟨"Ordered", "1in", "", {}, orderedName, {}, .text, none, .text, none⟩]⟩] }
  settings := {}
  parameters := ∅
  runner _ r := if r.dataset = "Orders" then .ok [.ofList [("Item", .number (.ofNat 7))]] else .ok itemRows

def lastItem : DataRow where
  ordinal := 3
  fields := .ofList [("Id", .number (.ofNat 7)), ("Name", .text "pen")]

theorem lookup_of_exchange :
    ∃ q, exchange.Evaluating items lastItem q ∧
      (exchange.scopeOf q.store items lastItem).eval orderedName = .ok (.text "ink") := by
  -- The items were fetched for the orders already when their own rows are asked for.
  let p := (exchange.rows "Orders" {}).2
  let q := (exchange.prepare (exchange.lookupsFor "Items") p).2
  have hprepared : exchange.prepare (exchange.lookupsFor "Items") p = (.ok (), q) :=
    Prod.ext (by decide +kernel) rfl
  have hfetched : p.store.rows? "Items" = some (items.rowsOf itemRows) := by decide +kernel
  have hevaluating : exchange.Evaluating items lastItem q :=
    ⟨.rows "Orders" .start, rfl, hfetched, by decide +kernel, hprepared⟩
  obtain ⟨reply, _, hunique, hlookup⟩ := lookup_of_evaluating hevaluating
    (t := exchange.definition.tablixes[1]) (e := orderedName) (by decide) rfl (by decide) (.refl _)
    (rfl : exchange.definition.dataset? "Items" = some items) rfl rfl
  have hreply : itemRows = reply := hunique itemRows
    ⟨⟨⟨"S", ""⟩, "Items", ⟨"items", ∅⟩⟩, rfl, [⟨⟨"S", ""⟩, "Orders", ⟨"orders", ∅⟩⟩], [], by decide +kernel, rfl⟩
  subst hreply
  have hkey : (exchange.scopeOf q.store items lastItem).eval
      (.lookup (.field (some "Items") "Id") "Orders" "Item" "Item") = .ok (.number (.ofNat 7)) := by decide +kernel
  refine ⟨q, hevaluating, ?_⟩
  rw [orderedName, (hlookup _ hkey).2 rfl]
  decide +kernel

end Session
end TabularReport
