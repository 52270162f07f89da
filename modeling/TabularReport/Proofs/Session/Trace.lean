import TabularReport.Proofs.Session.Snapshot

set_option autoImplicit false

namespace TabularReport

/-- The declared datasets other than `name` that the columns bound to `name` search, each once, in the order
of its first place: over the tables bound to `name` and their columns, in a column over its value, its sort
expression and the bindings of its link, in an expression over its nodes, parents first. -/
def Definition.searchedFrom (d : Definition) (name : String) : List String :=
  (((d.tablixes.filter (·.dataset = name)).flatMap fun t => t.columns.flatMap fun column =>
    (column.value :: (column.sort.toList ++ column.drillthrough.toList.flatMap fun link =>
      link.parameters.map (·.value))).flatMap fun e => e.lookups.map (·.source)).filter fun n =>
        n ≠ name && d.declaresDataset n).eraseDups

namespace Session

variable {s : Session}

/-- Whether this is the request for a dataset: to its declared source, with the text and the values that the
markers in its command have under the values of its parameters. -/
inductive RequestFor (s : Session) (name : String) : Request → Prop
  | intro {dataset : DataSet} {source : DataSource} {bindings : ParameterValues} {command : Command}
      (declared : s.definition.dataset? name = some dataset)
      (connected : s.definition.source? dataset.sourceName = some source)
      (bound : dataset.bindings s.definition s.parameters = .ok bindings)
      (rewritten : Command.ofText s.settings.placeholderStyle bindings dataset.command = .ok command) :
      RequestFor s name ⟨source, name, command⟩

theorem requestFor_iff {name : String} {dataset : DataSet} {r : Request}
    (hd : s.definition.dataset? name = some dataset) : s.RequestFor name r ↔ s.request dataset = .ok r := by
  have hname := Definition.name_of_dataset? hd
  constructor
  · rintro ⟨declared, connected, bound, rewritten⟩
    cases hd.symm.trans declared
    simp only [request, connected, DataSet.commandFor, bound, bind, Except.bind, rewritten, hname]
    rfl
  · intro h
    unfold request at h
    split at h
    · contradiction
    · rename_i source hsource
      obtain ⟨command, hcommand, h⟩ := bind_eq_ok.1 h
      obtain ⟨bindings, hbindings, hcommand⟩ := bind_eq_ok.1 hcommand
      cases h
      rw [hname]
      exact ⟨hd, hsource, hbindings, hcommand⟩

theorem RequestFor.exists_dataset {name : String} {r : Request} (h : s.RequestFor name r) :
    ∃ dataset, s.definition.dataset? name = some dataset := by
  obtain ⟨declared, _, _, _⟩ := h
  exact ⟨_, declared⟩

def pending (s : Session) (store : Store) (ls : List LookupSite) : List String :=
  ((ls.map (·.source)).filter fun n => s.definition.declaresDataset n && (store.rows? n).isNone).eraseDups

theorem pending_cons_of_fetched {store : Store} {l : LookupSite} {ls : List LookupSite}
    (h : s.definition.dataset? l.source = none ∨ (store.rows? l.source).isSome) :
    s.pending store (l :: ls) = s.pending store ls := by
  have hskip : (s.definition.declaresDataset l.source && (store.rows? l.source).isNone) = false := by
    rcases h with h | h
    · simp [Definition.declaresDataset, h]
    · obtain ⟨rows, hrows⟩ := Option.isSome_iff_exists.1 h
      simp [hrows]
  simp only [pending, List.map_cons, List.filter_cons, hskip, Bool.false_eq_true, if_false]

theorem pending_cons_of_unfetched {store : Store} {l : LookupSite} {dataset : DataSet} (ls : List LookupSite)
    (hd : s.definition.dataset? l.source = some dataset) (h : store.rows? l.source = none)
    (rows : List DataRow) :
    s.pending store (l :: ls) = l.source :: s.pending (store.putRows l.source rows) ls := by
  have htake : (s.definition.declaresDataset l.source && (store.rows? l.source).isNone) = true := by
    simp [Definition.declaresDataset, hd, h]
  rw [pending, List.map_cons, List.filter_cons, if_pos htake, List.eraseDups_cons, List.filter_filter, pending]
  -- What is left out as a repetition of the source is what is fetched from now on.
  congr 2
  refine List.filter_congr fun n _ => ?_
  by_cases hn : n = l.source <;> simp [hn]

theorem pending_withIndex? {store store' : Store} {dataset keyField : String}
    (h : store.withIndex? dataset keyField = some store') (ls : List LookupSite) :
    s.pending store' ls = s.pending store ls := by
  obtain ⟨rows, _, rfl⟩ := Store.withIndex?_eq_some.1 h
  rfl

/-- Nothing but the dataset itself is fetched when its lookups are prepared first. -/
theorem pending_first (name : String) (rows : List DataRow) :
    s.pending (({} : Store).putRows name rows) (s.lookupsFor name) = s.definition.searchedFrom name := by
  simp only [pending, Definition.searchedFrom, lookupsFor, Definition.tablixesOn, Tablix.expressions,
    Column.expressions_eq, List.map_flatMap, List.flatMap_assoc]
  congr 1
  refine List.filter_congr fun n _ => ?_
  by_cases hn : n = name <;> simp [hn]

theorem requests_rows_of_fetch {dataset : DataSet} {p q : Progress}
    (hd : s.definition.dataset? dataset.name = some dataset) (hv : p.store.evaluated? dataset.name = none)
    (hf : s.fetch dataset p = (.ok (), q)) :
    (s.rows dataset.name p).2.requests = (s.evalRows dataset q).2.requests := by
  simp only [rows, hv, hd, hf]
  cases s.evalRows dataset q with
  | mk outcome q' => cases outcome <;> rfl

section

variable (hrunner : ∀ log r, ∃ reply, s.runner log r = .ok reply)
include hrunner

theorem fetch_of_runner {name : String} {dataset : DataSet} {r : Request} (p : Progress)
    (hd : s.definition.dataset? name = some dataset) (hr : s.RequestFor name r) :
    (∃ rows, p.store.rows? name = some rows ∧ s.fetch dataset p = (.ok (), p)) ∨
    (p.store.rows? name = none ∧ ∃ reply, s.runner p.requests r = .ok reply ∧ s.fetch dataset p =
      (.ok (), { store := p.store.putRows name (dataset.rowsOf reply), requests := p.requests ++ [r] })) := by
  have hname := Definition.name_of_dataset? hd
  have hrequest := (requestFor_iff hd).1 hr
  obtain ⟨rows, hf, h⟩ | ⟨hf, ⟨e, ha, _⟩ | ⟨request, reason, _, hreply, _⟩ | ⟨request, reply, ha, hreply, h⟩⟩ :=
    s.fetch_cases dataset p
  · rw [hname] at hf
    exact .inl ⟨rows, hf, h⟩
  · rw [hrequest] at ha
    contradiction
  · obtain ⟨reply, hreply'⟩ := hrunner p.requests request
    rw [hreply] at hreply'
    contradiction
  · rw [hrequest] at ha
    cases ha
    rw [hname] at hf h
    exact .inr ⟨hf, reply, hreply, h⟩

theorem fetch_source {l : LookupSite} {ls : List LookupSite} {dataset : DataSet} (p : Progress)
    (hd : s.definition.dataset? l.source = some dataset)
    (hsources : ∀ n ∈ s.pending p.store (l :: ls), ∃ r, s.RequestFor n r) :
    ∃ names rs q, s.fetch dataset p = (.ok (), q) ∧ s.pending p.store (l :: ls) = names ++ s.pending q.store ls ∧
      List.Forall₂ s.RequestFor names rs ∧ q.requests = p.requests ++ rs := by
  cases hrows : p.store.rows? l.source with
  | some rows =>
    refine ⟨[], [], p, by simp [fetch, Definition.name_of_dataset? hd, hrows], ?_, .nil, by simp⟩
    exact pending_cons_of_fetched (.inr (by rw [hrows]; rfl))
  | none =>
    have hpending := pending_cons_of_unfetched ls hd hrows
    obtain ⟨r, hr⟩ := hsources l.source (by rw [hpending []]; exact List.mem_cons_self)
    obtain ⟨_, hrows', _⟩ | ⟨_, reply, _, hf⟩ := fetch_of_runner hrunner p hd hr
    · rw [hrows] at hrows'
      contradiction
    · exact ⟨[l.source], [r], _, hf, hpending _, .cons hr .nil, rfl⟩

theorem prepare_step {l : LookupSite} {ls : List LookupSite} {p : Progress} (hp : s.Consistent p)
    (hsources : ∀ n ∈ s.pending p.store (l :: ls), ∃ r, s.RequestFor n r) :
    ∃ names rs q, s.Consistent q ∧ s.prepare (l :: ls) p = s.prepare ls q ∧
      s.pending p.store (l :: ls) = names ++ s.pending q.store ls ∧
      List.Forall₂ s.RequestFor names rs ∧ q.requests = p.requests ++ rs := by
  obtain ⟨hl, h⟩ | ⟨_, dataset, hd, hprepare⟩ := s.prepare_cons_cases l ls p
  · refine ⟨[], [], p, hp, h, pending_cons_of_fetched (hl.symm.imp_right fun hi => ?_), .nil, by simp⟩
    obtain ⟨rows, hrows, _⟩ := hp.upToDate.exists_of_isIndexed hi
    rw [hrows]
    rfl
  · obtain ⟨names, rs, q, hf, hpending, hrs, hrequests⟩ := fetch_source hrunner p hd hsources
    obtain ⟨e, q', hf', _⟩ | ⟨q', store, hf', hi, hstore, h⟩ := hprepare <;> rw [hf] at hf' <;> cases hf'
    have hq := hp.of_fetch (Definition.dataset?_name hd) hf
    refine ⟨names, rs, { q with store }, Step.consistent (.indexed hi hstore) hq, h, ?_, hrs, hrequests⟩
    rw [hpending, pending_withIndex? hstore]

theorem requests_prepare {ls : List LookupSite} {p : Progress} (hp : s.Consistent p)
    (hsources : ∀ n ∈ s.pending p.store ls, ∃ r, s.RequestFor n r) :
    ∃ rs, List.Forall₂ s.RequestFor (s.pending p.store ls) rs ∧
      (s.prepare ls p).2.requests = p.requests ++ rs := by
  induction ls generalizing p with
  | nil => exact ⟨[], .nil, by simp [prepare]⟩
  | cons l ls ih =>
    obtain ⟨names, rs, q, hq, h, hpending, hrs, hrequests⟩ := prepare_step hrunner hp hsources
    rw [hpending] at hsources
    obtain ⟨rs', hrs', hrequests'⟩ := ih hq fun n hn => hsources n (List.mem_append_right names hn)
    refine ⟨rs ++ rs', ?_, ?_⟩
    · rw [hpending]
      exact List.rel_append hrs hrs'
    · rw [h, hrequests', hrequests, List.append_assoc]

/-- Evaluating the rows of a fetched dataset makes requests only if there are rows: those of preparing its
lookups. -/
theorem requests_evalRows {dataset : DataSet} {p : Progress} {fetched : List DataRow} (hp : s.Consistent p)
    (hf : p.store.rows? dataset.name = some fetched)
    (hsources : fetched ≠ [] → ∀ n ∈ s.pending p.store (s.lookupsFor dataset.name), ∃ r, s.RequestFor n r) :
    ∃ rs, List.Forall₂ s.RequestFor
        (if fetched = [] then [] else s.pending p.store (s.lookupsFor dataset.name)) rs ∧
      (s.evalRows dataset p).2.requests = p.requests ++ rs := by
  obtain ⟨rfl, h⟩ | ⟨hne, hprepare⟩ := s.evalRows_cases hf
  · exact ⟨[], .nil, by rw [h, List.append_nil]⟩
  · obtain ⟨rs, hrs, hrequests⟩ := requests_prepare hrunner hp (hsources hne)
    refine ⟨rs, by rwa [if_neg hne], ?_⟩
    obtain ⟨e, q, hq, h⟩ | ⟨q, hq, h⟩ := hprepare <;> rw [hq] at hrequests <;> rw [h] <;> exact hrequests

end

/-- The exact requests.  The first call for the rows of a dataset in a fresh session whose runner succeeds makes
the request for the dataset, and if the reply has rows the requests for the declared datasets that its columns
search, each once and in the order of their first places.  It makes them whatever comes of the cells. -/
theorem requests_of_rows {name : String} {first : Request} {reply : List Row}
    (hrunner : ∀ log r, ∃ reply, s.runner log r = .ok reply) (hfirst : s.RequestFor name first)
    (hreply : s.runner [] first = .ok reply)
    (hsources : reply ≠ [] → ∀ n ∈ s.definition.searchedFrom name, ∃ r, s.RequestFor n r) :
    List.Forall₂ s.RequestFor (name :: if reply = [] then [] else s.definition.searchedFrom name)
      (s.rows name {}).2.requests := by
  obtain ⟨dataset, hd⟩ := hfirst.exists_dataset
  obtain rfl := Definition.name_of_dataset? hd
  obtain ⟨_, hrows, _⟩ | ⟨_, reply', hreply', hf⟩ := fetch_of_runner hrunner {} hd hfirst
  · simp at hrows
  obtain rfl : reply = reply' := Except.ok.inj (hreply.symm.trans hreply')
  have hempty : dataset.rowsOf reply = [] ↔ reply = [] := by
    rw [← List.length_eq_zero_iff, dataset.length_rowsOf, List.length_eq_zero_iff]
  obtain ⟨rs, hrs, hrequests⟩ := requests_evalRows hrunner (s.consistent_empty.of_fetch hd hf)
    (Store.rows?_putRows {} dataset.name dataset.name (dataset.rowsOf reply) |>.trans (if_pos rfl)) (by
      rw [pending_first, ne_eq, hempty]
      exact hsources)
  simp only [pending_first, hempty] at hrs
  rw [requests_rows_of_fetch hd rfl hf, hrequests]
  exact .cons hfirst hrs

/-- Orders whose items have a code, whose label is shown.  They are sorted by a search of the orders themselves
and show one in a dataset that is not declared. -/
def labels : Definition where
  sources := [⟨"S", ""⟩]
  datasets := [
    ⟨"Orders", "S", "select @Region", [⟨"region", .literal (.text "north")⟩], [⟨"Item", "Item", ""⟩]⟩,
    ⟨"Items", "S", "items", [], [⟨"Id", "Id", ""⟩, ⟨"Code", "Code", ""⟩]⟩,
    ⟨"Codes", "S", "codes", [], [⟨"Code", "Code", ""⟩, ⟨"Label", "Label", ""⟩]⟩,
    ⟨"Stock", "S", "stock", [], [⟨"Item", "Item", ""⟩]⟩]
  tablixes := [
    ⟨"T", "Orders", [
      ⟨"Label", "1in", "", {}, .lookup (.lookup (.field (some "Orders") "Item") "Items" "Id" "Code") "Codes" "Code"
        "Label", {}, .text, some (.lookup (.field (some "Orders") "Item") "Orders" "Item" "Item"), .text, none⟩,
      ⟨"Broken", "1in", "", {}, .lookup (.field (some "Orders") "Item") "Absent" "Id" "Id", {}, .text, none, .text,
        some ⟨"Item", [⟨"Code", .lookup (.field (some "Orders") "Item") "Items" "Id" "Code"⟩]⟩⟩]⟩,
    ⟨"U", "Items", [⟨"Left", "1in", "", {}, .lookup (.field (some "Items") "Id") "Stock" "Item" "Item", {}, .text,
      none, .text, none⟩]⟩]

def labelling : Session where
  definition := labels
  settings := {}
  parameters := ∅
  runner _ _ := .ok [.ofList [("Item", .text "i")]]

theorem requests_of_labelling :
    (∃ e, (labelling.rows "Orders" {}).1 = .error e) ∧
      List.Forall₂ labelling.RequestFor ["Orders", "Codes", "Items"] (labelling.rows "Orders" {}).2.requests := by
  have hfirst : labelling.RequestFor "Orders"
      ⟨⟨"S", ""⟩, "Orders", ⟨"select :region", .ofList [("region", .text "north")]⟩⟩ :=
    (requestFor_iff rfl).2 (by decide +kernel)
  have hcodes : labelling.RequestFor "Codes" ⟨⟨"S", ""⟩, "Codes", ⟨"codes", ∅⟩⟩ :=
    (requestFor_iff rfl).2 (by decide +kernel)
  have hitems : labelling.RequestFor "Items" ⟨⟨"S", ""⟩, "Items", ⟨"items", ∅⟩⟩ :=
    (requestFor_iff rfl).2 (by decide +kernel)
  have hsearched : labelling.definition.searchedFrom "Orders" = ["Codes", "Items"] := by decide +kernel
  have hrequests := requests_of_rows (fun _ _ => ⟨_, rfl⟩) hfirst rfl (by
    intro _ n hn
    rw [hsearched] at hn
    rcases List.mem_pair.1 hn with rfl | rfl
    · exact ⟨_, hcodes⟩
    · exact ⟨_, hitems⟩)
  rw [hsearched] at hrequests
  refine ⟨⟨.cell "Orders" 1 "Broken" (.lookup (.field (some "Orders") "Item") "Absent" "Id" "Id")
    (.unknownDataset "Absent"), by decide +kernel⟩, hrequests⟩

end Session
end TabularReport
