import TabularReport.Proofs.Session.Snapshot

set_option autoImplicit false

namespace TabularReport.Session

theorem prepare_of_prepared {s : Session} {ls : List LookupSite} {p : Progress} (h : s.Prepared p.store ls) :
    s.prepare ls p = (.ok (), p) := by
  induction ls with
  | nil => rfl
  | cons l ls ih =>
    have hls : s.Prepared p.store ls := fun k hk => h k (List.mem_cons_of_mem l hk)
    obtain ⟨_, h'⟩ | ⟨hi, dataset, hd, _⟩ := s.prepare_cons_cases l ls p
    · rw [h', ih hls]
    · have hl := h l List.mem_cons_self (by simp [Definition.declaresDataset, hd])
      rw [hi] at hl
      contradiction

/-- The rows of a dataset if nothing is kept: those of the reply to its request. -/
def source (s : Session) (reply : Request → Except String (List Row)) (dataset : DataSet) :
    Except ReportError (List DataRow) := do
  match reply (← s.request dataset) with
  | .error reason => throw (.queryFailed dataset.name reason)
  | .ok rows => return dataset.rowsOf rows

def preparation (s : Session) (reply : Request → Except String (List Row)) : List LookupSite →
    Except ReportError Unit
  | [] => .ok ()
  | l :: ls =>
    match s.definition.dataset? l.source with
    | none => s.preparation reply ls
    | some dataset => s.source reply dataset >>= fun _ => s.preparation reply ls

/-- The rows of a dataset, evaluated whether or not they are there already. -/
def evaluation (s : Session) (name : String) (p : Progress) : Except ReportError (List DataRow) :=
  match s.definition.dataset? name with
  | none => .error (.unknownDataset name)
  | some dataset =>
    match s.fetch dataset p with
    | (.error e, _) => .error e
    | (.ok (), p) => (s.evalRows dataset p).1

section

variable {s : Session} {reply : Request → Except String (List Row)} (hs : s.runner = fun _ => reply)
include hs

theorem Consistent.source_eq {p : Progress} {dataset : DataSet} {rows : List DataRow} (h : s.Consistent p)
    (hd : s.definition.dataset? dataset.name = some dataset)
    (hrows : p.store.rows? dataset.name = some rows) : s.source reply dataset = .ok rows := by
  obtain ⟨dataset', r, rs, hd', ha, ⟨earlier, later, _, hr⟩, rfl⟩ := h.fetched hrows
  rw [hd, Option.some.injEq] at hd'
  subst hd'
  rw [hs] at hr
  simp only [source, ha, bind, Except.bind, hr]
  rfl

theorem fetch_fst {p : Progress} {dataset : DataSet} (h : s.Consistent p)
    (hd : s.definition.dataset? dataset.name = some dataset) :
    (s.fetch dataset p).1 = (s.source reply dataset).map fun _ => () := by
  obtain ⟨rows, hf, h'⟩ | ⟨_, ⟨e, ha, h'⟩ | ⟨request, reason, ha, hr, h'⟩ | ⟨request, rs, ha, hr, h'⟩⟩ :=
    s.fetch_cases dataset p
  · rw [h', h.source_eq hs hd hf]
    rfl
  · rw [h']
    simp only [source, ha]
    rfl
  · rw [hs] at hr
    rw [h']
    simp only [source, ha, bind, Except.bind, hr]
    rfl
  · rw [hs] at hr
    rw [h']
    simp only [source, ha, bind, Except.bind, hr]
    rfl

theorem prepare_fst {p : Progress} (ls : List LookupSite) (h : s.Consistent p) :
    (s.prepare ls p).1 = s.preparation reply ls := by
  induction ls generalizing p with
  | nil => rfl
  | cons l ls ih =>
    obtain ⟨hl, h'⟩ | ⟨_, dataset, hd, ⟨e, q, hf, h'⟩ | ⟨q, store, hf, hi, hstore, h'⟩⟩ :=
      s.prepare_cons_cases l ls p
    · rw [h', ih h]
      rcases hl with hl | hl
      · -- The index shows that the source was fetched, so the source has no error either.
        obtain ⟨rows, hrows, _⟩ := h.upToDate.exists_of_isIndexed hl
        obtain ⟨dataset, _, _, hd, _⟩ := h.fetched hrows
        rw [← Definition.name_of_dataset? hd] at hrows
        have hsource := h.source_eq hs (Definition.dataset?_name hd) hrows
        simp [preparation, hd, hsource, bind, Except.bind]
      · simp [preparation, hl]
    · have hfst := fetch_fst hs h (Definition.dataset?_name hd)
      rw [hf] at hfst
      cases hsource : s.source reply dataset with
      | error e' =>
        rw [hsource] at hfst
        cases hfst
        simp [h', preparation, hd, hsource, bind, Except.bind]
      | ok rows =>
        rw [hsource] at hfst
        contradiction
    · have hfst := fetch_fst hs h (Definition.dataset?_name hd)
      have hq := h.of_fetch (Definition.dataset?_name hd) hf
      rw [hf] at hfst
      rw [h', ih (Step.consistent (.indexed hi hstore) hq)]
      cases hsource : s.source reply dataset with
      | error e' =>
        rw [hsource] at hfst
        contradiction
      | ok rows => simp [preparation, hd, hsource, bind, Except.bind]

theorem Consistent.rows?_eq {p q : Progress} {name : String} {rows rows' : List DataRow}
    (hp : s.Consistent p) (hq : s.Consistent q) (h : p.store.rows? name = some rows)
    (h' : q.store.rows? name = some rows') : rows = rows' := by
  obtain ⟨dataset, _, _, hd, _⟩ := hp.fetched h
  rw [← Definition.name_of_dataset? hd] at h h'
  have hsource := hp.source_eq hs (Definition.dataset?_name hd) h
  rw [hq.source_eq hs (Definition.dataset?_name hd) h'] at hsource
  cases hsource
  rfl

theorem Consistent.find?_eq {p q : Progress} {name keyField : String} (hp : s.Consistent p)
    (hq : s.Consistent q) (h : p.store.isIndexed name keyField = true)
    (h' : q.store.isIndexed name keyField = true) (key : Scalar) :
    p.store.find? name keyField key = q.store.find? name keyField key := by
  obtain ⟨rows, hrows, hindex⟩ := hp.upToDate.exists_of_isIndexed h
  obtain ⟨rows', hrows', hindex'⟩ := hq.upToDate.exists_of_isIndexed h'
  have hsame := hp.rows?_eq hs hq hrows hrows'
  subst hsame
  rw [Store.find?_eq_some hindex hrows, Store.find?_eq_some hindex' hrows']

theorem Consistent.evalRow_eq {p q : Progress} {dataset : DataSet} (hp : s.Consistent p)
    (hq : s.Consistent q) (h : s.Prepared p.store (s.lookupsFor dataset.name))
    (h' : s.Prepared q.store (s.lookupsFor dataset.name)) (row : DataRow) :
    s.evalRow p.store dataset (s.columnsFor dataset.name) row =
      s.evalRow q.store dataset (s.columnsFor dataset.name) row := by
  refine evalRow_congr fun l hl hdeclared key => ?_
  exact hp.find?_eq hs hq (h l hl hdeclared) (h' l hl hdeclared) key

theorem evalRows_fst {p q : Progress} {dataset : DataSet} {fetched : List DataRow} (hp : s.Consistent p)
    (hq : s.Consistent q) (h : p.store.rows? dataset.name = some fetched)
    (h' : q.store.rows? dataset.name = some fetched) :
    (s.evalRows dataset p).1 = (s.evalRows dataset q).1 := by
  have hprepare : (s.prepare (s.lookupsFor dataset.name) p).1 = (s.prepare (s.lookupsFor dataset.name) q).1 := by
    rw [prepare_fst hs _ hp, prepare_fst hs _ hq]
  obtain ⟨outcome, p', hp'⟩ : ∃ outcome p', s.prepare (s.lookupsFor dataset.name) p = (outcome, p') := ⟨_, _, rfl⟩
  obtain ⟨outcome', q', hq'⟩ : ∃ outcome q', s.prepare (s.lookupsFor dataset.name) q = (outcome, q') := ⟨_, _, rfl⟩
  rw [hp', hq'] at hprepare
  cases hprepare
  cases fetched with
  | nil => simp [evalRows, h, h']
  | cons row rows =>
    cases outcome with
    | error e => simp [evalRows, h, h', hp', hq']
    | ok _ =>
      have hcells : ∀ r ∈ row :: rows, s.evalRow p'.store dataset (s.columnsFor dataset.name) r =
          s.evalRow q'.store dataset (s.columnsFor dataset.name) r := fun r _ =>
        (hp.of_prepare hp').evalRow_eq hs (hq.of_prepare hq') (prepared_of_prepare hp') (prepared_of_prepare hq') r
      simp only [evalRows, h, h', hp', hq', Option.getD_some, mapM_congr hcells]

theorem evaluation_eq {p q : Progress} (hp : s.Consistent p) (hq : s.Consistent q) (name : String) :
    s.evaluation name p = s.evaluation name q := by
  cases hd : s.definition.dataset? name with
  | none => simp [evaluation, hd]
  | some dataset =>
    have hfetch : (s.fetch dataset p).1 = (s.fetch dataset q).1 := by
      rw [fetch_fst hs hp (Definition.dataset?_name hd), fetch_fst hs hq (Definition.dataset?_name hd)]
    obtain ⟨outcome, p', hp'⟩ : ∃ outcome p', s.fetch dataset p = (outcome, p') := ⟨_, _, rfl⟩
    obtain ⟨outcome', q', hq'⟩ : ∃ outcome q', s.fetch dataset q = (outcome, q') := ⟨_, _, rfl⟩
    have hp'' := hp.of_fetch (Definition.dataset?_name hd) hp'
    have hq'' := hq.of_fetch (Definition.dataset?_name hd) hq'
    rw [hp', hq'] at hfetch
    cases hfetch
    cases outcome with
    | error e => simp [evaluation, hd, hp', hq']
    | ok _ =>
      obtain ⟨rows, hrows⟩ := rows?_of_fetch hp'
      obtain ⟨rows', hrows'⟩ := rows?_of_fetch hq'
      have hsame := hp''.rows?_eq hs hq'' hrows hrows'
      subst hsame
      simp only [evaluation, hd, hp', hq']
      exact evalRows_fst hs hp'' hq'' hrows hrows'

end

theorem EvaluatedAs.evaluation_eq {s : Session} {p : Progress} {name : String} {rows : List DataRow}
    (h : s.EvaluatedAs p.store name rows) : s.evaluation name p = .ok rows := by
  obtain ⟨dataset, fetched, hd, hrows, hprepared, hcells⟩ := h
  have hname := Definition.name_of_dataset? hd
  rw [← hname] at hrows hprepared hcells
  have hfetch : s.fetch dataset p = (.ok (), p) := by simp [fetch, hrows]
  simp only [evaluation, hd, hfetch]
  obtain ⟨rfl, he⟩ | ⟨hne, hprepare⟩ := s.evalRows_cases hrows
  · rw [he]
    exact hcells
  · rw [prepare_of_prepared (hprepared hne)] at hprepare
    obtain ⟨e, q, hp, _⟩ | ⟨q, hp, he⟩ := hprepare
    · cases hp
    · cases hp
      rw [he]
      exact hcells

theorem Consistent.rows_fst {s : Session} {p : Progress} (h : s.Consistent p) (name : String) :
    (s.rows name p).1 = s.evaluation name p := by
  obtain ⟨rows, hv, hr⟩ | ⟨_, ⟨hd, hr⟩ | ⟨dataset, hd, ⟨e, q, hf, hr⟩ | ⟨fetched, q, hf, hq, hr⟩⟩⟩ :=
    s.rows_cases name p
  · rw [hr, (h.evaluated hv).evaluation_eq]
  · rw [hr]
    simp [evaluation, hd]
  · rw [hr]
    simp [evaluation, hd, hf]
  · obtain ⟨e, q', he, hr⟩ | ⟨rows, q', he, hr⟩ := hr <;> rw [hr] <;> simp [evaluation, hd, hf, he]

/-- What a session keeps cannot be seen.  With a runner whose reply depends on the request alone, rows are
the same, and errors are the same, after any calls as in a session of their own. -/
theorem rows_after_eq_rows {d : Definition} {settings : Settings}
    {reply : Request → Except String (List Row)} {supplied : ParameterValues} {s : Session}
    (hs : Session.start d settings (fun _ => reply) supplied = .ok s) (calls : List String) (name : String) :
    (s.rows name (s.after calls {})).1 = (d.rows settings (fun _ => reply) supplied name).1 := by
  obtain ⟨rfl, _, hrunner, _⟩ := parts_of_start hs
  have hafter := (Moment.after .start calls : s.Moment _).consistent
  -- Both sides are evaluations, one on what is there after the calls and one on nothing.
  rw [hafter.rows_fst, evaluation_eq hrunner hafter s.consistent_empty, ← s.consistent_empty.rows_fst]
  unfold Definition.rows
  split
  · rw [hs]
  · rename_i hdeclared
    have hd : s.definition.dataset? name = none := by simpa [Definition.declaresDataset] using hdeclared
    rw [s.consistent_empty.rows_fst]
    simp [evaluation, hd]

def orders : Definition where
  sources := [⟨"S", ""⟩]
  datasets := [⟨"Orders", "S", "select Item", [], [⟨"Item", "Item", ""⟩]⟩,
    ⟨"Items", "S", "select Id, Name", [], [⟨"Id", "Id", ""⟩, ⟨"Name", "Name", ""⟩]⟩]
  tablixes := [⟨"T", "Orders", [⟨"Name", "1in", "", {},
    .lookup (.field (some "Orders") "Item") "Items" "Id" "Name", {}, .text, none, .text, none⟩]⟩]

def ordersReply (r : Request) : Except String (List Row) :=
  if r.dataset = "Orders" then .ok [.ofList [("Item", .text "i")]]
  else .ok [.ofList [("Id", .text "i"), ("Name", .text "ink")]]

theorem rows_after_orders :
    Session.start orders {} (fun _ => ordersReply) ∅ = .ok ⟨orders, {}, ∅, fun _ => ordersReply⟩ ∧
      ∀ calls, (Session.rows ⟨orders, {}, ∅, fun _ => ordersReply⟩ "Orders"
          (Session.after ⟨orders, {}, ∅, fun _ => ordersReply⟩ calls {})).1 =
        .ok [{ ordinal := 1, fields := .ofList [("Item", .text "i")]
               cells := .ofList [("Name", { value := .text "ink" })] }] := by
  have hstart : Session.start orders {} (fun _ => ordersReply) ∅ =
      .ok ⟨orders, {}, ∅, fun _ => ordersReply⟩ := rfl
  refine ⟨hstart, fun calls => ?_⟩
  rw [rows_after_eq_rows hstart calls "Orders"]
  decide +kernel

end TabularReport.Session
