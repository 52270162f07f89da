import TabularReport.Proofs.Session.Step
import TabularReport.Proofs.Session.Cells

set_option autoImplicit false

namespace TabularReport

theorem DataSet.length_rowsOf (dataset : DataSet) (reply : List Row) :
    (dataset.rowsOf reply).length = reply.length := by
  rw [rowsOf, DataRow.numbered, List.length_mapIdx, List.length_map]

theorem DataSet.getElem?_rowsOf (dataset : DataSet) (reply : List Row) (i : Nat) :
    (dataset.rowsOf reply)[i]? =
      (reply[i]?).map fun row => { ordinal := i + 1, fields := dataset.fieldsOf row } := by
  simp [rowsOf, DataRow.numbered, Option.map_map, Function.comp_def]

namespace Session

theorem dataset_of_request {s : Session} {dataset : DataSet} {r : Request} (h : s.request dataset = .ok r) :
    r.dataset = dataset.name := by
  unfold request at h
  split at h
  · contradiction
  · obtain ⟨command, _, h⟩ := bind_eq_ok.1 h
    cases h
    rfl

/-- Whether `reply` is the successful reply to a request of the log. -/
def Answered (s : Session) (log : List Request) (r : Request) (reply : List Row) : Prop :=
  ∃ earlier later, log = earlier ++ r :: later ∧ s.runner earlier r = .ok reply

theorem append_singleton_split {α : Type} {log earlier later : List α} {a r : α}
    (h : log ++ [a] = earlier ++ r :: later) :
    (later = [] ∧ log = earlier ∧ a = r) ∨ ∃ later', later = later' ++ [a] ∧ log = earlier ++ r :: later' := by
  obtain ⟨mid, rfl, hmid⟩ | ⟨mid, rfl, hmid⟩ := List.append_eq_append_iff.1 h
  · obtain ⟨rfl, hlast⟩ | ⟨_, hnil⟩ := List.append_eq_singleton_iff.1 hmid.symm
    · cases hlast
      exact .inl ⟨rfl, by simp, rfl⟩
    · simp at hnil
  · cases mid with
    | nil =>
      cases hmid
      exact .inl ⟨rfl, by simp, rfl⟩
    | cons b later' =>
      cases hmid
      exact .inr ⟨later', rfl, rfl⟩

theorem answered_append_singleton {s : Session} {log : List Request} {a r : Request} {reply : List Row} :
    s.Answered (log ++ [a]) r reply ↔ s.Answered log r reply ∨ (a = r ∧ s.runner log r = .ok reply) := by
  constructor
  · rintro ⟨earlier, later, hlog, hr⟩
    obtain ⟨_, rfl, rfl⟩ | ⟨later', _, hlog⟩ := append_singleton_split hlog
    · exact .inr ⟨rfl, hr⟩
    · exact .inl ⟨earlier, later', hlog, hr⟩
  · rintro (⟨earlier, later, rfl, hr⟩ | ⟨rfl, hr⟩)
    · exact ⟨earlier, later ++ [a], by simp, hr⟩
    · exact ⟨log, [], rfl, hr⟩

/-- Whether these are the fetched rows of a dataset with their cells, evaluated on what the store holds. -/
def EvaluatedAs (s : Session) (store : Store) (name : String) (rows : List DataRow) : Prop :=
  ∃ dataset fetched, s.definition.dataset? name = some dataset ∧ store.rows? name = some fetched ∧
    (fetched ≠ [] → s.Prepared store (s.lookupsFor name)) ∧
    fetched.mapM (s.evalRow store dataset (s.columnsFor name)) = .ok rows

theorem EvaluatedAs.extends {s : Session} {a b : Store} {name : String} {rows : List DataRow}
    (h : s.EvaluatedAs a name rows) (ha : a.UpToDate) (hb : b.Extends a) : s.EvaluatedAs b name rows := by
  obtain ⟨dataset, fetched, hd, hf, hprepared, hcells⟩ := h
  have hname := Definition.name_of_dataset? hd
  refine ⟨dataset, fetched, hd, hb.rows hf, ?_, ?_⟩
  · intro hne l hl hdeclared
    exact hb.isIndexed (hprepared hne l hl hdeclared)
  · rw [← hcells]
    refine mapM_congr fun row hrow => ?_
    rw [← hname]
    refine evalRow_congr fun l hl hdeclared key => ?_
    rw [hname] at hl
    exact hb.find? ha (hprepared (List.ne_nil_of_mem hrow) l hl hdeclared) key

structure Consistent (s : Session) (p : Progress) : Prop where
  requested : ∀ r ∈ p.requests, ∃ dataset, s.definition.dataset? r.dataset = some dataset ∧
    s.request dataset = .ok r
  fetched : ∀ {name rows}, p.store.rows? name = some rows → ∃ dataset r reply,
    s.definition.dataset? name = some dataset ∧ s.request dataset = .ok r ∧
      s.Answered p.requests r reply ∧ rows = dataset.rowsOf reply
  answered : ∀ {r reply}, s.Answered p.requests r reply → ∃ rows, p.store.rows? r.dataset = some rows
  askedOnce : ∀ {earlier later r reply}, p.requests = earlier ++ r :: later →
    s.runner earlier r = .ok reply → ∀ r' ∈ later, r'.dataset ≠ r.dataset
  upToDate : p.store.UpToDate
  evaluated : ∀ {name rows}, p.store.evaluated? name = some rows → s.EvaluatedAs p.store name rows

theorem consistent_empty (s : Session) : s.Consistent {} := by
  refine ⟨?_, ?_, ?_, ?_, ?_, ?_⟩
  · simp
  · simp
  · rintro r reply ⟨earlier, later, h, _⟩
    simp at h
  · intro earlier later r reply h
    simp at h
  · intro dataset keyField index h
    simp at h
  · simp

theorem Consistent.requests_append {s : Session} {p : Progress} {dataset : DataSet} {request : Request}
    (h : s.Consistent p) (hd : s.definition.dataset? dataset.name = some dataset)
    (hf : p.store.rows? dataset.name = none) (ha : s.request dataset = .ok request) :
    (∀ r ∈ p.requests ++ [request], ∃ dataset, s.definition.dataset? r.dataset = some dataset ∧
      s.request dataset = .ok r) ∧
    (∀ {earlier later r reply}, p.requests ++ [request] = earlier ++ r :: later →
      s.runner earlier r = .ok reply → ∀ r' ∈ later, r'.dataset ≠ r.dataset) := by
  have hname := dataset_of_request ha
  constructor
  · intro r hr
    rcases List.mem_append.1 hr with hr | hr
    · exact h.requested r hr
    · rw [List.mem_singleton.1 hr, hname]
      exact ⟨dataset, hd, ha⟩
  · intro earlier later r reply hlog hreply r' hr'
    obtain ⟨rfl, _, _⟩ | ⟨later', rfl, hold⟩ := append_singleton_split hlog
    · simp at hr'
    · rcases List.mem_append.1 hr' with hr' | hr'
      · exact h.askedOnce hold hreply r' hr'
      · -- An earlier answer would have left its rows.
        obtain ⟨rows, hrows⟩ := h.answered ⟨earlier, later', hold, hreply⟩
        rw [List.mem_singleton.1 hr', hname]
        intro hsame
        rw [← hsame, hf] at hrows
        contradiction

theorem Consistent.fetched_append {s : Session} {p : Progress} {name : String} {rows : List DataRow}
    (h : s.Consistent p) (hrows : p.store.rows? name = some rows) (request : Request) :
    ∃ dataset r reply, s.definition.dataset? name = some dataset ∧ s.request dataset = .ok r ∧
      s.Answered (p.requests ++ [request]) r reply ∧ rows = dataset.rowsOf reply := by
  obtain ⟨dataset, r, reply, hd, ha, hanswered, rfl⟩ := h.fetched hrows
  exact ⟨dataset, r, reply, hd, ha, answered_append_singleton.2 (.inl hanswered), rfl⟩

theorem Step.consistent {s : Session} {p q : Progress} (hstep : s.Step p q) (h : s.Consistent p) :
    s.Consistent q := by
  have hext := hstep.extends
  cases hstep with
  | @refused dataset request reason declared unfetched asked reply =>
    obtain ⟨hrequested, honce⟩ := h.requests_append declared unfetched asked
    refine ⟨hrequested, ?_, ?_, honce, h.upToDate, h.evaluated⟩
    · exact fun hrows => h.fetched_append hrows request
    · intro r rows hanswered
      rcases answered_append_singleton.1 hanswered with hanswered | ⟨rfl, hr⟩
      · exact h.answered hanswered
      · rw [reply] at hr
        contradiction
  | @answered dataset request reply declared unfetched asked hreply =>
    obtain ⟨hrequested, honce⟩ := h.requests_append declared unfetched asked
    refine ⟨hrequested, ?_, ?_, honce, ?_, ?_⟩
    · intro name rows hrows
      by_cases hname : name = dataset.name
      · subst hname
        have hnew : s.Answered (p.requests ++ [request]) request reply :=
          answered_append_singleton.2 (.inr ⟨rfl, hreply⟩)
        exact ⟨dataset, request, reply, declared, asked, hnew, by simpa using hrows.symm⟩
      · exact h.fetched_append (by simpa [hname] using hrows) request
    · intro r rows hanswered
      rcases answered_append_singleton.1 hanswered with hanswered | ⟨rfl, _⟩
      · obtain ⟨rows, hrows⟩ := h.answered hanswered
        exact ⟨rows, hext.rows hrows⟩
      · exact ⟨dataset.rowsOf reply, by simp [dataset_of_request asked]⟩
    · intro name keyField index hindex
      obtain ⟨rows, hrows, rfl⟩ := h.upToDate name keyField index hindex
      exact ⟨rows, hext.rows hrows, rfl⟩
    · intro name rows hrows
      exact (h.evaluated hrows).extends h.upToDate hext
  | @indexed store dataset keyField unindexed index =>
    obtain ⟨fetched, hfetched, rfl⟩ := Store.withIndex?_eq_some.1 index
    refine ⟨h.requested, h.fetched, h.answered, h.askedOnce, ?_, ?_⟩
    · intro name otherField index hindex
      rw [Store.index?_withIndex] at hindex
      split at hindex
      · rename_i hsame
        cases hsame
        cases hindex
        exact ⟨fetched, hfetched, rfl⟩
      · exact h.upToDate name otherField index hindex
    · intro name rows hrows
      exact (h.evaluated hrows).extends h.upToDate hext
  | @evaluated dataset fetched rows declared unevaluated source prepared cells =>
    refine ⟨h.requested, h.fetched, h.answered, h.askedOnce, h.upToDate, ?_⟩
    intro name rows' hrows
    by_cases hname : name = dataset.name
    · subst hname
      have hsame : rows = rows' := by simpa using hrows
      subst hsame
      have hold : s.EvaluatedAs p.store dataset.name rows := ⟨dataset, fetched, declared, source, prepared, cells⟩
      exact hold.extends h.upToDate hext
    · exact (h.evaluated (by simpa [hname] using hrows)).extends h.upToDate hext

theorem Steps.consistent {s : Session} {p q : Progress} (hsteps : s.Steps p q) (h : s.Consistent p) :
    s.Consistent q := by
  induction hsteps with
  | refl => exact h
  | tail _ hstep ih => exact hstep.consistent ih

theorem Consistent.of_fetch {s : Session} {p q : Progress} {dataset : DataSet} {outcome : Except ReportError Unit}
    (h : s.Consistent p) (hd : s.definition.dataset? dataset.name = some dataset)
    (hf : s.fetch dataset p = (outcome, q)) : s.Consistent q := by
  have hq := (s.fetch_steps p hd).consistent h
  rwa [hf] at hq

theorem Consistent.of_prepare {s : Session} {p q : Progress} {ls : List LookupSite}
    {outcome : Except ReportError Unit} (h : s.Consistent p) (hprepare : s.prepare ls p = (outcome, q)) :
    s.Consistent q := by
  have hq := (s.prepare_steps ls p).consistent h
  rwa [hprepare] at hq

/-- A moment of a session, between two calls or within one: what fetching, preparing lookups and asking
for rows lead to, in any order. -/
inductive Moment (s : Session) : Progress → Prop
  | start : Moment s {}
  | fetch {p : Progress} (dataset : DataSet) (declared : s.definition.dataset? dataset.name = some dataset) :
      Moment s p → Moment s (s.fetch dataset p).2
  | prepare {p : Progress} (ls : List LookupSite) : Moment s p → Moment s (s.prepare ls p).2
  | rows {p : Progress} (name : String) : Moment s p → Moment s (s.rows name p).2

theorem Moment.consistent {s : Session} {p : Progress} (h : s.Moment p) : s.Consistent p := by
  induction h with
  | start => exact s.consistent_empty
  | fetch dataset declared _ ih => exact (fetch_steps _ declared).consistent ih
  | prepare ls _ ih => exact (s.prepare_steps ls _).consistent ih
  | rows name _ ih => exact (s.rows_steps name _).consistent ih

theorem Moment.after {s : Session} {p : Progress} (h : s.Moment p) (calls : List String) :
    s.Moment (s.after calls p) := by
  induction calls generalizing p with
  | nil => exact h
  | cons name calls ih => exact ih (h.rows name)

theorem rows_of_evaluated {s : Session} {name : String} {p : Progress} {rows : List DataRow}
    (h : p.store.evaluated? name = some rows) : s.rows name p = (.ok rows, p) := by
  simp [Session.rows, h]

theorem evaluated?_of_rows {s : Session} {name : String} {p : Progress} {rows : List DataRow}
    (h : (s.rows name p).1 = .ok rows) : (s.rows name p).2.store.evaluated? name = some rows := by
  obtain ⟨rows', hv, h'⟩ | ⟨_, ⟨_, h'⟩ | ⟨dataset, _, ⟨e, q, _, h'⟩ | ⟨fetched, q, _, _, hr⟩⟩⟩ :=
    s.rows_cases name p
  · rw [h'] at h ⊢
    cases h
    exact hv
  · rw [h'] at h
    contradiction
  · rw [h'] at h
    contradiction
  · obtain ⟨e, q', _, h'⟩ | ⟨rows', q', _, h'⟩ := hr <;> rw [h'] at h ⊢
    · contradiction
    · cases h
      simp

theorem evaluated_of_rows_error {s : Session} {name : String} {p : Progress} {e : ReportError}
    (h : (s.rows name p).1 = .error e) : (s.rows name p).2.store.evaluated = p.store.evaluated := by
  obtain ⟨rows', _, h'⟩ | ⟨_, ⟨_, h'⟩ | ⟨dataset, _, ⟨e', q, hf, h'⟩ | ⟨fetched, q, hf, hq, hr⟩⟩⟩ :=
    s.rows_cases name p
  · rw [h']
  · rw [h']
  · have hfirst := s.evaluated_fetch dataset p
    rw [hf] at hfirst
    rw [h']
    exact hfirst
  · have hfirst := s.evaluated_fetch dataset p
    have hold := s.evaluated_evalRows dataset hq
    rw [hf] at hfirst
    obtain ⟨e', q', he, h'⟩ | ⟨rows', q', _, h'⟩ := hr
    · rw [he] at hold
      rw [h']
      exact hold.trans hfirst
    · rw [h'] at h
      contradiction

/-- A session is a snapshot.  After a successful reply for a dataset there is no further request for it;
fetched rows are the declared fields of that reply, numbered from 1; indices are those of the fetched
rows; evaluated rows are the fetched rows with the cells that evaluating them again on what is kept now would
give.  Rows that were returned are returned by every later call, with no request, and a call that fails leaves
everything that is kept as it is. -/
theorem snapshot_of_moment {s : Session} {p : Progress} (hp : s.Moment p) :
    (∀ earlier r later reply, p.requests = earlier ++ r :: later → s.runner earlier r = .ok reply →
      ∀ r' ∈ later, r'.dataset ≠ r.dataset) ∧
    (∀ name rows, p.store.rows? name = some rows → ∃ dataset earlier r later reply,
      s.definition.dataset? name = some dataset ∧ p.requests = earlier ++ r :: later ∧ r.dataset = name ∧
        s.runner earlier r = .ok reply ∧
        ∀ i : Nat, rows[i]? = (reply[i]?).map fun row => DataRow.mk (i + 1) (dataset.fieldsOf row) ∅) ∧
    (∀ name keyField index, p.store.index? name keyField = some index →
      ∃ rows, p.store.rows? name = some rows ∧ index = .ofRows keyField rows) ∧
    (∀ name rows, p.store.evaluated? name = some rows → ∃ dataset fetched,
      s.definition.dataset? name = some dataset ∧ p.store.rows? name = some fetched ∧
        rows.map (fun row => (row.ordinal, row.fields)) = fetched.map (fun row => (row.ordinal, row.fields)) ∧
        (fetched ≠ [] → s.Prepared p.store (s.lookupsFor name)) ∧
        fetched.mapM (s.evalRow p.store dataset (s.columnsFor name)) = .ok rows) ∧
    (∀ name rows, (s.rows name p).1 = .ok rows → ∀ calls,
      s.rows name (s.after calls (s.rows name p).2) = (.ok rows, s.after calls (s.rows name p).2)) ∧
    (∀ name e, (s.rows name p).1 = .error e →
      (s.rows name p).2.store.evaluated = p.store.evaluated ∧ (s.rows name p).2.store.Extends p.store) := by
  have h := hp.consistent
  refine ⟨fun _ _ _ _ => h.askedOnce, ?_, h.upToDate, ?_, ?_, ?_⟩
  · intro name rows hrows
    obtain ⟨dataset, r, reply, hd, ha, ⟨earlier, later, hlog, hreply⟩, rfl⟩ := h.fetched hrows
    have hname := (dataset_of_request ha).trans (Definition.name_of_dataset? hd)
    exact ⟨dataset, earlier, r, later, reply, hd, hlog, hname, hreply, dataset.getElem?_rowsOf reply⟩
  · intro name rows hrows
    obtain ⟨dataset, fetched, hd, hf, hprepared, hcells⟩ := h.evaluated hrows
    have hfields := map_mapM_of_forall hcells fun row _ row' hrow => fields_of_evalRow hrow
    exact ⟨dataset, fetched, hd, hf, hfields, hprepared, hcells⟩
  · intro name rows hrows calls
    have hext := (s.after_steps calls (s.rows name p).2).extends
    exact rows_of_evaluated (hext.evaluated (evaluated?_of_rows hrows))
  · intro name e he
    exact ⟨evaluated_of_rows_error he, (s.rows_steps name p).extends⟩

/-- A session whose first request is refused.  The items that it shows have their labels in another dataset. -/
def refusedOnce : Session where
  definition := {
    sources := [⟨"S", ""⟩]
    datasets := [⟨"Items", "S", "items", [], [⟨"Item", "Item", ""⟩]⟩,
      ⟨"Labels", "S", "labels", [], [⟨"Id", "Id", ""⟩, ⟨"Label", "Label", ""⟩]⟩]
    tablixes := [⟨"T", "Items", [⟨"Label", "1in", "", {}, .lookup (.field (some "Items") "Item") "Labels" "Id" "Label",
      {}, .text, none, .text, none⟩]⟩] }
  settings := {}
  parameters := ∅
  runner log r :=
    if log.isEmpty then .error "busy"
    else if r.dataset = "Items" then .ok [.ofList [("Item", .text "i")]]
    else .ok [.ofList [("Id", .text "i"), ("Label", .text "ink")]]

def labelledItem : DataRow :=
  { ordinal := 1, fields := .ofList [("Item", .text "i")], cells := .ofList [("Label", { value := .text "ink" })] }

theorem snapshot_of_refusedOnce :
    let p := refusedOnce.after ["Items", "Items"] {}
    (refusedOnce.rows "Items" {}).1 = .error (.queryFailed "Items" "busy") ∧ refusedOnce.Moment p ∧
      (p.store.index? "Labels" "Id" = some (.ofList [("i", 0)]) ∧
        ∃ rows, p.store.rows? "Labels" = some rows ∧ .ofList [("i", 0)] = KeyIndex.ofRows "Id" rows) ∧
      (p.store.evaluated? "Items" = some [labelledItem] ∧ ∃ dataset fetched,
        p.store.rows? "Items" = some fetched ∧
          fetched.mapM (refusedOnce.evalRow p.store dataset (refusedOnce.columnsFor "Items")) = .ok [labelledItem]) ∧
      ∀ calls, (refusedOnce.rows "Items" (refusedOnce.after calls (refusedOnce.rows "Items" p).2)).1 =
        .ok [labelledItem] := by
  intro p
  have hmoment : refusedOnce.Moment p := Moment.start.after ["Items", "Items"]
  have hindex : p.store.index? "Labels" "Id" = some (.ofList [("i", 0)]) := by decide +kernel
  have hevaluated : p.store.evaluated? "Items" = some [labelledItem] := by decide +kernel
  obtain ⟨_, _, hindices, hcells, hkept, _⟩ := snapshot_of_moment hmoment
  obtain ⟨dataset, fetched, _, hf, _, _, hitem⟩ := hcells "Items" _ hevaluated
  refine ⟨by decide +kernel, hmoment, ⟨hindex, hindices "Labels" "Id" _ hindex⟩,
    ⟨hevaluated, dataset, fetched, hf, hitem⟩, fun calls => ?_⟩
  rw [hkept "Items" _ (by decide +kernel : (refusedOnce.rows "Items" p).1 = .ok [labelledItem]) calls]

end Session
end TabularReport
