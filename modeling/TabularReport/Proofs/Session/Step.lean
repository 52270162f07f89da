import Mathlib.Logic.Relation
import TabularReport.Session.Basic
import TabularReport.Proofs.Outcome
import TabularReport.Proofs.Store
/-!
Sessions step by step.  Whatever a session does is a sequence of four kinds of changes: a request is
refused, a request is answered and the rows are kept, fetched rows are indexed, or rows are kept with
their cells.  No change touches what is kept already.
-/
set_option autoImplicit false

namespace TabularReport

theorem Definition.name_of_dataset? {d : Definition} {name : String} {dataset : DataSet}
    (h : d.dataset? name = some dataset) : dataset.name = name := by
  simpa using List.find?_some h

theorem Definition.dataset?_name {d : Definition} {name : String} {dataset : DataSet}
    (h : d.dataset? name = some dataset) : d.dataset? dataset.name = some dataset := by
  rw [name_of_dataset? h, h]

namespace Session

theorem parts_of_start {d : Definition} {settings : Settings} {runner : Runner} {supplied : ParameterValues}
    {s : Session} (h : start d settings runner supplied = .ok s) :
    s.definition = d ∧ s.settings = settings ∧ s.runner = runner ∧
      d.parameterValues settings supplied = .ok s.parameters := by
  obtain ⟨values, hvalues, h⟩ := bind_eq_ok.1 h
  cases h
  exact ⟨rfl, rfl, rfl, hvalues⟩

/-- Whether all lookups in `ls` that search declared datasets have their indices. -/
def Prepared (s : Session) (store : Store) (ls : List LookupSite) : Prop :=
  ∀ l ∈ ls, s.definition.declaresDataset l.source = true → store.isIndexed l.source l.keyField = true

inductive Step (s : Session) : Progress → Progress → Prop
  | refused {p : Progress} {dataset : DataSet} {request : Request} {reason : String}
      (declared : s.definition.dataset? dataset.name = some dataset)
      (unfetched : p.store.rows? dataset.name = none)
      (asked : s.request dataset = .ok request)
      (reply : s.runner p.requests request = .error reason) :
      Step s p { p with requests := p.requests ++ [request] }
  | answered {p : Progress} {dataset : DataSet} {request : Request} {rows : List Row}
      (declared : s.definition.dataset? dataset.name = some dataset)
      (unfetched : p.store.rows? dataset.name = none)
      (asked : s.request dataset = .ok request)
      (reply : s.runner p.requests request = .ok rows) :
      Step s p
        { store := p.store.putRows dataset.name (dataset.rowsOf rows), requests := p.requests ++ [request] }
  | indexed {p : Progress} {store : Store} {dataset keyField : String}
      (unindexed : p.store.isIndexed dataset keyField = false)
      (index : p.store.withIndex? dataset keyField = some store) :
      Step s p { p with store }
  | evaluated {p : Progress} {dataset : DataSet} {fetched rows : List DataRow}
      (declared : s.definition.dataset? dataset.name = some dataset)
      (unevaluated : p.store.evaluated? dataset.name = none)
      (source : p.store.rows? dataset.name = some fetched)
      (prepared : fetched ≠ [] → s.Prepared p.store (s.lookupsFor dataset.name))
      (cells : fetched.mapM (s.evalRow p.store dataset (s.columnsFor dataset.name)) = .ok rows) :
      Step s p { p with store := p.store.putEvaluated dataset.name rows }

abbrev Steps (s : Session) : Progress → Progress → Prop :=
  Relation.ReflTransGen s.Step

theorem Step.extends {s : Session} {p q : Progress} (h : s.Step p q) : q.store.Extends p.store := by
  cases h with
  | refused => exact .refl _
  | answered _ unfetched => exact Store.extends_putRows unfetched
  | indexed unindexed index => exact Store.extends_withIndex? unindexed index
  | evaluated _ unevaluated => exact Store.extends_putEvaluated unevaluated

theorem Steps.extends {s : Session} {p q : Progress} (h : s.Steps p q) : q.store.Extends p.store := by
  induction h with
  | refl => exact .refl _
  | tail _ h ih => exact h.extends.trans ih

/-- What fetching does: nothing for a dataset that is fetched, and otherwise one request, if there is one. -/
theorem fetch_cases (s : Session) (dataset : DataSet) (p : Progress) :
    (∃ rows, p.store.rows? dataset.name = some rows ∧ s.fetch dataset p = (.ok (), p)) ∨
    (p.store.rows? dataset.name = none ∧
      ((∃ e, s.request dataset = .error e ∧ s.fetch dataset p = (.error e, p)) ∨
       (∃ request reason, s.request dataset = .ok request ∧ s.runner p.requests request = .error reason ∧
          s.fetch dataset p =
            (.error (.queryFailed dataset.name reason), { p with requests := p.requests ++ [request] })) ∨
       (∃ request reply, s.request dataset = .ok request ∧ s.runner p.requests request = .ok reply ∧
          s.fetch dataset p =
            (.ok (), { store := p.store.putRows dataset.name (dataset.rowsOf reply)
                       requests := p.requests ++ [request] })))) := by
  cases hf : p.store.rows? dataset.name with
  | some rows => exact .inl ⟨rows, rfl, by simp [fetch, hf]⟩
  | none =>
    refine .inr ⟨rfl, ?_⟩
    cases ha : s.request dataset with
    | error e => exact .inl ⟨e, rfl, by simp [fetch, hf, ha]⟩
    | ok request =>
      cases hr : s.runner p.requests request with
      | error reason => exact .inr (.inl ⟨request, reason, rfl, hr, by simp [fetch, hf, ha, hr]⟩)
      | ok reply => exact .inr (.inr ⟨request, reply, rfl, hr, by simp [fetch, hf, ha, hr]⟩)

theorem fetch_steps {s : Session} {dataset : DataSet} (p : Progress)
    (hd : s.definition.dataset? dataset.name = some dataset) : s.Steps p (s.fetch dataset p).2 := by
  obtain ⟨rows, _, h⟩ | ⟨hf, ⟨e, _, h⟩ | ⟨request, reason, ha, hr, h⟩ | ⟨request, reply, ha, hr, h⟩⟩ :=
    s.fetch_cases dataset p
  · rw [h]
  · rw [h]
  · rw [h]
    exact .single (.refused hd hf ha hr)
  · rw [h]
    exact .single (.answered hd hf ha hr)

theorem rows?_of_fetch {s : Session} {dataset : DataSet} {p q : Progress}
    (h : s.fetch dataset p = (.ok (), q)) : ∃ rows, q.store.rows? dataset.name = some rows := by
  obtain ⟨rows, hf, h'⟩ | ⟨_, ⟨e, _, h'⟩ | ⟨request, reason, _, _, h'⟩ | ⟨request, reply, _, _, h'⟩⟩ :=
    s.fetch_cases dataset p <;> rw [h'] at h
  · cases h
    exact ⟨rows, hf⟩
  · cases h
  · cases h
  · cases h
    exact ⟨dataset.rowsOf reply, by simp⟩

theorem index?_fetch (s : Session) (dataset : DataSet) (p : Progress) (other keyField : String) :
    (s.fetch dataset p).2.store.index? other keyField = p.store.index? other keyField := by
  obtain ⟨rows, _, h⟩ | ⟨_, ⟨e, _, h⟩ | ⟨request, reason, _, _, h⟩ | ⟨request, reply, _, _, h⟩⟩ :=
    s.fetch_cases dataset p <;> rw [h]
  rfl

theorem evaluated_fetch (s : Session) (dataset : DataSet) (p : Progress) :
    (s.fetch dataset p).2.store.evaluated = p.store.evaluated := by
  obtain ⟨rows, _, h⟩ | ⟨_, ⟨e, _, h⟩ | ⟨request, reason, _, _, h⟩ | ⟨request, reply, _, _, h⟩⟩ :=
    s.fetch_cases dataset p <;> rw [h]
  rfl

/-- What preparing does with the first lookup: it passes it over, or it fetches its source and then either
stops with an error or adds the index. -/
theorem prepare_cons_cases (s : Session) (l : LookupSite) (ls : List LookupSite) (p : Progress) :
    ((p.store.isIndexed l.source l.keyField = true ∨ s.definition.dataset? l.source = none) ∧
      s.prepare (l :: ls) p = s.prepare ls p) ∨
    (p.store.isIndexed l.source l.keyField = false ∧ ∃ dataset, s.definition.dataset? l.source = some dataset ∧
      ((∃ e q, s.fetch dataset p = (.error e, q) ∧ s.prepare (l :: ls) p = (.error e, q)) ∨
       (∃ q store, s.fetch dataset p = (.ok (), q) ∧ q.store.isIndexed l.source l.keyField = false ∧
          q.store.withIndex? l.source l.keyField = some store ∧
          s.prepare (l :: ls) p = s.prepare ls { q with store }))) := by
  by_cases hi : p.store.isIndexed l.source l.keyField = true
  · exact .inl ⟨.inl hi, by simp [prepare, hi]⟩
  cases hd : s.definition.dataset? l.source with
  | none => exact .inl ⟨.inr rfl, by simp [prepare, hi, hd]⟩
  | some dataset =>
    refine .inr ⟨by simpa using hi, dataset, rfl, ?_⟩
    have hname := Definition.name_of_dataset? hd
    cases hf : s.fetch dataset p with
    | mk outcome q =>
      cases outcome with
      | error e => exact .inl ⟨e, q, rfl, by simp [prepare, hi, hd, hf]⟩
      | ok _ =>
        have hq : q.store.isIndexed l.source l.keyField = false := by
          have h := s.index?_fetch dataset p l.source l.keyField
          rw [hf] at h
          simpa [Store.isIndexed, h] using hi
        obtain ⟨rows, hr⟩ := rows?_of_fetch hf
        rw [hname] at hr
        have hstore : ∃ store, q.store.withIndex? l.source l.keyField = some store :=
          ⟨_, Store.withIndex?_eq_some.2 ⟨rows, hr, rfl⟩⟩
        obtain ⟨store, hs⟩ := hstore
        exact .inr ⟨q, store, rfl, hq, hs, by simp [prepare, hi, hd, hf, hs]⟩

theorem prepare_steps (s : Session) (ls : List LookupSite) (p : Progress) : s.Steps p (s.prepare ls p).2 := by
  induction ls generalizing p with
  | nil => exact .refl
  | cons l ls ih =>
    obtain ⟨_, h⟩ | ⟨_, dataset, hd, ⟨e, q, hf, h⟩ | ⟨q, store, hf, hi, hs, h⟩⟩ := s.prepare_cons_cases l ls p
    · rw [h]
      exact ih p
    · have hsteps := s.fetch_steps p (Definition.dataset?_name hd)
      rw [h]
      rwa [hf] at hsteps
    · have hsteps := s.fetch_steps p (Definition.dataset?_name hd)
      rw [hf] at hsteps
      rw [h]
      exact (hsteps.tail (.indexed hi hs)).trans (ih _)

theorem prepared_of_prepare {s : Session} {ls : List LookupSite} {p q : Progress}
    (h : s.prepare ls p = (.ok (), q)) : s.Prepared q.store ls := by
  induction ls generalizing p with
  | nil => simp [Prepared]
  | cons l ls ih =>
    have hsteps := s.prepare_steps ls
    obtain ⟨hl, h'⟩ | ⟨_, dataset, hd, ⟨e, q', hf, h'⟩ | ⟨q', store, hf, hi, hs, h'⟩⟩ :=
      s.prepare_cons_cases l ls p <;> rw [h'] at h
    · intro k hk hdeclared
      rcases List.mem_cons.1 hk with rfl | hk
      · -- What is indexed stays indexed, since preparing only adds to the store.
        have hext := (hsteps p).extends
        rw [h] at hext
        rcases hl with hl | hl
        · exact hext.isIndexed hl
        · simp [Definition.declaresDataset, hl] at hdeclared
      · exact ih h k hk hdeclared
    · cases h
    · intro k hk hdeclared
      rcases List.mem_cons.1 hk with rfl | hk
      · have hext := (hsteps { q' with store }).extends
        rw [h] at hext
        obtain ⟨rows, _, rfl⟩ := Store.withIndex?_eq_some.1 hs
        refine hext.isIndexed ?_
        simp [Store.isIndexed, Store.index?_withIndex]
      · exact ih h k hk hdeclared

/-- What evaluating the rows of a fetched dataset does: nothing without rows, and otherwise it prepares
the lookups, which may fail, before it evaluates row after row. -/
theorem evalRows_cases {s : Session} {dataset : DataSet} {p : Progress} {fetched : List DataRow}
    (hf : p.store.rows? dataset.name = some fetched) :
    (fetched = [] ∧ s.evalRows dataset p = (.ok [], p)) ∨
    (fetched ≠ [] ∧
      ((∃ e q, s.prepare (s.lookupsFor dataset.name) p = (.error e, q) ∧
          s.evalRows dataset p = (.error e, q)) ∨
       (∃ q, s.prepare (s.lookupsFor dataset.name) p = (.ok (), q) ∧
          s.evalRows dataset p =
            (fetched.mapM (s.evalRow q.store dataset (s.columnsFor dataset.name)), q)))) := by
  cases fetched with
  | nil => exact .inl ⟨rfl, by simp [evalRows, hf]⟩
  | cons row rows =>
    refine .inr ⟨by simp, ?_⟩
    cases hp : s.prepare (s.lookupsFor dataset.name) p with
    | mk outcome q =>
      cases outcome with
      | error e => exact .inl ⟨e, q, rfl, by simp [evalRows, hf, hp]⟩
      | ok _ => exact .inr ⟨q, rfl, by simp [evalRows, hf, hp]⟩

theorem evalRows_steps {s : Session} {dataset : DataSet} {p : Progress} {fetched : List DataRow}
    (hf : p.store.rows? dataset.name = some fetched) : s.Steps p (s.evalRows dataset p).2 := by
  have hsteps := s.prepare_steps (s.lookupsFor dataset.name) p
  obtain ⟨_, h⟩ | ⟨_, ⟨e, q, hp, h⟩ | ⟨q, hp, h⟩⟩ := s.evalRows_cases hf
  · rw [h]
  · rw [h]
    rwa [hp] at hsteps
  · rw [h]
    rwa [hp] at hsteps

theorem cells_of_evalRows {s : Session} {dataset : DataSet} {p q : Progress} {fetched rows : List DataRow}
    (hf : p.store.rows? dataset.name = some fetched) (h : s.evalRows dataset p = (.ok rows, q)) :
    (fetched ≠ [] → s.Prepared q.store (s.lookupsFor dataset.name)) ∧
      fetched.mapM (s.evalRow q.store dataset (s.columnsFor dataset.name)) = .ok rows := by
  obtain ⟨rfl, h'⟩ | ⟨_, ⟨e, q', hp, h'⟩ | ⟨q', hp, h'⟩⟩ := s.evalRows_cases hf <;> rw [h'] at h
  · cases h
    exact ⟨fun hne => absurd rfl hne, rfl⟩
  · cases h
  · rw [Prod.mk.injEq] at h
    obtain ⟨hcells, rfl⟩ := h
    exact ⟨fun _ => prepared_of_prepare hp, hcells⟩

theorem rows_cases (s : Session) (name : String) (p : Progress) :
    (∃ rows, p.store.evaluated? name = some rows ∧ s.rows name p = (.ok rows, p)) ∨
    (p.store.evaluated? name = none ∧
      ((s.definition.dataset? name = none ∧ s.rows name p = (.error (.unknownDataset name), p)) ∨
       (∃ dataset, s.definition.dataset? name = some dataset ∧
         ((∃ e q, s.fetch dataset p = (.error e, q) ∧ s.rows name p = (.error e, q)) ∨
          (∃ fetched q, s.fetch dataset p = (.ok (), q) ∧ q.store.rows? dataset.name = some fetched ∧
            ((∃ e q', s.evalRows dataset q = (.error e, q') ∧ s.rows name p = (.error e, q')) ∨
             (∃ rows q', s.evalRows dataset q = (.ok rows, q') ∧
                s.rows name p = (.ok rows, { q' with store := q'.store.putEvaluated name rows })))))))) := by
  cases hv : p.store.evaluated? name with
  | some rows => exact .inl ⟨rows, rfl, by simp [Session.rows, hv]⟩
  | none =>
    refine .inr ⟨rfl, ?_⟩
    cases hd : s.definition.dataset? name with
    | none => exact .inl ⟨rfl, by simp [rows, hv, hd]⟩
    | some dataset =>
      refine .inr ⟨dataset, rfl, ?_⟩
      cases hf : s.fetch dataset p with
      | mk outcome q =>
        cases outcome with
        | error e => exact .inl ⟨e, q, rfl, by simp [rows, hv, hd, hf]⟩
        | ok _ =>
          obtain ⟨fetched, hq⟩ := rows?_of_fetch hf
          refine .inr ⟨fetched, q, rfl, hq, ?_⟩
          cases he : s.evalRows dataset q with
          | mk outcome q' =>
            cases outcome with
            | error e => exact .inl ⟨e, q', rfl, by simp [rows, hv, hd, hf, he]⟩
            | ok rows => exact .inr ⟨rows, q', rfl, by simp [Session.rows, hv, hd, hf, he]⟩

theorem evaluated_prepare (s : Session) (ls : List LookupSite) (p : Progress) :
    (s.prepare ls p).2.store.evaluated = p.store.evaluated := by
  induction ls generalizing p with
  | nil => rfl
  | cons l ls ih =>
    obtain ⟨_, h⟩ | ⟨_, dataset, _, ⟨e, q, hf, h⟩ | ⟨q, store, hf, _, hs, h⟩⟩ := s.prepare_cons_cases l ls p
    · rw [h]
      exact ih p
    · have hq := s.evaluated_fetch dataset p
      rw [h]
      rwa [hf] at hq
    · have hq := s.evaluated_fetch dataset p
      obtain ⟨rows, _, rfl⟩ := Store.withIndex?_eq_some.1 hs
      rw [h, ih]
      rwa [hf] at hq

theorem evaluated_evalRows (s : Session) (dataset : DataSet) {p : Progress} {fetched : List DataRow}
    (hf : p.store.rows? dataset.name = some fetched) :
    (s.evalRows dataset p).2.store.evaluated = p.store.evaluated := by
  have hq := s.evaluated_prepare (s.lookupsFor dataset.name) p
  obtain ⟨_, h⟩ | ⟨_, ⟨e, q, hp, h⟩ | ⟨q, hp, h⟩⟩ := s.evalRows_cases hf <;> rw [h]
  · rwa [hp] at hq
  · rwa [hp] at hq

theorem rows_steps (s : Session) (name : String) (p : Progress) : s.Steps p (s.rows name p).2 := by
  obtain ⟨rows, _, h⟩ | ⟨hv, ⟨_, h⟩ | ⟨dataset, hd, ⟨e, q, hf, h⟩ | ⟨fetched, q, hf, hq, hr⟩⟩⟩ :=
    s.rows_cases name p
  · rw [h]
  · rw [h]
  · have hsteps := s.fetch_steps p (Definition.dataset?_name hd)
    rw [h]
    rwa [hf] at hsteps
  · have hname := Definition.name_of_dataset? hd
    have hfetch := s.fetch_steps p (Definition.dataset?_name hd)
    have heval := s.evalRows_steps hq
    have hold := s.evaluated_evalRows dataset hq
    have hfirst := s.evaluated_fetch dataset p
    rw [hf] at hfetch hfirst
    obtain ⟨e, q', he, h⟩ | ⟨rows, q', he, h⟩ := hr <;> rw [he] at heval hold <;> rw [h]
    · exact hfetch.trans heval
    · obtain ⟨hprepared, hcells⟩ := cells_of_evalRows hq he
      have hunevaluated : q'.store.evaluated? dataset.name = none := by
        rw [hname, Store.evaluated?, hold, hfirst]
        exact hv
      have hstep : s.Step q' { q' with store := q'.store.putEvaluated name rows } := by
        have hrows := heval.extends.rows hq
        rw [← hname]
        exact .evaluated (Definition.dataset?_name hd) hunevaluated hrows hprepared hcells
      exact (hfetch.trans heval).tail hstep

def after (s : Session) (calls : List String) (p : Progress) : Progress :=
  calls.foldl (fun p name => (s.rows name p).2) p

theorem after_steps (s : Session) (calls : List String) (p : Progress) : s.Steps p (s.after calls p) := by
  induction calls generalizing p with
  | nil => exact .refl
  | cons name calls ih => exact (s.rows_steps name p).trans (ih _)

end Session
end TabularReport
