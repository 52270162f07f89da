import Mathlib.Data.List.Chain
import Mathlib.Data.List.Nodup
import Mathlib.Data.List.Perm.Subperm
import Mathlib.Logic.Relation
import TabularReport.Parameter.Resolution
import TabularReport.Proofs.Expr.References
import TabularReport.Proofs.OrderedMap
/-!
The order in which parameter defaults are evaluated.  `Walk` is the search for it, without a bound on its
depth: it always ends, with an order in which every parameter stands after those that its default refers
to, or with a cycle of references.  There is such an order just if there is no cycle.
-/
set_option autoImplicit false

namespace TabularReport

/-- Whether the names go around a cycle of `r`, from a name back to it and through no name twice. -/
structure IsCycle (r : String → String → Prop) (names : List String) : Prop where
  long : 2 ≤ names.length
  closed : names.head? = names.getLast?
  distinct : names.dropLast.Nodup
  linked : names.IsChain r

theorem isCycle_cycleOf {r : String → String → Prop} {path : List String} {name : String}
    (hdistinct : path.Nodup) (hmem : name ∈ path) (hlinked : (path ++ [name]).IsChain r) :
    IsCycle r (cycleOf path name) := by
  obtain ⟨before, after, rfl, hbefore⟩ := List.eq_append_cons_of_mem hmem
  have hcycle : cycleOf (before ++ name :: after) name = name :: after ++ [name] := by
    have hdrop : (before ++ name :: after).dropWhile (· ≠ name) = name :: after := by
      rw [List.dropWhile_append_of_pos]
      · simp
      · intro other hother
        have hne : other ≠ name := fun h => hbefore (h ▸ hother)
        simpa using hne
    rw [cycleOf, hdrop]
  rw [hcycle]
  refine ⟨by simp, ?_, ?_, ?_⟩
  · rw [List.getLast?_concat]
    rfl
  · rw [List.dropLast_concat]
    exact hdistinct.sublist (List.sublist_append_right _ _)
  · exact hlinked.suffix ⟨before, by simp⟩

theorem IsCycle.transGen {r : String → String → Prop} {names : List String} (h : IsCycle r names) :
    ∃ name, Relation.TransGen r name name := by
  obtain ⟨hlong, hclosed, _, hlinked⟩ := h
  cases names with
  | nil => simp at hlong
  | cons name rest =>
    have hlast : name ∈ rest := by
      have hne : rest ≠ [] := by
        rintro rfl
        simp at hlong
      rw [List.head?_cons, List.getLast?_cons_of_ne_nil hne] at hclosed
      exact List.mem_of_getLast? hclosed.symm
    have hpairs := (hlinked.imp fun _ _ hr => Relation.TransGen.single hr).pairwise
    exact ⟨name, (List.pairwise_cons.1 hpairs).1 name hlast⟩

namespace Definition

def unsupplied (d : Definition) (supplied : ParameterValues) : List ReportParameter :=
  d.parameters.filter fun p => !supplied.contains p.name

/-- Whether the default of the first parameter refers to the second, at any depth, where both are declared
and have no supplied value. -/
def RefersTo (d : Definition) (supplied : ParameterValues) (a b : String) : Prop :=
  ∃ p ∈ d.unsupplied supplied, p.name = a ∧ (∃ q ∈ d.unsupplied supplied, q.name = b) ∧
    ∃ e, p.defaultValue = some e ∧ (Expr.parameter b).Within e

def Acyclic (d : Definition) (supplied : ParameterValues) : Prop :=
  ∀ name, ¬ Relation.TransGen (d.RefersTo supplied) name name

/-- Whether the list has every parameter without a supplied value, and each after those that it refers to. -/
structure IsOrder (d : Definition) (supplied : ParameterValues) (order : List ReportParameter) : Prop where
  complete : order.Perm (d.unsupplied supplied)
  before : ∀ earlier p later, order = earlier ++ p :: later →
    ∀ name, d.RefersTo supplied p.name name → name ∈ earlier.map (·.name)

/-- Whether visiting `ps` one after the other ends with the result, where the names in `path` wait for them
and the parameters in `order` are done. -/
inductive Walk (d : Definition) (supplied : ParameterValues) :
    List String → List ReportParameter → List ReportParameter →
      Except ReportError (List ReportParameter) → Prop where
  | finished {path order} : Walk d supplied path order [] (.ok order)
  | done {path order ps p r} : p.name ∈ order.map (·.name) → Walk d supplied path order ps r →
      Walk d supplied path order (p :: ps) r
  | waiting {path order ps p} : p.name ∉ order.map (·.name) → p.name ∈ path →
      Walk d supplied path order (p :: ps) (.error (.parameterCycle (cycleOf path p.name)))
  | failed {path order ps p e} : p.name ∉ order.map (·.name) → p.name ∉ path →
      Walk d supplied (path ++ [p.name]) order (p.dependencies d supplied) (.error e) →
      Walk d supplied path order (p :: ps) (.error e)
  | visited {path order middle ps p r} : p.name ∉ order.map (·.name) → p.name ∉ path →
      Walk d supplied (path ++ [p.name]) order (p.dependencies d supplied) (.ok middle) →
      Walk d supplied path (middle ++ [p]) ps r → Walk d supplied path order (p :: ps) r

/-- Whether every parameter of the list stands after those that it depends on, which may be done before. -/
def AfterDependencies (d : Definition) (supplied : ParameterValues) :
    List ReportParameter → List ReportParameter → Prop
  | _, [] => True
  | done, p :: later => p.dependencies d supplied ⊆ done ∧ AfterDependencies d supplied (done ++ [p]) later

/-- What holds of the parameters that are done while the names in `path` wait. -/
structure Settled (d : Definition) (supplied : ParameterValues) (path : List String)
    (order : List ReportParameter) : Prop where
  distinct : (order.map (·.name)).Nodup
  apart : ∀ name ∈ path, name ∉ order.map (·.name)
  unsupplied : order ⊆ d.unsupplied supplied
  after : d.AfterDependencies supplied [] order

section

variable {d : Definition} {supplied : ParameterValues} {path : List String}
  {order ps : List ReportParameter} {p q : ReportParameter} {r : Except ReportError (List ReportParameter)}

theorem mem_unsupplied :
    p ∈ d.unsupplied supplied ↔ p ∈ d.parameters ∧ supplied.contains p.name = false := by
  simp [unsupplied]

theorem mem_dependencies :
    q ∈ p.dependencies d supplied ↔ d.parameter? q.name = some q ∧ supplied.contains q.name = false ∧
      ∃ e, p.defaultValue = some e ∧ (Expr.parameter q.name).Within e := by
  have hread : ∀ name, name ∈ p.defaultValue.elim [] Expr.parametersRead ↔
      ∃ e, p.defaultValue = some e ∧ (Expr.parameter name).Within e := by
    intro name
    cases p.defaultValue <;> simp [Expr.mem_parametersRead_iff]
  simp only [ReportParameter.dependencies, List.mem_filterMap, List.mem_filter, hread, Bool.not_eq_true']
  constructor
  · rintro ⟨name, ⟨he, hs⟩, hq⟩
    obtain rfl : q.name = name := by simpa using List.find?_some hq
    exact ⟨hq, hs, he⟩
  · rintro ⟨hq, hs, he⟩
    exact ⟨q.name, ⟨he, hs⟩, hq⟩

theorem mem_unsupplied_of_mem_dependencies (h : q ∈ p.dependencies d supplied) :
    q ∈ d.unsupplied supplied := by
  obtain ⟨hq, hs, _⟩ := mem_dependencies.1 h
  exact mem_unsupplied.2 ⟨List.mem_of_find?_eq_some hq, hs⟩

theorem refersTo_of_mem_dependencies (hp : p ∈ d.unsupplied supplied) (h : q ∈ p.dependencies d supplied) :
    d.RefersTo supplied p.name q.name := by
  obtain ⟨_, _, he⟩ := mem_dependencies.1 h
  exact ⟨p, hp, rfl, ⟨q, mem_unsupplied_of_mem_dependencies h, rfl⟩, he⟩

theorem Walk.unique {r r' : Except ReportError (List ReportParameter)}
    (h : d.Walk supplied path order ps r) (h' : d.Walk supplied path order ps r') : r = r' := by
  induction h generalizing r' with
  | finished =>
    cases h'
    rfl
  | done hp _ ih =>
    cases h' with
    | done _ h' => exact ih h'
    | waiting hn | failed hn | visited hn => exact absurd hp hn
  | waiting hn hp =>
    cases h' with
    | done h => exact absurd h hn
    | waiting => rfl
    | failed _ hn | visited _ hn => exact absurd hp hn
  | failed hn hp _ ih =>
    cases h' with
    | done h => exact absurd h hn
    | waiting _ h => exact absurd h hp
    | failed _ _ h' => exact ih h'
    | visited _ _ h' => cases ih h'
  | visited hn hp _ _ ih ih' =>
    cases h' with
    | done h => exact absurd h hn
    | waiting _ h => exact absurd h hp
    | failed _ _ h' => cases ih h'
    | visited _ _ h' h'' =>
      cases ih h'
      exact ih' h''

/-- The search ends before its bound is spent, since no name waits twice. -/
theorem walk_foldlM {fuel : Nat} (hdistinct : path.Nodup) (hpath : path ⊆ d.parameters.map (·.name))
    (hps : ps ⊆ d.parameters) (hfuel : d.parameters.length < fuel + path.length) :
    d.Walk supplied path order ps (ps.foldlM (d.orderFrom supplied fuel path) order) := by
  induction fuel generalizing path order ps with
  | zero =>
    have hlength := (hdistinct.subperm hpath).length_le
    simp at hlength hfuel
    omega
  | succ fuel ih =>
    induction ps generalizing order with
    | nil => exact .finished
    | cons p ps ihps =>
      obtain ⟨hp, hps⟩ := List.cons_subset.1 hps
      rw [List.foldlM_cons, orderFrom]
      by_cases hdone : p.name ∈ order.map (·.name)
      · have hany : order.any (·.name = p.name) = true := by simpa using hdone
        rw [if_pos hany]
        exact .done hdone (ihps hps)
      · have hany : ¬ order.any (·.name = p.name) = true := by simpa using hdone
        rw [if_neg hany]
        by_cases hwaits : p.name ∈ path
        · rw [if_pos (by simpa using hwaits)]
          exact .waiting hdone hwaits
        · rw [if_neg (by simpa using hwaits)]
          have hdistinct' : (path ++ [p.name]).Nodup := by
            simpa using List.Nodup.concat hwaits hdistinct
          have hpath' : path ++ [p.name] ⊆ d.parameters.map (·.name) :=
            List.append_subset.2 ⟨hpath, by simpa using List.mem_map_of_mem hp⟩
          have hdependencies : p.dependencies d supplied ⊆ d.parameters := fun q hq =>
            (mem_unsupplied.1 (mem_unsupplied_of_mem_dependencies hq)).1
          have hinner : d.Walk supplied (path ++ [p.name]) order (p.dependencies d supplied)
              ((p.dependencies d supplied).foldlM (d.orderFrom supplied fuel (path ++ [p.name])) order) :=
            ih hdistinct' hpath' hdependencies (by simp; omega)
          cases hr : (p.dependencies d supplied).foldlM
              (d.orderFrom supplied fuel (path ++ [p.name])) order with
          | error e =>
            rw [hr] at hinner
            exact .failed hdone hwaits hinner
          | ok middle =>
            rw [hr] at hinner
            exact .visited hdone hwaits hinner (ihps hps)

theorem walk_iff :
    d.Walk supplied [] [] (d.unsupplied supplied) r ↔ r = d.evaluationOrder supplied := by
  have hps : d.unsupplied supplied ⊆ d.parameters := List.filter_subset_self _
  have hwalk : d.Walk supplied [] [] (d.unsupplied supplied) (d.evaluationOrder supplied) :=
    walk_foldlM List.nodup_nil (List.nil_subset _) hps (by simp)
  constructor
  · intro h
    exact h.unique hwalk
  · rintro rfl
    exact hwalk

theorem afterDependencies_append {done earlier later : List ReportParameter} :
    d.AfterDependencies supplied done (earlier ++ later) ↔
      d.AfterDependencies supplied done earlier ∧ d.AfterDependencies supplied (done ++ earlier) later := by
  induction earlier generalizing done with
  | nil => simp [AfterDependencies]
  | cons p earlier ih => simp [AfterDependencies, ih, and_assoc]

theorem Settled.enter {name : String} (h : d.Settled supplied path order)
    (hn : name ∉ order.map (·.name)) : d.Settled supplied (path ++ [name]) order := by
  refine ⟨h.distinct, ?_, h.unsupplied, h.after⟩
  intro other hother
  obtain hother | hother := List.mem_append.1 hother
  · exact h.apart other hother
  · rwa [List.mem_singleton.1 hother]

theorem Settled.leave (h : d.Settled supplied (path ++ [p.name]) order)
    (hp : p ∈ d.unsupplied supplied) (hwaits : p.name ∉ path) (hd : p.dependencies d supplied ⊆ order) :
    d.Settled supplied path (order ++ [p]) := by
  have hnew : p.name ∉ order.map (·.name) := h.apart p.name (by simp)
  refine ⟨?_, ?_, ?_, ?_⟩
  · rw [List.map_append]
    simpa using List.Nodup.concat hnew h.distinct
  · intro name hname
    have hold := h.apart name (List.mem_append_left _ hname)
    have hne : name ≠ p.name := fun he => hwaits (he ▸ hname)
    rw [List.map_append, List.mem_append, not_or]
    exact ⟨hold, by simpa using hne⟩
  · exact List.append_subset.2 ⟨h.unsupplied, by simpa using hp⟩
  · exact afterDependencies_append.2 ⟨h.after, hd, trivial⟩

theorem eq_of_name_eq (hd : (d.parameters.map (·.name)).Nodup) (hp : p ∈ d.parameters)
    (hq : q ∈ d.parameters) (h : p.name = q.name) : p = q :=
  List.inj_on_of_nodup_map hd hp hq h

theorem parameter?_name (hd : (d.parameters.map (·.name)).Nodup) (hp : p ∈ d.parameters) :
    d.parameter? p.name = some p :=
  OrderedMap.find?_of_nodup_map hd hp

theorem Walk.settled (hd : (d.parameters.map (·.name)).Nodup) (h : d.Walk supplied path order ps r)
    (hs : d.Settled supplied path order) (hps : ps ⊆ d.unsupplied supplied)
    {last : List ReportParameter} (hr : r = .ok last) :
    d.Settled supplied path last ∧ order ⊆ last ∧ ps ⊆ last := by
  induction h generalizing last with
  | finished =>
    cases hr
    exact ⟨hs, List.Subset.refl _, List.nil_subset _⟩
  | @done path order ps p r hdone _ ih =>
    obtain ⟨hp, hps⟩ := List.cons_subset.1 hps
    obtain ⟨hlast, hsub, hsub'⟩ := ih hs hps hr
    obtain ⟨q, hq, hname⟩ := List.mem_map.1 hdone
    -- Names are given once, so what is done under this name is `p`.
    have hq' := (mem_unsupplied.1 (hs.unsupplied hq)).1
    obtain rfl : q = p := eq_of_name_eq hd hq' (mem_unsupplied.1 hp).1 hname
    exact ⟨hlast, hsub, List.cons_subset.2 ⟨hsub hq, hsub'⟩⟩
  | waiting => contradiction
  | failed => contradiction
  | @visited path order middle ps p r hdone hwaits _ _ ih ih' =>
    obtain ⟨hp, hps⟩ := List.cons_subset.1 hps
    have hdependencies : p.dependencies d supplied ⊆ d.unsupplied supplied := fun q hq =>
      mem_unsupplied_of_mem_dependencies hq
    obtain ⟨hmiddle, hsub, hdeps⟩ := ih (hs.enter hdone) hdependencies rfl
    obtain ⟨hlast, hsub', hsub''⟩ := ih' (hmiddle.leave hp hwaits hdeps) hps hr
    obtain ⟨hmid, hpmem⟩ := List.append_subset.1 hsub'
    exact ⟨hlast, List.Subset.trans hsub hmid, List.cons_subset.2 ⟨hpmem (by simp), hsub''⟩⟩

/-- A walk that fails has found a cycle: the names that wait refer to one another in turn. -/
theorem Walk.isCycle (h : d.Walk supplied path order ps r) (hdistinct : path.Nodup)
    (hps : ∀ p ∈ ps, p ∈ d.unsupplied supplied ∧ (path ++ [p.name]).IsChain (d.RefersTo supplied))
    {e : ReportError} (hr : r = .error e) :
    ∃ names, e = .parameterCycle names ∧ IsCycle (d.RefersTo supplied) names := by
  induction h generalizing e with
  | finished => contradiction
  | done _ _ ih => exact ih hdistinct (List.forall_mem_cons.1 hps).2 hr
  | waiting _ hwaits =>
    cases hr
    exact ⟨_, rfl, isCycle_cycleOf hdistinct hwaits (List.forall_mem_cons.1 hps).1.2⟩
  | @failed path order ps p e' _ hwaits _ ih =>
    obtain ⟨⟨hp, hlinked⟩, _⟩ := List.forall_mem_cons.1 hps
    refine ih (by simpa using List.Nodup.concat hwaits hdistinct) ?_ hr
    intro q hq
    refine ⟨mem_unsupplied_of_mem_dependencies hq, ?_⟩
    rw [List.isChain_append]
    refine ⟨hlinked, List.isChain_singleton _, ?_⟩
    simpa using refersTo_of_mem_dependencies hp hq
  | visited _ _ _ _ _ ih' => exact ih' hdistinct (List.forall_mem_cons.1 hps).2 hr

theorem exists_dependency_of_refersTo {name : String} (hd : (d.parameters.map (·.name)).Nodup)
    (hp : p ∈ d.parameters) (h : d.RefersTo supplied p.name name) :
    ∃ q ∈ p.dependencies d supplied, q.name = name := by
  obtain ⟨p', hp', hname, ⟨q, hq, rfl⟩, he⟩ := h
  obtain rfl : p' = p := eq_of_name_eq hd (mem_unsupplied.1 hp').1 hp hname
  obtain ⟨hq, hs⟩ := mem_unsupplied.1 hq
  exact ⟨q, mem_dependencies.2 ⟨parameter?_name hd hq, hs, he⟩, rfl⟩

theorem Settled.isOrder (hd : (d.parameters.map (·.name)).Nodup) (h : d.Settled supplied [] order)
    (hall : d.unsupplied supplied ⊆ order) : d.IsOrder supplied order := by
  constructor
  · have hdeclared : (d.unsupplied supplied).Nodup := (List.Nodup.of_map _ hd).filter _
    exact (List.perm_ext_iff_of_nodup (List.Nodup.of_map _ h.distinct) hdeclared).2 fun p =>
      ⟨fun hp => h.unsupplied hp, fun hp => hall hp⟩
  · rintro earlier p later rfl name hname
    have hp : p ∈ d.parameters := (mem_unsupplied.1 (h.unsupplied (by simp))).1
    obtain ⟨q, hq, rfl⟩ := exists_dependency_of_refersTo hd hp hname
    have hafter := (afterDependencies_append.1 h.after).2
    exact List.mem_map_of_mem (by simpa using hafter.1 hq)

theorem IsOrder.distinct (hd : (d.parameters.map (·.name)).Nodup) (h : d.IsOrder supplied order) :
    (order.map (·.name)).Nodup := by
  rw [(h.complete.map _).nodup_iff]
  exact hd.sublist (List.filter_sublist.map _)

theorem IsOrder.mem_earlier {earlier later : List ReportParameter} {e : Expr} {name : String}
    (h : d.IsOrder supplied order) (hsplit : order = earlier ++ p :: later) (he : p.defaultValue = some e)
    (hread : (Expr.parameter name).Within e) (hname : name ∈ order.map (·.name)) :
    name ∈ earlier.map (·.name) := by
  have hp : p ∈ d.unsupplied supplied := h.complete.mem_iff.1 (by simp [hsplit])
  obtain ⟨q, hq, rfl⟩ := List.mem_map.1 hname
  exact h.before earlier p later hsplit q.name ⟨p, hp, rfl, ⟨q, h.complete.mem_iff.1 hq, rfl⟩, e, he, hread⟩

theorem IsOrder.not_mem_later {earlier later : List ReportParameter} {e : Expr} {name : String}
    (hd : (d.parameters.map (·.name)).Nodup) (h : d.IsOrder supplied order)
    (hsplit : order = earlier ++ p :: later) (he : p.defaultValue = some e)
    (hread : (Expr.parameter name).Within e) : name ∉ (p :: later).map (·.name) := by
  intro hlater
  -- It would stand both before `p` and not before `p`.
  have hname : name ∈ order.map (·.name) := by
    rw [hsplit, List.map_append]
    exact List.mem_append_right _ hlater
  have hearlier := h.mem_earlier hsplit he hread hname
  have hdistinct := h.distinct hd
  rw [hsplit, List.map_append, List.nodup_append] at hdistinct
  exact hdistinct.2.2 name hearlier name hlater rfl

theorem IsOrder.idxOf_lt {a b : String} (hd : (d.parameters.map (·.name)).Nodup)
    (h : d.IsOrder supplied order) (hab : d.RefersTo supplied a b) :
    (order.map (·.name)).idxOf b < (order.map (·.name)).idxOf a := by
  have hnames := h.distinct hd
  obtain ⟨p, hp, rfl, _⟩ := id hab
  obtain ⟨earlier, later, rfl⟩ := List.append_of_mem (h.complete.mem_iff.2 hp)
  have hb := h.before earlier p later rfl b hab
  rw [List.map_append, List.map_cons] at hnames ⊢
  have hp' : p.name ∉ earlier.map (·.name) := fun hmem =>
    (List.nodup_append.1 hnames).2.2 p.name hmem p.name List.mem_cons_self rfl
  rw [List.idxOf_append_of_mem hb, List.idxOf_append_of_notMem hp', List.idxOf_cons_self]
  exact List.idxOf_lt_length_of_mem hb

theorem IsOrder.acyclic (hd : (d.parameters.map (·.name)).Nodup) (h : d.IsOrder supplied order) :
    d.Acyclic supplied := by
  have hplaces : ∀ a b, Relation.TransGen (d.RefersTo supplied) a b →
      (order.map (·.name)).idxOf b < (order.map (·.name)).idxOf a := by
    intro a b hab
    induction hab with
    | single hab => exact h.idxOf_lt hd hab
    | tail _ hbc ih => exact (h.idxOf_lt hd hbc).trans ih
  intro name hname
  exact lt_irrefl _ (hplaces name name hname)

theorem isOrder_of_evaluationOrder (hd : (d.parameters.map (·.name)).Nodup)
    (h : d.evaluationOrder supplied = .ok order) : d.IsOrder supplied order := by
  have hstart : d.Settled supplied [] [] := ⟨by simp, by simp, List.nil_subset _, trivial⟩
  obtain ⟨hsettled, _, hall⟩ :=
    (walk_iff.2 rfl).settled hd hstart (List.Subset.refl (d.unsupplied supplied)) h
  exact hsettled.isOrder hd hall

theorem isCycle_of_evaluationOrder {e : ReportError} (h : d.evaluationOrder supplied = .error e) :
    ∃ names, e = .parameterCycle names ∧ IsCycle (d.RefersTo supplied) names := by
  refine (walk_iff.2 rfl).isCycle List.nodup_nil ?_ h
  intro p hp
  exact ⟨hp, List.isChain_singleton _⟩

theorem exists_evaluationOrder_iff (hd : (d.parameters.map (·.name)).Nodup) :
    (∃ order, d.evaluationOrder supplied = .ok order) ↔ d.Acyclic supplied := by
  constructor
  · rintro ⟨order, h⟩
    exact (isOrder_of_evaluationOrder hd h).acyclic hd
  · intro hacyclic
    cases h : d.evaluationOrder supplied with
    | ok order => exact ⟨order, rfl⟩
    | error e =>
      obtain ⟨_, _, hcycle⟩ := isCycle_of_evaluationOrder h
      obtain ⟨name, hname⟩ := hcycle.transGen
      exact absurd hname (hacyclic name)

theorem exists_suppliedValues {settings : Settings}
    (h : ∀ p ∈ d.parameters, ∀ v, supplied.get? p.name = some v → ∃ w, p.coerce settings v = .ok w) :
    ∃ given, d.suppliedValues settings supplied = .ok given := by
  refine exists_foldlM_eq_ok ?_ ∅
  intro values p hp
  cases hv : supplied.get? p.name with
  | none => exact ⟨values, by simp [addSupplied, hv]⟩
  | some v =>
    obtain ⟨w, hw⟩ := h p hp v hv
    exact ⟨values.insert p.name w, by simp [addSupplied, hv, hw, bind, Except.bind, pure, Except.pure]⟩

end

/-- The search for an order of the defaults always returns.  It finds one just if the references among the
parameters without a supplied value are acyclic; otherwise, if the supplied values can be coerced,
resolution fails with a cycle of these references. -/
theorem evaluationOrder_or_cycle {d : Definition} (hd : (d.parameters.map (·.name)).Nodup)
    (supplied : ParameterValues) :
    (∀ r, d.Walk supplied [] [] (d.unsupplied supplied) r ↔ r = d.evaluationOrder supplied) ∧
    ((∃ order, d.evaluationOrder supplied = .ok order) ↔ d.Acyclic supplied) ∧
    (∀ order, d.evaluationOrder supplied = .ok order → d.IsOrder supplied order) ∧
    (¬ d.Acyclic supplied → ∀ settings : Settings,
      (∀ p ∈ d.parameters, ∀ v, supplied.get? p.name = some v → ∃ w, p.coerce settings v = .ok w) →
      ∃ names, d.parameterValues settings supplied = .error (.parameterCycle names) ∧
        IsCycle (d.RefersTo supplied) names) := by
  refine ⟨fun r => walk_iff, exists_evaluationOrder_iff hd, fun order => isOrder_of_evaluationOrder hd, ?_⟩
  intro hcyclic settings hcoerce
  obtain ⟨given, hgiven⟩ := exists_suppliedValues hcoerce
  cases h : d.evaluationOrder supplied with
  | ok order => exact absurd ((exists_evaluationOrder_iff hd).1 ⟨order, h⟩) hcyclic
  | error e =>
    obtain ⟨names, rfl, hcycle⟩ := isCycle_of_evaluationOrder h
    refine ⟨names, ?_, hcycle⟩
    simp [parameterValues, hgiven, h, bind, Except.bind]

def ring : Definition where
  parameters := [
    ⟨"A", "", .text, some (.binary .concat (.parameter "B") (.parameter "C")), false, none⟩,
    ⟨"B", "", .text, some (.parameter "C"), false, none⟩,
    ⟨"C", "", .text, some (.negate (.parameter "A")), false, none⟩]

theorem evaluationOrder_of_ring :
    (ring.parameters.map (·.name)).Nodup ∧
      (¬ ring.Acyclic ∅ ∧ ∃ names, ring.parameterValues {} ∅ = .error (.parameterCycle names) ∧
        IsCycle (ring.RefersTo ∅) names) ∧
      let supplied := OrderedMap.ofList [("A", ParameterValue.single (.text "x"))]
      (ring.Acyclic supplied ∧ ∃ order, ring.evaluationOrder supplied = .ok order ∧
        order.map (·.name) = ["C", "B"] ∧ ring.IsOrder supplied order) := by
  have hd : (ring.parameters.map (·.name)).Nodup := by decide
  obtain ⟨_, hiff, _, hcycle⟩ := evaluationOrder_or_cycle hd ∅
  have herror : ring.evaluationOrder ∅ = .error (.parameterCycle ["A", "B", "C", "A"]) := by decide +kernel
  have hcyclic : ¬ ring.Acyclic ∅ := by
    intro h
    obtain ⟨order, ho⟩ := hiff.2 h
    rw [herror] at ho
    contradiction
  refine ⟨hd, ⟨hcyclic, hcycle hcyclic {} ?_⟩, ?_⟩
  · intro p _ v hv
    contradiction
  · intro supplied
    obtain ⟨_, hiff, horder, _⟩ := evaluationOrder_or_cycle hd supplied
    have hok : ring.evaluationOrder supplied = .ok [ring.parameters[2], ring.parameters[1]] := by decide +kernel
    exact ⟨hiff.1 ⟨_, hok⟩, _, hok, by decide, horder _ hok⟩

end Definition
end TabularReport
