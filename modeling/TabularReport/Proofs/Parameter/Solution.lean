import TabularReport.Proofs.Eval.Scope
import TabularReport.Proofs.OrderedMap
import TabularReport.Proofs.Parameter.Order
/-!
The values of parameters as the solution of equations, one for each declared parameter: the coercion of
what was supplied, or else of its default, where the default reads the solution itself.  Defaults are
evaluated on the values found so far; in an evaluation order this reads the same values, and no other
values solve the equations.
-/
set_option autoImplicit false

namespace TabularReport

theorem ParameterValue.reshape_reshape (multiValue : Bool) (v : ParameterValue) :
    (v.reshape multiValue).reshape multiValue = v.reshape multiValue := by
  cases multiValue <;> cases v <;> rfl

namespace ReportParameter

theorem coerce_reshape (p : ReportParameter) (settings : Settings) (v : ParameterValue) :
    p.coerce settings (v.reshape p.multiValue) = p.coerce settings v := by
  rw [coerce, coerce, ParameterValue.reshape_reshape]

theorem coerce_null (p : ReportParameter) (settings : Settings) :
    p.coerce settings (.single .null) = .ok (if p.multiValue then .multi [] else .single .null) := by
  rw [coerce]
  cases p.multiValue <;> rfl

theorem evalDefault_of_none {p : ReportParameter} (h : p.defaultValue = none) (d : Definition)
    (values : ParameterValues) : p.evalDefault d values = .ok (.single .null) := by
  simp [evalDefault, h]

theorem evalDefault_eq_ok {p : ReportParameter} {d : Definition} {values : ParameterValues} {e : Expr}
    {v : ParameterValue} (he : p.defaultValue = some e) :
    p.evalDefault d values = .ok v ↔
      ∃ x, Scope.eval { definition := d, parameters := values } e = .ok x ∧ v = .single x := by
  simp only [evalDefault, he]
  cases Scope.eval { definition := d, parameters := values } e <;> simp [eq_comm]

theorem evalDefault_congr {p : ReportParameter} {d : Definition} {a b : ParameterValues}
    (h : ∀ e, p.defaultValue = some e → ∀ name, (Expr.parameter name).Within e → a.get? name = b.get? name) :
    p.evalDefault d a = p.evalDefault d b := by
  cases he : p.defaultValue with
  | none => simp [evalDefault, he]
  | some e =>
    have hvalue := Scope.eval_congr_parameters (s := { definition := d, parameters := a }) (h e he)
    simp only [evalDefault, he]
    rw [hvalue]

theorem evalDefault_congr_datasets {d d' : Definition} (h : ∀ name, d.dataset? name = d'.dataset? name)
    (p : ReportParameter) (values : ParameterValues) : p.evalDefault d values = p.evalDefault d' values := by
  have hvalue := Scope.eval_congr_definition (s := { definition := d, parameters := values }) h
  simp only [evalDefault, hvalue]

end ReportParameter

namespace Definition

structure Solves (d : Definition) (settings : Settings) (supplied values : ParameterValues) : Prop where
  given : ∀ p ∈ d.parameters, ∀ v, supplied.get? p.name = some v →
    ∃ w, p.coerce settings v = .ok w ∧ values.get? p.name = some w
  default : ∀ p ∈ d.parameters, supplied.get? p.name = none → ∀ e, p.defaultValue = some e →
    ∃ v w, Scope.eval { definition := d, parameters := values } e = .ok v ∧
      p.coerce settings ((ParameterValue.single v).reshape p.multiValue) = .ok w ∧
      values.get? p.name = some w
  absent : ∀ p ∈ d.parameters, supplied.get? p.name = none → p.defaultValue = none →
    values.get? p.name = some (if p.multiValue then .multi [] else .single .null)

/-- The right side of the equation of a parameter. -/
def valueFor (d : Definition) (settings : Settings) (supplied values : ParameterValues)
    (p : ReportParameter) : Except ReportError ParameterValue :=
  match supplied.get? p.name with
  | some v => p.coerce settings v
  | none => do p.coerce settings (← p.evalDefault d values)

section

variable {d : Definition} {settings : Settings} {supplied values : ParameterValues}

theorem solves_iff : d.Solves settings supplied values ↔
    ∀ p ∈ d.parameters, ∃ w, d.valueFor settings supplied values p = .ok w ∧ values.get? p.name = some w := by
  constructor
  · intro h p hp
    cases hs : supplied.get? p.name with
    | some v =>
      simp only [valueFor, hs]
      exact h.given p hp v hs
    | none =>
      cases he : p.defaultValue with
      | none =>
        have hnull := ReportParameter.evalDefault_of_none he d values
        refine ⟨_, ?_, h.absent p hp hs he⟩
        simp [valueFor, hs, hnull, bind, Except.bind, p.coerce_null]
      | some e =>
        obtain ⟨v, w, hv, hw, hvalue⟩ := h.default p hp hs e he
        have hdefault := (ReportParameter.evalDefault_eq_ok he).2 ⟨v, hv, rfl⟩
        rw [p.coerce_reshape] at hw
        refine ⟨w, ?_, hvalue⟩
        simp [valueFor, hs, hdefault, bind, Except.bind, hw]
  · intro h
    refine ⟨?_, ?_, ?_⟩
    · intro p hp v hs
      obtain ⟨w, hw, hvalue⟩ := h p hp
      simp only [valueFor, hs] at hw
      exact ⟨w, hw, hvalue⟩
    · intro p hp hs e he
      obtain ⟨w, hw, hvalue⟩ := h p hp
      simp only [valueFor, hs, bind_eq_ok] at hw
      obtain ⟨_, hdefault, hw⟩ := hw
      obtain ⟨v, hv, rfl⟩ := (ReportParameter.evalDefault_eq_ok he).1 hdefault
      exact ⟨v, w, hv, by rwa [p.coerce_reshape], hvalue⟩
    · intro p hp hs he
      obtain ⟨w, hw, hvalue⟩ := h p hp
      have hnull := ReportParameter.evalDefault_of_none he d values
      simp only [valueFor, hs, hnull, bind_eq_ok] at hw
      obtain ⟨_, hdefault, hw⟩ := hw
      cases hdefault
      rw [p.coerce_null] at hw
      cases hw
      exact hvalue

/-- Steps that write the value of one parameter each leave the values of all others. -/
theorem get?_of_foldlM {f : ParameterValues → ReportParameter → Except ReportError ParameterValues}
    (hf : ∀ a p b, f a p = .ok b → ∀ name, name ≠ p.name → b.get? name = a.get? name)
    {ps : List ReportParameter} {start last : ParameterValues} (h : ps.foldlM f start = .ok last)
    {name : String} (hname : name ∉ ps.map (·.name)) : last.get? name = start.get? name := by
  induction ps generalizing start with
  | nil =>
    cases h
    rfl
  | cons p ps ih =>
    obtain ⟨middle, hmiddle, h⟩ := bind_eq_ok.1 h
    rw [List.map_cons, List.mem_cons, not_or] at hname
    rw [ih h hname.2, hf _ _ _ hmiddle name hname.1]

theorem get?_addDefault_of_ne {a b : ParameterValues} {p : ReportParameter}
    (h : d.addDefault settings a p = .ok b) (name : String) (hne : name ≠ p.name) :
    b.get? name = a.get? name := by
  simp only [addDefault, bind_eq_ok] at h
  obtain ⟨_, _, w, _, h⟩ := h
  cases h
  simp [hne]

theorem get?_addSupplied_of_ne {a b : ParameterValues} {p : ReportParameter}
    (h : addSupplied settings supplied a p = .ok b) (name : String) (hne : name ≠ p.name) :
    b.get? name = a.get? name := by
  unfold addSupplied at h
  split at h
  · obtain ⟨w, _, h⟩ := bind_eq_ok.1 h
    cases h
    simp [hne]
  · cases h
    rfl

theorem get?_suppliedValues {given : ParameterValues} (hd : (d.parameters.map (·.name)).Nodup)
    (h : d.suppliedValues settings supplied = .ok given) {p : ReportParameter} (hp : p ∈ d.parameters)
    {v : ParameterValue} (hv : supplied.get? p.name = some v) :
    ∃ w, p.coerce settings v = .ok w ∧ given.get? p.name = some w := by
  obtain ⟨earlier, later, hsplit⟩ := List.append_of_mem hp
  rw [suppliedValues, hsplit] at h
  rw [hsplit] at hd
  obtain ⟨before, after, _, hafter, hlater⟩ := exists_step_of_foldlM h
  have hp' : p.name ∉ later.map (·.name) := by
    rw [List.map_append, List.map_cons, List.nodup_append] at hd
    exact (List.nodup_cons.1 hd.2.1).1
  simp only [addSupplied, hv, bind_eq_ok] at hafter
  obtain ⟨w, hw, hafter⟩ := hafter
  cases hafter
  refine ⟨w, hw, ?_⟩
  rw [get?_of_foldlM (fun a p b => get?_addSupplied_of_ne) hlater hp']
  simp

theorem mem_of_isSome_suppliedValues {given : ParameterValues}
    (h : d.suppliedValues settings supplied = .ok given) {name : String} (hname : (given.get? name).isSome) :
    name ∈ d.parameters.map (·.name) := by
  by_contra hundeclared
  rw [get?_of_foldlM (fun a p b => get?_addSupplied_of_ne) h hundeclared] at hname
  contradiction

/-- The value of a default, as it was when everything before it in the order was known. -/
theorem get?_of_order {given last : ParameterValues} {order earlier later : List ReportParameter}
    {p : ReportParameter} (h : order.foldlM (d.addDefault settings) given = .ok last)
    (hsplit : order = earlier ++ p :: later) (hdistinct : (order.map (·.name)).Nodup) :
    ∃ before v w, p.evalDefault d before = .ok v ∧ p.coerce settings v = .ok w ∧
      last.get? p.name = some w ∧
      ∀ name, name ∉ (p :: later).map (·.name) → last.get? name = before.get? name := by
  subst hsplit
  obtain ⟨before, after, _, hafter, hlater⟩ := exists_step_of_foldlM h
  have hframe : ∀ name, name ∉ later.map (·.name) → last.get? name = after.get? name := fun name =>
    get?_of_foldlM (fun a p b => get?_addDefault_of_ne) hlater
  have hp : p.name ∉ later.map (·.name) := by
    rw [List.map_append, List.map_cons, List.nodup_append] at hdistinct
    exact (List.nodup_cons.1 hdistinct.2.1).1
  have hothers := get?_addDefault_of_ne hafter
  simp only [addDefault, bind_eq_ok] at hafter
  obtain ⟨v, hv, w, hw, hafter⟩ := hafter
  cases hafter
  refine ⟨before, v, w, hv, hw, ?_, ?_⟩
  · rw [hframe p.name hp]
    simp
  · intro name hname
    rw [List.map_cons, List.mem_cons, not_or] at hname
    rw [hframe name hname.2, hothers name hname.1]

theorem get?_declared (hvalues : ∀ name, (values.get? name).isSome → name ∈ d.parameters.map (·.name))
    (name : String) :
    (OrderedMap.ofList (d.parameters.filterMap fun p => (values.get? p.name).map (p.name, ·))).get? name =
      values.get? name := by
  have hentry : ∀ v, (name, v) ∈ d.parameters.filterMap (fun p => (values.get? p.name).map (p.name, ·)) →
      values.get? name = some v := by
    intro v hv
    simp only [List.mem_filterMap, Option.map_eq_some_iff, Prod.mk.injEq] at hv
    obtain ⟨p, _, _, hvalue, rfl, rfl⟩ := hv
    exact hvalue
  cases hv : values.get? name with
  | none =>
    rw [← Option.not_isSome_iff_eq_none, OrderedMap.isSome_get?_ofList]
    intro hkey
    obtain ⟨⟨_, v⟩, he, rfl⟩ := List.mem_map.1 hkey
    rw [hentry v he] at hv
    contradiction
  | some v =>
    obtain ⟨p, hp, rfl⟩ := List.mem_map.1 (hvalues name (by simp [hv]))
    have hmem : (p.name, v) ∈ d.parameters.filterMap (fun p => (values.get? p.name).map (p.name, ·)) :=
      List.mem_filterMap.2 ⟨p, hp, by simp [hv]⟩
    obtain ⟨w, hw⟩ := Option.isSome_iff_exists.1
      (OrderedMap.isSome_get?_ofList.2 (List.mem_map_of_mem (f := (·.1)) hmem))
    rw [hw, ← hv, hentry w (OrderedMap.mem_of_get?_ofList hw)]

theorem keys_declared (hd : (d.parameters.map (·.name)).Nodup)
    (hvalues : ∀ p ∈ d.parameters, (values.get? p.name).isSome) :
    (OrderedMap.ofList (d.parameters.filterMap fun p => (values.get? p.name).map (p.name, ·))).keys =
      d.parameters.map (·.name) := by
  have hkeys : (d.parameters.filterMap fun p => (values.get? p.name).map (p.name, ·)).map (·.1) =
      d.parameters.map (·.name) := by
    rw [List.map_filterMap, ← List.filterMap_eq_map]
    refine List.filterMap_congr ?_
    intro p hp
    obtain ⟨v, hv⟩ := Option.isSome_iff_exists.1 (hvalues p hp)
    simp [hv]
  rw [OrderedMap.keys, OrderedMap.entries_ofList (by rwa [hkeys]), hkeys]

theorem valueFor_congr {a b : ParameterValues} {p : ReportParameter}
    (h : ∀ e, p.defaultValue = some e → ∀ name, (Expr.parameter name).Within e → a.get? name = b.get? name) :
    d.valueFor settings supplied a p = d.valueFor settings supplied b p := by
  unfold valueFor
  rw [ReportParameter.evalDefault_congr h]

/-- The values that are found solve the equations: what a default did not see was not read by it. -/
theorem solves_of_foldlM {given : ParameterValues} {order : List ReportParameter}
    (hd : (d.parameters.map (·.name)).Nodup) (hgiven : d.suppliedValues settings supplied = .ok given)
    (horder : d.IsOrder supplied order) (h : order.foldlM (d.addDefault settings) given = .ok values) :
    d.Solves settings supplied values := by
  rw [solves_iff]
  intro p hp
  cases hs : supplied.get? p.name with
  | some v =>
    obtain ⟨w, hw, hvalue⟩ := get?_suppliedValues hd hgiven hp hs
    have hp' : p.name ∉ order.map (·.name) := by
      intro hmem
      obtain ⟨q, hq, hname⟩ := List.mem_map.1 hmem
      have hunsupplied := (mem_unsupplied.1 (horder.complete.mem_iff.1 hq)).2
      rw [hname, OrderedMap.contains_eq_false_iff, hs] at hunsupplied
      contradiction
    refine ⟨w, by simpa [valueFor, hs] using hw, ?_⟩
    rw [get?_of_foldlM (fun a p b => get?_addDefault_of_ne) h hp', hvalue]
  | none =>
    have hmem : p ∈ order :=
      horder.complete.mem_iff.2 (mem_unsupplied.2 ⟨hp, OrderedMap.contains_eq_false_iff.2 hs⟩)
    obtain ⟨earlier, later, hsplit⟩ := List.append_of_mem hmem
    have hdistinct := horder.distinct hd
    obtain ⟨before, v, w, hv, hw, hvalue, hsame⟩ := get?_of_order h hsplit hdistinct
    have hdefault : p.evalDefault d values = p.evalDefault d before :=
      ReportParameter.evalDefault_congr fun e he name hread =>
        hsame name (horder.not_mem_later hd hsplit he hread)
    refine ⟨w, ?_, hvalue⟩
    simp [valueFor, hs, hdefault, hv, hw, bind, Except.bind]

theorem Solves.congr {a b : ParameterValues} (h : d.Solves settings supplied a)
    (hsame : ∀ name, a.get? name = b.get? name) : d.Solves settings supplied b := by
  rw [solves_iff] at h ⊢
  intro p hp
  obtain ⟨w, hw, hvalue⟩ := h p hp
  rw [valueFor_congr (b := b) fun _ _ name _ => hsame name] at hw
  exact ⟨w, hw, by rw [← hsame, hvalue]⟩

theorem mem_of_isSome_foldlM {given : ParameterValues} {order : List ReportParameter}
    (hgiven : d.suppliedValues settings supplied = .ok given) (horder : d.IsOrder supplied order)
    (h : order.foldlM (d.addDefault settings) given = .ok values) {name : String}
    (hname : (values.get? name).isSome) : name ∈ d.parameters.map (·.name) := by
  by_cases hmem : name ∈ order.map (·.name)
  · obtain ⟨p, hp, rfl⟩ := List.mem_map.1 hmem
    exact List.mem_map_of_mem (mem_unsupplied.1 (horder.complete.mem_iff.1 hp)).1
  · rw [get?_of_foldlM (fun a p b => get?_addDefault_of_ne) h hmem] at hname
    exact mem_of_isSome_suppliedValues hgiven hname

theorem get?_eq_of_valueFor_eq {a b : ParameterValues} {p : ReportParameter} (hp : p ∈ d.parameters)
    (ha : d.Solves settings supplied a) (hb : d.Solves settings supplied b)
    (hsame : d.valueFor settings supplied a p = d.valueFor settings supplied b p) :
    a.get? p.name = b.get? p.name := by
  obtain ⟨v, hv, hva⟩ := solves_iff.1 ha p hp
  obtain ⟨w, hw, hwb⟩ := solves_iff.1 hb p hp
  rw [hsame, hw, Except.ok.injEq] at hv
  rw [hva, hwb, hv]

theorem get?_eq_of_not_mem_order {a b : ParameterValues} {order : List ReportParameter}
    (horder : d.IsOrder supplied order) (ha : d.Solves settings supplied a)
    (hb : d.Solves settings supplied b)
    (hundeclared : ∀ name, name ∉ d.parameters.map (·.name) → a.get? name = b.get? name) {name : String}
    (hname : name ∉ order.map (·.name)) : a.get? name = b.get? name := by
  by_cases hdeclared : name ∈ d.parameters.map (·.name)
  · obtain ⟨p, hp, rfl⟩ := List.mem_map.1 hdeclared
    have hmem : p ∉ d.unsupplied supplied := fun h =>
      hname (List.mem_map_of_mem (horder.complete.mem_iff.2 h))
    rw [mem_unsupplied, not_and, Bool.not_eq_false] at hmem
    obtain ⟨v, hv⟩ := Option.isSome_iff_exists.1 (hmem hp)
    exact get?_eq_of_valueFor_eq hp ha hb (by simp [valueFor, hv])
  · exact hundeclared name hdeclared

/-- Along an order, equation by equation, all solutions agree. -/
theorem get?_eq_of_solves {a b : ParameterValues} {order : List ReportParameter}
    (horder : d.IsOrder supplied order) (ha : d.Solves settings supplied a)
    (hb : d.Solves settings supplied b)
    (hundeclared : ∀ name, name ∉ d.parameters.map (·.name) → a.get? name = b.get? name) (name : String) :
    a.get? name = b.get? name := by
  have hothers : ∀ name, name ∉ order.map (·.name) → a.get? name = b.get? name := fun name =>
    get?_eq_of_not_mem_order horder ha hb hundeclared
  have hearlier : ∀ earlier later, order = earlier ++ later →
      ∀ name ∈ earlier.map (·.name), a.get? name = b.get? name := by
    intro earlier
    induction earlier using List.reverseRecOn with
    | nil => simp
    | append_singleton earlier p ih =>
      intro later hsplit
      rw [List.append_assoc] at hsplit
      have hbefore := ih ([p] ++ later) hsplit
      intro name hname
      rw [List.map_append, List.mem_append] at hname
      obtain hname | hname := hname
      · exact hbefore name hname
      · obtain rfl : name = p.name := by simpa using hname
        have hp : p ∈ d.parameters := (mem_unsupplied.1 (horder.complete.mem_iff.1 (by simp [hsplit]))).1
        refine get?_eq_of_valueFor_eq hp ha hb (valueFor_congr ?_)
        intro e he other hread
        by_cases hother : other ∈ order.map (·.name)
        · exact hbefore other (horder.mem_earlier hsplit he hread hother)
        · exact hothers other hother
  by_cases hname : name ∈ order.map (·.name)
  · exact hearlier order [] (by simp) name hname
  · exact hothers name hname

theorem exists_order_of_parameterValues (hd : (d.parameters.map (·.name)).Nodup)
    (h : d.parameterValues settings supplied = .ok values) :
    ∃ order, d.IsOrder supplied order ∧ values.keys = d.parameters.map (·.name) ∧
      d.Solves settings supplied values := by
  simp only [parameterValues, bind_eq_ok] at h
  obtain ⟨given, hgiven, order, ho, found, hfound, h⟩ := h
  cases h
  have horder := isOrder_of_evaluationOrder hd ho
  have hsolves := solves_of_foldlM hd hgiven horder hfound
  have hsame := get?_declared fun name => mem_of_isSome_foldlM hgiven horder hfound
  have hsome : ∀ p ∈ d.parameters, (found.get? p.name).isSome := by
    intro p hp
    obtain ⟨w, _, hvalue⟩ := solves_iff.1 hsolves p hp
    simp [hvalue]
  exact ⟨order, horder, keys_declared hd hsome, hsolves.congr fun name => (hsame name).symm⟩

end

/-- What is resolved has the declared names in their order and solves the equations of the parameters, on
its own final values; and whatever has the declared names and solves them has the same values. -/
theorem parameterValues_unique {d : Definition} {settings : Settings} {supplied values : ParameterValues}
    (hd : (d.parameters.map (·.name)).Nodup) (h : d.parameterValues settings supplied = .ok values) :
    values.keys = d.parameters.map (·.name) ∧ d.Solves settings supplied values ∧
      ∀ other : ParameterValues, (∀ name, name ∈ other.keys ↔ name ∈ d.parameters.map (·.name)) →
        d.Solves settings supplied other → ∀ name, other.get? name = values.get? name := by
  obtain ⟨order, horder, hkeys, hsolves⟩ := exists_order_of_parameterValues hd h
  refine ⟨hkeys, hsolves, ?_⟩
  intro other hother hsolves'
  refine get?_eq_of_solves horder hsolves' hsolves ?_
  intro name hname
  have hnone : other.get? name = none := by
    rw [← hother, OrderedMap.mem_keys_iff] at hname
    simpa using hname
  rw [hnone, eq_comm]
  rw [← hkeys, OrderedMap.mem_keys_iff] at hname
  simpa using hname

/-- A parameter with a supplied value, one whose default refers to it, a list whose default refers to that,
and one without a default, each declared before what it refers to. -/
def chained : Definition where
  parameters := [
    ⟨"Names", "", .text, some (.parameter "Label"), true, none⟩,
    ⟨"Label", "", .text, some (.binary .concat (.literal (.text "Top ")) (.parameter "Count")), false, none⟩,
    ⟨"Note", "", .text, none, false, none⟩,
    ⟨"Count", "", .text, none, false, none⟩]

theorem parameterValues_of_chained :
    let supplied := OrderedMap.ofList [("Count", ParameterValue.single (.text "10"))]
    let values : ParameterValues := .ofList [("Names", .multi [.text "Top 10"]),
      ("Label", .single (.text "Top 10")), ("Note", .single .null), ("Count", .single (.text "10"))]
    (chained.parameters.map (·.name)).Nodup ∧ chained.parameterValues {} supplied = .ok values ∧
      chained.Solves {} supplied values ∧
      ∀ other : ParameterValues, (∀ name, name ∈ other.keys ↔ name ∈ ["Names", "Label", "Note", "Count"]) →
        chained.Solves {} supplied other → other.get? "Names" = some (.multi [.text "Top 10"]) := by
  intro supplied values
  have hd : (chained.parameters.map (·.name)).Nodup := by decide
  have hvalues : chained.parameterValues {} supplied = .ok values := by decide +kernel
  obtain ⟨_, hsolves, hunique⟩ := parameterValues_unique hd hvalues
  refine ⟨hd, hvalues, hsolves, ?_⟩
  intro other hkeys hother
  rw [hunique other hkeys hother]
  decide +kernel

end Definition
end TabularReport
