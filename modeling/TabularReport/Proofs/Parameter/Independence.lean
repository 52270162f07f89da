import TabularReport.Proofs.Parameter.Solvable

set_option autoImplicit false

namespace TabularReport.Definition

section

variable {d : Definition} {settings : Settings} {supplied other : ParameterValues}

theorem dependencies_congr (h : ∀ p ∈ d.parameters, other.get? p.name = supplied.get? p.name)
    (p : ReportParameter) : p.dependencies d other = p.dependencies d supplied := by
  unfold ReportParameter.dependencies
  rw [List.filterMap_filter, List.filterMap_filter]
  refine List.filterMap_congr fun name _ => ?_
  cases hp : d.parameter? name with
  | none => simp
  | some q =>
    -- A supplied value counts only if its name is declared.
    obtain rfl : q.name = name := by simpa using List.find?_some hp
    rw [OrderedMap.contains_congr (h q (List.mem_of_find?_eq_some hp))]

theorem orderFrom_congr {d d' : Definition} {supplied other : ParameterValues}
    (h : ∀ p : ReportParameter, p.dependencies d' other = p.dependencies d supplied) (fuel : Nat) :
    d'.orderFrom other fuel = d.orderFrom supplied fuel := by
  induction fuel with
  | zero => rfl
  | succ fuel ih =>
    funext path order p
    simp only [orderFrom, h, ih]

theorem evaluationOrder_congr (h : ∀ p ∈ d.parameters, other.get? p.name = supplied.get? p.name) :
    d.evaluationOrder other = d.evaluationOrder supplied := by
  have hunsupplied : d.parameters.filter (fun p => !other.contains p.name) =
      d.parameters.filter fun p => !supplied.contains p.name :=
    List.filter_congr fun p hp => by rw [OrderedMap.contains_congr (h p hp)]
  rw [evaluationOrder, evaluationOrder, hunsupplied, orderFrom_congr (dependencies_congr h)]

theorem suppliedValues_congr (h : ∀ p ∈ d.parameters, other.get? p.name = supplied.get? p.name) :
    d.suppliedValues settings other = d.suppliedValues settings supplied :=
  foldlM_congr (fun values p hp => by rw [addSupplied, addSupplied, h p hp]) ∅

end

section

variable {d : Definition} {settings : Settings} {supplied values : ParameterValues}
  {ps : List ReportParameter}

theorem refersTo_perm (h : ps.Perm d.parameters) (a b : String) :
    RefersTo { d with parameters := ps } supplied a b ↔ d.RefersTo supplied a b := by
  simp only [RefersTo, mem_unsupplied, h.mem_iff]

theorem acyclic_perm (h : ps.Perm d.parameters) :
    Acyclic { d with parameters := ps } supplied ↔ d.Acyclic supplied := by
  have hsame : RefersTo { d with parameters := ps } supplied = d.RefersTo supplied :=
    funext fun a => funext fun b => propext (refersTo_perm h a b)
  rw [Acyclic, Acyclic, hsame]

theorem valueFor_perm (ps : List ReportParameter) (p : ReportParameter) :
    valueFor { d with parameters := ps } settings supplied values p = d.valueFor settings supplied values p := by
  have hdatasets : ∀ name, dataset? { d with parameters := ps } name = d.dataset? name := fun _ => rfl
  rw [valueFor, valueFor, p.evalDefault_congr_datasets hdatasets]

theorem solves_perm (h : ps.Perm d.parameters) :
    Solves { d with parameters := ps } settings supplied values ↔ d.Solves settings supplied values := by
  simp only [solves_iff, valueFor_perm, h.mem_iff]

theorem exists_parameterValues_perm (hd : (d.parameters.map (·.name)).Nodup) (h : ps.Perm d.parameters)
    (hvalues : d.parameterValues settings supplied = .ok values) :
    ∃ values', parameterValues { d with parameters := ps } settings supplied = .ok values' ∧
      ∀ name, values'.get? name = values.get? name := by
  obtain ⟨hacyclic, hkeys, hsolves⟩ := (parameterValues_eq_ok_iff hd).1 hvalues
  have hnames : (ps.map (·.name)).Nodup := (h.map _).nodup_iff.2 hd
  refine exists_parameterValues hnames ((acyclic_perm h).2 hacyclic) ((solves_perm h).2 hsolves) ?_
  intro name hname
  rw [← OrderedMap.mem_keys_iff, hkeys] at hname
  exact (h.map _).mem_iff.2 hname

end

/-- Resolution reads the supplied values of declared names only.  Any permutation of the declarations can
be resolved just if the declarations can, and then every name has the same value. -/
theorem parameterValues_independent {d : Definition} (hd : (d.parameters.map (·.name)).Nodup)
    (settings : Settings) (supplied : ParameterValues) :
    (∀ other : ParameterValues, (∀ p ∈ d.parameters, other.get? p.name = supplied.get? p.name) →
      d.parameterValues settings other = d.parameterValues settings supplied) ∧
    ∀ ps, ps.Perm d.parameters →
      ((∃ values, parameterValues { d with parameters := ps } settings supplied = .ok values) ↔
        ∃ values, d.parameterValues settings supplied = .ok values) ∧
      ∀ values values', d.parameterValues settings supplied = .ok values →
        parameterValues { d with parameters := ps } settings supplied = .ok values' →
        ∀ name, values'.get? name = values.get? name := by
  constructor
  · intro other h
    rw [parameterValues, parameterValues, suppliedValues_congr h, evaluationOrder_congr h]
  · intro ps h
    have hnames : (ps.map (·.name)).Nodup := (h.map _).nodup_iff.2 hd
    refine ⟨⟨?_, ?_⟩, ?_⟩
    · rintro ⟨values, hvalues⟩
      obtain ⟨values', hvalues', _⟩ := exists_parameterValues_perm hnames h.symm hvalues
      exact ⟨values', hvalues'⟩
    · rintro ⟨values, hvalues⟩
      obtain ⟨values', hvalues', _⟩ := exists_parameterValues_perm hd h hvalues
      exact ⟨values', hvalues'⟩
    · intro values values' hvalues hvalues'
      obtain ⟨found, hfound, hsame⟩ := exists_parameterValues_perm hd h hvalues
      rw [hvalues', Except.ok.injEq] at hfound
      rwa [hfound]

def dangling : Definition where
  parameters := [⟨"Label", "", .text, some (.parameter "Region"), false, none⟩]

theorem parameterValues_of_extraAndReversed :
    (dangling.parameterValues {} (.ofList [("Region", .single (.text "North"))]) =
      .error (.defaultValue "Label" (.unknownParameter "Region"))) ∧
    let supplied := OrderedMap.ofList [("Count", ParameterValue.single (.text "10"))]
    let reversed : Definition := { chained with parameters := chained.parameters.reverse }
    ∃ values, reversed.parameterValues {} supplied = .ok values ∧
      values.get? "Names" = some (.multi [.text "Top 10"]) := by
  refine ⟨?_, ?_⟩
  · have hd : (dangling.parameters.map (·.name)).Nodup := by decide
    have hextra := (parameterValues_independent hd {} ∅).1 (.ofList [("Region", .single (.text "North"))])
      (by decide)
    rw [hextra]
    decide +kernel
  · intro supplied reversed
    have hd : (chained.parameters.map (·.name)).Nodup := by decide
    have hvalues : chained.parameterValues {} supplied = .ok (.ofList [("Names", .multi [.text "Top 10"]),
        ("Label", .single (.text "Top 10")), ("Note", .single .null), ("Count", .single (.text "10"))]) := by
      decide +kernel
    obtain ⟨hiff, hsame⟩ := (parameterValues_independent hd {} supplied).2 _ (List.reverse_perm _)
    obtain ⟨values, hreversed⟩ := hiff.2 ⟨_, hvalues⟩
    refine ⟨values, hreversed, ?_⟩
    rw [hsame _ _ hvalues hreversed]
    decide +kernel

end TabularReport.Definition
