import TabularReport.Proofs.Parameter.Solution

set_option autoImplicit false

namespace TabularReport.Definition

section

variable {d : Definition} {settings : Settings} {supplied values solution : ParameterValues}
  {order : List ReportParameter}

theorem exists_addDefault {earlier later : List ReportParameter} {p : ReportParameter}
    (hd : (d.parameters.map (·.name)).Nodup) (horder : d.IsOrder supplied order)
    (hsplit : order = earlier ++ p :: later) (hsolution : d.Solves settings supplied solution)
    (hvalues : ∀ name, name ∉ (p :: later).map (·.name) → values.get? name = solution.get? name) :
    ∃ after, d.addDefault settings values p = .ok after ∧
      ∀ name, name ∉ later.map (·.name) → after.get? name = solution.get? name := by
  obtain ⟨hp, hs⟩ := mem_unsupplied.1 (horder.complete.mem_iff.1 (by simp [hsplit] : p ∈ order))
  have hdefault : p.evalDefault d values = p.evalDefault d solution :=
    ReportParameter.evalDefault_congr fun e he name hread =>
      hvalues name (horder.not_mem_later hd hsplit he hread)
  obtain ⟨w, hw, hvalue⟩ := solves_iff.1 hsolution p hp
  rw [OrderedMap.contains_eq_false_iff] at hs
  simp only [valueFor, hs, bind_eq_ok] at hw
  obtain ⟨v, hv, hw⟩ := hw
  refine ⟨values.insert p.name w, ?_, ?_⟩
  · simp [addDefault, hdefault, hv, hw, bind, Except.bind, pure, Except.pure]
  · intro name hname
    rw [OrderedMap.get?_insert]
    split
    · rename_i heq
      rw [heq, hvalue]
    · rename_i hne
      exact hvalues name (by simpa [hne] using hname)

theorem exists_foldlM_addDefault {earlier later : List ReportParameter}
    (hd : (d.parameters.map (·.name)).Nodup) (horder : d.IsOrder supplied order)
    (hsplit : order = earlier ++ later) (hsolution : d.Solves settings supplied solution)
    (hvalues : ∀ name, name ∉ later.map (·.name) → values.get? name = solution.get? name) :
    ∃ last, later.foldlM (d.addDefault settings) values = .ok last ∧
      ∀ name, last.get? name = solution.get? name := by
  induction later generalizing earlier values with
  | nil => exact ⟨values, rfl, fun name => hvalues name (by simp)⟩
  | cons p later ih =>
    obtain ⟨after, hafter, hsame⟩ := exists_addDefault hd horder hsplit hsolution hvalues
    have hsplit' : order = (earlier ++ [p]) ++ later := by simp [hsplit]
    obtain ⟨last, hlast, hall⟩ := ih hsplit' hsame
    exact ⟨last, by rw [List.foldlM_cons, hafter]; exact hlast, hall⟩

theorem get?_suppliedValues_eq {given : ParameterValues} (hd : (d.parameters.map (·.name)).Nodup)
    (horder : d.IsOrder supplied order) (hgiven : d.suppliedValues settings supplied = .ok given)
    (hsolution : d.Solves settings supplied solution)
    (hdeclared : ∀ name, (solution.get? name).isSome → name ∈ d.parameters.map (·.name)) {name : String}
    (hname : name ∉ order.map (·.name)) : given.get? name = solution.get? name := by
  by_cases hmem : name ∈ d.parameters.map (·.name)
  · obtain ⟨p, hp, rfl⟩ := List.mem_map.1 hmem
    have hsupplied : supplied.get? p.name ≠ none := by
      intro hnone
      have hunsupplied := mem_unsupplied.2 ⟨hp, OrderedMap.contains_eq_false_iff.2 hnone⟩
      exact hname (List.mem_map_of_mem (horder.complete.mem_iff.2 hunsupplied))
    obtain ⟨v, hv⟩ := Option.ne_none_iff_exists'.1 hsupplied
    obtain ⟨w, hw, hvalue⟩ := get?_suppliedValues hd hgiven hp hv
    obtain ⟨w', hw', hvalue'⟩ := hsolution.given p hp v hv
    rw [hw, Except.ok.injEq] at hw'
    rw [hvalue, hvalue', hw']
  · have hgiven' := mt (mem_of_isSome_suppliedValues hgiven) hmem
    have hsolution' := mt (hdeclared name) hmem
    rw [Option.not_isSome_iff_eq_none] at hgiven' hsolution'
    rw [hgiven', hsolution']

end

section

variable {d : Definition} {settings : Settings} {supplied values solution : ParameterValues}

theorem exists_parameterValues (hd : (d.parameters.map (·.name)).Nodup) (hacyclic : d.Acyclic supplied)
    (hsolution : d.Solves settings supplied solution)
    (hdeclared : ∀ name, (solution.get? name).isSome → name ∈ d.parameters.map (·.name)) :
    ∃ values, d.parameterValues settings supplied = .ok values ∧
      ∀ name, values.get? name = solution.get? name := by
  obtain ⟨order, ho⟩ := (exists_evaluationOrder_iff hd).2 hacyclic
  have horder := isOrder_of_evaluationOrder hd ho
  obtain ⟨given, hgiven⟩ : ∃ given, d.suppliedValues settings supplied = .ok given := by
    refine exists_suppliedValues fun p hp v hv => ?_
    obtain ⟨w, hw, _⟩ := hsolution.given p hp v hv
    exact ⟨w, hw⟩
  obtain ⟨found, hfound, hsame⟩ := exists_foldlM_addDefault hd horder (List.nil_append order).symm hsolution
    fun name => get?_suppliedValues_eq hd horder hgiven hsolution hdeclared
  refine ⟨_, by rw [parameterValues, hgiven, ho]; simp only [bind, Except.bind, hfound]; rfl, ?_⟩
  intro name
  rw [get?_declared fun name hname => hdeclared name (by rwa [← hsame]), hsame]

/-- Resolution gives the values that have the declared names in their order and solve the equations, where
the references are acyclic, and it gives no others. -/
theorem parameterValues_eq_ok_iff (hd : (d.parameters.map (·.name)).Nodup) :
    d.parameterValues settings supplied = .ok values ↔ d.Acyclic supplied ∧
      values.keys = d.parameters.map (·.name) ∧ d.Solves settings supplied values := by
  constructor
  · intro h
    obtain ⟨order, horder, hkeys, hsolves⟩ := exists_order_of_parameterValues hd h
    exact ⟨horder.acyclic hd, hkeys, hsolves⟩
  · rintro ⟨hacyclic, hkeys, hsolves⟩
    have hdeclared : ∀ name, (values.get? name).isSome → name ∈ d.parameters.map (·.name) := by
      intro name hname
      rwa [← hkeys, OrderedMap.mem_keys_iff]
    obtain ⟨found, hfound, hsame⟩ := exists_parameterValues hd hacyclic hsolves hdeclared
    obtain ⟨_, _, hkeys', _⟩ := exists_order_of_parameterValues hd hfound
    rw [hfound, OrderedMap.eq_of_get?_eq (hkeys'.trans hkeys.symm) hsame]

end

end TabularReport.Definition
