import TabularReport.Proofs.OrderedMap
import TabularReport.Proofs.Session.Snapshot

set_option autoImplicit false

namespace TabularReport

/-- What is left of a parameter value without its scalars. -/
inductive Shape where
  | single
  | multi (size : Nat)
  deriving DecidableEq

def ParameterValue.shape : ParameterValue → Shape
  | .single _ => .single
  | .multi vs => .multi vs.length

def Shape.placeholderNames (name : String) : Shape → List String
  | .single => [name]
  | .multi size => (List.range size).map fun i => name ++ "_" ++ natText (i + 1)

def ParameterValues.shapes (values : ParameterValues) : OrderedMap String Shape :=
  values.mapValues ParameterValue.shape

/-- The text of a command and the names of its placeholders in order. -/
def Command.outline (c : Command) : String × List String :=
  (c.text, c.params.keys)

theorem ParameterValue.map_fst_placeholders (name : String) (v : ParameterValue) :
    (v.placeholders name).map (·.1) = v.shape.placeholderNames name := by
  cases v with
  | single v => rfl
  | multi vs =>
    refine List.ext_getElem ?_ ?_
    · simp [placeholders, shape, Shape.placeholderNames]
    · intro i _ _
      simp [placeholders, shape, Shape.placeholderNames]

namespace Command

theorem map_binding? (bindings : ParameterValues) (marker : String) :
    (binding? bindings marker).map (fun b => (b.1, b.2.shape)) =
      bindings.shapes.entries.find? fun b => Text.sameIgnoringCase b.1 marker := by
  simp only [binding?, ParameterValues.shapes, OrderedMap.mapValues, List.find?_map, Function.comp_def]

def frame (part : List Char × List (String × Scalar)) : List Char × List String :=
  (part.1, part.2.map (·.1))

theorem map_ofSegment_congr {style : PlaceholderStyle} {a b : ParameterValues} (h : a.shapes = b.shapes)
    (segment : Segment) :
    (ofSegment style a segment).map frame = (ofSegment style b segment).map frame := by
  cases segment with
  | verbatim cs => rfl
  | marker name =>
    have hbinding := map_binding? a (String.ofList name)
    rw [h, ← map_binding?] at hbinding
    cases ha : binding? a (String.ofList name) with
    | none =>
      rw [ha, Option.map_none, eq_comm, Option.map_eq_none_iff] at hbinding
      simp [ofSegment, ha, hbinding]
    | some x =>
      rw [ha, Option.map_some, eq_comm, Option.map_eq_some_iff] at hbinding
      obtain ⟨y, hb, hxy⟩ := hbinding
      obtain ⟨hname, hshape⟩ := Prod.mk.inj hxy
      simp [ofSegment, ha, hb, Except.map, frame, ParameterValue.map_fst_placeholders, hname, hshape]

theorem map_outline_ofText (style : PlaceholderStyle) (bindings : ParameterValues) (text : String) :
    (ofText style bindings text).map outline =
      ((Segment.ofChars text.toList).mapM fun segment => (ofSegment style bindings segment).map frame).map
        fun frames => (String.ofList (frames.flatMap (·.1)),
          (OrderedMap.ofList ((frames.flatMap (·.2)).map fun name => (name, ()))).keys) := by
  rw [← map_mapM]
  unfold ofText
  cases (Segment.ofChars text.toList).mapM (ofSegment style bindings) with
  | error e => rfl
  | ok parts =>
    simp only [bind, Except.bind, pure, Except.pure, Except.map, outline]
    rw [OrderedMap.keys_ofList]
    simp [frame, List.flatMap_map, List.map_flatMap, Function.comp_def]

theorem map_outline_congr {a b : ParameterValues} (h : a.shapes = b.shapes) (style : PlaceholderStyle)
    (text : String) : (ofText style a text).map outline = (ofText style b text).map outline := by
  rw [map_outline_ofText, map_outline_ofText, mapM_congr fun segment _ => map_ofSegment_congr h segment]

end Command

/-- Whether two collections of values have the same names and, under each, values of the same shape. -/
def ParameterValues.SameShapes (a b : ParameterValues) : Prop :=
  ∀ name, (a.get? name).map (·.shape) = (b.get? name).map (·.shape)

/-- A query parameter takes the whole value of a report parameter that it names, or else a single one. -/
theorem QueryParameter.evaluate_cases {q : QueryParameter} {d : Definition} {values : ParameterValues}
    {v : ParameterValue} (h : q.evaluate d values = .ok v) :
    (∃ name, q.value = .parameter name ∧ values.get? name = some v) ∨
      ((∀ name, q.value ≠ .parameter name) ∧ v.shape = .single) := by
  unfold evaluate at h
  split at h
  · rename_i name hq
    cases hv : values.get? name with
    | none => simp [hv] at h
    | some w =>
      rw [hv] at h
      cases h
      exact .inl ⟨name, hq, hv⟩
  · rename_i hq
    obtain ⟨scalar, _, rfl⟩ := map_eq_ok.1 h
    exact .inr ⟨hq, rfl⟩

theorem QueryParameter.shape_eq {q : QueryParameter} {d : Definition} {a b : ParameterValues}
    {v w : ParameterValue} (hshapes : a.SameShapes b) (hv : q.evaluate d a = .ok v)
    (hw : q.evaluate d b = .ok w) : v.shape = w.shape := by
  obtain ⟨name, hq, hva⟩ | ⟨hq, hva⟩ := evaluate_cases hv
  · obtain ⟨other, hq', hwb⟩ | ⟨hq', _⟩ := evaluate_cases hw
    · rw [hq, Expr.parameter.injEq] at hq'
      subst hq'
      have hshape := hshapes name
      rw [hva, hwb] at hshape
      exact Option.some.inj hshape
    · exact absurd hq (hq' name)
  · obtain ⟨name, hq', _⟩ | ⟨_, hwb⟩ := evaluate_cases hw
    · exact absurd hq' (hq name)
    · rw [hva, hwb]

namespace DataSet

theorem shapes_addBinding {dataset : DataSet} {d : Definition}
    {a b bindings bindings' next next' : ParameterValues} {q : QueryParameter}
    (hvalues : a.SameShapes b) (hbindings : bindings.shapes = bindings'.shapes)
    (h : dataset.addBinding d a bindings q = .ok next) (h' : dataset.addBinding d b bindings' q = .ok next') :
    next.shapes = next'.shapes := by
  unfold addBinding at h h'
  split at h
  · rename_i v hv
    split at h'
    · rename_i w hw
      cases h
      cases h'
      simp only [ParameterValues.shapes, OrderedMap.mapValues_insert] at hbindings ⊢
      rw [hbindings, QueryParameter.shape_eq hvalues hv hw]
    · contradiction
  · contradiction

theorem shapes_bindings {dataset : DataSet} {d : Definition} {a b bound bound' : ParameterValues}
    (hvalues : a.SameShapes b) (h : dataset.bindings d a = .ok bound) (h' : dataset.bindings d b = .ok bound') :
    bound.shapes = bound'.shapes := by
  have hfold : ∀ (qs : List QueryParameter) (start start' : ParameterValues), start.shapes = start'.shapes →
      qs.foldlM (dataset.addBinding d a) start = .ok bound →
      qs.foldlM (dataset.addBinding d b) start' = .ok bound' → bound.shapes = bound'.shapes := by
    -- On the query parameters that are left, for any two bindings that agree so far.
    intro qs
    induction qs with
    | nil =>
      intro start start' hstart h h'
      cases h
      cases h'
      exact hstart
    | cons q qs ih =>
      intro start start' hstart h h'
      obtain ⟨next, hnext, h⟩ := bind_eq_ok.1 h
      obtain ⟨next', hnext', h'⟩ := bind_eq_ok.1 h'
      exact ih next next' (shapes_addBinding hvalues hstart hnext hnext') h h'
  exact hfold dataset.parameters ∅ ∅ rfl h h'

end DataSet

namespace Session

theorem map_outline_request {s : Session} {dataset : DataSet} {bound : ParameterValues}
    (h : dataset.bindings s.definition s.parameters = .ok bound) :
    (s.request dataset).map (fun r => (r.source, r.command.outline)) =
      match s.definition.source? dataset.sourceName with
      | none => .error (.unknownDatasource dataset.name dataset.sourceName)
      | some source => ((Command.ofText s.settings.placeholderStyle bound dataset.command).map
          Command.outline).map fun outline => (source, outline) := by
  unfold request
  cases s.definition.source? dataset.sourceName with
  | none => rfl
  | some source =>
    simp only [DataSet.commandFor, h, bind, Except.bind]
    cases Command.ofText s.settings.placeholderStyle bound dataset.command <;> rfl

theorem bindings_of_request {s : Session} {dataset : DataSet} {r : Request} (h : s.request dataset = .ok r) :
    ∃ bound, dataset.bindings s.definition s.parameters = .ok bound := by
  unfold request at h
  split at h
  · contradiction
  · obtain ⟨command, hcommand, _⟩ := bind_eq_ok.1 h
    obtain ⟨bound, hbound, _⟩ := bind_eq_ok.1 hcommand
    exact ⟨bound, hbound⟩

theorem request_congr {s t : Session} {dataset : DataSet} {bound bound' : ParameterValues}
    (hd : s.definition = t.definition) (hs : s.settings = t.settings)
    (hvalues : s.parameters.SameShapes t.parameters)
    (h : dataset.bindings s.definition s.parameters = .ok bound)
    (h' : dataset.bindings t.definition t.parameters = .ok bound') :
    (s.request dataset).map (fun r => (r.source, r.command.outline)) =
      (t.request dataset).map fun r => (r.source, r.command.outline) := by
  have hbound' : dataset.bindings s.definition t.parameters = .ok bound' := by rw [hd, h']
  have hshapes := DataSet.shapes_bindings hvalues h hbound'
  rw [map_outline_request h, map_outline_request h', hd, hs, Command.map_outline_congr hshapes]

/-- No value is ever part of a query text.  Bindings with the same names and shapes give commands of the
same outline, or the same error.  In sessions of one definition whose parameters have values of the same
shapes, the requests for a dataset have the same source, text and placeholders, whatever the values are
and whatever the runners reply. -/
theorem outline_of_shapes :
    (∀ (style : PlaceholderStyle) (text : String) (a b : ParameterValues), a.shapes = b.shapes →
      (Command.ofText style a text).map Command.outline = (Command.ofText style b text).map Command.outline) ∧
    ∀ (d : Definition) (settings : Settings) (runner runner' : Runner) (supplied supplied' : ParameterValues)
      (s t : Session), Session.start d settings runner supplied = .ok s →
      Session.start d settings runner' supplied' = .ok t → s.parameters.SameShapes t.parameters →
        (∀ dataset bound bound', dataset.bindings d s.parameters = .ok bound →
          dataset.bindings d t.parameters = .ok bound' →
          (s.request dataset).map (fun r => (r.source, r.command.outline)) =
            (t.request dataset).map fun r => (r.source, r.command.outline)) ∧
        ∀ calls calls', ∀ r ∈ (s.after calls {}).requests, ∀ r' ∈ (t.after calls' {}).requests,
          r.dataset = r'.dataset → (r.source, r.command.outline) = (r'.source, r'.command.outline) := by
  refine ⟨fun style text a b h => Command.map_outline_congr h style text, ?_⟩
  intro d settings runner runner' supplied supplied' s t hstart hstart' hvalues
  obtain ⟨rfl, rfl, _, _⟩ := parts_of_start hstart
  obtain ⟨hd, hs, _, _⟩ := parts_of_start hstart'
  constructor
  · intro dataset bound bound' h h'
    rw [← hd] at h'
    exact request_congr hd.symm hs.symm hvalues h h'
  · intro calls calls' r hr r' hr' hsame
    obtain ⟨dataset, hdataset, ha⟩ := (Moment.after .start calls : s.Moment _).consistent.requested r hr
    obtain ⟨dataset', hdataset', ha'⟩ := (Moment.after .start calls' : t.Moment _).consistent.requested r' hr'
    rw [hsame, ← hd, hdataset', Option.some.injEq] at hdataset
    subst hdataset
    obtain ⟨bound, h⟩ := bindings_of_request ha
    obtain ⟨bound', h'⟩ := bindings_of_request ha'
    have houtline := request_congr hd.symm hs.symm hvalues h h'
    rw [ha, ha'] at houtline
    exact Except.ok.inj houtline

def filteredBy (text : String) : Session where
  definition := {
    sources := [⟨"S", ""⟩]
    datasets := [⟨"D", "S", "select A from T where A = @P", [⟨"P", .parameter "P"⟩], []⟩]
    parameters := [⟨"P", "", .text, none, false, none⟩] }
  settings := {}
  parameters := .ofList [("P", .single (.text text))]
  runner _ _ := .ok []

theorem start_filteredBy (text : String) :
    start (filteredBy text).definition {} (filteredBy text).runner (filteredBy text).parameters =
      .ok (filteredBy text) := by
  rfl

theorem outline_of_filteredBy :
    (filteredBy "x").parameters.SameShapes (filteredBy "x' or 'a' = 'a").parameters ∧
      ((filteredBy "x' or 'a' = 'a").after ["D"] {}).requests ≠ [] ∧
      ∀ calls, ∀ r ∈ ((filteredBy "x' or 'a' = 'a").after calls {}).requests,
        r.dataset = "D" → r.command.outline = ("select A from T where A = :P", ["P"]) := by
  have hshapes : (filteredBy "x").parameters.SameShapes (filteredBy "x' or 'a' = 'a").parameters := by
    intro name
    simp only [filteredBy, OrderedMap.ofList, List.foldl_cons, List.foldl_nil, OrderedMap.get?_insert]
    split <;> rfl
  have hfirst : (((filteredBy "x").after ["D"] {}).requests.map fun r => (r.dataset, r.command.outline)) =
      [("D", "select A from T where A = :P", ["P"])] := by decide +kernel
  refine ⟨hshapes, by decide +kernel, ?_⟩
  intro calls r hr hdataset
  obtain ⟨r', hr', hr''⟩ := List.mem_map.1 (hfirst ▸ List.mem_singleton_self _)
  obtain ⟨hsame, houtline⟩ := Prod.mk.inj hr''
  have hboth := (outline_of_shapes.2 _ _ _ _ _ _ _ _ (start_filteredBy "x")
    (start_filteredBy "x' or 'a' = 'a") hshapes).2 ["D"] calls r' hr' r hr (by rw [hsame, hdataset])
  rw [← houtline]
  exact (Prod.mk.inj hboth).2.symm

end Session
end TabularReport
