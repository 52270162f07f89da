import TabularReport.Proofs.Calendar.ReadBack
import TabularReport.Proofs.Number.Text
import TabularReport.Proofs.Parameter.Independence
import TabularReport.Proofs.Parameter.Typed

set_option autoImplicit false

namespace TabularReport

namespace Double

theorem IsDecimal.not_isBlank {cs : List Char} {c : Char} (h : IsDecimal cs) (hc : c ∈ cs) :
    Text.isBlank c = false := by
  cases h with
  | whole _ _ hds => exact Text.isBlank_of_isDigit (hds c hc)
  | point ds fraction _ hds hfraction =>
    obtain hc | hc := List.mem_append.1 hc
    · exact Text.isBlank_of_isDigit (hds c hc)
    · obtain rfl | hc := List.mem_cons.1 hc
      · rfl
      · exact Text.isBlank_of_isDigit (hfraction c hc)

theorem isProper_numberText {x : Double} (h : x.isFinite = true) : Text.IsProper (Scalar.numberText x) := by
  have hunsigned (m : Magnitude) : Text.IsProper (Scalar.numberText (.finite false m)) := by
    obtain ⟨cs, htext, hdecimal, _⟩ := exists_numberText m
    obtain ⟨d, ds, rfl, _⟩ := hdecimal.exists_cons
    rw [htext]
    refine Text.isProper_of_forall (by simp) fun c hc => ?_
    rw [String.toList_ofList] at hc
    exact hdecimal.not_isBlank hc
  have hminus : Text.IsProper "-" := Text.isProper_of_forall (by decide) (by simp [Text.isBlank])
  cases x with
  | nan | infinite s => contradiction
  | finite s m =>
    cases s with
    | false => exact hunsigned m
    | true =>
      by_cases hm : m = .zero
      · rw [hm, numberText_negativeZero]
        exact hunsigned .zero
      · rw [numberText_minus hm]
        exact hminus.append (hunsigned m)

theorem unsignedZero_cases (x : Double) : x.unsignedZero = x ∨ x = .finite true .zero := by
  unfold unsignedZero
  split
  · rename_i hzero
    obtain ⟨s, rfl⟩ := isZero_iff.1 hzero
    cases s
    · exact .inl rfl
    · exact .inr rfl
  · exact .inl rfl

theorem same_unsignedZero {x : Double} (h : x.isFinite = true) : x.unsignedZero.same x = true := by
  obtain hsame | rfl := x.unsignedZero_cases
  · have hnan : x.isNan = false := by
      cases x <;> first | contradiction | rfl
    rw [hsame, same_iff hnan]
    exact .inl rfl
  · rfl

theorem isFinite_of_isWhole {x : Double} (h : x.isWhole = true) : x.isFinite = true := by
  cases x <;> first | contradiction | rfl

end Double

namespace Scalar

def unsignedZero : Scalar → Scalar
  | .number x => .number x.unsignedZero
  | v => v

theorem isBlankText_of_isProper {s : String} (h : Text.IsProper s) : (Scalar.text s).isBlankText = false := by
  obtain ⟨hne, htrim⟩ := Text.isProper_iff.1 h
  rw [isBlankText, htrim]
  simpa using hne

theorem number?_numberText {x : Double} (h : x.isFinite = true) :
    (Scalar.text (numberText x)).number? = some x.unsignedZero := by
  rw [number?, (Double.isProper_numberText h).trimList_toList, Double.readChars?_numberText]

theorem unsignedZero_eq {v : Scalar} (h : ∀ x, v ≠ .number x) : v.unsignedZero = v := by
  cases v with
  | number x => exact absurd rfl (h x)
  | null | text s | boolean b | date t => rfl

theorem hasType_unsignedZero {type : ParameterType} {v : Scalar} (h : v.hasType type = true) :
    v.unsignedZero.hasType type = true := by
  cases v with
  | number x =>
    obtain hsame | rfl := x.unsignedZero_cases
    · rwa [unsignedZero, hsame]
    · cases type <;> exact h
  | null | text s | boolean b | date t => exact h

theorem isFinite_of_hasType {type : ParameterType} {x : Double} (h : (Scalar.number x).hasType type = true) :
    x.isFinite = true := by
  cases type with
  | integer => exact Double.isFinite_of_isWhole h
  | float => exact h
  | text | boolean | dateTime => contradiction

theorem coerce?_display {settings : Settings} {type : ParameterType} {v : Scalar}
    (hformats : settings.dateFormats = defaultDateFormats) (htype : v.hasType type = true)
    (hfraction : ∀ t, v = .date t → t.fraction = 0) :
    (Scalar.text v.display).coerce? settings type = some v.unsignedZero := by
  have hunsigned := hasType_unsignedZero htype
  cases type with
  | text =>
    cases v with
    | text s => rfl
    | null | number x | boolean b | date t => contradiction
  | boolean =>
    cases v with
    | boolean b => cases b <;> rfl
    | null | text s | number x | date t => contradiction
  | integer =>
    cases v with
    | number x =>
      have hfinite := isFinite_of_hasType htype
      have hblank := isBlankText_of_isProper (Double.isProper_numberText hfinite)
      have hwhole : x.unsignedZero.isWhole = true := hunsigned
      simp [coerce?, isNull, display, hblank, toInteger?, number?_numberText hfinite, hwhole, unsignedZero]
    | null | text s | boolean b | date t => contradiction
  | float =>
    cases v with
    | number x =>
      have hblank := isBlankText_of_isProper (Double.isProper_numberText htype)
      have hfinite : x.unsignedZero.isFinite = true := hunsigned
      simp [coerce?, isNull, display, hblank, toFloat?, number?_numberText htype, hfinite, unsignedZero]
    | null | text s | boolean b | date t => contradiction
  | dateTime =>
    cases v with
    | date t =>
      have hblank := isBlankText_of_isProper t.isProper_text
      have hread := DateTime.readDate?_text hformats (hfraction t rfl)
      simp [coerce?, isNull, display, hblank, toDate?, hread, unsignedZero]
    | null | text s | number x | boolean b => contradiction

end Scalar

namespace Definition

section

variable {d : Definition} {settings : Settings} {supplied other : ParameterValues}

theorem evaluationOrder_congr_contains (h : ∀ name, other.contains name = supplied.contains name) :
    d.evaluationOrder other = d.evaluationOrder supplied := by
  have hdependencies : ∀ p : ReportParameter, p.dependencies d other = p.dependencies d supplied := by
    intro p
    simp only [ReportParameter.dependencies, h]
  simp only [evaluationOrder, h, orderFrom_congr hdependencies]

theorem contains_insert (supplied : ParameterValues) (key name : String) (v : ParameterValue) :
    (supplied.insert key v).contains name = (name = key || supplied.contains name) := by
  rw [OrderedMap.contains, OrderedMap.get?_insert]
  split <;> simp [*, OrderedMap.contains]

/-- Values that are coerced to one value cannot be told apart. -/
theorem parameterValues_insert_congr {p : ReportParameter} {v w : ParameterValue}
    (hd : (d.parameters.map (·.name)).Nodup) (hp : p ∈ d.parameters) (h : p.coerce settings v = p.coerce settings w) :
    d.parameterValues settings (supplied.insert p.name v) = d.parameterValues settings (supplied.insert p.name w) := by
  have hgiven : d.suppliedValues settings (supplied.insert p.name v) =
      d.suppliedValues settings (supplied.insert p.name w) := by
    refine foldlM_congr (fun values q hq => ?_) ∅
    rw [addSupplied, addSupplied, OrderedMap.get?_insert, OrderedMap.get?_insert]
    by_cases hname : q.name = p.name
    · obtain rfl := eq_of_name_eq hd hq hp hname
      simp only [if_true, h]
    · simp only [hname, if_false]
  have horder : d.evaluationOrder (supplied.insert p.name v) = d.evaluationOrder (supplied.insert p.name w) :=
    evaluationOrder_congr_contains fun name => by rw [contains_insert, contains_insert]
  rw [parameterValues, parameterValues, hgiven, horder]

theorem get?_of_parameterValues {values : ParameterValues} {p : ReportParameter} {v w : ParameterValue}
    (hd : (d.parameters.map (·.name)).Nodup) (h : d.parameterValues settings supplied = .ok values)
    (hp : p ∈ d.parameters) (hv : supplied.get? p.name = some v) (hw : p.coerce settings v = .ok w) :
    values.get? p.name = some w := by
  obtain ⟨_, _, _, hsolves⟩ := exists_order_of_parameterValues hd h
  obtain ⟨w', hw', hvalue⟩ := hsolves.given p hp v hv
  rw [hw, Except.ok.injEq] at hw'
  rw [hvalue, hw']

theorem parameterValues_of_singleton {p : ReportParameter} {v w : ParameterValue} (hp : d.parameters = [p])
    (hv : supplied.get? p.name = some v) (hw : p.coerce settings v = .ok w) :
    d.parameterValues settings supplied = .ok (.ofList [(p.name, w)]) := by
  have hgiven : d.suppliedValues settings supplied = .ok (OrderedMap.insert ∅ p.name w) := by
    simp [suppliedValues, hp, addSupplied, hv, hw, bind, Except.bind]
    rfl
  have horder : d.evaluationOrder supplied = .ok [] := by
    simp [evaluationOrder, hp, OrderedMap.contains, hv]
    rfl
  simp [parameterValues, hgiven, horder, hp, bind, Except.bind, pure, Except.pure]

/-- The plain text of a value of the type is resolved as the value, a negative zero as zero.  Whatever else is
declared and supplied, the text cannot be told from the value. -/
theorem parameterValues_of_display {p : ReportParameter} {v : Scalar}
    (hd : (d.parameters.map (·.name)).Nodup) (hp : p ∈ d.parameters) (hsingle : p.multiValue = false)
    (hformats : settings.dateFormats = defaultDateFormats) (htype : v.hasType p.type = true)
    (hfraction : ∀ t, v = .date t → t.fraction = 0) (supplied : ParameterValues) :
    p.coerce settings (.single (.text v.display)) = .ok (.single v.unsignedZero) ∧
      ((∀ x, v ≠ .number x) → v.unsignedZero = v) ∧
      (∀ x, v = .number x → v.unsignedZero = .number x.unsignedZero ∧ x.unsignedZero.same x = true) ∧
      d.parameterValues settings (supplied.insert p.name (.single (.text v.display))) =
        d.parameterValues settings (supplied.insert p.name (.single v.unsignedZero)) ∧
      (∀ values, d.parameterValues settings (supplied.insert p.name (.single (.text v.display))) = .ok values →
        values.get? p.name = some (.single v.unsignedZero)) ∧
      (d.parameters = [p] → d.parameterValues settings (supplied.insert p.name (.single (.text v.display))) =
        .ok (.ofList [(p.name, .single v.unsignedZero)])) := by
  have htext : p.coerce settings (.single (.text v.display)) = .ok (.single v.unsignedZero) := by
    simp [ReportParameter.coerce, hsingle, ParameterValue.reshape, ParameterValue.mapM,
      Scalar.coerce?_display hformats htype hfraction]
  have hvalue : p.coerce settings (.single v.unsignedZero) = .ok (.single v.unsignedZero) := by
    simp [ReportParameter.coerce, hsingle, ParameterValue.reshape, ParameterValue.mapM,
      Scalar.coerce?_of_hasType settings (.inr (Scalar.hasType_unsignedZero htype))]
  have hget : (supplied.insert p.name (.single (.text v.display))).get? p.name =
      some (.single (.text v.display)) := by
    rw [OrderedMap.get?_insert, if_pos rfl]
  refine ⟨htext, Scalar.unsignedZero_eq, ?number, ?same, ?resolved, ?alone⟩
  case number =>
    rintro x rfl
    exact ⟨rfl, Double.same_unsignedZero (Scalar.isFinite_of_hasType htype)⟩
  case same => exact parameterValues_insert_congr hd hp (htext.trans hvalue.symm)
  case resolved => exact fun values h => get?_of_parameterValues hd h hp hget htext
  case alone => exact fun honly => parameterValues_of_singleton honly hget htext

end

def dueDate : ReportParameter :=
  ⟨"Due", "", .dateTime, none, false, none⟩

theorem parameterValues_of_leapSecond :
    let d : Definition := { parameters := [dueDate] }
    let t : DateTime := ⟨-61, 86399, 1000000000, by decide, by decide, by decide, by decide, by decide⟩
    (Scalar.date t).display = "-0001-12-31 23:59:60" ∧ (Scalar.date t).hasType .dateTime = true ∧ t.fraction = 0 ∧
      d.parameterValues {} (.ofList [("Due", .single (.text "-0001-12-31 23:59:60"))]) =
        .ok (.ofList [("Due", .single (.date t))]) := by
  intro d t
  have htext : (Scalar.date t).display = "-0001-12-31 23:59:60" := by decide +kernel
  have hfraction : t.fraction = 0 := by decide
  have hformats : ({} : Settings).dateFormats = defaultDateFormats := rfl
  obtain ⟨-, -, -, -, -, halone⟩ :=
    parameterValues_of_display (d := d) (p := dueDate) (v := .date t) (by decide) (by decide) rfl hformats rfl
      (by rintro _ ⟨⟩; exact hfraction) ∅
  rw [htext] at halone
  exact ⟨htext, rfl, hfraction, halone rfl⟩

end Definition

end TabularReport
