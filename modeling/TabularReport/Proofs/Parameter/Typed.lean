import TabularReport.Proofs.Parameter.Solvable

set_option autoImplicit false

namespace TabularReport

namespace Scalar

def hasType : Scalar → ParameterType → Bool
  | .text _, .text => true
  | .boolean _, .boolean => true
  | .number x, .integer => x.isWhole
  | .number x, .float => x.isFinite
  | .date _, .dateTime => true
  | _, _ => false

theorem hasType_of_toInteger? {v w : Scalar} (h : v.toInteger? = some w) : w.hasType .integer = true := by
  obtain ⟨x, hx, rfl⟩ := Option.map_eq_some_iff.1 h
  exact (Option.filter_eq_some_iff.1 hx).2

theorem hasType_of_toFloat? {v w : Scalar} (h : v.toFloat? = some w) : w.hasType .float = true := by
  obtain ⟨x, hx, rfl⟩ := Option.map_eq_some_iff.1 h
  exact (Option.filter_eq_some_iff.1 hx).2

theorem hasType_of_toBoolean? {v w : Scalar} (h : v.toBoolean? = some w) : w.hasType .boolean = true := by
  cases v with
  | boolean b =>
    cases h
    rfl
  | text s =>
    rw [toBoolean?, Option.map_eq_some_iff] at h
    obtain ⟨b, _, rfl⟩ := h
    rfl
  | null | number x | date t => contradiction

theorem hasType_of_toDate? {settings : Settings} {v w : Scalar} (h : v.toDate? settings = some w) :
    w.hasType .dateTime = true := by
  cases v with
  | date t =>
    cases h
    rfl
  | text s =>
    rw [toDate?, Option.map_eq_some_iff] at h
    obtain ⟨t, _, rfl⟩ := h
    rfl
  | null | number x | boolean b => contradiction

theorem hasType_of_coerce? {settings : Settings} {type : ParameterType} {v w : Scalar}
    (h : v.coerce? settings type = some w) : w = .null ∨ w.hasType type = true := by
  have hblank : ∀ o : Option Scalar, (if v.isBlankText then some Scalar.null else o) = some w →
      w = .null ∨ o = some w := by
    intro o ho
    split at ho
    · cases ho
      exact .inl rfl
    · exact .inr ho
  unfold coerce? at h
  split at h
  · cases h
    exact .inl rfl
  · cases type with
    | text =>
      cases h
      exact .inr rfl
    | integer => exact (hblank _ h).imp_right hasType_of_toInteger?
    | float => exact (hblank _ h).imp_right hasType_of_toFloat?
    | boolean => exact (hblank _ h).imp_right hasType_of_toBoolean?
    | dateTime => exact (hblank _ h).imp_right hasType_of_toDate?

theorem coerce?_of_hasType {type : ParameterType} {v : Scalar} (settings : Settings)
    (h : v = .null ∨ v.hasType type = true) : v.coerce? settings type = some v := by
  obtain rfl | h := h
  · rfl
  cases type with
  | text =>
    cases v with
    | text s => rfl
    | null | number x | boolean b | date t => contradiction
  | boolean =>
    cases v with
    | boolean b => rfl
    | null | text s | number x | date t => contradiction
  | integer =>
    cases v with
    | number x =>
      have hx : x.isWhole = true := h
      simp [coerce?, isNull, isBlankText, toInteger?, number?, hx]
    | null | text s | boolean b | date t => contradiction
  | float =>
    cases v with
    | number x =>
      have hx : x.isFinite = true := h
      simp [coerce?, isNull, isBlankText, toFloat?, number?, hx]
    | null | text s | boolean b | date t => contradiction
  | dateTime =>
    cases v with
    | date t => rfl
    | null | text s | number x | boolean b => contradiction

end Scalar

namespace ParameterValue

def isMulti : ParameterValue → Bool
  | .single _ => false
  | .multi _ => true

theorem isMulti_reshape (multiValue : Bool) (v : ParameterValue) : (v.reshape multiValue).isMulti = multiValue := by
  cases multiValue <;> cases v <;> rfl

theorem reshape_of_isMulti (v : ParameterValue) : v.reshape v.isMulti = v := by
  cases v <;> rfl

section

variable {ε : Type} {f : Scalar → Except ε Scalar} {v w : ParameterValue}

theorem mapM_of_forall (h : ∀ x ∈ v.values, f x = .ok x) : v.mapM f = .ok v := by
  cases v with
  | single x =>
    rw [mapM, h x (List.mem_singleton_self x)]
    rfl
  | multi vs =>
    have hvs : vs.mapM f = .ok vs := mapM_eq_ok_iff.2 (List.forall₂_same.2 h)
    rw [mapM, hvs]
    rfl

theorem isMulti_of_mapM (h : v.mapM f = .ok w) : w.isMulti = v.isMulti := by
  cases v <;> obtain ⟨_, _, rfl⟩ := map_eq_ok.1 h <;> rfl

theorem exists_of_mem_values {x : Scalar} (h : v.mapM f = .ok w) (hx : x ∈ w.values) : ∃ y, f y = .ok x := by
  cases v with
  | single y =>
    obtain ⟨z, hz, rfl⟩ := map_eq_ok.1 h
    obtain rfl := List.mem_singleton.1 hx
    exact ⟨y, hz⟩
  | multi vs =>
    obtain ⟨ws, hws, rfl⟩ := map_eq_ok.1 h
    obtain ⟨y, _, hy⟩ := exists_of_mem_mapM hws hx
    exact ⟨y, hy⟩

end

end ParameterValue

namespace ReportParameter

/-- Whether the parameter can have the value: a list or a single value as declared, and in it nothing but
Null and values of the declared type. -/
structure Admits (p : ReportParameter) (v : ParameterValue) : Prop where
  shape : v.isMulti = p.multiValue
  typed : ∀ x ∈ v.values, x = .null ∨ x.hasType p.type = true

theorem admits_of_coerce {p : ReportParameter} {settings : Settings} {v w : ParameterValue}
    (h : p.coerce settings v = .ok w) : p.Admits w := by
  refine ⟨?_, ?_⟩
  · rw [ParameterValue.isMulti_of_mapM h, ParameterValue.isMulti_reshape]
  · intro x hx
    obtain ⟨y, hy⟩ := ParameterValue.exists_of_mem_values h hx
    cases hc : y.coerce? settings p.type with
    | none => simp [hc] at hy
    | some z =>
      simp only [hc, Option.elim_some, Except.ok.injEq] at hy
      exact hy ▸ Scalar.hasType_of_coerce? hc

theorem Admits.coerce {p : ReportParameter} {v : ParameterValue} (h : p.Admits v) (settings : Settings) :
    p.coerce settings v = .ok v := by
  have hshape : v.reshape p.multiValue = v := by rw [← h.shape, v.reshape_of_isMulti]
  rw [ReportParameter.coerce, hshape]
  refine ParameterValue.mapM_of_forall fun x hx => ?_
  rw [Scalar.coerce?_of_hasType settings (h.typed x hx), Option.elim_some]

end ReportParameter

namespace Definition

section

variable {d : Definition} {settings : Settings} {supplied values : ParameterValues}

theorem Solves.exists_admits (h : d.Solves settings supplied values) {p : ReportParameter}
    (hp : p ∈ d.parameters) : ∃ w, values.get? p.name = some w ∧ p.Admits w := by
  obtain ⟨w, hw, hvalue⟩ := solves_iff.1 h p hp
  refine ⟨w, hvalue, ?_⟩
  unfold valueFor at hw
  split at hw
  · exact ReportParameter.admits_of_coerce hw
  · obtain ⟨v, _, hw⟩ := bind_eq_ok.1 hw
    exact ReportParameter.admits_of_coerce hw

theorem acyclic_of_supplied (h : ∀ p ∈ d.parameters, (supplied.get? p.name).isSome) : d.Acyclic supplied := by
  intro name hcycle
  obtain ⟨_, ⟨p, hp, _⟩, _⟩ := Relation.TransGen.head'_iff.1 hcycle
  obtain ⟨hp, hs⟩ := mem_unsupplied.1 hp
  rw [OrderedMap.contains, h p hp] at hs
  contradiction

theorem solves_self (h : ∀ p ∈ d.parameters, ∃ w, values.get? p.name = some w ∧ p.Admits w)
    (settings : Settings) : d.Solves settings values values := by
  rw [solves_iff]
  intro p hp
  obtain ⟨w, hvalue, hw⟩ := h p hp
  exact ⟨w, by simp only [valueFor, hvalue, hw.coerce], hvalue⟩

end

/-- What is resolved is well typed, and supplied again it resolves to itself, under any settings. -/
theorem admits_of_parameterValues {d : Definition} {settings : Settings} {supplied values : ParameterValues}
    (hd : (d.parameters.map (·.name)).Nodup) (h : d.parameterValues settings supplied = .ok values) :
    (∀ p ∈ d.parameters, ∃ w, values.get? p.name = some w ∧ p.Admits w) ∧
      ∀ other : Settings, d.parameterValues other values = .ok values := by
  obtain ⟨_, hkeys, hsolves⟩ := (parameterValues_eq_ok_iff hd).1 h
  have hadmits : ∀ p ∈ d.parameters, ∃ w, values.get? p.name = some w ∧ p.Admits w :=
    fun p hp => hsolves.exists_admits hp
  refine ⟨hadmits, fun other => ?_⟩
  have hsome : ∀ p ∈ d.parameters, (values.get? p.name).isSome := by
    intro p hp
    obtain ⟨w, hw, _⟩ := hadmits p hp
    simp [hw]
  exact (parameterValues_eq_ok_iff hd).2 ⟨acyclic_of_supplied hsome, hkeys, solves_self hadmits other⟩

def assorted : Definition where
  parameters := [
    ⟨"Days", "", .integer, none, true, none⟩,
    ⟨"From", "", .dateTime, none, false, none⟩,
    ⟨"Urgent", "", .boolean, none, false, none⟩,
    ⟨"Share", "", .float, some (.binary .divide (.parameter "Days") (.literal (.number (.ofNat 2)))), false, none⟩,
    ⟨"Label", "", .text, some (.binary .concat (.parameter "Days") (.literal (.text " days"))), true, none⟩]

theorem admits_of_assorted :
    let supplied := OrderedMap.ofList [("Days", ParameterValue.single (.text " 7 ")), ("From", .single (.text " ")),
      ("Urgent", .multi [.text "TRUE", .text "no"])]
    let values : ParameterValues := .ofList [("Days", .multi [.number (.ofNat 7)]), ("From", .single .null),
      ("Urgent", .single (.boolean true)), ("Share", .single (.number (.ofNat 7 / .ofNat 2))),
      ("Label", .multi [.text "7 days"])]
    (assorted.parameters.map (·.name)).Nodup ∧ assorted.parameterValues {} supplied = .ok values ∧
      (∀ p ∈ assorted.parameters, ∃ w, values.get? p.name = some w ∧ p.Admits w) ∧
      assorted.parameterValues {} values = .ok values := by
  intro supplied values
  have hd : (assorted.parameters.map (·.name)).Nodup := by decide
  have hvalues : assorted.parameterValues {} supplied = .ok values := by decide +kernel
  obtain ⟨hadmits, hagain⟩ := admits_of_parameterValues hd hvalues
  exact ⟨hd, hvalues, hadmits, hagain {}⟩

end Definition
end TabularReport
