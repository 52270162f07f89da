import TabularReport.Query.Command
import TabularReport.Proofs.Number.Digits
import TabularReport.Proofs.OrderedMap
import TabularReport.Proofs.Outcome
import TabularReport.Proofs.Text.Proper
/-!
What a command hands over under the names of its placeholders.  All markers of a text write into one map.
Numbered names of two lists never meet, and a numbered name differs from that of its own list; but a
single value may have a numbered name for its own.  Then one of the two values is lost, and without such a
clash every placeholder carries its own value.
-/
set_option autoImplicit false

namespace TabularReport

def numberedName (name : String) (i : Nat) : String :=
  name ++ "_" ++ natText (i + 1)

theorem numberedName_inj {a b : String} {i j : Nat} (h : numberedName a i = numberedName b j) :
    a = b ∧ i = j := by
  have hchars : ∀ (s : String) n, (numberedName s n).toList.reverse =
      (digitsOf (n + 1)).reverse ++ '_' :: s.toList.reverse := by
    intro s n
    simp [numberedName, natText]
  have hdigit : ∀ n, ∀ c ∈ (digitsOf n).reverse, c.isDigit = true := by
    intro n c hc
    exact isDigit_of_mem_digitsOf (List.mem_reverse.1 hc)
  have hmark : ∀ cs, Text.Stops Char.isDigit ('_' :: cs) := fun cs => Text.stops_cons.2 rfl
  -- Read from the end: digits up to an underscore, then the name.
  have hends := congrArg (fun s => s.toList.reverse) h
  simp only [hchars] at hends
  have hdigits := congrArg (List.takeWhile Char.isDigit) hends
  have hnames := congrArg (List.dropWhile Char.isDigit) hends
  rw [Text.takeWhile_run (hdigit _) (hmark _), Text.takeWhile_run (hdigit _) (hmark _),
    List.reverse_inj] at hdigits
  rw [Text.dropWhile_run (hdigit _) (hmark _), Text.dropWhile_run (hdigit _) (hmark _), List.cons.injEq,
    List.reverse_inj, String.toList_inj] at hnames
  exact ⟨hnames.2, Nat.succ.inj (digitsOf_injective hdigits)⟩

theorem ParameterValue.mem_placeholders_single {name key : String} {v w : Scalar} :
    (key, w) ∈ (single v).placeholders name ↔ key = name ∧ w = v := by
  simp [placeholders]

theorem ParameterValue.mem_placeholders_multi {name key : String} {vs : List Scalar} {w : Scalar} :
    (key, w) ∈ (multi vs).placeholders name ↔
      ∃ i : Fin vs.length, key = numberedName name i ∧ w = vs[i] := by
  simp only [placeholders, List.mem_mapIdx, Prod.mk.injEq, numberedName]
  constructor
  · rintro ⟨i, hi, rfl, rfl⟩
    exact ⟨⟨i, hi⟩, rfl, rfl⟩
  · rintro ⟨i, rfl, rfl⟩
    exact ⟨i, i.isLt, rfl, rfl⟩

def Segment.binding? (bindings : ParameterValues) : Segment → Option (String × ParameterValue)
  | .verbatim _ => none
  | .marker name => Command.binding? bindings (String.ofList name)

namespace Command

variable {style : PlaceholderStyle} {bindings : ParameterValues} {text : String} {c : Command}

/-- The parameters that the markers of a text are matched to, in the order of the markers. -/
def matched (bindings : ParameterValues) (text : String) : List (String × ParameterValue) :=
  (Segment.ofChars text.toList).filterMap (Segment.binding? bindings)

theorem mem_entries_of_matched {b : String × ParameterValue} (h : b ∈ matched bindings text) :
    b ∈ bindings.entries := by
  obtain ⟨segment, _, hb⟩ := List.mem_filterMap.1 h
  cases segment with
  | verbatim cs => contradiction
  | marker name => exact List.mem_of_find?_eq_some hb

theorem snd_of_ofSegment {segment : Segment} {part : List Char × List (String × Scalar)}
    (h : ofSegment style bindings segment = .ok part) :
    part.2 = ((segment.binding? bindings).toList.flatMap fun b => b.2.placeholders b.1) := by
  cases segment with
  | verbatim cs =>
    cases h
    rfl
  | marker name =>
    simp only [ofSegment] at h
    split at h
    · contradiction
    · rename_i hb
      cases h
      simp [Segment.binding?, hb]

def written (bindings : ParameterValues) (text : String) : List (String × Scalar) :=
  (matched bindings text).flatMap fun b => b.2.placeholders b.1

theorem params_of_ofText (h : ofText style bindings text = .ok c) :
    c.params = .ofList (written bindings text) := by
  obtain ⟨parts, hparts, h⟩ := bind_eq_ok.1 h
  cases h
  have hsnd := map_mapM_of_forall (g := (·.2)) hparts fun segment _ part hpart => snd_of_ofSegment hpart
  simp only [written, matched, List.filterMap_eq_flatMap_toList, List.flatMap_assoc]
  rw [List.flatMap_def, hsnd, List.flatMap_def]

/-- Whether the command hands the value over under the names that stand for it. -/
def Carries (c : Command) (name : String) : ParameterValue → Prop
  | .single v => c.params.get? name = some v
  | .multi vs => ∀ i : Fin vs.length, c.params.get? (numberedName name i) = some vs[i]

theorem carries_iff {name : String} {value : ParameterValue} :
    c.Carries name value ↔ ∀ key v, (key, v) ∈ value.placeholders name → c.params.get? key = some v := by
  cases value with
  | single v => simp [Carries, ParameterValue.mem_placeholders_single]
  | multi vs =>
    simp only [Carries, ParameterValue.mem_placeholders_multi]
    constructor
    · rintro h key v ⟨i, rfl, rfl⟩
      exact h i
    · intro h i
      exact h _ _ ⟨i, rfl, rfl⟩

/-- Whether the single value `a` has the name, and not the value, of an element of the list `b`. -/
def Clash (a b : String × ParameterValue) : Prop :=
  match a.2, b.2 with
  | .single v, .multi vs => ∃ i : Fin vs.length, a.1 = numberedName b.1 i ∧ v ≠ vs[i]
  | _, _ => False

instance : (a b : String × ParameterValue) → Decidable (Clash a b)
  | (name, .single v), (other, .multi vs) =>
    inferInstanceAs (Decidable (∃ i : Fin vs.length, name = numberedName other i ∧ v ≠ vs[i]))
  | (_, .single _), (_, .single _) => inferInstanceAs (Decidable False)
  | (_, .multi _), (_, _) => inferInstanceAs (Decidable False)

theorem clash_of_ne {a b : String × ParameterValue} {key : String} {v w : Scalar}
    (ha : a ∈ bindings.entries) (hb : b ∈ bindings.entries) (hv : (key, v) ∈ a.2.placeholders a.1)
    (hw : (key, w) ∈ b.2.placeholders b.1) (hne : v ≠ w) : Clash a b ∨ Clash b a := by
  obtain ⟨name, value⟩ := a
  obtain ⟨other, value'⟩ := b
  have hsame : name = other → value = value' := by
    rintro rfl
    exact OrderedMap.eq_of_mem_entries ha hb
  cases value with
  | single v' =>
    obtain ⟨rfl, rfl⟩ := ParameterValue.mem_placeholders_single.1 hv
    cases value' with
    | single w' =>
      obtain ⟨rfl, rfl⟩ := ParameterValue.mem_placeholders_single.1 hw
      cases hsame rfl
      exact absurd rfl hne
    | multi ws =>
      obtain ⟨i, hname, rfl⟩ := ParameterValue.mem_placeholders_multi.1 hw
      exact .inl ⟨i, hname, hne⟩
  | multi vs =>
    obtain ⟨i, hname, rfl⟩ := ParameterValue.mem_placeholders_multi.1 hv
    cases value' with
    | single w' =>
      obtain ⟨rfl, rfl⟩ := ParameterValue.mem_placeholders_single.1 hw
      exact .inr ⟨i, hname, hne.symm⟩
    | multi ws =>
      obtain ⟨j, hname', rfl⟩ := ParameterValue.mem_placeholders_multi.1 hw
      obtain ⟨rfl, hij⟩ := numberedName_inj (hname.symm.trans hname')
      cases hsame rfl
      exact absurd (by simp [hij]) hne

theorem mem_written_iff {e : String × Scalar} :
    e ∈ written bindings text ↔ ∃ b ∈ matched bindings text, e ∈ b.2.placeholders b.1 :=
  List.mem_flatMap

theorem get?_of_not_clash (h : ofText style bindings text = .ok c)
    (hclash : ∀ a ∈ matched bindings text, ∀ b ∈ matched bindings text, ¬ Clash a b)
    {key : String} {v : Scalar} (hv : (key, v) ∈ written bindings text) : c.params.get? key = some v := by
  rw [params_of_ofText h]
  have hkey : key ∈ (written bindings text).map (·.1) := List.mem_map_of_mem (f := (·.1)) hv
  obtain ⟨w, hw⟩ := Option.isSome_iff_exists.1 (OrderedMap.isSome_get?_ofList.2 hkey)
  obtain ⟨a, ha, hva⟩ := mem_written_iff.1 hv
  obtain ⟨b, hb, hwb⟩ := mem_written_iff.1 (OrderedMap.mem_of_get?_ofList hw)
  by_cases hne : v = w
  · rw [hw, hne]
  · rcases clash_of_ne (mem_entries_of_matched ha) (mem_entries_of_matched hb) hva hwb hne with h | h
    · exact absurd h (hclash a ha b hb)
    · exact absurd h (hclash b hb a ha)

theorem not_carries_of_clash {a b : String × ParameterValue} (h : Clash a b) (ha : c.Carries a.1 a.2) :
    ¬ c.Carries b.1 b.2 := by
  obtain ⟨name, value⟩ := a
  obtain ⟨other, value'⟩ := b
  cases value with
  | multi vs => exact absurd h id
  | single v =>
    cases value' with
    | single w => exact absurd h id
    | multi ws =>
      obtain ⟨i, rfl, hne⟩ := h
      intro hb
      exact hne (Option.some.inj (ha.symm.trans (hb i)))

/-- Every marker is handed its own value exactly if no single value that is asked for has the name, and
not the value, of an element of a list that is asked for.  In any case the command has the placeholders of
its markers and no others, and of the values that are written to one name it has the last. -/
theorem carries_iff_not_clash (h : ofText style bindings text = .ok c) :
    ((∀ b ∈ matched bindings text, c.Carries b.1 b.2) ↔
      ∀ a ∈ matched bindings text, ∀ b ∈ matched bindings text, ¬ Clash a b) ∧
    (∀ key, key ∈ c.params.keys ↔ ∃ b ∈ matched bindings text, ∃ v, (key, v) ∈ b.2.placeholders b.1) ∧
    ∀ key, c.params.get? key = ((written bindings text).reverse.find? (·.1 = key)).map (·.2) := by
  refine ⟨⟨?_, ?_⟩, ?_, ?_⟩
  · intro hcarries a ha b hb hclash
    exact not_carries_of_clash hclash (hcarries a ha) (hcarries b hb)
  · intro hclash b hb
    exact carries_iff.2 fun key v hv => get?_of_not_clash h hclash (mem_written_iff.2 ⟨b, hb, hv⟩)
  · intro key
    rw [OrderedMap.mem_keys_iff, params_of_ofText h, OrderedMap.isSome_get?_ofList, List.mem_map]
    constructor
    · rintro ⟨⟨_, v⟩, he, rfl⟩
      obtain ⟨b, hb, hv⟩ := mem_written_iff.1 he
      exact ⟨b, hb, v, hv⟩
    · rintro ⟨b, hb, v, hv⟩
      exact ⟨(key, v), mem_written_iff.2 ⟨b, hb, hv⟩, rfl⟩
  · intro key
    rw [params_of_ofText h, OrderedMap.get?_ofList]

def regionAndStatus : ParameterValues :=
  .ofList [("Region", .single (.text "North")), ("Status", .multi [.text "open", .text "held"]),
    ("Status_3", .single .null)]

theorem carries_regionAndStatus :
    ∃ c, ofText .colon regionAndStatus "r = @REGION or (s in (@status) and t = @Status_3) or u = @region" = .ok c ∧
      (∀ b ∈ matched regionAndStatus "r = @REGION or (s in (@status) and t = @Status_3) or u = @region",
        c.Carries b.1 b.2) ∧
      c.params.keys = ["Region", "Status_1", "Status_2", "Status_3"] := by
  have h : ofText .colon regionAndStatus "r = @REGION or (s in (@status) and t = @Status_3) or u = @region" =
      .ok ⟨"r = :Region or (s in (:Status_1, :Status_2) and t = :Status_3) or u = :Region",
        .ofList [("Region", .text "North"), ("Status_1", .text "open"), ("Status_2", .text "held"),
          ("Status_3", .null)]⟩ := by decide +kernel
  exact ⟨_, h, (carries_iff_not_clash h).1.2 (by decide +kernel), by decide +kernel⟩

def statusTwice : ParameterValues :=
  .ofList [("Status", .multi [.text "open", .text "held"]), ("Status_1", .single (.text "closed"))]

theorem lost_of_statusTwice :
    (∀ a ∈ statusTwice.entries, ∀ b ∈ statusTwice.entries, Text.sameIgnoringCase a.1 b.1 → a = b) ∧
      ("Status_1", .single (.text "closed")) ∈ matched statusTwice "t = @Status_1 and s in (@Status)" ∧
      ∃ c, ofText .colon statusTwice "t = @Status_1 and s in (@Status)" = .ok c ∧
        c.params.get? "Status_1" = some (.text "open") ∧ ¬ c.Carries "Status_1" (.single (.text "closed")) := by
  refine ⟨by decide +kernel, by decide +kernel, ⟨"t = :Status_1 and s in (:Status_1, :Status_2)",
    .ofList [("Status_1", .text "open"), ("Status_2", .text "held")]⟩, ?_, ?_, ?_⟩
  · decide +kernel
  · decide +kernel
  · unfold Carries
    decide +kernel

end Command
end TabularReport
