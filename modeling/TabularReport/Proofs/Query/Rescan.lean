import TabularReport.Proofs.Number.Digits
import TabularReport.Proofs.Query.Segmentation
/-!
Rewriting a command text a second time.  A placeholder without an at sign is made of characters that open
no segment, and it starts with one that closes none and makes no mark with the character before it.  So no
marker is left in such a text, though a placeholder may become the end of a system variable.  With an at
sign a placeholder of a single value is a marker again, and it names the same parameter.
-/
set_option autoImplicit false

namespace TabularReport

theorem Text.isAlpha_iff {c : Char} :
    c.isAlpha = true ↔ ('A'.val ≤ c.val ∧ c.val ≤ 'Z'.val) ∨ ('a'.val ≤ c.val ∧ c.val ≤ 'z'.val) := by
  have hupper : c.isUpper = true ↔ 'A'.val ≤ c.val ∧ c.val ≤ 'Z'.val := decide_eq_true_iff
  have hlower : c.isLower = true ↔ 'a'.val ≤ c.val ∧ c.val ≤ 'z'.val :=
    Bool.and_eq_true_iff.trans (and_congr decide_eq_true_iff decide_eq_true_iff)
  rw [← hupper, ← hlower]
  exact Bool.or_eq_true_iff

theorem Text.toLower_cases (c : Char) : c.toLower = c ∨ c.isAlpha = true ∧ c.toLower.isAlpha = true := by
  rw [isAlpha_iff, isAlpha_iff]
  unfold Char.toLower
  split
  · rename_i h
    refine .inr ⟨.inl h, .inr ?_⟩
    grind
  · exact .inl rfl

theorem Text.toNat_lt_of_isAlphanum {c : Char} (h : c.isAlphanum = true) : c.toNat < 128 := by
  have hz : 'Z'.val.toNat = 90 ∧ 'z'.val.toNat = 122 ∧ '9'.val.toNat = 57 := by decide
  have hc : c.toNat = c.val.toNat := rfl
  rw [Char.isAlphanum, Bool.or_eq_true, isAlpha_iff] at h
  simp only [Char.isDigit, Bool.and_eq_true, decide_eq_true_eq, UInt32.le_iff_toNat_le, ge_iff_le] at h
  omega

theorem Text.isLetter_of_isAlpha {c : Char} (h : c.isAlpha = true) : isLetter c = true := by
  have hlt : c.toNat < 128 := toNat_lt_of_isAlphanum (by rw [Char.isAlphanum, h, Bool.true_or])
  rw [isLetter, if_pos hlt, h]

namespace Segment

/-! ### Names of markers -/

theorem isNamePart_of_isNameStart {c : Char} (h : isNameStart c = true) : isNamePart c = true := by
  unfold isNameStart at h
  unfold isNamePart Text.isLetterOrNumeral
  grind

theorem isNamePart_of_isDigit {c : Char} (h : c.isDigit = true) : isNamePart c = true := by
  have hlt : c.toNat < 128 := Text.toNat_lt_of_isAlphanum (by rw [Char.isAlphanum, h, Bool.or_true])
  simp [isNamePart, Text.isLetterOrNumeral, Text.isNumeral, hlt, h]

theorem isNameStart_congr {c d : Char} (h : c.toLower = d.toLower) : isNameStart c = isNameStart d := by
  have hlower (c : Char) : isNameStart c.toLower = isNameStart c := by
    obtain hc | ⟨hc, hlower⟩ := Text.toLower_cases c
    · rw [hc]
    · rw [isNameStart, isNameStart, Text.isLetter_of_isAlpha hc, Text.isLetter_of_isAlpha hlower, Bool.true_or,
        Bool.true_or]
  rw [← hlower c, h, hlower]

theorem isNamePart_congr {c d : Char} (h : c.toLower = d.toLower) : isNamePart c = isNamePart d := by
  have hlower (c : Char) : isNamePart c.toLower = isNamePart c := by
    obtain hc | ⟨hc, hlower⟩ := Text.toLower_cases c
    · rw [hc]
    · have hstart (d : Char) (hd : d.isAlpha = true) : isNamePart d = true :=
        isNamePart_of_isNameStart (by rw [isNameStart, Text.isLetter_of_isAlpha hd, Bool.true_or])
      rw [hstart c hc, hstart _ hlower]
  rw [← hlower c, h, hlower]

structure IsName (cs : List Char) : Prop where
  start : ∃ c ∈ cs.head?, isNameStart c = true
  parts : ∀ c ∈ cs, isNamePart c = true

theorem leads_marker_iff {name rest : List Char} :
    (marker name).Leads rest ↔ IsName name ∧ Text.Stops isNamePart rest := by
  constructor
  · rintro ⟨⟩
    rename_i c cs hc hcs hrest
    exact ⟨⟨⟨c, rfl, hc⟩, List.forall_mem_cons.2 ⟨isNamePart_of_isNameStart hc, hcs⟩⟩, hrest⟩
  · rintro ⟨⟨⟨c, hc, hstart⟩, hparts⟩, hrest⟩
    cases name with
    | nil => cases hc
    | cons d cs =>
      cases hc
      exact .marker c cs rest hstart (fun d hd => hparts d (List.mem_cons_of_mem c hd)) hrest

theorem IsName.congr {cs ds : List Char} (h : IsName cs) (hsame : ds.map Char.toLower = cs.map Char.toLower) :
    IsName ds := by
  constructor
  · obtain ⟨c, hc, hstart⟩ := h.start
    have hhead : ds.head?.map Char.toLower = some c.toLower := by
      rw [← List.head?_map, hsame, List.head?_map, Option.mem_def.1 hc, Option.map_some]
    obtain ⟨d, hd, hlower⟩ := Option.map_eq_some_iff.1 hhead
    exact ⟨d, hd, by rw [isNameStart_congr hlower, hstart]⟩
  · intro d hd
    have hmem : d.toLower ∈ cs.map Char.toLower := hsame ▸ List.mem_map_of_mem hd
    obtain ⟨c, hc, hlower⟩ := List.mem_map.1 hmem
    rw [← isNamePart_congr hlower, h.parts c hc]

/-! ### Texts without markers -/

/-- Whether `c` opens none of the longer segments, whatever follows it. -/
def Inert (c : Char) : Prop :=
  c ∉ ['\'', '"', '[', '-', '/', '@']

theorem Inert.plain {c : Char} (h : Inert c) (rest : List Char) : Plain c rest := by
  simp only [Inert, List.mem_cons, List.not_mem_nil, or_false, not_or] at h
  simp [Plain, quotes, h]

theorem inert_of_isNamePart {c : Char} (h : isNamePart c = true) : Inert c := by
  intro hc
  simp only [List.mem_cons, List.not_mem_nil, or_false] at hc
  rcases hc with rfl | rfl | rfl | rfl | rfl | rfl <;> contradiction

def Unmarked (cs : List Char) : Prop :=
  ∀ name, .marker name ∉ ofChars cs

theorem unmarked_nil : Unmarked [] := by
  simp [Unmarked, ofChars]

theorem ofChars_append {segment : Segment} {rest : List Char} (h : segment.Leads rest) :
    ofChars (segment.chars ++ rest) = segment :: ofChars rest :=
  (segmented_iff.1 (.cons segment rest _ h (segmented_iff.2 rfl))).symm

theorem unmarked_append {run rest : List Char} (h : (verbatim run).Leads rest) :
    Unmarked (run ++ rest) ↔ Unmarked rest := by
  have hsegments : ofChars (run ++ rest) = .verbatim run :: ofChars rest := ofChars_append h
  simp [Unmarked, hsegments]

theorem unmarked_inert_append {run : List Char} (h : ∀ c ∈ run, Inert c) (rest : List Char) :
    Unmarked (run ++ rest) ↔ Unmarked rest := by
  induction run with
  | nil => rfl
  | cons c run ih =>
    rw [List.forall_mem_cons] at h
    have hfront : Unmarked (c :: (run ++ rest)) ↔ Unmarked (run ++ rest) :=
      unmarked_append (.plain c _ (h.1.plain _))
    exact hfront.trans (ih h.2)

theorem unmarked_systemVariable (cs : List Char) : Unmarked ('@' :: '@' :: cs) ↔ Unmarked cs := by
  have hrun : ∀ c ∈ cs.takeWhile isNamePart, isNamePart c = true := fun c hc => Text.mem_takeWhile hc
  have hvariable := unmarked_append (.systemVariable _ _ hrun (Text.stops_dropWhile cs))
  have hname := unmarked_inert_append (fun c hc => inert_of_isNamePart (hrun c hc)) (cs.dropWhile isNamePart)
  simp only [List.cons_append, List.takeWhile_append_dropWhile] at hvariable hname
  exact hvariable.trans hname.symm

theorem Leads.congr {segment : Segment} {rest rest' : List Char} (h : segment.Leads rest)
    (hhead : rest'.head? = rest.head?) : segment.Leads rest' := by
  have hstops {p : Char → Bool} (hrest : Text.Stops p rest) : Text.Stops p rest' := by
    unfold Text.Stops at hrest ⊢
    rwa [hhead]
  have hnil (hrest : rest = []) : rest' = [] := by
    rwa [hrest, List.head?_nil, List.head?_eq_none_iff] at hhead
  cases h with
  | quoted opening close content _ hquotes hrest => exact .quoted _ _ _ _ hquotes (hstops hrest)
  | openQuoted opening close content hquotes =>
    rw [hnil rfl]
    exact .openQuoted _ _ _ hquotes
  | lineComment cs _ hcs hrest => exact .lineComment _ _ hcs (hstops hrest)
  | blockComment cs _ hinside => exact .blockComment _ _ hinside
  | openBlockComment cs hinside =>
    rw [hnil rfl]
    exact .openBlockComment _ hinside
  | systemVariable cs _ hcs hrest => exact .systemVariable _ _ hcs (hstops hrest)
  | marker c cs _ hc hcs hrest => exact .marker _ _ _ hc hcs (hstops hrest)
  | plain c _ hplain =>
    refine .plain c rest' ?_
    unfold Plain at hplain ⊢
    rwa [hhead]

/-! ### Placeholders without an at sign -/

def openings : List Char :=
  [':', '%', '$', 'N']

/-- Whether the characters can stand for a marker without being one. -/
structure IsPlaceholder (cs : List Char) : Prop where
  start : ∃ c ∈ cs.head?, c ∈ openings
  inert : ∀ c ∈ cs, Inert c

/-- Whether the second text starts like the first, or with a placeholder in place of a marker. -/
def StartsLike (cs cs' : List Char) : Prop :=
  cs'.head? = cs.head? ∨ cs.head? = some '@' ∧ ∃ c ∈ cs'.head?, c ∈ openings

/-- A segment that is no marker adds none in front of a text that starts like what followed it. -/
theorem Unmarked.append {run rest rest' : List Char} (hrest : Unmarked rest') (h : (verbatim run).Leads rest)
    (hstart : StartsLike rest rest') : Unmarked (run ++ rest') := by
  obtain hhead | ⟨hat, c, hc, hopening⟩ := hstart
  · exact (unmarked_append (h.congr hhead)).2 hrest
  · rw [Option.mem_def] at hc
    cases h with
    | quoted opening close content _ hquotes _ =>
      have hclose : ∀ c ∈ openings, ∀ q ∈ quotes, (c == q.2) = false := by simp [openings, quotes]
      have hstops : Text.Stops (· == close) rest' := by
        simpa [Text.Stops, hc] using hclose c hopening _ hquotes
      exact (unmarked_append (.quoted opening close content rest' hquotes hstops)).2 hrest
    | openQuoted | openBlockComment => contradiction
    | lineComment cs _ _ hend => exact absurd (hend '@' hat) (by decide)
    | blockComment cs _ hinside => exact (unmarked_append (.blockComment cs rest' hinside)).2 hrest
    | systemVariable cs _ hcs _ =>
      -- The placeholder may go on with the name of the variable.
      refine (unmarked_systemVariable (cs ++ rest')).2 ?_
      exact (unmarked_inert_append (fun c hc => inert_of_isNamePart (hcs c hc)) rest').2 hrest
    | plain d _ hplain =>
      have hmarks : ∀ c ∈ openings, c ≠ '-' ∧ c ≠ '*' := by simp [openings]
      obtain ⟨hquote, _, _, hsign⟩ := hplain
      have hd : d ≠ '@' := fun hd => (hsign hd '@' hat).1 rfl
      refine (unmarked_append (.plain d rest' ⟨hquote, ?_, ?_, fun h => absurd h hd⟩)).2 hrest
      · simp [hc, (hmarks c hopening).1]
      · simp [hc, (hmarks c hopening).2]

theorem IsPlaceholder.intercalate {blocks : List (List Char)} (hne : blocks ≠ [])
    (h : ∀ cs ∈ blocks, IsPlaceholder cs) : IsPlaceholder ([',', ' '].intercalate blocks) := by
  induction blocks with
  | nil => contradiction
  | cons cs blocks ih =>
    rw [List.forall_mem_cons] at h
    obtain ⟨⟨⟨c, hc, hopening⟩, hinert⟩, h⟩ := h
    by_cases hlast : blocks = []
    · subst hlast
      rw [List.intercalate_singleton]
      exact ⟨⟨c, hc, hopening⟩, hinert⟩
    · have hseparator : ∀ c ∈ [',', ' '], Inert c := by simp [Inert]
      rw [List.intercalate_cons_of_ne_nil hlast, List.append_assoc]
      refine ⟨⟨c, ?_, hopening⟩, List.forall_mem_append.2 ⟨hinert, List.forall_mem_append.2 ⟨hseparator, ?_⟩⟩⟩
      · rw [List.head?_append, Option.mem_def.1 hc, Option.some_or]
        rfl
      · exact (ih hlast h).inert

end Segment

namespace Command

variable {style : PlaceholderStyle} {bindings : ParameterValues} {text : String} {c : Command}

theorem exists_render (hstyle : style ≠ .atSign) (name : String) : ∃ c before after,
    (style.render name).toList = c :: before ++ name.toList ++ after ∧ c ∈ Segment.openings ∧
      ∀ d ∈ c :: before ++ after, Segment.Inert d := by
  cases style with
  | atSign => contradiction
  | colon => exact ⟨':', [], [], by simp [PlaceholderStyle.render], by decide, by simp [Segment.Inert]⟩
  | pyformat =>
    exact ⟨'%', ['('], [')', 's'], by simp [PlaceholderStyle.render], by decide, by simp [Segment.Inert]⟩
  | dollar => exact ⟨'$', [], [], by simp [PlaceholderStyle.render], by decide, by simp [Segment.Inert]⟩

theorem isPlaceholder_render (hstyle : style ≠ .atSign) {name : String}
    (h : ∀ c ∈ name.toList, Segment.isNamePart c = true) : Segment.IsPlaceholder (style.render name).toList := by
  obtain ⟨c, before, after, htext, hopening, hinert⟩ := exists_render hstyle name
  rw [List.forall_mem_append] at hinert
  rw [htext]
  refine ⟨⟨c, rfl, hopening⟩, ?_⟩
  refine List.forall_mem_append.2 ⟨List.forall_mem_append.2 ⟨hinert.1, fun d hd => ?_⟩, hinert.2⟩
  exact Segment.inert_of_isNamePart (h d hd)

theorem isPlaceholder_rendering (hstyle : style ≠ .atSign) {name : String} (h : Segment.IsName name.toList)
    (value : ParameterValue) : Segment.IsPlaceholder (rendering style name value).toList := by
  cases value with
  | single v => exact isPlaceholder_render hstyle h.parts
  | multi vs =>
    cases vs with
    | nil =>
      have hnull : ∀ c ∈ "NULL".toList, Segment.Inert c := by simp [Segment.Inert]
      exact ⟨⟨'N', by simp [rendering], by decide⟩, hnull⟩
    | cons v vs =>
      rw [rendering, String.toList_intercalate]
      refine .intercalate (by simp) ?_
      simp only [List.mem_map, forall_exists_index, and_imp]
      rintro _ _ i _ rfl rfl
      refine isPlaceholder_render hstyle ?_
      have hdigits : ∀ c ∈ (natText (i + 1)).toList, Segment.isNamePart c = true := by
        intro c hc
        rw [natText, String.toList_ofList] at hc
        exact Segment.isNamePart_of_isDigit (isDigit_of_mem_digitsOf hc)
      have hline : ∀ c ∈ "_".toList, Segment.isNamePart c = true := by simp [Segment.isNamePart]
      rw [String.toList_append, String.toList_append]
      exact List.forall_mem_append.2 ⟨List.forall_mem_append.2 ⟨h.parts, hline⟩, hdigits⟩

theorem exists_binding? {marker : List Char} (h : Bound bindings marker) : ∃ name value,
    binding? bindings (String.ofList marker) = some (name, value) ∧
      name.toList.map Char.toLower = marker.map Char.toLower := by
  obtain ⟨⟨name, value⟩, hb⟩ := Option.isSome_iff_exists.1 (bound_iff.1 h)
  have hsame := List.find?_some hb
  simp only [Text.sameIgnoringCase, String.toList_ofList, beq_iff_eq] at hsame
  exact ⟨name, value, hb, hsame⟩

theorem replacement_marker {marker : List Char} {name : String} {value : ParameterValue}
    (h : binding? bindings (String.ofList marker) = some (name, value)) :
    replacement style bindings (.marker marker) = (rendering style name value).toList := by
  unfold binding? at h
  simp only [replacement, h]

/-- A text in which all markers are replaced starts like the old one, and it has no marker. -/
theorem unmarked_replaced (hstyle : style ≠ .atSign) {cs : List Char} {segments : List Segment}
    (h : Segment.Segmented cs segments) (hbound : ∀ name, .marker name ∈ segments → Bound bindings name) :
    Segment.StartsLike cs (segments.flatMap (replacement style bindings)) ∧
      Segment.Unmarked (segments.flatMap (replacement style bindings)) := by
  induction h with
  | nil => exact ⟨.inl rfl, Segment.unmarked_nil⟩
  | cons segment rest segments hleads _ ih =>
    obtain ⟨hstart, hrest⟩ := ih fun name hname => hbound name (List.mem_cons_of_mem _ hname)
    rw [List.flatMap_cons]
    cases segment with
    | verbatim run =>
      refine ⟨.inl ?_, hrest.append hleads hstart⟩
      obtain ⟨d, ds, rfl⟩ : ∃ d ds, run = d :: ds := by cases hleads <;> exact ⟨_, _, rfl⟩
      rfl
    | marker marker =>
      obtain ⟨name, value, hb, hsame⟩ := exists_binding? (hbound marker List.mem_cons_self)
      obtain ⟨hname, _⟩ := Segment.leads_marker_iff.1 hleads
      obtain ⟨⟨d, hd, hopening⟩, hinert⟩ := isPlaceholder_rendering hstyle (hname.congr hsame) value
      rw [replacement_marker hb]
      refine ⟨.inr ⟨rfl, d, ?_, hopening⟩, (Segment.unmarked_inert_append hinert _).2 hrest⟩
      rw [List.head?_append, Option.mem_def.1 hd, Option.some_or]
      rfl

theorem ofText_of_unmarked (h : Segment.Unmarked text.toList) (style : PlaceholderStyle)
    (bindings : ParameterValues) : ofText style bindings text = .ok ⟨text, ∅⟩ := by
  have hparts : (Segment.ofChars text.toList).mapM (ofSegment style bindings) =
      .ok ((Segment.ofChars text.toList).map fun segment => (segment.chars, [])) := by
    refine mapM_eq_ok_iff.2 (List.forall₂_map_right_iff.2 (List.forall₂_same.2 fun segment hsegment => ?_))
    cases segment with
    | verbatim run => rfl
    | marker name => exact absurd hsegment (h name)
  have htext : ((Segment.ofChars text.toList).map fun segment =>
      (segment.chars, ([] : List (String × Scalar)))).flatMap (·.1) = text.toList := by
    rw [List.flatMap_map]
    exact Segment.flatMap_chars_ofChars _
  have hparams : ((Segment.ofChars text.toList).map fun segment =>
      (segment.chars, ([] : List (String × Scalar)))).flatMap (·.2) = [] := by
    simp
  simp only [ofText, hparts, bind, Except.bind, pure, Except.pure, htext, hparams, String.ofList_toList]
  rfl

/-! ### Markers again -/

def declared (bindings : ParameterValues) : Segment → Segment
  | .verbatim cs => .verbatim cs
  | .marker name => .marker ((binding? bindings (String.ofList name)).elim name fun b => b.1.toList)

theorem declared_marker {marker : List Char} {name : String} {value : ParameterValue}
    (h : binding? bindings (String.ofList marker) = some (name, value)) :
    declared bindings (.marker marker) = .marker name.toList := by
  simp [declared, h]

theorem chars_declared (hsingle : ∀ b ∈ bindings.entries, ∃ v, b.2 = .single v) {segment : Segment}
    (hbound : ∀ name, segment = .marker name → Bound bindings name) :
    (declared bindings segment).chars = replacement .atSign bindings segment := by
  cases segment with
  | verbatim run => rfl
  | marker marker =>
    obtain ⟨name, value, hb, _⟩ := exists_binding? (hbound marker rfl)
    obtain ⟨v, rfl⟩ := hsingle _ (List.mem_of_find?_eq_some hb)
    rw [declared_marker hb, replacement_marker hb]
    simp [Segment.chars, rendering, PlaceholderStyle.render]

theorem map_toLower_declared {segment : Segment}
    (hbound : ∀ name, segment = .marker name → Bound bindings name) :
    (declared bindings segment).chars.map Char.toLower = segment.chars.map Char.toLower := by
  cases segment with
  | verbatim run => rfl
  | marker marker =>
    obtain ⟨name, value, hb, hsame⟩ := exists_binding? (hbound marker rfl)
    rw [declared_marker hb, Segment.chars, Segment.chars, List.map_cons, List.map_cons, hsame]

theorem segmented_declared {cs : List Char} {segments : List Segment} (h : Segment.Segmented cs segments)
    (hbound : ∀ name, .marker name ∈ segments → Bound bindings name) :
    ((segments.map (declared bindings)).flatMap Segment.chars).head? = cs.head? ∧
      Segment.Segmented ((segments.map (declared bindings)).flatMap Segment.chars)
        (segments.map (declared bindings)) := by
  induction h with
  | nil => exact ⟨rfl, .nil⟩
  | cons segment rest segments hleads _ ih =>
    obtain ⟨hhead, hrest⟩ := ih fun name hname => hbound name (List.mem_cons_of_mem _ hname)
    rw [List.map_cons, List.flatMap_cons]
    have hagain := hleads.congr hhead
    cases segment with
    | verbatim run =>
      refine ⟨?_, .cons _ _ _ hagain hrest⟩
      obtain ⟨d, ds, rfl⟩ : ∃ d ds, run = d :: ds := by cases hleads <;> exact ⟨_, _, rfl⟩
      rfl
    | marker marker =>
      obtain ⟨name, value, hb, hsame⟩ := exists_binding? (hbound marker List.mem_cons_self)
      obtain ⟨hname, hstops⟩ := Segment.leads_marker_iff.1 hagain
      rw [declared_marker hb]
      exact ⟨rfl, .cons _ _ _ (Segment.leads_marker_iff.2 ⟨hname.congr hsame, hstops⟩) hrest⟩

theorem ofSegment_declared (style : PlaceholderStyle) (segment : Segment) :
    ofSegment style bindings (declared bindings segment) = ofSegment style bindings segment := by
  cases segment with
  | verbatim run => rfl
  | marker marker =>
    cases hb : binding? bindings (String.ofList marker) with
    | none => simp [declared, hb]
    | some b =>
      obtain ⟨name, value⟩ := b
      have hsame : Text.sameIgnoringCase name (String.ofList marker) = true := by
        have hfound := List.find?_some hb
        exact hfound
      have hfind : binding? bindings name = binding? bindings (String.ofList marker) := by
        rw [Text.sameIgnoringCase_iff] at hsame
        unfold binding?
        refine congrArg (fun p => bindings.entries.find? p) (funext fun b => ?_)
        rw [Bool.eq_iff_iff, Text.sameIgnoringCase_iff, Text.sameIgnoringCase_iff, hsame]
      simp only [declared_marker hb, ofSegment, String.ofList_toList, hfind, hb]

theorem bound_of_ofText (h : ofText style bindings text = .ok c) :
    ∀ name, .marker name ∈ Segment.ofChars text.toList → Bound bindings name := by
  obtain ⟨parts, hparts⟩ := exists_ofText_eq_ok_iff.1 ⟨c, h⟩
  intro name hname
  exact exists_ofSegment_eq_ok_iff.1 (exists_mapM_eq_ok_iff.1 ⟨parts, hparts⟩ _ hname) name rfl

/-- A text that was rewritten to placeholders without an at sign has no marker left: rewriting it again, in
any style and whatever is bound, leaves it alone and asks for no value.  With an at sign and single values
only, the text changes in the case of letters only, and rewriting it again gives the same command. -/
theorem ofText_of_rewritten (h : ofText style bindings text = .ok c) :
    (style ≠ .atSign → ∀ other given, ofText other given c.text = .ok ⟨c.text, ∅⟩) ∧
    (style = .atSign → (∀ b ∈ bindings.entries, ∃ v, b.2 = .single v) →
      Text.sameIgnoringCase c.text text = true ∧ ofText .atSign bindings c.text = .ok c) := by
  have hbound := bound_of_ofText h
  have hchars : c.text.toList = (Segment.ofChars text.toList).flatMap (replacement style bindings) := by
    rw [text_of_ofText h, String.toList_ofList]
  constructor
  · intro hstyle other given
    refine ofText_of_unmarked ?_ other given
    rw [hchars]
    exact (unmarked_replaced hstyle (Segment.segmented_iff.2 rfl) hbound).2
  · rintro rfl hsingle
    have hagain : c.text.toList = ((Segment.ofChars text.toList).map (declared bindings)).flatMap Segment.chars := by
      rw [hchars, List.flatMap_map]
      refine List.flatMap_congr fun segment hsegment => ?_
      exact (chars_declared hsingle fun name hname => hbound name (hname ▸ hsegment)).symm
    have hsegments : Segment.ofChars c.text.toList = (Segment.ofChars text.toList).map (declared bindings) := by
      rw [hagain]
      exact (Segment.segmented_iff.1 (segmented_declared (Segment.segmented_iff.2 rfl) hbound).2).symm
    constructor
    · have hlower : c.text.toList.map Char.toLower = text.toList.map Char.toLower := by
        calc c.text.toList.map Char.toLower
            = (Segment.ofChars text.toList).flatMap
                fun segment => (declared bindings segment).chars.map Char.toLower := by
              rw [hagain, List.flatMap_map, List.map_flatMap]
          _ = (Segment.ofChars text.toList).flatMap fun segment => segment.chars.map Char.toLower := by
              refine List.flatMap_congr fun segment hsegment => ?_
              exact map_toLower_declared fun name hname => hbound name (hname ▸ hsegment)
          _ = text.toList.map Char.toLower := by
              rw [← List.map_flatMap, Segment.flatMap_chars_ofChars]
      rw [Text.sameIgnoringCase, hlower, beq_self_eq_true]
    · have hparts : ofSegment .atSign bindings ∘ declared bindings = ofSegment .atSign bindings :=
        funext fun segment => ofSegment_declared .atSign segment
      rw [← h]
      unfold ofText
      rw [hsegments, List.mapM_map, hparts]

def crowded : String :=
  "@@@list@@x@List-@One/@one--@one"

def listAndOne : ParameterValues :=
  .ofList [("List", .multi []), ("One", .single .null)]

theorem ofText_of_crowded :
    ofText .colon listAndOne crowded = .ok ⟨"@@NULL@@xNULL-:One/:One--@one", .ofList [("One", .null)]⟩ ∧
      ofText .pyformat listAndOne "@@NULL@@xNULL-:One/:One--@one" = .ok ⟨"@@NULL@@xNULL-:One/:One--@one", ∅⟩ ∧
      ofText .atSign (.ofList [("One", .single .null)]) "-@one/@ONE" = .ok ⟨"-@One/@One", .ofList [("One", .null)]⟩ ∧
      Text.sameIgnoringCase "-@One/@One" "-@one/@ONE" = true ∧
      ofText .atSign (.ofList [("One", .single .null)]) "-@One/@One" =
        .ok ⟨"-@One/@One", .ofList [("One", .null)]⟩ := by
  have hcolon : ofText .colon listAndOne crowded =
      .ok ⟨"@@NULL@@xNULL-:One/:One--@one", .ofList [("One", .null)]⟩ := by decide +kernel
  have hat : ofText .atSign (.ofList [("One", .single .null)]) "-@one/@ONE" =
      .ok ⟨"-@One/@One", .ofList [("One", .null)]⟩ := by decide +kernel
  have hsingle : ∀ b ∈ (OrderedMap.ofList [("One", ParameterValue.single .null)]).entries, ∃ v, b.2 = .single v := by
    intro b hb
    obtain rfl := List.mem_singleton.1 hb
    exact ⟨.null, rfl⟩
  obtain ⟨hcase, hagain⟩ := (ofText_of_rewritten hat).2 rfl hsingle
  exact ⟨hcolon, (ofText_of_rewritten hcolon).1 (by decide) .pyformat listAndOne, hat, hcase, hagain⟩

end Command
end TabularReport
