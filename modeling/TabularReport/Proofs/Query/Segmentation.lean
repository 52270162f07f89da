import TabularReport.Query.Command
import TabularReport.Proofs.Outcome
import TabularReport.Proofs.Text.Proper
/-!
The segments of a command text, said without the scanner.  `Leads` gives the forms of a segment and what
may follow each; every text has exactly one division into such segments, and the scanner finds it.  So a
rewritten text differs from the old one in its markers only.
-/
set_option autoImplicit false

namespace TabularReport

namespace Segment

def quotes : List (Char × Char) :=
  [('\'', '\''), ('"', '"'), ('[', ']')]

def doubled (close : Char) (content : List Char) : List Char :=
  content.flatMap fun c => if c = close then [c, c] else [c]

/-- Whether `c` and what follows it open none of the longer segments. -/
def Plain (c : Char) (rest : List Char) : Prop :=
  c ∉ quotes.map (·.1) ∧ (c = '-' → rest.head? ≠ some '-') ∧ (c = '/' → rest.head? ≠ some '*') ∧
    (c = '@' → ∀ d ∈ rest.head?, d ≠ '@' ∧ isNameStart d = false)

/-- Whether `segment` is the first one of a text in which `rest` follows it. -/
inductive Leads : Segment → List Char → Prop where
  | quoted (opening close : Char) (content rest : List Char) : (opening, close) ∈ quotes →
      Text.Stops (· == close) rest → Leads (.verbatim (opening :: doubled close content ++ [close])) rest
  | openQuoted (opening close : Char) (content : List Char) : (opening, close) ∈ quotes →
      Leads (.verbatim (opening :: doubled close content)) []
  | lineComment (cs rest : List Char) : (∀ c ∈ cs, c ≠ '\n') → Text.Stops (· != '\n') rest →
      Leads (.verbatim ('-' :: '-' :: cs)) rest
  | blockComment (cs rest : List Char) : ¬ ['*', '/'] <:+: cs ++ ['*'] →
      Leads (.verbatim ('/' :: '*' :: cs ++ ['*', '/'])) rest
  | openBlockComment (cs : List Char) : ¬ ['*', '/'] <:+: cs → Leads (.verbatim ('/' :: '*' :: cs)) []
  | systemVariable (cs rest : List Char) : (∀ c ∈ cs, isNamePart c = true) → Text.Stops isNamePart rest →
      Leads (.verbatim ('@' :: '@' :: cs)) rest
  | marker (c : Char) (cs rest : List Char) : isNameStart c = true → (∀ d ∈ cs, isNamePart d = true) →
      Text.Stops isNamePart rest → Leads (.marker (c :: cs)) rest
  | plain (c : Char) (rest : List Char) : Plain c rest → Leads (.verbatim [c]) rest

/-- Whether the segments divide the text, each being the first one of what is left of it. -/
inductive Segmented : List Char → List Segment → Prop where
  | nil : Segmented [] []
  | cons (segment : Segment) (rest : List Char) (segments : List Segment) : segment.Leads rest →
      Segmented rest segments → Segmented (segment.chars ++ rest) (segment :: segments)

@[simp] theorem doubled_nil (close : Char) : doubled close [] = [] := rfl

@[simp] theorem doubled_cons (close c : Char) (content : List Char) :
    doubled close (c :: content) = (if c = close then [c, c] else [c]) ++ doubled close content :=
  List.flatMap_cons

theorem spanQuoted_cons_of_ne {close c : Char} (h : c ≠ close) (cs : List Char) :
    spanQuoted close (c :: cs) = (c :: (spanQuoted close cs).1, (spanQuoted close cs).2) := by
  cases cs with
  | nil => simp [spanQuoted]
  | cons d cs => simp [spanQuoted, h]

theorem spanQuoted_doubled {close : Char} {rest : List Char} (h : Text.Stops (· == close) rest)
    (content : List Char) :
    spanQuoted close (doubled close content ++ close :: rest) = (doubled close content ++ [close], rest) := by
  induction content with
  | nil =>
    cases rest with
    | nil => simp [spanQuoted]
    | cons d rest =>
      have hd : d ≠ close := by simpa using h
      simp [spanQuoted, hd]
  | cons c content ih =>
    by_cases hc : c = close
    · simp [hc, spanQuoted, ih]
    · simp [hc, spanQuoted_cons_of_ne hc, ih]

theorem spanQuoted_doubled_nil (close : Char) (content : List Char) :
    spanQuoted close (doubled close content) = (doubled close content, []) := by
  induction content with
  | nil => rfl
  | cons c content ih =>
    by_cases hc : c = close
    · simp [hc, spanQuoted, ih]
    · simp [hc, spanQuoted_cons_of_ne hc, ih]

theorem spanQuoted_cases (close : Char) (cs : List Char) :
    (∃ content, (spanQuoted close cs).1 = doubled close content ++ [close] ∧
      Text.Stops (· == close) (spanQuoted close cs).2) ∨
    ∃ content, (spanQuoted close cs).1 = doubled close content ∧ (spanQuoted close cs).2 = [] := by
  fun_induction spanQuoted close cs with
  | case1 => exact .inr ⟨[], rfl, rfl⟩
  | case2 c =>
    by_cases hc : c = close
    · exact .inl ⟨[], by simp [hc], by simp⟩
    · exact .inr ⟨[c], by simp [hc], rfl⟩
  | case3 c d cs hc run rest h ih =>
    rw [h] at ih
    rcases ih with ⟨content, hrun, hrest⟩ | ⟨content, hrun, hrest⟩
    · exact .inl ⟨c :: content, by simp_all, hrest⟩
    · exact .inr ⟨c :: content, by simp_all, hrest⟩
  | case4 c cs hc run rest h ih =>
    rw [h] at ih
    rcases ih with ⟨content, hrun, hrest⟩ | ⟨content, hrun, hrest⟩
    · exact .inl ⟨c :: content, by simp_all, hrest⟩
    · exact .inr ⟨c :: content, by simp_all, hrest⟩
  | case5 c d cs hc hd =>
    exact .inl ⟨[], by simp_all, by simpa using hd⟩

theorem spanBlock_cons {c : Char} {cs : List Char} (h : ¬ ['*', '/'] <+: c :: cs) :
    spanBlock (c :: cs) = (c :: (spanBlock cs).1, (spanBlock cs).2) := by
  rw [spanBlock]
  rintro ds rfl rfl
  exact h (by simp)

theorem spanBlock_closed {cs : List Char} (h : ¬ ['*', '/'] <:+: cs ++ ['*']) (rest : List Char) :
    spanBlock (cs ++ '*' :: '/' :: rest) = (cs ++ ['*', '/'], rest) := by
  induction cs with
  | nil => rfl
  | cons c cs ih =>
    rw [List.cons_append, List.infix_cons_iff, not_or] at h
    have hfront : ¬ ['*', '/'] <+: c :: (cs ++ '*' :: '/' :: rest) := by
      -- A closing mark at the front would lie within `c :: cs ++ ['*']`.
      intro hp
      refine h.1 (List.prefix_of_prefix_length_le hp ⟨'/' :: rest, by simp⟩ (by simp))
    rw [List.cons_append, spanBlock_cons hfront, ih h.2, List.cons_append]

theorem spanBlock_open {cs : List Char} (h : ¬ ['*', '/'] <:+: cs) : spanBlock cs = (cs, []) := by
  induction cs with
  | nil => rfl
  | cons c cs ih =>
    rw [List.infix_cons_iff, not_or] at h
    rw [spanBlock_cons h.1, ih h.2]

theorem spanBlock_cases (cs : List Char) :
    (∃ body, (spanBlock cs).1 = body ++ ['*', '/'] ∧ ¬ ['*', '/'] <:+: body ++ ['*']) ∨
      ¬ ['*', '/'] <:+: (spanBlock cs).1 ∧ (spanBlock cs).2 = [] := by
  induction cs with
  | nil => exact .inr ⟨by simp [spanBlock], rfl⟩
  | cons c cs ih =>
    by_cases hp : ['*', '/'] <+: c :: cs
    · obtain ⟨rest, hrest⟩ := hp
      rw [← hrest]
      exact .inl ⟨[], rfl, by decide⟩
    · rw [spanBlock_cons hp]
      have happend := spanBlock_append cs
      generalize spanBlock cs = parts at ih happend ⊢
      obtain ⟨run, rest⟩ := parts
      rcases ih with ⟨body, rfl, hinside⟩ | ⟨hinside, rfl⟩
      · refine .inl ⟨c :: body, rfl, ?_⟩
        rw [List.cons_append, List.infix_cons_iff, not_or]
        refine ⟨fun hfront => hp (hfront.trans ⟨'/' :: rest, ?_⟩), hinside⟩
        simp [← happend]
      · rw [List.append_nil] at happend
        subst happend
        refine .inr ⟨?_, rfl⟩
        rw [List.infix_cons_iff, not_or]
        exact ⟨hp, hinside⟩

theorem first_quoted {opening close : Char} (h : (opening, close) ∈ quotes) (cs : List Char) :
    first opening cs = quotedRun opening close cs := by
  simp only [quotes, List.mem_cons, Prod.mk.injEq, List.not_mem_nil, or_false] at h
  rcases h with ⟨rfl, rfl⟩ | ⟨rfl, rfl⟩ | ⟨rfl, rfl⟩ <;> rfl

theorem first_marker {c : Char} (h : isNameStart c = true) (cs : List Char) :
    first '@' (c :: cs) = (.marker (c :: cs.takeWhile isNamePart), cs.dropWhile isNamePart) := by
  have hc : c ≠ '@' := by
    rintro rfl
    contradiction
  simp [first, h]

theorem first_plain {c : Char} {cs : List Char} (h : Plain c cs) : first c cs = (.verbatim [c], cs) := by
  obtain ⟨hquote, hline, hblock, hat⟩ := h
  fun_cases first c cs <;> simp_all [quotes]

theorem first_of_leads {segment : Segment} {rest : List Char} (h : segment.Leads rest) {c : Char}
    {cs : List Char} (hcs : segment.chars ++ rest = c :: cs) : first c cs = (segment, rest) := by
  cases h <;> simp only [chars, List.cons_append, List.append_assoc, List.cons.injEq] at hcs <;>
    obtain ⟨rfl, rfl⟩ := hcs
  case quoted opening close content hquotes hrest =>
    simp [first_quoted hquotes, quotedRun, spanQuoted_doubled hrest]
  case openQuoted opening close content hquotes =>
    simp [first_quoted hquotes, quotedRun, spanQuoted_doubled_nil]
  case lineComment cs hcs hrest =>
    have hrun : ∀ c ∈ cs, (c != '\n') = true := by simpa using hcs
    simp [first, Text.takeWhile_run hrun hrest, Text.dropWhile_run hrun hrest]
  case blockComment cs hinside => simp [first, spanBlock_closed hinside]
  case openBlockComment cs hinside => simp [first, spanBlock_open hinside]
  case systemVariable cs hrun hrest =>
    simp [first, Text.takeWhile_run hrun hrest, Text.dropWhile_run hrun hrest]
  case marker d cs hd hrun hrest =>
    rw [first_marker hd, Text.takeWhile_run hrun hrest, Text.dropWhile_run hrun hrest]
  case plain hplain => exact first_plain hplain

theorem leads_quotedRun {opening close : Char} (h : (opening, close) ∈ quotes) (cs : List Char) :
    (quotedRun opening close cs).1.Leads (quotedRun opening close cs).2 := by
  unfold quotedRun
  rcases spanQuoted_cases close cs with ⟨content, hrun, hrest⟩ | ⟨content, hrun, hrest⟩
  · rw [hrun]
    exact .quoted opening close content _ h hrest
  · rw [hrun, hrest]
    exact .openQuoted opening close content h

theorem leads_first (c : Char) (cs : List Char) : (first c cs).1.Leads (first c cs).2 := by
  fun_cases first c cs with
  | case1 => exact leads_quotedRun (by decide) cs
  | case2 => exact leads_quotedRun (by decide) cs
  | case3 => exact leads_quotedRun (by decide) cs
  | case4 cs =>
    refine .lineComment _ _ (fun c hc => ?_) (Text.stops_dropWhile cs)
    simpa using Text.mem_takeWhile hc
  | case5 cs =>
    rcases spanBlock_cases cs with ⟨body, hrun, hinside⟩ | ⟨hinside, hrest⟩
    · rw [hrun]
      exact .blockComment body _ hinside
    · rw [hrest]
      exact .openBlockComment _ hinside
  | case6 cs => exact .systemVariable _ _ (fun c hc => Text.mem_takeWhile hc) (Text.stops_dropWhile cs)
  | case7 d cs _ hd => exact .marker d _ _ hd (fun c hc => Text.mem_takeWhile hc) (Text.stops_dropWhile cs)
  | case8 d cs hat hd => exact .plain '@' _ ⟨by decide, by simp, by simp, by simp_all⟩
  | case9 c cs hsingle hdouble hbracket hline hblock _ hat =>
    refine .plain c _ ⟨by simp_all [quotes], ?_, ?_, ?_⟩ <;> cases cs <;> simp_all

/-- Every text has one division into segments, which the scanner finds. -/
theorem segmented_iff {cs : List Char} {segments : List Segment} :
    Segmented cs segments ↔ segments = ofChars cs := by
  constructor
  · intro h
    induction h with
    | nil => rw [ofChars]
    | cons segment rest segments hleads _ ih =>
      obtain ⟨c, cs, hcs⟩ : ∃ c cs, segment.chars ++ rest = c :: cs := by
        cases hleads <;> exact ⟨_, _, rfl⟩
      rw [hcs, ofChars, first_of_leads hleads hcs, ih]
  · rintro rfl
    fun_induction ofChars cs with
    | case1 => exact .nil
    | case2 c cs ih =>
      have h := Segmented.cons _ _ _ (leads_first c cs) ih
      rwa [first_append] at h

end Segment

namespace Command

variable {style : PlaceholderStyle} {bindings : ParameterValues} {text : String}

def rendering (style : PlaceholderStyle) (name : String) : ParameterValue → String
  | .single _ => style.render name
  | .multi [] => "NULL"
  | .multi (v :: vs) =>
    ", ".intercalate ((List.range (v :: vs).length).map fun i => style.render (name ++ "_" ++ natText (i + 1)))

theorem renderAll_placeholders (name : String) (value : ParameterValue) :
    style.renderAll ((value.placeholders name).map (·.1)) = rendering style name value := by
  cases value with
  | single v => simp [ParameterValue.placeholders, PlaceholderStyle.renderAll, rendering]
  | multi vs =>
    have hnames : ((ParameterValue.multi vs).placeholders name).map (·.1) =
        (List.range vs.length).map fun i => name ++ "_" ++ natText (i + 1) := by
      refine List.ext_getElem (by simp [ParameterValue.placeholders]) ?_
      intro i _ _
      simp [ParameterValue.placeholders]
    cases vs with
    | nil => rfl
    | cons v vs => simp [hnames, PlaceholderStyle.renderAll, rendering, Function.comp_def]

def replacement (style : PlaceholderStyle) (bindings : ParameterValues) : Segment → List Char
  | .verbatim cs => cs
  | .marker name =>
    match bindings.entries.find? fun b => Text.sameIgnoringCase b.1 (String.ofList name) with
    | none => '@' :: name
    | some (name, value) => (rendering style name value).toList

def Bound (bindings : ParameterValues) (marker : List Char) : Prop :=
  ∃ b ∈ bindings.entries, Text.sameIgnoringCase b.1 (String.ofList marker) = true

theorem bound_iff {marker : List Char} :
    Bound bindings marker ↔ (binding? bindings (String.ofList marker)).isSome := by
  simp [Bound, binding?]

theorem ofSegment_cases (style : PlaceholderStyle) (bindings : ParameterValues) (segment : Segment) :
    (∃ placeholders, ofSegment style bindings segment = .ok (replacement style bindings segment, placeholders) ∧
      ∀ name, segment = .marker name → Bound bindings name) ∨
    ∃ name, segment = .marker name ∧ ¬ Bound bindings name ∧
      ofSegment style bindings segment = .error (.unboundMarker (String.ofList name)) := by
  cases segment with
  | verbatim cs => exact .inl ⟨[], rfl, by simp⟩
  | marker name =>
    cases hb : binding? bindings (String.ofList name) with
    | none => exact .inr ⟨name, rfl, by simp [bound_iff, hb], by simp [ofSegment, hb]⟩
    | some b =>
      refine .inl ⟨b.2.placeholders b.1, ?_, ?_⟩
      · have hfind := hb
        unfold binding? at hfind
        simp [ofSegment, replacement, hb, hfind, renderAll_placeholders]
      · rintro _ ⟨⟩
        simp [bound_iff, hb]

theorem exists_ofSegment_eq_ok_iff {segment : Segment} :
    (∃ part, ofSegment style bindings segment = .ok part) ↔
      ∀ name, segment = .marker name → Bound bindings name := by
  rcases ofSegment_cases style bindings segment with ⟨placeholders, hok, hbound⟩ | ⟨name, hname, hbound, herror⟩
  · exact ⟨fun _ => hbound, fun _ => ⟨_, hok⟩⟩
  · rw [herror]
    exact ⟨by simp, fun h => absurd (h name hname) hbound⟩

theorem ofSegment_eq_error_iff {segment : Segment} {e : ReportError} :
    ofSegment style bindings segment = .error e ↔
      ∃ name, segment = .marker name ∧ ¬ Bound bindings name ∧ e = .unboundMarker (String.ofList name) := by
  rcases ofSegment_cases style bindings segment with ⟨placeholders, hok, hbound⟩ | ⟨name, hname, hbound, herror⟩
  · rw [hok]
    exact ⟨by simp, fun ⟨name, hname, h, _⟩ => absurd (hbound name hname) h⟩
  · subst hname
    rw [herror]
    constructor
    · rintro ⟨⟩
      exact ⟨name, rfl, hbound, rfl⟩
    · rintro ⟨_, ⟨⟩, _, rfl⟩
      rfl

theorem ofText_eq_error_iff {e : ReportError} :
    ofText style bindings text = .error e ↔
      (Segment.ofChars text.toList).mapM (ofSegment style bindings) = .error e := by
  simp [ofText, bind_eq_error, pure, Except.pure]

theorem exists_ofText_eq_ok_iff :
    (∃ c, ofText style bindings text = .ok c) ↔
      ∃ parts, (Segment.ofChars text.toList).mapM (ofSegment style bindings) = .ok parts := by
  constructor
  · rintro ⟨c, h⟩
    obtain ⟨parts, hparts, _⟩ := bind_eq_ok.1 h
    exact ⟨parts, hparts⟩
  · rintro ⟨parts, hparts⟩
    exact ⟨_, bind_eq_ok.2 ⟨parts, hparts, rfl⟩⟩

theorem text_of_ofText {c : Command} (h : ofText style bindings text = .ok c) :
    c.text = String.ofList ((Segment.ofChars text.toList).flatMap (replacement style bindings)) := by
  obtain ⟨parts, hparts, h⟩ := bind_eq_ok.1 h
  cases h
  have hfst := map_mapM_of_forall (g := (·.1)) (k := replacement style bindings) hparts ?_
  · simp only [List.flatMap_def, hfst]
  · intro segment _ part hpart
    rcases ofSegment_cases style bindings segment with ⟨placeholders, hok, _⟩ | ⟨_, _, _, herror⟩
    · rw [hpart, Except.ok.injEq] at hok
      rw [hok]
    · rw [hpart] at herror
      contradiction

/-- A text has one division into segments.  Rewriting it succeeds exactly if every marker names a parameter;
then the new text is the old one with each marker replaced by the placeholders of the first parameter that
it names, and otherwise the first marker that names none is reported. -/
theorem ofText_of_segmented (style : PlaceholderStyle) (bindings : ParameterValues) (text : String) :
    ∃ segments, Segment.Segmented text.toList segments ∧
      (∀ other, Segment.Segmented text.toList other → other = segments) ∧
      ((∃ c, ofText style bindings text = .ok c) ↔ ∀ name, .marker name ∈ segments → Bound bindings name) ∧
      (∀ c, ofText style bindings text = .ok c →
        c.text = String.ofList (segments.flatMap (replacement style bindings))) ∧
      ∀ e, ofText style bindings text = .error e ↔
        ∃ before name after, segments = before ++ .marker name :: after ∧
          (∀ m, .marker m ∈ before → Bound bindings m) ∧ ¬ Bound bindings name ∧
          e = .unboundMarker (String.ofList name) := by
  refine ⟨Segment.ofChars text.toList, Segment.segmented_iff.2 rfl, fun _ => Segment.segmented_iff.1, ?_,
    fun _ => text_of_ofText, fun e => ?_⟩
  · rw [exists_ofText_eq_ok_iff, exists_mapM_eq_ok_iff]
    simp only [exists_ofSegment_eq_ok_iff]
    constructor
    · intro h name hname
      exact h _ hname name rfl
    · rintro h _ hsegment name rfl
      exact h name hsegment
  · rw [ofText_eq_error_iff, mapM_eq_error_iff]
    simp only [exists_ofSegment_eq_ok_iff, ofSegment_eq_error_iff]
    constructor
    · rintro ⟨before, _, after, hsegments, hbefore, name, rfl, hname, rfl⟩
      exact ⟨before, name, after, hsegments, fun m hm => hbefore _ hm m rfl, hname, rfl⟩
    · rintro ⟨before, name, after, hsegments, hbefore, hname, rfl⟩
      refine ⟨before, _, after, hsegments, ?_, name, rfl, hname, rfl⟩
      rintro _ hm m rfl
      exact hbefore m hm

def commentedQuery : String :=
  "select '@Foo', 'it''s @Foo', \"@Foo\", [@Foo] -- @Foo\n/* @Foo */ from T where @@x in (@foo)"

theorem text_of_commentedQuery :
    ∃ segments, Segment.Segmented commentedQuery.toList segments ∧
      (∀ name, .marker name ∈ segments → Bound (.ofList [("Foo", .multi [.null, .null])]) name) ∧
      String.ofList (segments.flatMap (replacement .dollar (.ofList [("Foo", .multi [.null, .null])]))) =
        "select '@Foo', 'it''s @Foo', \"@Foo\", [@Foo] -- @Foo\n/* @Foo */ from T where @@x in ($Foo_1, $Foo_2)" := by
  obtain ⟨segments, hsegmented, _, hok, htext, _⟩ :=
    ofText_of_segmented .dollar (.ofList [("Foo", .multi [.null, .null])]) commentedQuery
  have h : ofText .dollar (.ofList [("Foo", .multi [.null, .null])]) commentedQuery = .ok
      ⟨"select '@Foo', 'it''s @Foo', \"@Foo\", [@Foo] -- @Foo\n/* @Foo */ from T where @@x in ($Foo_1, $Foo_2)",
        .ofList [("Foo_1", .null), ("Foo_2", .null)]⟩ := by decide +kernel
  exact ⟨segments, hsegmented, hok.1 ⟨_, h⟩, (htext _ h).symm⟩

end Command
end TabularReport
