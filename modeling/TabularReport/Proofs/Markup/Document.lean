import Mathlib.Data.List.Infix
import Mathlib.Data.List.TakeWhile
import TabularReport.Proofs.Markup.Element
import TabularReport.Proofs.Outcome
import TabularReport.Proofs.Text.Proper
/-!
Documents as trees of events.  `Content` says which elements and which character data a balanced sequence of
events describes, by the nesting of its tags and without a stack.  A sequence in which every closing tag
closes one that is open is read as a document just if it is balanced with a single element that is inside no
other, and as that element.
-/
set_option autoImplicit false

namespace TabularReport.Markup

def Divided (qualified : String) : Option String → String → Prop
  | some qualifier, name => qualified = qualifier ++ ":" ++ name ∧ ':' ∉ qualifier.toList
  | none, name => qualified = name ∧ ':' ∉ name.toList

theorem divided_splitName (qualified : String) :
    Divided qualified (splitName qualified).1 (splitName qualified).2 := by
  have happend := List.takeWhile_append_dropWhile (p := (· != ':')) (l := qualified.toList)
  have hbefore : ':' ∉ qualified.toList.takeWhile (· != ':') := fun h => by simpa using Text.mem_takeWhile h
  have hstops := Text.stops_dropWhile (p := (· != ':')) qualified.toList
  simp only [splitName]
  split
  · rename_i c rest hdrop
    obtain rfl : c = ':' := by simpa [hdrop] using hstops
    rw [hdrop] at happend
    refine ⟨?_, by simpa using hbefore⟩
    rw [← String.toList_inj]
    simpa using happend.symm
  · rename_i hdrop
    rw [hdrop, List.append_nil] at happend
    exact ⟨rfl, happend ▸ hbefore⟩

theorem splitName_of_divided {qualified name : String} {qualifier : Option String}
    (h : Divided qualified qualifier name) : splitName qualified = (qualifier, name) := by
  cases qualifier with
  | none =>
    obtain ⟨rfl, hname⟩ := h
    have hdrop : qualified.toList.dropWhile (· != ':') = [] := by
      refine List.dropWhile_eq_nil_iff.2 fun c hc => bne_iff_ne.2 ?_
      rintro rfl
      exact hname hc
    simp only [splitName, hdrop]
  | some qualifier =>
    obtain ⟨rfl, hqualifier⟩ := h
    have hrun : ∀ c ∈ qualifier.toList, (c != ':') = true := by
      refine fun c hc => bne_iff_ne.2 ?_
      rintro rfl
      exact hqualifier hc
    have hstop : Text.Stops (· != ':') (':' :: name.toList) := by simp
    have htext : (qualifier ++ ":" ++ name).toList = qualifier.toList ++ ':' :: name.toList := by simp
    simp only [splitName, htext, Text.dropWhile_run hrun hstop, Text.takeWhile_run hrun hstop, String.ofList_toList]

def Unescaped (raw a : String × String) : Prop :=
  a.1 = raw.1 ∧ unescapeText? raw.2 = some a.2

/-- Whether the tag has the name and the attributes of the element, in their order and with the references in
the values replaced. -/
structure Tag.Heads (tag : Tag) (e : Element) : Prop where
  name : Divided tag.name e.qualifier e.name
  attributes : List.Forall₂ Unescaped tag.attributes e.attributes

/-- The elements side by side that balanced events describe, and the character data between them. -/
inductive Content : List Event → List Element → String → Prop where
  | nil : Content [] [] ""
  | text {raw s t : String} {events : List Event} {es : List Element} (read : unescapeText? raw = some s)
      (rest : Content events es t) : Content (.text raw :: events) es (s ++ t)
  | verbatim {t : String} {events : List Event} {es : List Element} (s : String) (rest : Content events es t) :
      Content (.verbatim s :: events) es (s ++ t)
  | skipped {t : String} {events : List Event} {es : List Element} (rest : Content events es t) :
      Content (.skipped :: events) es t
  | empty {t : String} {events : List Event} {es : List Element} {tag : Tag} {e : Element} (head : tag.Heads e)
      (children : e.children = []) (text : e.text = "") (rest : Content events es t) :
      Content (.empty tag :: events) (e :: es) t
  | element {t : String} {inside events : List Event} {es : List Element} {tag : Tag} {e : Element}
      (head : tag.Heads e) (inner : Content inside e.children e.text) (rest : Content events es t) :
      Content (.opening tag :: (inside ++ .closing :: events)) (e :: es) t

namespace Event

def isOpening : Event → Bool
  | .opening _ => true
  | _ => false

def isClosing : Event → Bool
  | .closing => true
  | _ => false

def isCharacters : Event → Bool
  | .text _ | .verbatim _ => true
  | _ => false

def Readable : Event → Prop
  | .opening tag | .empty tag => ∀ a ∈ tag.attributes, (unescapeText? a.2).isSome = true
  | .text raw => (unescapeText? raw).isSome = true
  | _ => True

instance : DecidablePred Readable
  | .opening tag | .empty tag => inferInstanceAs (Decidable (∀ a ∈ tag.attributes, (unescapeText? a.2).isSome = true))
  | .text raw => inferInstanceAs (Decidable ((unescapeText? raw).isSome = true))
  | .closing | .verbatim _ | .skipped => inferInstanceAs (Decidable True)

end Event

def Matched (events : List Event) : Prop :=
  ∀ before ∈ events.inits, before.countP Event.isClosing ≤ before.countP Event.isOpening

def Element.ofEvents (events : List Event) : Except DocumentError Element :=
  events.foldlM Builder.step {} >>= Builder.finish

/-- Whether some beginning of the events has two elements that are inside no other. -/
def Crowded (events : List Event) : Prop :=
  ∃ before after es t, events = before ++ after ∧ Content before es t ∧ 2 ≤ es.length

def OpenAtEnd (events : List Event) (name : String) : Prop :=
  ∃ before tag inside qualifier es t, events = before ++ .opening tag :: inside ∧
    Divided tag.name qualifier name ∧ Content inside es t

/-- The message about what is wrong first with events that are no document. -/
def Fault (events : List Event) (message : String) : Prop :=
  Crowded events ∧ message = "Document has more than one root element" ∨
    ¬ Crowded events ∧ (∃ name, OpenAtEnd events name ∧ message = "Unclosed element <" ++ name ++ ">") ∨
    ¬ Crowded events ∧ (¬ ∃ name, OpenAtEnd events name) ∧ message = "Document has no root element"

variable {events inside before after : List Event} {es fs : List Element} {t u : String} {tag : Tag} {e : Element}

theorem Content.append {later : List Event} (h : Content events es t) (h' : Content later fs u) :
    Content (events ++ later) (es ++ fs) (t ++ u) := by
  induction h with
  | nil => simpa using h'
  | text read _ ih =>
    rw [List.cons_append, String.append_assoc]
    exact .text read ih
  | verbatim s _ ih =>
    rw [List.cons_append, String.append_assoc]
    exact .verbatim s ih
  | skipped _ ih => exact .skipped ih
  | empty head children text _ ih => exact .empty head children text ih
  | element head inner _ _ ih =>
    rw [List.cons_append, List.append_assoc, List.cons_append, List.cons_append]
    exact .element head inner ih

theorem Content.countP_eq (h : Content events es t) :
    events.countP Event.isClosing = events.countP Event.isOpening := by
  induction h with
  | element _ _ _ ihInner ih =>
    simp [List.countP_cons, List.countP_append, Event.isOpening, Event.isClosing, ihInner, ih]
    omega
  | _ => simp_all [Event.isOpening, Event.isClosing]

def Element.emptied (e : Element) : Element :=
  { e with children := [], text := "" }

theorem Element.eta (e : Element) : (⟨e.name, e.qualifier, e.attributes, e.children, e.text⟩ : Element) = e := by
  cases e
  rfl

theorem Element.emptied_of_bare (hchildren : e.children = []) (htext : e.text = "") : e.emptied = e := by
  rw [emptied, ← hchildren, ← htext, eta]

theorem unescapeAttributes?_eq_some {raws as : List (String × String)} :
    unescapeAttributes? raws = some as ↔ List.Forall₂ Unescaped raws as := by
  induction raws generalizing as with
  | nil => simp [unescapeAttributes?, eq_comm]
  | cons raw raws ih =>
    simp only [unescapeAttributes?, List.mapM_cons, Option.bind_eq_bind, Option.pure_def, Option.bind_eq_some_iff,
      Option.map_eq_some_iff, List.forall₂_cons_left_iff, Option.some.injEq] at ih ⊢
    constructor
    · rintro ⟨_, ⟨value, hvalue, rfl⟩, as, has, rfl⟩
      exact ⟨(raw.1, value), as, ⟨rfl, hvalue⟩, ih.1 has, rfl⟩
    · rintro ⟨⟨key, value⟩, as, ⟨hkey, hvalue⟩, has, rfl⟩
      exact ⟨_, ⟨value, hvalue, by rw [← hkey]⟩, as, ih.2 has, rfl⟩

theorem ofTag?_of_heads (h : tag.Heads e) : Element.ofTag? tag = some e.emptied := by
  simp [Element.ofTag?, Element.emptied, splitName_of_divided h.name, unescapeAttributes?_eq_some.2 h.attributes]

theorem exists_heads (h : ∀ a ∈ tag.attributes, (unescapeText? a.2).isSome = true) (children : List Element)
    (text : String) : ∃ e : Element, tag.Heads e ∧ e.children = children ∧ e.text = text := by
  have hattributes : ∃ as, List.Forall₂ Unescaped tag.attributes as := by
    generalize tag.attributes = raws at h
    induction raws with
    | nil => exact ⟨[], .nil⟩
    | cons raw raws ih =>
      obtain ⟨hraw, hraws⟩ := List.forall_mem_cons.1 h
      obtain ⟨value, hvalue⟩ := Option.isSome_iff_exists.1 hraw
      obtain ⟨as, has⟩ := ih hraws
      exact ⟨(raw.1, value) :: as, .cons ⟨rfl, hvalue⟩ has⟩
  obtain ⟨as, has⟩ := hattributes
  exact ⟨⟨(splitName tag.name).2, (splitName tag.name).1, as, children, text⟩,
    ⟨divided_splitName tag.name, has⟩, rfl, rfl⟩

/-! ### Running the builder -/

namespace Builder

variable {b : Builder}

theorem step_text {raw s : String} (h : unescapeText? raw = some s) : b.step (.text raw) = .ok (b.addText s) := by
  simp only [step, h]

theorem step_opening (h : tag.Heads e) :
    b.step (.opening tag) = .ok { b with stack := e.emptied :: b.stack } := by
  simp only [step, ofTag?_of_heads h]

theorem step_empty (h : tag.Heads e) (hchildren : e.children = []) (htext : e.text = "") :
    b.step (.empty tag) = b.place e := by
  simp only [step, ofTag?_of_heads h, Element.emptied_of_bare hchildren htext]

theorem run_inside (h : Content events es t) (parent : Element) (outer : List Element) (root : Option Element) :
    events.foldlM step ⟨parent :: outer, root⟩ =
      .ok ⟨{ parent with children := parent.children ++ es, text := parent.text ++ t } :: outer, root⟩ := by
  induction h generalizing parent outer with
  | nil => simp [pure, Except.pure, Element.eta]
  | text read _ ih =>
    rw [foldlM_cons_of_ok (step_text read)]
    exact (ih _ _).trans (by simp [String.append_assoc])
  | verbatim s _ ih =>
    refine (ih _ _).trans ?_
    simp [String.append_assoc]
  | skipped _ ih => exact ih parent outer
  | empty head children text _ ih =>
    rw [foldlM_cons_of_ok (step_empty head children text)]
    exact (ih _ _).trans (by simp)
  | @element t inside events es tag e head _ _ ihInner ih =>
    have hinner : inside.foldlM step ⟨e.emptied :: parent :: outer, root⟩ =
        .ok ⟨e :: parent :: outer, root⟩ := by
      simpa only [Element.emptied, List.nil_append, String.empty_append, Element.eta]
        using ihInner e.emptied (parent :: outer)
    rw [foldlM_cons_of_ok (step_opening head), foldlM_append_of_ok hinner]
    exact (ih _ _).trans (by simp)

def ofRoots : List Element → Except DocumentError Builder
  | [] => .ok {}
  | [e] => .ok { root := some e }
  | _ => .error .manyRoots

/-- Outside of all elements the complete ones count, and the character data does not. -/
theorem run_outside (h : Content events es t) (root : Option Element) :
    events.foldlM step ⟨[], root⟩ = ofRoots (root.toList ++ es) := by
  induction h generalizing root with
  | nil => cases root <;> rfl
  | text read _ ih =>
    rw [foldlM_cons_of_ok (step_text read)]
    exact ih root
  | verbatim s _ ih => exact ih root
  | skipped _ ih => exact ih root
  | @empty t events es tag e head children text _ ih =>
    rw [List.foldlM_cons, step_empty head children text]
    cases root with
    | none => exact ih (some e)
    | some other => rfl
  | @element t inside events es tag e head inner _ _ ih =>
    have hinner : inside.foldlM step ⟨[e.emptied], root⟩ = .ok ⟨[e], root⟩ := by
      simpa only [Element.emptied, List.nil_append, String.empty_append, Element.eta]
        using run_inside inner e.emptied [] root
    rw [foldlM_cons_of_ok (step_opening head), foldlM_append_of_ok hinner, List.foldlM_cons]
    cases root with
    | none => exact ih (some e)
    | some other => rfl

end Builder

/-! ### Where elements are open -/

/-- Events in which every closing tag closes one that is open, by the tags that are left open. -/
inductive Opened : List Event → Prop where
  | content {events : List Event} {es : List Element} {t : String} (content : Content events es t) : Opened events
  | opening {before inside : List Event} {tag : Tag} {e : Element} {es : List Element} {t : String}
      (outer : Opened before) (head : tag.Heads e) (content : Content inside es t) :
      Opened (before ++ .opening tag :: inside)

theorem Opened.append (h : Opened events) (hcontent : Content after es t) : Opened (events ++ after) := by
  cases h with
  | content content => exact .content (content.append hcontent)
  | opening outer head content =>
    rw [List.append_assoc, List.cons_append]
    exact .opening outer head (content.append hcontent)

theorem Matched.of_append (h : Matched (before ++ after)) : Matched before := by
  intro first hfirst
  exact h first ((List.mem_inits _ _).2 (((List.mem_inits _ _).1 hfirst).trans (List.prefix_append _ _)))

theorem Content.not_matched_closing (h : Content events es t) : ¬ Matched (events ++ [.closing]) := by
  intro hmatched
  have hcount := hmatched _ ((List.mem_inits _ _).2 (List.prefix_refl _))
  rw [List.countP_append, List.countP_append, h.countP_eq] at hcount
  exact Nat.not_succ_le_self _ hcount

theorem Event.exists_content {event : Event} (hread : event.Readable) (hopening : event.isOpening = false)
    (hclosing : event.isClosing = false) : ∃ es t, Content [event] es t := by
  cases event with
  | opening tag => contradiction
  | closing => contradiction
  | empty tag =>
    obtain ⟨e, hhead, hchildren, htext⟩ := exists_heads hread [] ""
    exact ⟨[e], "", .empty hhead hchildren htext .nil⟩
  | text raw =>
    obtain ⟨s, hs⟩ := Option.isSome_iff_exists.1 hread
    exact ⟨[], s ++ "", .text hs .nil⟩
  | verbatim s => exact ⟨[], s ++ "", .verbatim s .nil⟩
  | skipped => exact ⟨[], "", .skipped .nil⟩

theorem opened_of_matched (hread : ∀ event ∈ events, event.Readable) (hmatched : Matched events) : Opened events := by
  -- From the left, so that the last event finds what is open before it.
  induction events using List.reverseRecOn with
  | nil => exact .content .nil
  | append_singleton events event ih =>
    obtain ⟨hread, hevent⟩ := List.forall_mem_append.1 hread
    have hevent := hevent event List.mem_cons_self
    have hopened := ih hread hmatched.of_append
    cases event with
    | opening tag =>
      obtain ⟨e, hhead, -⟩ := exists_heads hevent [] ""
      exact .opening hopened hhead .nil
    | closing =>
      cases hopened with
      | content content => exact absurd hmatched content.not_matched_closing
      | @opening before inside tag e es t outer head content =>
        have hcomplete : Content (.opening tag :: (inside ++ [.closing])) [{ e with children := es, text := t }] "" :=
          .element ⟨head.name, head.attributes⟩ content .nil
        rw [List.append_assoc, List.cons_append]
        exact outer.append hcomplete
    | empty tag | text raw | verbatim s | skipped =>
      obtain ⟨es, t, hcontent⟩ := Event.exists_content hevent rfl rfl
      exact hopened.append hcontent

/-! ### The document -/

theorem Content.crowded {e' : Element} (h : Content events (e :: e' :: es) t) : Crowded events :=
  ⟨events, [], _, t, (List.append_nil _).symm, h, by simp⟩

theorem Crowded.append (h : Crowded before) (after : List Event) : Crowded (before ++ after) := by
  obtain ⟨first, rest, es, t, rfl, hcontent, hes⟩ := h
  exact ⟨first, _, es, t, List.append_assoc _ _ _, hcontent, hes⟩

/-- The builder goes on unless there are two elements that are inside no other. -/
theorem Opened.run (h : Opened events) : (∃ b, events.foldlM Builder.step {} = .ok b) ∨ Crowded events := by
  induction h with
  | @content events es t content =>
    have hrun := Builder.run_outside content none
    match es, content, hrun with
    | [], _, hrun => exact .inl ⟨_, hrun⟩
    | [e], _, hrun => exact .inl ⟨_, hrun⟩
    | _ :: _ :: _, content, _ => exact .inr content.crowded
  | @opening before inside tag e es t _ head content ih =>
    obtain ⟨b, hb⟩ | hcrowded := ih
    · have hrun := Builder.run_inside content e.emptied b.stack b.root
      rw [← foldlM_cons_of_ok (Builder.step_opening head), ← foldlM_append_of_ok hb] at hrun
      exact .inl ⟨_, hrun⟩
    · exact .inr (hcrowded.append _)

namespace Element

theorem ofEvents_of_content (h : Content events es t) :
    ofEvents events = Builder.ofRoots es >>= Builder.finish := by
  rw [ofEvents, Builder.run_outside h none]
  rfl

theorem ofEvents_of_crowded (h : Crowded events) : ofEvents events = .error .manyRoots := by
  obtain ⟨before, after, es, t, rfl, hcontent, hes⟩ := h
  have hbefore : before.foldlM Builder.step {} = .error .manyRoots := by
    rw [Builder.run_outside hcontent none]
    match es, hes with
    | _ :: _ :: _, _ => rfl
  rw [ofEvents, foldlM_append_of_error hbefore]
  rfl

theorem ofEvents_of_openAtEnd {name : String} (hread : ∀ event ∈ events, event.Readable) (hmatched : Matched events)
    (hcrowded : ¬ Crowded events) (h : OpenAtEnd events name) : ofEvents events = .error (.unclosed name) := by
  obtain ⟨before, tag, inside, qualifier, es, t, rfl, hdivided, hcontent⟩ := h
  obtain ⟨hbefore, hrest⟩ := List.forall_mem_append.1 hread
  obtain ⟨b, hb⟩ | hbefore := (opened_of_matched hbefore hmatched.of_append).run
  · obtain ⟨e, hhead, -⟩ := exists_heads (hrest _ List.mem_cons_self) [] ""
    have hname : e.name = name := by
      have hsplit := (splitName_of_divided hhead.name).symm.trans (splitName_of_divided hdivided)
      exact congrArg Prod.snd hsplit
    rw [ofEvents, foldlM_append_of_ok hb, foldlM_cons_of_ok (Builder.step_opening hhead),
      Builder.run_inside hcontent e.emptied b.stack b.root, ← hname]
    rfl
  · exact absurd (hbefore.append _) hcrowded

theorem ofEvents_insert {event : Event}
    (h : ∀ b, before.foldlM Builder.step {} = .ok b → b.step event = .ok b) :
    ofEvents (before ++ after) = ofEvents (before ++ event :: after) := by
  cases hb : before.foldlM Builder.step {} with
  | error e => rw [ofEvents, ofEvents, foldlM_append_of_error hb, foldlM_append_of_error hb]
  | ok b => rw [ofEvents, ofEvents, foldlM_append_of_ok hb, foldlM_append_of_ok hb, foldlM_cons_of_ok (h b hb)]

theorem ofEvents_skip (before after : List Event) :
    ofEvents (before ++ after) = ofEvents (before ++ .skipped :: after) :=
  ofEvents_insert fun _ _ => rfl

theorem ofEvents_characters {event : Event} (hbefore : Content before es t) (hread : event.Readable)
    (hevent : event.isCharacters = true) : ofEvents (before ++ after) = ofEvents (before ++ event :: after) := by
  refine ofEvents_insert fun b hb => ?_
  obtain ⟨root, rfl⟩ : ∃ root, b = ⟨[], root⟩ := by
    rw [Builder.run_outside hbefore none] at hb
    match es, hb with
    | [], hb => exact ⟨none, (Except.ok.inj hb).symm⟩
    | [e], hb => exact ⟨some e, (Except.ok.inj hb).symm⟩
  cases event with
  | text raw =>
    obtain ⟨s, hs⟩ := Option.isSome_iff_exists.1 hread
    exact Builder.step_text hs
  | verbatim s => rfl
  | _ => contradiction

theorem ofEvents_cases (hread : ∀ event ∈ events, event.Readable) (hmatched : Matched events) :
    (∃ root t, Content events [root] t ∧ ofEvents events = .ok root) ∨
      (Crowded events ∧ ofEvents events = .error .manyRoots) ∨
      (¬ Crowded events ∧ ∃ name, OpenAtEnd events name ∧ ofEvents events = .error (.unclosed name)) ∨
      (¬ Crowded events ∧ (¬ ∃ name, OpenAtEnd events name) ∧ ofEvents events = .error .noRoot) := by
  by_cases hcrowded : Crowded events
  · exact .inr (.inl ⟨hcrowded, ofEvents_of_crowded hcrowded⟩)
  by_cases hopen : ∃ name, OpenAtEnd events name
  · obtain ⟨name, hopen⟩ := hopen
    exact .inr (.inr (.inl ⟨hcrowded, name, hopen, ofEvents_of_openAtEnd hread hmatched hcrowded hopen⟩))
  cases opened_of_matched hread hmatched with
  | opening _ head content => exact absurd ⟨_, _, _, _, _, _, _, rfl, head.name, content⟩ hopen
  | @content _ es t content =>
    have hanswer := ofEvents_of_content content
    match es, content, hanswer with
    | [], _, hanswer => exact .inr (.inr (.inr ⟨hcrowded, hopen, hanswer⟩))
    | [root], content, hanswer => exact .inl ⟨root, t, content, hanswer⟩
    | _ :: _ :: _, content, _ => exact absurd content.crowded hcrowded

theorem ofEvents_eq_ok_iff (hread : ∀ event ∈ events, event.Readable) (hmatched : Matched events) (root : Element) :
    ofEvents events = .ok root ↔ ∃ t, Content events [root] t := by
  constructor
  · intro hroot
    obtain ⟨root', t, hcontent, hanswer⟩ | ⟨-, hanswer⟩ | ⟨-, name, -, hanswer⟩ | ⟨-, -, hanswer⟩ :=
      ofEvents_cases hread hmatched
    · obtain rfl := Except.ok.inj (hroot.symm.trans hanswer)
      exact ⟨t, hcontent⟩
    all_goals cases hroot.symm.trans hanswer
  · rintro ⟨t, hcontent⟩
    exact ofEvents_of_content hcontent

theorem ofEvents_eq_error_iff (hread : ∀ event ∈ events, event.Readable) (hmatched : Matched events)
    (message : String) :
    (∃ error, ofEvents events = .error error ∧ error.text = message) ↔
      (¬ ∃ root t, Content events [root] t) ∧ Fault events message := by
  constructor
  · rintro ⟨error, herror, rfl⟩
    constructor
    · rintro ⟨root, t, hcontent⟩
      cases herror.symm.trans (ofEvents_of_content hcontent)
    obtain ⟨root, t, -, hanswer⟩ | ⟨hcrowded, hanswer⟩ | ⟨hcrowded, name, hopen, hanswer⟩ |
      ⟨hcrowded, hopen, hanswer⟩ := ofEvents_cases hread hmatched
    all_goals cases herror.symm.trans hanswer
    · exact .inl ⟨hcrowded, rfl⟩
    · exact .inr (.inl ⟨hcrowded, name, hopen, rfl⟩)
    · exact .inr (.inr ⟨hcrowded, hopen, rfl⟩)
  · rintro ⟨hnone, ⟨hcrowded, rfl⟩ | ⟨hcrowded, name, hopen, rfl⟩ | ⟨hcrowded, hopen, rfl⟩⟩
    · exact ⟨.manyRoots, ofEvents_of_crowded hcrowded, rfl⟩
    · exact ⟨.unclosed name, ofEvents_of_openAtEnd hread hmatched hcrowded hopen, rfl⟩
    · obtain ⟨root, t, hcontent, -⟩ | ⟨hcrowded', -⟩ | ⟨-, name, hopen', -⟩ | ⟨-, -, hanswer⟩ :=
        ofEvents_cases hread hmatched
      · exact absurd ⟨root, t, hcontent⟩ hnone
      · exact absurd hcrowded' hcrowded
      · exact absurd ⟨name, hopen'⟩ hopen
      · exact ⟨.noRoot, hanswer, rfl⟩

/-- What is read from events: the single element that is inside no other, if they are balanced, and else what
is wrong first.  Events without content, and character data outside of all elements, do not matter. -/
structure Answers (events : List Event) (answer : Except DocumentError Element) : Prop where
  ok_iff : ∀ root, answer = .ok root ↔ ∃ t, Content events [root] t
  error_iff : ∀ message, (∃ error, answer = .error error ∧ error.text = message) ↔
    (¬ ∃ root t, Content events [root] t) ∧ Fault events message
  skipped : ∀ before after, events = before ++ .skipped :: after → ofEvents (before ++ after) = answer
  outside : ∀ before event after es t, events = before ++ event :: after → Content before es t →
    event.isCharacters = true → ofEvents (before ++ after) = answer

theorem answers_ofEvents (hread : ∀ event ∈ events, event.Readable) (hmatched : Matched events) :
    Answers events (ofEvents events) where
  ok_iff := ofEvents_eq_ok_iff hread hmatched
  error_iff := ofEvents_eq_error_iff hread hmatched
  skipped := by
    rintro before after rfl
    exact ofEvents_skip before after
  outside := by
    rintro before event after es t rfl hbefore hevent
    exact ofEvents_characters hbefore (hread event (by simp)) hevent

end Element

/-! ### Events of a text -/

theorem ne_nil_of_readMarkup? {opened : List String} {cs rest : List Char}
    (h : readMarkup? opened cs = some (.closing, rest)) : opened ≠ [] := by
  rintro rfl
  unfold readMarkup? at h
  split at h
  · simp [Option.bind_eq_some_iff] at h
  · simp [Option.bind_eq_some_iff] at h
  · obtain ⟨cs, -, h⟩ := Option.bind_eq_some_iff.1 h
    obtain ⟨⟨content, rest⟩, -, h⟩ := Option.bind_eq_some_iff.1 h
    obtain ⟨_, -, h⟩ := Option.bind_eq_some_iff.1 h
    cases h
  · simp at h
  · simp at h
  · simp only [Option.bind_eq_bind, Option.pure_def, Option.bind_eq_some_iff, Option.some.injEq, Prod.mk.injEq] at h
    obtain ⟨⟨inside, rest'⟩, -, event, hevent, rfl, -⟩ := h
    unfold tagEvent? at hevent
    split at hevent <;> simp at hevent

/-- More tags are closed than opened only as far as some were open before. -/
theorem countP_closing_le (steps : Nat) (opened : List String) (cs : List Char) :
    ∀ before ∈ (readEvents steps opened cs).1.inits,
      before.countP Event.isClosing ≤ before.countP Event.isOpening + opened.length := by
  fun_induction readEvents steps opened cs with
  | case1 => simp
  | case2 => simp
  | case3 => simp
  | case4 => simp
  | case5 steps opened cs _ event rest hmarkup events complete hevents ih =>
    rw [hevents] at ih
    simp only [List.inits_cons, List.forall_mem_cons, List.forall_mem_map]
    refine ⟨Nat.zero_le _, fun before hbefore => ?_⟩
    have hrest := ih before hbefore
    cases event with
    | opening tag =>
      simp [openAfter, List.countP_cons, Event.isOpening, Event.isClosing] at hrest ⊢
      omega
    | closing =>
      have hopened := List.length_pos_iff.2 (ne_nil_of_readMarkup? hmarkup)
      simp [openAfter, List.countP_cons, Event.isOpening, Event.isClosing] at hrest ⊢
      omega
    | _ => simpa [openAfter, Event.isOpening, Event.isClosing] using hrest
  | case6 steps opened cs _ _ _ events complete hevents ih =>
    rw [hevents] at ih
    simp only [List.inits_cons, List.forall_mem_cons, List.forall_mem_map]
    exact ⟨Nat.zero_le _, fun before hbefore => by simpa [Event.isOpening, Event.isClosing] using ih before hbefore⟩

theorem matched_eventsOf (cs : List Char) : Matched (eventsOf cs).1 := by
  simpa [Matched, eventsOf] using countP_closing_le (cs.length + 1) [] cs

namespace Element

theorem ofChars_eq_ofEvents {cs : List Char} (h : eventsOf cs = (events, true)) : ofChars cs = ofEvents events := by
  simp only [ofChars, ofEvents, h]
  rfl

/-- What a document is read as, by the events it is made of. -/
theorem document_of_events :
    (∀ (s : String) (events : List Event), eventsOf (unmarked s.toList) = (events, true) →
      Matched events ∧ ofBytes s.toUTF8 = ofEvents events) ∧
    ∀ events : List Event, (∀ event ∈ events, event.Readable) → Matched events →
      Answers events (ofEvents events) := by
  refine ⟨fun s events hevents => ⟨?_, ?_⟩, fun events => answers_ofEvents⟩
  · have hmatched := matched_eventsOf (unmarked s.toList)
    rwa [hevents] at hmatched
  · rw [ofBytes_toUTF8, ofChars_eq_ofEvents hevents]

def mixed : String :=
  "\ufeff<?xml version=\"1.0\"?>\n<r:a k=\"1 &lt; 2\" r:k=\"\">x<!-- c --><b>y</b>&amp;<r:a:b/><![CDATA[<z>]]></r:a> "

def mixedEvents : List Event :=
  [.skipped, .text "\n", .opening ⟨"r:a", [("k", "1 &lt; 2"), ("r:k", "")]⟩, .text "x", .skipped, .opening ⟨"b", []⟩,
    .text "y", .closing, .text "&amp;", .empty ⟨"r:a:b", []⟩, .verbatim "<z>", .closing, .text " "]

def mixedRoot : Element :=
  let b : Element := ⟨"b", none, [], [], "y"⟩
  let ab : Element := ⟨"a:b", some "r", [], [], ""⟩
  ⟨"a", some "r", [("k", "1 < 2"), ("r:k", "")], [b, ab], "x&<z>"⟩

theorem document_of_mixed :
    ofBytes mixed.toUTF8 = .ok mixedRoot ∧ ∃ t, Content mixedEvents [mixedRoot] t := by
  have hevents : eventsOf (unmarked mixed.toList) = (mixedEvents, true) := by decide +kernel
  have hread : ∀ event ∈ mixedEvents, event.Readable := by decide +kernel
  have hroot : (ofEvents mixedEvents).toOption = some mixedRoot := by decide +kernel
  have hroot := toOption_eq_some.1 hroot
  obtain ⟨hdocument, hanswers⟩ := document_of_events
  obtain ⟨hmatched, hbytes⟩ := hdocument mixed mixedEvents hevents
  exact ⟨hbytes.trans hroot, ((hanswers mixedEvents hread hmatched).ok_iff mixedRoot).1 hroot⟩

end Element

end TabularReport.Markup
