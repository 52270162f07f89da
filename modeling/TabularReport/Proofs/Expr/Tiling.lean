import Mathlib.Data.List.TakeWhile
import Mathlib.Logic.Relation
import TabularReport.Proofs.Expr.Complete
import TabularReport.Proofs.Expr.Lexing
import TabularReport.Proofs.Text.Proper
/-!
Tokens and the blanks around them.  A reader takes the tokens off a text one by one.  Their spans lie apart
and in order, and nothing but blanks is outside of them up to the end of the text.  Blanks put in where no
token is change neither the tokens nor the expression.
-/
set_option autoImplicit false

namespace TabularReport

theorem byteLength_append (cs ds : List Char) : byteLength (cs ++ ds) = byteLength cs + byteLength ds := by
  induction cs with
  | nil => simp [byteLength]
  | cons c cs ih => rw [List.cons_append, byteLength, byteLength, ih, Nat.add_assoc]

theorem byteLength_pos {cs : List Char} (h : cs ≠ []) : 0 < byteLength cs := by
  obtain ⟨c, cs, rfl⟩ := List.exists_cons_of_ne_nil h
  exact Nat.add_pos_left c.utf8Size_pos _

theorem utf8ByteSize_ofList (cs : List Char) : (String.ofList cs).utf8ByteSize = byteLength cs := by
  induction cs with
  | nil => rfl
  | cons c cs ih =>
    have hcons : String.ofList (c :: cs) = String.singleton c ++ String.ofList cs := @String.ofList_append [c] cs
    rw [hcons, String.utf8ByteSize_append, ih, byteLength, String.utf8ByteSize_singleton]

theorem byteLength_toList (s : String) : byteLength s.toList = s.utf8ByteSize := by
  rw [← utf8ByteSize_ofList, String.ofList_toList]

/-- Where a text is divided between two characters, there is a position of the text. -/
theorem isValid_byteLength {s : String} {before after : List Char} (h : s.toList = before ++ after) :
    String.Pos.Raw.IsValid s ⟨byteLength before⟩ := by
  refine String.Pos.Raw.isValid_iff_exists_append.2 ⟨String.ofList before, String.ofList after, ?_, ?_⟩
  · rw [← String.ofList_append, ← h, String.ofList_toList]
  · rw [String.rawEndPos, utf8ByteSize_ofList]

/-- A place in a text of three parts is in the first one or at its end, inside the second, or behind it. -/
theorem place_cases {α : Type} {first second third before after : List α}
    (h : first ++ (second ++ third) = before ++ after) :
    (∃ cs, first = before ++ cs ∧ after = cs ++ (second ++ third)) ∨
      (∃ bs cs, before = first ++ bs ∧ second = bs ++ cs ∧ bs ≠ [] ∧ cs ≠ []) ∨
      ∃ bs, before = first ++ (second ++ bs) ∧ third = bs ++ after := by
  obtain ⟨place, rfl, h'⟩ | ⟨cs, rfl, rfl⟩ := List.append_eq_append_iff.1 h
  · obtain ⟨bs, rfl, rfl⟩ | ⟨cs, rfl, rfl⟩ := List.append_eq_append_iff.1 h'
    · exact .inr (.inr ⟨bs, rfl, rfl⟩)
    · by_cases hplace : place = []
      · exact .inl ⟨[], by simp [hplace], by simp [hplace]⟩
      by_cases hcs : cs = []
      · exact .inr (.inr ⟨[], by simp [hcs], by simp [hcs]⟩)
      · exact .inr (.inl ⟨place, cs, rfl, rfl, hplace, hcs⟩)
  · exact .inl ⟨cs, rfl, rfl⟩

structure Span extends PlacedToken where
  stop : Nat
  deriving DecidableEq

/-- What a reader of tokens has not read yet, and the offset of that. -/
structure Lexer where
  offset : Nat
  unread : List Char
  deriving DecidableEq

namespace Lexer

def ofText (s : String) : Lexer := ⟨0, s.toList⟩

/-- The next token, if there is one, and the reader behind it.  Blanks in front of it are passed over. -/
def next (l : Lexer) : Option PlacedToken × Lexer :=
  let start := l.offset + byteLength (l.unread.takeWhile Text.isBlank)
  match Token.first? (Text.trimStart l.unread) with
  | none => (none, ⟨start, []⟩)
  | some (token, spelled, rest) => (some ⟨token, start⟩, ⟨start + byteLength spelled, rest⟩)

inductive Reads : Lexer → List Span → Lexer → Prop where
  | done {l l' : Lexer} (next : l.next = (none, l')) : Reads l [] l'
  | token {l l' last : Lexer} {p : PlacedToken} {spans : List Span} (next : l.next = (some p, l'))
      (rest : Reads l' spans last) : Reads l (⟨p, l'.offset⟩ :: spans) last

variable {l l' last : Lexer} {p : PlacedToken} {spans : List Span}

theorem next_none (h : l.next = (none, l')) :
    (∀ c ∈ l.unread, Text.isBlank c = true) ∧ l' = ⟨l.offset + byteLength l.unread, []⟩ := by
  unfold next at h
  split at h
  · rename_i hfirst
    have htrim : l.unread.dropWhile Text.isBlank = [] := Token.first?_eq_none.1 hfirst
    have hblank := List.dropWhile_eq_nil_iff.1 htrim
    cases h
    have htake : l.unread.takeWhile Text.isBlank = l.unread := by
      have happend := List.takeWhile_append_dropWhile (p := Text.isBlank) (l := l.unread)
      rwa [htrim, List.append_nil] at happend
    exact ⟨hblank, by rw [htake]⟩
  · cases h

theorem next_some (h : l.next = (some p, l')) :
    ∃ blanks spelled, l.unread = blanks ++ (spelled ++ l'.unread) ∧ (∀ c ∈ blanks, Text.isBlank c = true) ∧
      Text.Stops Text.isBlank spelled ∧ p.token.Spells spelled l'.unread ∧
      p.offset = l.offset + byteLength blanks ∧ l'.offset = p.offset + byteLength spelled := by
  unfold next at h
  split at h
  · cases h
  · rename_i token spelled rest hfirst
    cases h
    obtain ⟨hrest, hspells⟩ := Token.first?_eq_some_iff.1 hfirst
    have htrim : l.unread.dropWhile Text.isBlank = spelled ++ rest := hrest
    refine ⟨l.unread.takeWhile Text.isBlank, spelled, ?_, fun c hc => Text.mem_takeWhile hc, ?_, hspells, rfl, rfl⟩
    · rw [← htrim, List.takeWhile_append_dropWhile]
    · have hstops : Text.Stops Text.isBlank (spelled ++ rest) := htrim ▸ Text.stops_dropWhile l.unread
      exact hstops.of_isPrefix ⟨rest, rfl⟩

theorem exists_reads (offset : Nat) (cs : List Char) :
    ∃ spans, Reads ⟨offset, cs⟩ spans ⟨offset + byteLength cs, []⟩ ∧
      spans.map (·.toPlacedToken) = tokensFrom offset cs := by
  fun_induction tokensFrom offset cs with
  | case1 offset cs h =>
    have hnext : next ⟨offset, cs⟩ = (none, ⟨offset + byteLength (cs.takeWhile Text.isBlank), []⟩) := by
      simp only [next, h]
    obtain ⟨-, hlast⟩ := next_none hnext
    exact ⟨[], .done (by rw [hnext, hlast]), rfl⟩
  | case2 offset cs token spelled rest h start ih =>
    have hnext : next ⟨offset, cs⟩ = (some ⟨token, start⟩, ⟨start + byteLength spelled, rest⟩) := by
      simp only [next, h, start]
    obtain ⟨spans, hreads, htokens⟩ := ih
    obtain ⟨blanks, spelled', hcs, -, -, -, hstart, hstop⟩ := next_some hnext
    have hlast : start + byteLength spelled + byteLength rest = offset + byteLength cs := by
      simp only at hcs hstart hstop
      rw [hcs, byteLength_append, byteLength_append]
      omega
    rw [hlast] at hreads
    exact ⟨_, .token hnext hreads, by rw [List.map_cons, htokens]⟩

theorem Reads.unique {spans' : List Span} {last' : Lexer} (h : Reads l spans last) (h' : Reads l spans' last') :
    spans' = spans ∧ last' = last := by
  induction h generalizing spans' last' with
  | done hnext =>
    cases h' with
    | done hnext' =>
      rw [hnext, Prod.mk.injEq] at hnext'
      exact ⟨rfl, hnext'.2.symm⟩
    | token hnext' =>
      rw [hnext, Prod.mk.injEq] at hnext'
      cases hnext'.1
  | token hnext _ ih =>
    cases h' with
    | done hnext' =>
      rw [hnext, Prod.mk.injEq] at hnext'
      cases hnext'.1
    | token hnext' hrest =>
      rw [hnext, Prod.mk.injEq, Option.some.injEq] at hnext'
      obtain ⟨rfl, rfl⟩ := hnext'
      obtain ⟨rfl, rfl⟩ := ih hrest
      exact ⟨rfl, rfl⟩

theorem Reads.spelled (h : Reads l spans last) :
    ∀ a ∈ spans, ∃ before spelled after, l.unread = before ++ (spelled ++ after) ∧ a.token.Spells spelled after ∧
      a.offset = l.offset + byteLength before ∧ a.stop = a.offset + byteLength spelled := by
  induction h with
  | done => simp
  | @token l l' last p spans hnext _ ih =>
    obtain ⟨blanks, spelled, hunread, -, -, hspells, hoffset, hstop⟩ := next_some hnext
    refine List.forall_mem_cons.2 ⟨⟨blanks, spelled, l'.unread, hunread, hspells, hoffset, hstop⟩, ?_⟩
    intro a ha
    obtain ⟨before, spelled', after, hrest, hspells', hoffset', hstop'⟩ := ih a ha
    refine ⟨blanks ++ (spelled ++ before), spelled', after, by simp [hunread, hrest], hspells', ?_, hstop'⟩
    rw [hoffset', hstop, hoffset, byteLength_append, byteLength_append]
    omega

theorem Reads.le_offset (h : Reads l spans last) {a : Span} (ha : a ∈ spans) : l.offset ≤ a.offset := by
  obtain ⟨_, _, _, _, _, hoffset, _⟩ := h.spelled a ha
  omega

theorem Reads.apart (h : Reads l spans last) : spans.Pairwise fun a b => a.stop ≤ b.offset := by
  induction h with
  | done => exact List.Pairwise.nil
  | token _ hrest ih => exact List.pairwise_cons.2 ⟨fun b hb => hrest.le_offset hb, ih⟩

theorem Reads.blank (h : Reads l spans last) {before after : List Char} {c : Char}
    (hc : l.unread = before ++ c :: after)
    (hout : ∀ a ∈ spans, ¬ (a.offset ≤ l.offset + byteLength before ∧ l.offset + byteLength before < a.stop)) :
    Text.isBlank c = true := by
  induction h generalizing before with
  | done hnext => exact (next_none hnext).1 c (by simp [hc])
  | @token l l' last p spans hnext _ ih =>
    obtain ⟨blanks, spelled, hunread, hblank, -, hspells, hoffset, hstop⟩ := next_some hnext
    obtain ⟨hp, hrest⟩ := List.forall_mem_cons.1 hout
    have hp : ¬ (p.offset ≤ l.offset + byteLength before ∧ l.offset + byteLength before < l'.offset) := hp
    have hpos := byteLength_pos hspells.ne_nil
    obtain ⟨cs, rfl, hcs⟩ | ⟨bs, cs, rfl, rfl, hbs, hcs⟩ | ⟨bs, rfl, hbs⟩ := place_cases (hunread ▸ hc)
    · cases cs with
      | nil =>
        rw [List.append_nil] at hoffset
        omega
      | cons d cs =>
        cases hcs
        exact hblank c (by simp)
    · have hlength := byteLength_pos hcs
      rw [byteLength_append] at hp hstop
      omega
    · refine ih hbs fun a ha => ?_
      have hplace : l'.offset + byteLength bs = l.offset + byteLength (blanks ++ (spelled ++ bs)) := by
        rw [byteLength_append, byteLength_append]
        omega
      rw [hplace]
      exact hrest a ha

theorem lexed_blanks {blanks cs : List Char} (h : ∀ c ∈ blanks, Text.isBlank c = true) :
    lexed (blanks ++ cs) = lexed cs := by
  induction blanks with
  | nil => rfl
  | cons c blanks ih =>
    obtain ⟨hc, hblanks⟩ := List.forall_mem_cons.1 h
    rw [List.cons_append, lexed_blank hc, ih hblanks]

/-- Blanks somewhere behind a token change its reading as little as that of what follows it. -/
theorem lexed_respaced {t : Token} {spelled before blanks after : List Char} (h : t.Spells spelled (before ++ after))
    (hstart : Text.Stops Text.isBlank spelled) (hblanks : ∀ c ∈ blanks, Text.isBlank c = true)
    (hsame : lexed (before ++ (blanks ++ after)) = lexed (before ++ after)) :
    lexed (spelled ++ (before ++ (blanks ++ after))) = lexed (spelled ++ (before ++ after)) := by
  by_cases ht : t = .unterminated
  · -- A text without an end takes the blanks in.
    have hquote : '"' ∉ blanks := fun hquote => absurd (hblanks '"' hquote) (by decide)
    obtain ⟨hnil, hlong⟩ := h.append_unterminated ht hquote
    obtain ⟨rfl, rfl⟩ := List.append_eq_nil_iff.1 hnil
    have hread := lexed_of_spells (hstart.append h.ne_nil) hlong
    rw [lexed_of_spells hstart h, ht]
    simpa using hread
  · have hhead : ∀ c ∈ (before ++ (blanks ++ after)).head?, c ∈ (before ++ after).head? ∨ Text.isBlank c = true := by
      intro c hc
      cases before with
      | cons d before => exact .inl hc
      | nil =>
        cases blanks with
        | nil => exact .inl hc
        | cons d blanks =>
          obtain rfl : d = c := by simpa using hc
          exact .inr (hblanks d List.mem_cons_self)
    rw [lexed_of_spells hstart (h.follow ht hhead), lexed_of_spells hstart h, hsame]

theorem Reads.respaced (h : Reads l spans last) {before blanks after : List Char} (hunread : l.unread = before ++ after)
    (hblanks : ∀ c ∈ blanks, Text.isBlank c = true)
    (hout : ∀ a ∈ spans, l.offset + byteLength before ≤ a.offset ∨ a.stop ≤ l.offset + byteLength before) :
    lexed (before ++ (blanks ++ after)) = lexed (before ++ after) := by
  induction h generalizing before with
  | done hnext =>
    obtain ⟨hbefore, -⟩ := List.forall_mem_append.1 (hunread ▸ (next_none hnext).1)
    rw [lexed_blanks hbefore, lexed_blanks hblanks, lexed_blanks hbefore]
  | @token l l' last p spans hnext _ ih =>
    obtain ⟨front, spelled, hunread', hfront, hstart, hspells, hoffset, hstop⟩ := next_some hnext
    obtain ⟨hp, hrest⟩ := List.forall_mem_cons.1 hout
    have hp : l.offset + byteLength before ≤ p.offset ∨ l'.offset ≤ l.offset + byteLength before := hp
    obtain ⟨cs, rfl, hcs⟩ | ⟨bs, cs, rfl, rfl, hbs, hcs⟩ | ⟨bs, rfl, hbs⟩ := place_cases (hunread' ▸ hunread)
    · obtain ⟨hbefore, -⟩ := List.forall_mem_append.1 hfront
      rw [lexed_blanks hbefore, lexed_blanks hblanks, lexed_blanks hbefore]
    · have hlength := byteLength_pos hcs
      have hlength' := byteLength_pos hbs
      simp only [byteLength_append] at hp hstop
      omega
    · have hplace : l'.offset + byteLength bs = l.offset + byteLength (front ++ (spelled ++ bs)) := by
        rw [byteLength_append, byteLength_append]
        omega
      have hsame := ih hbs fun a ha => hplace ▸ hrest a ha
      have hlexed := lexed_respaced (hbs ▸ hspells) hstart hblanks hsame
      simp only [List.append_assoc, lexed_blanks hfront]
      exact hlexed

end Lexer

/-- How spans lie in a text that is read as them. -/
structure Tiles (s : String) (spans : List Span) : Prop where
  read : spans.map (·.toPlacedToken) = tokens s
  increasing : spans.Pairwise fun a b => a.offset < b.offset
  apart : spans.Pairwise fun a b => a.stop ≤ b.offset
  boundary : ∀ a ∈ spans, String.Pos.Raw.IsValid s ⟨a.offset⟩ ∧ String.Pos.Raw.IsValid s ⟨a.stop⟩
  spelled : ∀ a ∈ spans, ∃ before spelled after, s.toList = before ++ (spelled ++ after) ∧
    a.token.Spells spelled after ∧ a.offset = byteLength before ∧ a.stop = a.offset + byteLength spelled
  blank : ∀ before c after, s.toList = before ++ c :: after →
    (∀ a ∈ spans, ¬ (a.offset ≤ byteLength before ∧ byteLength before < a.stop)) → Text.isBlank c = true
  known : ∀ a ∈ spans, a.token ≠ .unexpected '.'

theorem Lexer.Reads.tiles {s : String} {spans : List Span} {last : Lexer} (h : (Lexer.ofText s).Reads spans last) :
    Tiles s spans := by
  obtain ⟨spans', hreads, htokens⟩ := Lexer.exists_reads 0 s.toList
  obtain ⟨rfl, -⟩ := hreads.unique h
  have hspelled : ∀ a ∈ spans, ∃ before spelled after, s.toList = before ++ (spelled ++ after) ∧
      a.token.Spells spelled after ∧ a.offset = byteLength before ∧ a.stop = a.offset + byteLength spelled := by
    simpa [Lexer.ofText] using h.spelled
  have hnonempty : ∀ a ∈ spans, a.offset < a.stop := by
    intro a ha
    obtain ⟨_, _, _, _, hspells, _, hstop⟩ := hspelled a ha
    have hpos := byteLength_pos hspells.ne_nil
    omega
  refine ⟨htokens, ?_, h.apart, ?_, hspelled, ?_, ?_⟩
  · refine h.apart.imp_of_mem fun ha _ hstop => ?_
    exact Nat.lt_of_lt_of_le (hnonempty _ ha) hstop
  · intro a ha
    obtain ⟨before, spelled, after, htext, _, hoffset, hstop⟩ := hspelled a ha
    have htext' : s.toList = (before ++ spelled) ++ after := by rw [htext, List.append_assoc]
    rw [hstop, hoffset, ← byteLength_append]
    exact ⟨isValid_byteLength htext, isValid_byteLength htext'⟩
  · intro before c after hc hout
    exact h.blank hc (by simpa [Lexer.ofText] using hout)
  · intro a ha
    obtain ⟨_, _, _, _, hspells, _⟩ := hspelled a ha
    exact hspells.ne_unexpected

/-- A text and the same with blanks put in where no token is: in front of the first one, behind the last one,
or between two. -/
inductive Spaced : String → String → Prop where
  | intro {s : String} {spans : List Span} {last : Lexer} {before blanks after : List Char}
      (read : (Lexer.ofText s).Reads spans last) (text : s.toList = before ++ after)
      (blank : ∀ c ∈ blanks, Text.isBlank c = true)
      (outside : ∀ a ∈ spans, byteLength before ≤ a.offset ∨ a.stop ≤ byteLength before) :
      Spaced s (String.ofList (before ++ (blanks ++ after)))

theorem Spaced.lexed_eq {s t : String} (h : Spaced s t) : lexed t.toList = lexed s.toList := by
  obtain ⟨hread, htext, hblank, hout⟩ := h
  rw [String.toList_ofList, htext]
  exact hread.respaced htext hblank (by simpa [Lexer.ofText] using hout)

namespace Expr

theorem map_token_dropEquals {ps qs : List PlacedToken} (h : ps.map (·.token) = qs.map (·.token)) :
    (dropEquals ps).map (·.token) = (dropEquals qs).map (·.token) := by
  cases ps with
  | nil =>
    cases qs with
    | nil => rfl
    | cons q qs => contradiction
  | cons p ps =>
    cases qs with
    | nil => contradiction
    | cons q qs =>
      obtain ⟨token, offset⟩ := p
      obtain ⟨token', offset'⟩ := q
      obtain ⟨rfl, hrest⟩ := List.cons.inj h
      cases token with
      | equals => exact hrest
      | _ => exact h

theorem toOption_parse_congr {s t : String} (h : lexed s.toList = lexed t.toList) :
    (parse s).toOption = (parse t).toOption := by
  have hbody : bodyTokens s = bodyTokens t := map_token_dropEquals h
  refine Option.ext fun e => ?_
  rw [toOption_eq_some, toOption_eq_some, parse_eq_ok, parse_eq_ok, hbody]

end Expr

/-- Reading a text ends at its last byte, with spans that tile it but for blanks.  Blanks put in where no
token is change neither the tokens nor the expression. -/
theorem tiles_of_text :
    (∀ s, ∃ spans, Tiles s spans ∧
      ∀ spans' last, (Lexer.ofText s).Reads spans' last ↔ spans' = spans ∧ last = ⟨s.utf8ByteSize, []⟩) ∧
    ∀ s t, Relation.ReflTransGen Spaced s t →
      (tokens t).map (·.token) = (tokens s).map (·.token) ∧ (Expr.parse t).toOption = (Expr.parse s).toOption := by
  constructor
  · intro s
    obtain ⟨spans, hreads, -⟩ := Lexer.exists_reads 0 s.toList
    rw [Nat.zero_add, byteLength_toList] at hreads
    refine ⟨spans, Lexer.Reads.tiles hreads, fun spans' last => ⟨fun h => Lexer.Reads.unique hreads h, ?_⟩⟩
    rintro ⟨rfl, rfl⟩
    exact hreads
  · intro s t h
    have hlexed : lexed t.toList = lexed s.toList := by
      induction h with
      | refl => rfl
      | tail _ hstep ih => exact hstep.lexed_eq.trans ih
    exact ⟨hlexed, Expr.toOption_parse_congr hlexed⟩

theorem tiles_of_noBreakSpace :
    Relation.ReflTransGen Spaced "é.x.5\"" "é.x\u00a0.5\"" ∧
      (tokens "é.x\u00a0.5\"").map (·.token) = (tokens "é.x.5\"").map (·.token) ∧
      (Expr.parse "é.x\u00a0.5\"").toOption = (Expr.parse "é.x.5\"").toOption := by
  have hname : Lexer.next ⟨0, ['é', '.', 'x', '.', '5', '"']⟩ =
    (some ⟨.name "é", 0⟩, ⟨2, ['.', 'x', '.', '5', '"']⟩) := by decide +kernel
  have hdot : Lexer.next ⟨2, ['.', 'x', '.', '5', '"']⟩ = (some ⟨.dot, 2⟩, ⟨3, ['x', '.', '5', '"']⟩) := by
    decide +kernel
  have hsecond : Lexer.next ⟨3, ['x', '.', '5', '"']⟩ = (some ⟨.name "x", 3⟩, ⟨4, ['.', '5', '"']⟩) := by
    decide +kernel
  have hnumber : Lexer.next ⟨4, ['.', '5', '"']⟩ =
    (some ⟨Token.ofNumberSpelling ['.', '5'], 4⟩, ⟨6, ['"']⟩) := by decide +kernel
  have hquote : Lexer.next ⟨6, ['"']⟩ = (some ⟨.unterminated, 6⟩, ⟨7, []⟩) := by decide
  have hread := Lexer.Reads.token hname <| .token hdot <| .token hsecond <| .token hnumber <| .token hquote <|
    .done (rfl : Lexer.next ⟨7, []⟩ = (none, ⟨7, []⟩))
  have hspaced : Spaced "é.x.5\"" "é.x\u00a0.5\"" :=
    @Spaced.intro "é.x.5\"" _ _ ['é', '.', 'x'] ['\u00a0'] ['.', '5', '"'] hread (by decide)
      (List.forall_mem_singleton.2 (by decide)) (by decide)
  obtain ⟨-, hsame⟩ := tiles_of_text
  exact ⟨.single hspaced, hsame _ _ (.single hspaced)⟩

end TabularReport
