import TabularReport.Expr.Token
import TabularReport.Proofs.Number.ReadBack

set_option autoImplicit false

namespace TabularReport

variable {c : Char} {cs spelled rest : List Char} {t : Token}

/-! ### Quoted text -/

namespace Text

theorem readQuoted?_doubleQuotes (cs : List Char) (hrest : Stops (· == '"') rest) :
    readQuoted? (doubleQuotes cs ++ '"' :: rest) =
      some (cs, doubleQuotes cs ++ ['"'], rest) := by
  induction cs with
  | nil =>
    cases rest with
    | nil => rfl
    | cons d rest =>
      have hd : d ≠ '"' := by simpa using hrest
      simp [doubleQuotes, readQuoted?, hd]
  | cons c cs ih =>
    by_cases hc : c = '"'
    · subst hc
      simp [doubleQuotes, readQuoted?, ih]
    · simp [doubleQuotes, readQuoted?, hc, ih]

theorem parts_of_readQuoted? {content : List Char} (h : readQuoted? cs = some (content, spelled, rest)) :
    spelled = doubleQuotes content ++ ['"'] ∧ Stops (· == '"') rest := by
  fun_induction readQuoted? cs generalizing content spelled rest with
  | case1 => contradiction
  | case2 cs content' spelled' rest' hread ih =>
    cases h
    obtain ⟨rfl, hrest⟩ := ih hread
    exact ⟨by simp [doubleQuotes], hrest⟩
  | case3 => contradiction
  | case4 cs hnext =>
    cases h
    refine ⟨rfl, ?_⟩
    cases cs with
    | nil => exact stops_nil
    | cons d cs =>
      have hd : d ≠ '"' := fun hd => hnext cs rfl (by rw [hd])
      simpa using hd
  | case5 c cs _ hc content' spelled' rest' hread ih =>
    cases h
    obtain ⟨rfl, hrest⟩ := ih hread
    exact ⟨by simp [doubleQuotes, hc], hrest⟩
  | case6 => contradiction

theorem readQuoted?_append_eq_none {other : List Char} (h : readQuoted? cs = none) (hother : '"' ∉ other) :
    readQuoted? (cs ++ other) = none := by
  fun_induction readQuoted? cs with
  | case1 =>
    induction other with
    | nil => rfl
    | cons d other ih =>
      simp only [List.mem_cons, not_or] at hother
      have hnone : readQuoted? other = none := ih hother.2
      simp [readQuoted?, Ne.symm hother.1, hnone]
  | case2 => contradiction
  | case3 cs hread ih => simp [readQuoted?, ih hread]
  | case4 => contradiction
  | case5 => contradiction
  | case6 c cs _ hc hread ih => simp_all [readQuoted?]

end Text

/-! ### What stands at the front of a token -/

def blankPoints : List Nat :=
  [9, 10, 11, 12, 13, 32, 133, 160, 5760, 8192, 8193, 8194, 8195, 8196, 8197, 8198, 8199, 8200, 8201, 8202,
    8232, 8233, 8239, 8287, 12288]

theorem mem_blankPoints (h : Text.isBlank c = true) : c.toNat ∈ blankPoints := by
  simp [Text.isBlank] at h
  simp [blankPoints]
  omega

namespace Token

theorem isNamePart_of_isNameStart (h : isNameStart c = true) : isNamePart c = true := by
  rw [isNamePart, h, Bool.true_or]

theorem isNamePart_of_isDigit (h : c.isDigit = true) : isNamePart c = true := by
  rw [isNamePart, h, Bool.or_true]

theorem ne_of_isNamePart (h : isNamePart c = true) {d : Char} (hd : isNamePart d = false) : c ≠ d := by
  rintro rfl
  simp [h] at hd

theorem symbol_of_operatorOf? {op : Operator} (h : operatorOf? c = some op) : op.symbol = c := by
  unfold operatorOf? at h
  split at h <;> cases h <;> rfl

theorem operatorOf?_of_isNamePart (h : isNamePart c = true) : operatorOf? c = none := by
  cases hop : operatorOf? c with
  | none => rfl
  | some op =>
    have hsymbol : isNamePart op.symbol = false := by cases op <;> decide
    rw [symbol_of_operatorOf? hop, h] at hsymbol
    contradiction

theorem isNamePart_of_mem_blankPoints : ∀ n ∈ blankPoints, isNamePart (Char.ofNat n) = false := by
  decide +kernel

theorem isBlank_of_isNamePart (h : isNamePart c = true) : Text.isBlank c = false := by
  refine Bool.eq_false_iff.2 fun hb => ?_
  have hn := isNamePart_of_mem_blankPoints c.toNat (mem_blankPoints hb)
  rw [Char.ofNat_toNat, h] at hn
  contradiction

theorem isNameStart_of_digit : ∀ n ∈ List.range 58, 48 ≤ n → isNameStart (Char.ofNat n) = false := by
  decide +kernel

theorem isDigit_of_isNameStart (h : isNameStart c = true) : c.isDigit = false := by
  refine Bool.eq_false_iff.2 fun hd => ?_
  simp only [Char.isDigit, Bool.and_eq_true, decide_eq_true_eq, ge_iff_le, UInt32.le_iff_toNat_le] at hd
  have hn := isNameStart_of_digit c.toNat (List.mem_range.2 (Nat.lt_succ_of_le hd.2)) hd.1
  rw [Char.ofNat_toNat, h] at hn
  contradiction

theorem startsNumber_eq (h : isNamePart c = true) (cs : List Char) : startsNumber c cs = c.isDigit := by
  have hdot : c ≠ '.' := ne_of_isNamePart h (by decide)
  unfold startsNumber
  split
  · contradiction
  · rfl

def IsName (s : String) : Prop :=
  ∃ c cs, s.toList = c :: cs ∧ isNameStart c = true ∧ ∀ d ∈ cs, isNamePart d = true

theorem isName_iff {s : String} (h : s.toList = c :: cs) :
    IsName s ↔ isNameStart c = true ∧ ∀ d ∈ cs, isNamePart d = true := by
  constructor
  · rintro ⟨d, ds, hs, hd, hds⟩
    obtain ⟨rfl, rfl⟩ := List.cons.inj (h.symm.trans hs)
    exact ⟨hd, hds⟩
  · rintro ⟨hc, hcs⟩
    exact ⟨c, cs, h, hc, hcs⟩

instance (s : String) : Decidable (IsName s) :=
  match h : s.toList with
  | [] => isFalse fun ⟨_, _, hs, _⟩ => by simp [hs] at h
  | c :: cs => decidable_of_iff ((isNameStart c && cs.all isNamePart) = true) (by simp [isName_iff h])

/-! ### Spellings -/

theorem spanNumber_whole {ds : List Char} (hds : ∀ c ∈ ds, c.isDigit = true)
    (hrest : Text.Stops (fun c => c.isDigit || c == '.') rest) : spanNumber (ds ++ rest) = (ds, rest) := by
  have hstop : Text.Stops Char.isDigit rest := fun c hc => (Bool.or_eq_false_iff.1 (hrest c hc)).1
  unfold spanNumber
  rw [Text.takeWhile_run hds hstop, Text.dropWhile_run hds hstop]
  split
  · simp at hrest
  · rfl

theorem spanNumber_point {ds fraction : List Char} (hds : ∀ c ∈ ds, c.isDigit = true)
    (hfraction : ∀ c ∈ fraction, c.isDigit = true) (hrest : Text.Stops Char.isDigit rest) :
    spanNumber (ds ++ '.' :: fraction ++ rest) = (ds ++ '.' :: fraction, rest) := by
  have hdot : Text.Stops Char.isDigit ('.' :: (fraction ++ rest)) := by simp
  rw [List.append_assoc, List.cons_append, spanNumber, Text.takeWhile_run hds hdot, Text.dropWhile_run hds hdot]
  simp only [Text.takeWhile_run hfraction hrest, Text.dropWhile_run hfraction hrest]

theorem spanNumber_cases (cs : List Char) :
    (∃ ds rest, spanNumber cs = (ds, rest) ∧ (∀ c ∈ ds, c.isDigit = true) ∧
      Text.Stops (fun c => c.isDigit || c == '.') rest) ∨
    ∃ ds fraction rest, spanNumber cs = (ds ++ '.' :: fraction, rest) ∧ (∀ c ∈ ds, c.isDigit = true) ∧
      (∀ c ∈ fraction, c.isDigit = true) ∧ Text.Stops Char.isDigit rest := by
  unfold spanNumber
  split
  · rename_i rest hdrop
    exact .inr ⟨_, _, _, rfl, fun c hc => Text.mem_takeWhile hc, fun c hc => Text.mem_takeWhile hc,
      Text.stops_dropWhile rest⟩
  · rename_i hdrop
    refine .inl ⟨_, _, rfl, fun c hc => Text.mem_takeWhile hc, ?_⟩
    intro c hc
    have hdigit := Text.stops_dropWhile cs c hc
    have hdot : c ≠ '.' := by
      rintro rfl
      obtain ⟨rest, hrest⟩ := List.head?_eq_some_iff.1 hc
      exact hdrop rest hrest
    simp [hdigit, hdot]

/-- Whether no token longer than the character starts with it, but for a point before digits. -/
def IsSign (c : Char) : Prop :=
  operatorOf? c = none ∧ c ≠ '"' ∧ c.isDigit = false ∧ isNameStart c = false

/-- How a token is spelled, and what may follow. -/
inductive Spells : Token → List Char → List Char → Prop where
  | operator (op : Operator) (rest : List Char) : Spells (.operator op) [op.symbol] rest
  | text (content rest : List Char) (stops : Text.Stops (· == '"') rest) :
      Spells (.text (String.ofList content)) ('"' :: (Text.doubleQuotes content ++ ['"'])) rest
  | unterminated (cs : List Char) (unclosed : Text.readQuoted? cs = none) : Spells .unterminated ('"' :: cs) []
  | whole (x : Double) (ds rest : List Char) (nonempty : ds ≠ []) (digits : ∀ c ∈ ds, c.isDigit = true)
      (value : Double.readChars? ds = some x) (stops : Text.Stops (fun c => c.isDigit || c == '.') rest) :
      Spells (.number x) ds rest
  | point (x : Double) (ds fraction rest : List Char) (nonempty : ds ++ fraction ≠ [])
      (digits : ∀ c ∈ ds, c.isDigit = true) (decimals : ∀ c ∈ fraction, c.isDigit = true)
      (value : Double.readChars? (ds ++ '.' :: fraction) = some x) (stops : Text.Stops Char.isDigit rest) :
      Spells (.number x) (ds ++ '.' :: fraction) rest
  | name (c : Char) (cs rest : List Char) (start : isNameStart c = true) (parts : ∀ d ∈ cs, isNamePart d = true)
      (stops : Text.Stops isNamePart rest) : Spells (.name (String.ofList (c :: cs))) (c :: cs) rest
  | sign (c : Char) (rest : List Char) (single : IsSign c) (stops : c = '.' → Text.Stops Char.isDigit rest) :
      Spells (ofSign c) [c] rest

theorem startsNumber_eq_false_iff :
    startsNumber c cs = false ↔ c.isDigit = false ∧ (c = '.' → Text.Stops Char.isDigit cs) := by
  by_cases hc : c = '.'
  · subst hc
    have hdigit : Char.isDigit '.' = false := by decide
    cases cs <;> simp [startsNumber, hdigit]
  · unfold startsNumber
    split
    · contradiction
    · simp [hc]

theorem isDigit_or_of_startsNumber (h : startsNumber c cs = true) : c.isDigit = true ∨ c = '.' := by
  unfold startsNumber at h
  split at h
  · exact .inr rfl
  · exact .inl h

theorem first?_number {x : Double} (hstart : startsNumber c cs = true) (hspan : spanNumber (c :: cs) = (spelled, rest))
    (hx : Double.readChars? spelled = some x) : first? (c :: cs) = some (.number x, spelled, rest) := by
  have hc : operatorOf? c = none ∧ c ≠ '"' := by
    obtain hdigit | rfl := isDigit_or_of_startsNumber hstart
    · have hpart := isNamePart_of_isDigit hdigit
      exact ⟨operatorOf?_of_isNamePart hpart, ne_of_isNamePart hpart (by decide)⟩
    · exact ⟨rfl, by decide⟩
  simp [first?, hc.1, hc.2, hstart, hspan, ofNumberSpelling, hx]

theorem startsNumber_of_isDigit (h : c.isDigit = true) (cs : List Char) : startsNumber c cs = true := by
  rw [startsNumber_eq (isNamePart_of_isDigit h), h]

/-- What a token spells is read as that token, in front of anything that may follow. -/
theorem first?_of_spells (h : t.Spells spelled rest) : first? (spelled ++ rest) = some (t, spelled, rest) := by
  cases h with
  | operator op => cases op <;> rfl
  | text content _ stops => simp [first?, operatorOf?, Text.readQuoted?_doubleQuotes content stops]
  | unterminated cs unclosed => simp [first?, operatorOf?, unclosed]
  | whole x _ _ nonempty digits value stops =>
    have hspan := spanNumber_whole digits stops
    cases spelled with
    | nil => exact absurd rfl nonempty
    | cons d ds => exact first?_number (startsNumber_of_isDigit (digits d List.mem_cons_self) _) hspan value
  | point x ds fraction _ nonempty digits decimals value stops =>
    have hspan := spanNumber_point digits decimals stops
    cases ds with
    | cons d ds => exact first?_number (startsNumber_of_isDigit (digits d List.mem_cons_self) _) hspan value
    | nil =>
      cases fraction with
      | nil => exact absurd rfl nonempty
      | cons d fraction =>
        have hstart : startsNumber '.' (d :: fraction ++ rest) = true := decimals d List.mem_cons_self
        exact first?_number hstart hspan value
  | name c cs _ start parts stops =>
    have hpart := isNamePart_of_isNameStart start
    have hquote : c ≠ '"' := ne_of_isNamePart hpart (by decide)
    simp [first?, operatorOf?_of_isNamePart hpart, hquote, startsNumber_eq hpart, isDigit_of_isNameStart start, start,
      Text.takeWhile_run parts stops, Text.dropWhile_run parts stops]
  | sign c _ single stops =>
    obtain ⟨hoperator, hquote, hdigit, hstart⟩ := single
    have hnumber := startsNumber_eq_false_iff.2 ⟨hdigit, stops⟩
    simp [first?, hoperator, hquote, hnumber, hstart]

theorem spells_ofNumberSpelling (h : startsNumber c cs = true) :
    (ofNumberSpelling (spanNumber (c :: cs)).1).Spells (spanNumber (c :: cs)).1 (spanNumber (c :: cs)).2 := by
  have happend := spanNumber_append (c :: cs)
  obtain ⟨ds, rest, hspan, hds, hrest⟩ | ⟨ds, fraction, rest, hspan, hds, hfraction, hrest⟩ :=
    spanNumber_cases (c :: cs)
  · have hne : ds ≠ [] := by simpa [hspan] using spanNumber_ne_nil h
    have hvalue := Double.readChars?_whole hne hds
    rw [hspan, ofNumberSpelling, hvalue]
    exact .whole _ ds rest hne hds hvalue hrest
  · have hne : ds ++ fraction ≠ [] := by
      -- Else the point would stand alone, and no number starts with it.
      intro hnil
      obtain ⟨rfl, rfl⟩ := List.append_eq_nil_iff.1 hnil
      rw [hspan] at happend
      obtain ⟨rfl, rfl⟩ := List.cons.inj happend
      have hnone : startsNumber '.' rest = false := startsNumber_eq_false_iff.2 ⟨by decide, fun _ => hrest⟩
      exact Bool.eq_false_iff.1 hnone h
    have hvalue := Double.readChars?_point hne hds hfraction
    rw [hspan, ofNumberSpelling, hvalue]
    exact .point _ ds fraction rest hne hds hfraction hvalue hrest

/-- Whatever is read as a token is spelled like it. -/
theorem spells_of_first? (h : first? cs = some (t, spelled, rest)) : t.Spells spelled rest := by
  unfold first? at h
  split at h
  · contradiction
  rename_i c cs
  split at h
  · rename_i op hop
    cases h
    rw [← symbol_of_operatorOf? hop]
    exact .operator op _
  rename_i hoperator
  split at h
  · rename_i hquote
    subst hquote
    split at h
    · rename_i content spelled' rest' hread
      cases h
      obtain ⟨rfl, hrest⟩ := Text.parts_of_readQuoted? hread
      exact .text content _ hrest
    · rename_i hread
      cases h
      exact .unterminated cs hread
  rename_i hquote
  split at h
  · rename_i hnumber
    simp only [Option.some.injEq, Prod.mk.injEq] at h
    obtain ⟨rfl, hspan⟩ := h
    have hspells := spells_ofNumberSpelling hnumber
    simpa only [hspan] using hspells
  rename_i hnumber
  split at h
  · rename_i hstart
    cases h
    exact .name c _ _ hstart (fun d hd => Text.mem_takeWhile hd) (Text.stops_dropWhile cs)
  · rename_i hstart
    cases h
    obtain ⟨hdigit, hdot⟩ := startsNumber_eq_false_iff.1 (Bool.eq_false_iff.2 hnumber)
    exact .sign c _ ⟨hoperator, hquote, hdigit, Bool.eq_false_iff.2 hstart⟩ hdot

theorem first?_eq_some_iff : first? cs = some (t, spelled, rest) ↔ cs = spelled ++ rest ∧ t.Spells spelled rest := by
  constructor
  · intro h
    exact ⟨(first?_append h).2.symm, spells_of_first? h⟩
  · rintro ⟨rfl, h⟩
    exact first?_of_spells h

theorem first?_eq_none : first? cs = none ↔ cs = [] := by
  constructor
  · intro h
    unfold first? at h
    split at h
    · rfl
    · repeat' split at h
      all_goals contradiction
  · rintro rfl
    rfl

/-! ### What may follow a token -/

theorem Spells.ne_nil (h : t.Spells spelled rest) : spelled ≠ [] :=
  (first?_append (first?_of_spells h)).1

theorem Spells.ne_unexpected (h : t.Spells spelled rest) : t ≠ .unexpected '.' := by
  cases h with
  | sign c =>
    intro hc
    unfold ofSign at hc
    split at hc
    all_goals cases hc
    contradiction
  | _ => nofun

/-- A token but a text without an end is read also if what follows it starts with a blank instead. -/
theorem Spells.follow {other : List Char} (h : t.Spells spelled rest) (ht : t ≠ .unterminated)
    (hother : ∀ c ∈ other.head?, c ∈ rest.head? ∨ Text.isBlank c = true) : t.Spells spelled other := by
  have hstops (p : Char → Bool) (hp : ∀ c, Text.isBlank c = true → p c = false) (hrest : Text.Stops p rest) :
      Text.Stops p other := by
    intro c hc
    obtain hsame | hblank := hother c hc
    · exact hrest c hsame
    · exact hp c hblank
  have hpart (c : Char) (hc : Text.isBlank c = true) : isNamePart c = false := by
    refine Bool.eq_false_iff.2 fun hpart => ?_
    rw [isBlank_of_isNamePart hpart] at hc
    contradiction
  have hdigit (c : Char) (hc : Text.isBlank c = true) : c.isDigit = false := by
    refine Bool.eq_false_iff.2 fun hdigit => ?_
    exact Bool.eq_false_iff.1 (hpart c hc) (isNamePart_of_isDigit hdigit)
  have hne (d : Char) (hd : Text.isBlank d = false) (c : Char) (hc : Text.isBlank c = true) : (c == d) = false := by
    refine beq_eq_false_iff_ne.2 ?_
    rintro rfl
    exact Bool.eq_false_iff.1 hd hc
  cases h with
  | operator op => exact .operator op other
  | text content _ stops => exact .text content other (hstops _ (hne '"' (by decide)) stops)
  | unterminated => exact absurd rfl ht
  | whole x _ _ nonempty digits value stops =>
    refine .whole x _ other nonempty digits value (hstops _ (fun c hc => ?_) stops)
    exact Bool.or_eq_false_iff.2 ⟨hdigit c hc, hne '.' (by decide) c hc⟩
  | point x ds fraction _ nonempty digits decimals value stops =>
    exact .point x ds fraction other nonempty digits decimals value (hstops _ hdigit stops)
  | name c cs _ start parts stops => exact .name c cs other start parts (hstops _ hpart stops)
  | sign c _ single stops => exact .sign c other single fun hc => hstops _ hdigit (stops hc)

theorem Spells.append_unterminated {other : List Char} (h : t.Spells spelled rest) (ht : t = .unterminated)
    (hother : '"' ∉ other) : rest = [] ∧ Spells .unterminated (spelled ++ other) [] := by
  cases h with
  | unterminated cs unclosed => exact ⟨rfl, .unterminated _ (Text.readQuoted?_append_eq_none unclosed hother)⟩
  | sign c =>
    unfold ofSign at ht
    split at ht <;> contradiction
  | _ => contradiction

end Token
end TabularReport
