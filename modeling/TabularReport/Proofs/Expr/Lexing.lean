import TabularReport.Proofs.Expr.Lexeme

set_option autoImplicit false

namespace TabularReport

variable {c : Char} {cs spelled rest : List Char} {t : Token}

theorem tokensFrom_none (start : Nat) (h : Token.first? (Text.trimStart cs) = none) :
    tokensFrom start cs = [] := by
  rw [tokensFrom]
  split <;> simp_all

theorem tokensFrom_some (start : Nat) (h : Token.first? (Text.trimStart cs) = some (t, spelled, rest)) :
    ∃ offset next, tokensFrom start cs = ⟨t, offset⟩ :: tokensFrom next rest := by
  rw [tokensFrom]
  split
  · simp_all
  · rename_i h'
    rw [h] at h'
    cases h'
    exact ⟨_, _, rfl⟩

def lexed (cs : List Char) : List Token :=
  (tokensFrom 0 cs).map (·.token)

theorem map_token_tokensFrom (start : Nat) (cs : List Char) :
    (tokensFrom start cs).map (·.token) = lexed cs := by
  unfold lexed
  generalize 0 = start'
  fun_induction tokensFrom start cs generalizing start' with
  | case1 start cs h => rw [tokensFrom_none start' h]
  | case2 start cs t spelled rest h start'' ih =>
    obtain ⟨offset, next, h'⟩ := tokensFrom_some start' h
    rw [h', List.map_cons, List.map_cons, ih next]

theorem lexed_nil : lexed [] = [] := by
  rw [lexed, tokensFrom_none 0 rfl, List.map_nil]

theorem lexed_eq_cons (h : Token.first? (Text.trimStart cs) = some (t, spelled, rest)) :
    lexed cs = t :: lexed rest := by
  obtain ⟨offset, next, hcs⟩ := tokensFrom_some 0 h
  rw [lexed, hcs, List.map_cons, map_token_tokensFrom]

theorem lexed_of_first? (hb : Text.isBlank c = false) (h : Token.first? (c :: cs) = some (t, spelled, rest)) :
    lexed (c :: cs) = t :: lexed rest := by
  have htrim : Text.trimStart (c :: cs) = c :: cs := by simp [Text.trimStart, hb]
  exact lexed_eq_cons (htrim ▸ h)

theorem lexed_blank (h : Text.isBlank c = true) : lexed (c :: cs) = lexed cs := by
  have htrim : Text.trimStart (c :: cs) = Text.trimStart cs := List.dropWhile_cons_of_pos h
  match hfirst : Token.first? (Text.trimStart cs) with
  | none => rw [lexed, lexed, tokensFrom_none 0 hfirst, tokensFrom_none 0 (htrim ▸ hfirst)]
  | some (t, spelled, rest) => rw [lexed_eq_cons hfirst, lexed_eq_cons (htrim ▸ hfirst)]

/-! ### What spells a token is read -/

open Token

theorem lexed_of_spells (hb : Text.Stops Text.isBlank spelled) (h : t.Spells spelled rest) :
    lexed (spelled ++ rest) = t :: lexed rest := by
  have hfirst := first?_of_spells h
  cases spelled with
  | nil => exact absurd rfl (first?_append hfirst).1
  | cons c cs => exact lexed_of_first? (Text.stops_cons.1 hb) hfirst

theorem lexed_operator (op : Operator) (cs : List Char) :
    lexed (op.symbol :: cs) = .operator op :: lexed cs :=
  lexed_of_spells (Text.stops_cons.2 (by cases op <;> decide)) (.operator op cs)

theorem lexed_openParen (cs : List Char) : lexed ('(' :: cs) = .openParen :: lexed cs :=
  lexed_of_first? (by decide) rfl

theorem lexed_closeParen (cs : List Char) : lexed (')' :: cs) = .closeParen :: lexed cs :=
  lexed_of_first? (by decide) rfl

theorem lexed_comma (cs : List Char) : lexed (',' :: cs) = .comma :: lexed cs :=
  lexed_of_first? (by decide) rfl

theorem lexed_bang (cs : List Char) : lexed ('!' :: cs) = .bang :: lexed cs :=
  lexed_of_first? (by decide) rfl

theorem lexed_dot (h : Text.Stops Char.isDigit cs) : lexed ('.' :: cs) = .dot :: lexed cs :=
  lexed_of_spells (by simp; decide) (.sign '.' cs ⟨rfl, by decide, by decide, by decide⟩ fun _ => h)

theorem lexed_name {s : String} (hs : IsName s) (hrest : Text.Stops isNamePart rest) :
    lexed (s.toList ++ rest) = .name s :: lexed rest := by
  obtain ⟨c, cs, hcs, hc, hparts⟩ := hs
  have hspelled : String.ofList (c :: cs) = s := by rw [← hcs, String.ofList_toList]
  have hb := isBlank_of_isNamePart (isNamePart_of_isNameStart hc)
  have hlexed := lexed_of_spells (Text.stops_cons.2 hb) (.name c cs rest hc hparts hrest)
  rwa [hspelled, ← hcs] at hlexed

theorem lexed_quoted (s : String) (hrest : Text.Stops (· == '"') rest) :
    lexed ((Text.quoted s).toList ++ rest) = .text s :: lexed rest := by
  have hlexed := lexed_of_spells (by simp; decide) (.text s.toList rest hrest)
  rw [String.ofList_toList] at hlexed
  simpa [Text.quoted] using hlexed

theorem lexed_decimal {x : Double} (hcs : Double.IsDecimal cs) (hx : Double.readChars? cs = some x)
    (hrest : Text.Stops (fun c => c.isDigit || c == '.') rest) :
    lexed (cs ++ rest) = .number x :: lexed rest := by
  have hb : Text.Stops Text.isBlank cs := by
    obtain ⟨d, ds, rfl, hd⟩ := hcs.exists_cons
    exact Text.stops_cons.2 (isBlank_of_isNamePart (isNamePart_of_isDigit hd))
  have hstop : Text.Stops Char.isDigit rest := fun c hc => (Bool.or_eq_false_iff.1 (hrest c hc)).1
  refine lexed_of_spells hb ?_
  cases hcs with
  | whole _ hne hds => exact .whole x cs rest hne hds hx hrest
  | point ds fraction hne hds hfraction => exact .point x ds fraction rest (by simp [hne]) hds hfraction hx hstop

/-! ### What is read has a spelling -/

def Token.Spelled : Token → Prop
  | .number x => x.Unsigned
  | .name s => IsName s
  | _ => True

theorem spelled_ofSign (c : Char) : (ofSign c).Spelled := by
  unfold ofSign
  split <;> trivial

theorem spelled_of_spells (h : t.Spells spelled rest) : t.Spelled := by
  cases h with
  | whole x _ _ nonempty digits value =>
    obtain ⟨d, ds, rfl⟩ := List.exists_cons_of_ne_nil nonempty
    exact Double.unsigned_of_readChars? (.inl (digits d List.mem_cons_self)) value
  | point x ds fraction _ nonempty digits decimals value =>
    cases ds with
    | nil => exact Double.unsigned_of_readChars? (.inr rfl) value
    | cons d ds => exact Double.unsigned_of_readChars? (.inl (digits d List.mem_cons_self)) value
  | name c cs _ start parts => exact ⟨c, cs, String.toList_ofList, start, parts⟩
  | sign c => exact spelled_ofSign c
  | _ => trivial

theorem spelled_of_mem_lexed (cs : List Char) : ∀ t ∈ lexed cs, t.Spelled := by
  unfold lexed
  generalize 0 = start
  fun_induction tokensFrom start cs with
  | case1 start cs h => simp
  | case2 start cs t spelled rest h start' ih =>
    rw [List.map_cons]
    exact List.forall_mem_cons.2 ⟨spelled_of_spells (spells_of_first? h), ih⟩

end TabularReport
