import TabularReport.Proofs.Expr.Complete
import TabularReport.Proofs.Expr.Spelling
/-!
Printing and reading are inverse.  The grammar derives an expression from the tokens of its text, since an
operand without parentheses is of the stratum that its operator asks for.  Only an infinite number, which a
literal with too many digits denotes, is printed as a word that no rule of the grammar takes.
-/
set_option autoImplicit false

namespace TabularReport.Expr

variable {e : Expr}

/-! ### The grammar derives what is printed -/

/-- The strength that the operators outside parentheses exceed. -/
def strength : Expr → Nat
  | .binary op _ _ => op.precedence - 1
  | _ => 3

theorem le_strength_of_left {op : Operator} (h : e.needsParens op false = false) :
    op.precedence - 1 ≤ e.strength := by
  cases e with
  | binary inner left right =>
    simp [needsParens] at h
    exact Nat.sub_le_sub_right h 1
  | _ => exact Nat.le_trans (Nat.sub_le _ 1) (precedence_le op)

theorem le_strength_of_right {op : Operator} (h : e.needsParens op true = false) :
    op.precedence ≤ e.strength := by
  cases e with
  | binary inner left right =>
    simp [needsParens] at h
    exact Nat.le_sub_one_of_lt (by omega)
  | _ => exact precedence_le op

theorem strength_of_not_isBinary (h : e.isBinary = false) : e.strength = 3 := by
  cases e with
  | binary op left right => contradiction
  | _ => rfl

theorem derives_wrapped {b : Bool} {min : Nat} {ts : List Token} (h : Derives (.above e.strength) ts e)
    (hb : b = false → min ≤ e.strength) : Derives (.above min) (wrapped b ts) e := by
  cases b with
  | false => exact h.loosen (hb rfl)
  | true => exact (Derives.ofPrimary _ e (.parenthesized ts e (h.loosen (Nat.zero_le _)))).ofUnaryAbove min

theorem Printable.derives (h : e.Printable) : Derives (.above e.strength) e.spelling e := by
  unfold Printable at h
  induction e with
  | literal v =>
    refine Derives.ofPrimary _ _ ?_
    cases v with
    | null => exact .nothing "Nothing" (by decide)
    | text s => exact .text s
    | number x =>
      obtain ⟨m, rfl⟩ : ∃ m, x = .finite false m := written_literal.1 h
      exact .number _
    | boolean b =>
      cases b with
      | false => exact .false "False" (by decide)
      | true => exact .true "True" (by decide)
    | date t => exact (written_literal.1 h).elim
  | field dataset name =>
    obtain ⟨rfl, -⟩ := written_field.1 h
    exact .ofPrimary _ _ (.field "Fields" name "Value" (by decide) (by decide))
  | parameter name => exact .ofPrimary _ _ (.parameter "Parameters" name "Value" (by decide) (by decide))
  | rowNumber dataset => exact .ofPrimary _ _ (.rowNumber "RowNumber" dataset (by decide))
  | lookup key source keyField valueField ih =>
    have hkey := (ih (written_lookup.1 h)).loosen (Nat.zero_le _)
    exact .ofPrimary _ _ (.lookup "Lookup" _ key source keyField valueField (by decide) hkey)
  | binary op left right ihl ihr =>
    obtain ⟨hl, hr⟩ := written_binary.1 h
    exact Derives.binary op (derives_wrapped (ihl hl) le_strength_of_left)
      (derives_wrapped (ihr hr) le_strength_of_right)
  | negate operand ih =>
    have hoperand := derives_wrapped (ih (written_negate.1 h)) fun hb =>
      Nat.le_of_eq (strength_of_not_isBinary hb).symm
    exact .negation _ _ hoperand

/-! ### The whole text -/

theorem bodyTokens_of_lexed {s : String} {ts : List Token} (h : lexed s.toList = ts)
    (hts : ts.head? ≠ some .equals) : bodyTokens s = ts := by
  subst h
  have hdrop : dropEquals (tokens s) = tokens s := by
    unfold dropEquals
    split
    · rename_i hs
      have hhead : (lexed s.toList).head? = some .equals := by
        rw [lexed, ← tokens, hs]
        rfl
      contradiction
    · rfl
  rw [bodyTokens, hdrop]
  rfl

theorem bodyTokens_of_equals {s : String} {cs : List Char} (h : s.toList = '=' :: cs) :
    bodyTokens s = lexed cs := by
  have hfirst : Token.first? (Text.trimStart s.toList) = some (.equals, ['='], cs) := by
    rw [h]
    rfl
  obtain ⟨offset, next, htokens⟩ := tokensFrom_some 0 hfirst
  rw [bodyTokens, tokens, htokens, dropEquals, map_token_tokensFrom]

theorem head?_wrapped {b : Bool} {ts us : List Token} (h : (ts ++ us).head? ≠ some .equals) :
    (wrapped b ts ++ us).head? ≠ some .equals := by
  cases b with
  | false => exact h
  | true => simp [wrapped]

theorem head?_spelling (e : Expr) (ts : List Token) : (e.spelling ++ ts).head? ≠ some .equals := by
  induction e generalizing ts with
  | literal v => cases v <;> simp [spelling, literalToken]; split <;> simp
  | binary op left right ihl _ =>
    rw [spelling, List.append_assoc]
    exact head?_wrapped (ihl _)
  | _ => simp [spelling]

theorem lexed_text_toList (h : e.Written Double.Unsigned) : lexed e.text.toList = e.spelling := by
  have hlexed := lexed_text h delimited_nil
  rwa [List.append_nil, lexed_nil, List.append_nil] at hlexed

theorem bodyTokens_text (h : e.Written Double.Unsigned) : bodyTokens e.text = e.spelling :=
  bodyTokens_of_lexed (lexed_text_toList h) (by simpa using e.head?_spelling [])

theorem parse_text (h : e.Printable) : parse e.text = .ok e := by
  rw [parse_eq_ok, bodyTokens_text h.written]
  exact h.derives.loosen (Nat.zero_le _)

theorem ofReportText_text (h : e.Printable) : ofReportText ("=" ++ e.text) = .ok e := by
  have hs : ("=" ++ e.text).toList = '=' :: e.text.toList := by simp
  rw [ofReportText, hs]
  refine parse_eq_ok.2 ?_
  rw [bodyTokens_of_equals hs, lexed_text_toList h.written]
  exact h.derives.loosen (Nat.zero_le _)

theorem parse_decimal {cs : List Char} {x : Double} (hcs : Double.IsDecimal cs)
    (hx : Double.readChars? cs = some x) : parse (String.ofList cs) = .ok (.literal (.number x)) := by
  have hlexed := lexed_decimal hcs hx Text.stops_nil
  rw [List.append_nil, lexed_nil, ← String.toList_ofList (l := cs)] at hlexed
  rw [parse_eq_ok, bodyTokens_of_lexed hlexed (by simp)]
  exact (Derives.ofPrimary _ _ (.number x)).ofUnaryAbove 0

/-! ### What is read could be printed, but for infinite numbers -/

theorem Derives.written {s : Stratum} {ts : List Token} (h : Derives s ts e) (hts : ∀ t ∈ ts, t.Spelled) :
    e.Written Double.Unsigned := by
  induction h with
  | ofAdditive _ _ _ ih => exact ih hts
  | ofMultiplicative _ _ _ ih => exact ih hts
  | ofUnary _ _ _ ih => exact ih hts
  | ofPrimary _ _ _ ih => exact ih hts
  | concatenation ls rs left right _ _ ihl ihr =>
    exact written_binary.2 ⟨ihl fun t ht => hts t (by simp [ht]), ihr fun t ht => hts t (by simp [ht])⟩
  | sum op ls rs left right _ _ _ ihl ihr =>
    exact written_binary.2 ⟨ihl fun t ht => hts t (by simp [ht]), ihr fun t ht => hts t (by simp [ht])⟩
  | product op ls rs left right _ _ _ ihl ihr =>
    exact written_binary.2 ⟨ihl fun t ht => hts t (by simp [ht]), ihr fun t ht => hts t (by simp [ht])⟩
  | negation ts operand _ ih => exact written_negate.2 (ih fun t ht => hts t (by simp [ht]))
  | number x => exact written_literal.2 (hts (.number x) (by simp))
  | text s => exact written_literal.2 trivial
  | true word _ => exact written_literal.2 trivial
  | false word _ => exact written_literal.2 trivial
  | nothing word _ => exact written_literal.2 trivial
  | field collection field property _ _ => exact written_field.2 ⟨rfl, hts (.name field) (by simp)⟩
  | parameter collection name property _ _ => exact written_parameter.2 (hts (.name name) (by simp))
  | rowNumber function dataset _ => exact written_rowNumber dataset
  | lookup function ts key source keyField valueField _ _ ih =>
    exact written_lookup.2 (ih fun t ht => hts t (by simp [ht]))
  | lookupByFields function ts fs gs key source keyField valueField _ _ _ _ ih =>
    exact written_lookup.2 (ih fun t ht => hts t (by simp [ht]))
  | parenthesized ts e _ ih => exact ih fun t ht => hts t (by simp [ht])

theorem dropEquals_sublist (ts : List PlacedToken) : (dropEquals ts).Sublist ts := by
  unfold dropEquals
  split
  · exact List.sublist_cons_self _ _
  · exact List.Sublist.refl _

theorem mem_lexed_of_mem_bodyTokens {s : String} {t : Token} (h : t ∈ bodyTokens s) : t ∈ lexed s.toList :=
  ((dropEquals_sublist (tokens s)).map _).subset h

theorem written_of_parse {s : String} (h : parse s = .ok e) : e.Written Double.Unsigned :=
  (parse_eq_ok.1 h).written fun t ht => spelled_of_mem_lexed s.toList t (mem_lexed_of_mem_bodyTokens ht)

/-! ### Infinite numbers -/

def bareNames : List Token → List String
  | .bang :: .name _ :: ts => bareNames ts
  | .name s :: ts => s :: bareNames ts
  | _ :: ts => bareNames ts
  | [] => []

theorem bareNames_cons {t : Token} (ht : ∀ s, t ≠ .name s) (hmark : t ≠ .bang) (ts : List Token) :
    bareNames (t :: ts) = bareNames ts := by
  rw [bareNames]
  · exact fun _ _ h _ => hmark h
  · exact ht

theorem bareNames_append_cons {u : Token} (hu : ∀ s, u ≠ .name s) (ts us : List Token) :
    bareNames (ts ++ u :: us) = bareNames ts ++ bareNames (u :: us) := by
  fun_induction bareNames ts with
  | case1 name ts ih => simpa [bareNames] using ih
  | case2 s ts ih => simpa [bareNames] using ih
  | case3 t ts hmark hname ih =>
    rw [List.cons_append, bareNames, ih]
    -- A mark could only stand before a name of `ts`, since `u` is none.
    · rintro s rest rfl hrest
      cases ts with
      | nil => exact hu s (List.cons.inj hrest).1
      | cons u ts => exact hmark s ts rfl (by rw [(List.cons.inj hrest).1])
    · exact hname
  | case4 => rfl

def isKeyword (word : String) : Bool :=
  ["true", "false", "nothing", "Fields", "Parameters", "Value", "RowNumber", "Lookup"].any
    (Text.sameIgnoringCase word ·)

theorem FieldReference.isKeyword_of_mem {ts : List Token} {name : String} (h : FieldReference ts name) :
    ∀ word ∈ bareNames ts, isKeyword word = true := by
  induction h with
  | member collection field property hc hp => simp [bareNames, isKeyword, hc, hp]
  | parenthesized ts field _ ih => simpa [bareNames_append_cons, bareNames] using ih

theorem isKeyword_of_derives {s : Stratum} {ts : List Token} (h : Derives s ts e) :
    ∀ word ∈ bareNames ts, isKeyword word = true := by
  induction h with
  | ofAdditive _ _ _ ih => exact ih
  | ofMultiplicative _ _ _ ih => exact ih
  | ofUnary _ _ _ ih => exact ih
  | ofPrimary _ _ _ ih => exact ih
  | concatenation ls rs left right _ _ ihl ihr =>
    simpa [bareNames_append_cons, bareNames, or_imp, forall_and] using And.intro ihl ihr
  | sum op ls rs left right _ _ _ ihl ihr =>
    simpa [bareNames_append_cons, bareNames, or_imp, forall_and] using And.intro ihl ihr
  | product op ls rs left right _ _ _ ihl ihr =>
    simpa [bareNames_append_cons, bareNames, or_imp, forall_and] using And.intro ihl ihr
  | negation ts operand _ ih => simpa [bareNames] using ih
  | number x => simp [bareNames]
  | text s => simp [bareNames]
  | true word hw => simp [bareNames, isKeyword, hw]
  | false word hw => simp [bareNames, isKeyword, hw]
  | nothing word hw => simp [bareNames, isKeyword, hw]
  | field collection field property hc hp => simp [bareNames, isKeyword, hc, hp]
  | parameter collection name property hc hp => simp [bareNames, isKeyword, hc, hp]
  | rowNumber function dataset hf => simp [bareNames, isKeyword, hf]
  | lookup function ts key source keyField valueField hf _ ih =>
    simpa [bareNames_append_cons, bareNames, isKeyword, hf] using ih
  | lookupByFields function ts fs gs key source keyField valueField hf _ hfs hgs ih =>
    have hkey : isKeyword function = true := by simp [isKeyword, hf]
    simpa [bareNames_append_cons, bareNames, hkey, or_imp, forall_and] using
      And.intro ih (And.intro hfs.isKeyword_of_mem hgs.isKeyword_of_mem)
  | parenthesized ts e _ ih => simpa [bareNames_append_cons, bareNames] using ih

theorem mem_bareNames_wrapped {b : Bool} {ts : List Token} {word : String} (h : word ∈ bareNames ts) :
    word ∈ bareNames (wrapped b ts) := by
  cases b with
  | false => exact h
  | true => simpa [wrapped, bareNames_append_cons, bareNames] using h

/-- An infinite number is printed as a word that the grammar does not know. -/
theorem Overflowed.mem_bareNames (h : e.Overflowed) (hw : e.Written Double.Unsigned) :
    "inf" ∈ bareNames e.spelling := by
  induction e with
  | literal v =>
    obtain ⟨negative, hv⟩ : ∃ negative, v = .number (.infinite negative) := by
      simpa [Overflowed, nodes, eq_comm] using h
    subst hv
    obtain h | ⟨m, h⟩ : (Double.infinite negative).Unsigned := written_literal.1 hw
    · cases h
      exact List.mem_singleton.2 rfl
    · cases h
  | field dataset name => simp [Overflowed, nodes] at h
  | parameter name => simp [Overflowed, nodes] at h
  | rowNumber dataset => simp [Overflowed, nodes] at h
  | lookup key source keyField valueField ih =>
    have hkey : key.Overflowed := by simpa [Overflowed, nodes] using h
    have hmem := ih hkey (written_lookup.1 hw)
    simp [spelling, bareNames_append_cons, bareNames, hmem]
  | binary op left right ihl ihr =>
    obtain ⟨hl, hr⟩ := written_binary.1 hw
    have hparts : left.Overflowed ∨ right.Overflowed := by simpa [Overflowed, nodes, exists_or] using h
    rw [spelling, bareNames_append_cons (by simp), bareNames_cons (by simp) (by simp), List.mem_append]
    rcases hparts with hleft | hright
    · exact .inl (mem_bareNames_wrapped (ihl hleft hl))
    · exact .inr (mem_bareNames_wrapped (ihr hright hr))
  | negate operand ih =>
    have hoperand : operand.Overflowed := by simpa [Overflowed, nodes] using h
    rw [spelling, bareNames_cons (by simp) (by simp)]
    exact mem_bareNames_wrapped (ih hoperand (written_negate.1 hw))

theorem exists_error_of_overflowed (h : e.Overflowed) (hw : e.Written Double.Unsigned) :
    ∃ err, parse e.text = .error err := by
  cases hparse : parse e.text with
  | error err => exact ⟨err, rfl⟩
  | ok e' =>
    rw [parse_eq_ok, bodyTokens_text hw] at hparse
    have hinf : isKeyword "inf" = true := isKeyword_of_derives hparse "inf" (h.mem_bareNames hw)
    exact absurd hinf (by decide)

/-- A printable expression is read back from its text, alone and behind an equals sign.  What is read from a
text is printable or has an infinite number, and then its own text is refused. -/
theorem parse_text_inverse :
    (∀ e : Expr, e.Printable → parse e.text = .ok e ∧ ofReportText ("=" ++ e.text) = .ok e) ∧
    ∀ s e, parse s = .ok e →
      (e.Printable ∨ e.Overflowed) ∧ (e.Overflowed → ∃ err, parse e.text = .error err) := by
  refine ⟨fun e h => ⟨parse_text h, ofReportText_text h⟩, fun s e h => ?_⟩
  have hwritten := written_of_parse h
  exact ⟨printable_or_overflowed hwritten, fun ho => exists_error_of_overflowed ho hwritten⟩

def difference : Expr :=
  .binary .subtract (.field none "Amount")
    (.binary .add (.literal (.number (.finite false .zero))) (.negate (.literal (.text "a\"b"))))

theorem parse_text_of_difference :
    (difference.Printable ∧ difference.text = "Fields!Amount.Value - (0 + -\"a\"\"b\")" ∧
      parse difference.text = .ok difference ∧ ofReportText ("=" ++ difference.text) = .ok difference) ∧
    ∃ e, parse (String.ofList (List.replicate 309 '9')) = .ok e ∧ e.Overflowed ∧
      ∃ err, parse e.text = .error err := by
  obtain ⟨hprint, hread⟩ := parse_text_inverse
  constructor
  · have hprintable : difference.Printable := by
      have hname : Token.IsName "Amount" := by decide
      simp [difference, Printable, Writes, hname]
    exact ⟨hprintable, by decide +kernel, hprint _ hprintable⟩
  · have hinf : parse (String.ofList (List.replicate 309 '9')) = .ok (.literal (.number (.infinite false))) :=
      parse_decimal (.whole _ (by decide) fun c hc => List.eq_of_mem_replicate hc ▸ rfl) (by decide +kernel)
    have hoverflowed : Overflowed (.literal (.number (.infinite false))) := ⟨false, List.mem_singleton.2 rfl⟩
    exact ⟨_, hinf, hoverflowed, (hread _ _ hinf).2 hoverflowed⟩

end TabularReport.Expr
