import TabularReport.Proofs.Expr.Lexing

set_option autoImplicit false

namespace TabularReport.Expr

/-! ### Expressions that can be printed -/

/-- Whether the node could have been read, with numbers of the kind `number`. -/
def Writes (number : Double → Prop) : Expr → Prop
  | .literal (.date _) => False
  | .literal (.number x) => number x
  | .field dataset name => dataset = none ∧ Token.IsName name
  | .parameter name => Token.IsName name
  | _ => True

def Written (number : Double → Prop) (e : Expr) : Prop :=
  ∀ node ∈ e.nodes, node.Writes number

/-- Whether there is no date, every number is finite and has no sign, no field names a dataset, and the names
of fields and parameters are names. -/
def Printable (e : Expr) : Prop :=
  e.Written fun x => ∃ m, x = .finite false m

def Overflowed (e : Expr) : Prop :=
  ∃ negative, Expr.literal (.number (.infinite negative)) ∈ e.nodes

section

variable {number : Double → Prop}

@[simp] theorem written_literal {v : Scalar} : (literal v).Written number ↔ (literal v).Writes number := by
  simp [Written, nodes]

@[simp] theorem written_field {dataset : Option String} {name : String} :
    (field dataset name).Written number ↔ dataset = none ∧ Token.IsName name := by
  simp [Written, nodes, Writes]

@[simp] theorem written_parameter {name : String} : (parameter name).Written number ↔ Token.IsName name := by
  simp [Written, nodes, Writes]

@[simp] theorem written_rowNumber (dataset : String) : (rowNumber dataset).Written number := by
  simp [Written, nodes, Writes]

@[simp] theorem written_lookup {key : Expr} {source keyField valueField : String} :
    (lookup key source keyField valueField).Written number ↔ key.Written number := by
  simp [Written, nodes, Writes]

@[simp] theorem written_binary {op : Operator} {left right : Expr} :
    (binary op left right).Written number ↔ left.Written number ∧ right.Written number := by
  simp [Written, nodes, Writes, or_imp, forall_and]

@[simp] theorem written_negate {operand : Expr} :
    (negate operand).Written number ↔ operand.Written number := by
  simp [Written, nodes, Writes]

end

theorem Printable.written {e : Expr} (h : e.Printable) : e.Written Double.Unsigned := by
  intro node hnode
  have hwrites := h node hnode
  unfold Writes at hwrites ⊢
  split at hwrites <;> simp_all [Double.Unsigned]

/-- What could have been read is printable unless some number is infinite. -/
theorem printable_or_overflowed {e : Expr} (h : e.Written Double.Unsigned) : e.Printable ∨ e.Overflowed := by
  by_cases ho : e.Overflowed
  · exact .inr ho
  · refine .inl fun node hnode => ?_
    have hwrites := h node hnode
    unfold Writes at hwrites ⊢
    split
    · exact hwrites
    · rename_i x
      rcases hwrites with rfl | hx
      · exact absurd ⟨false, hnode⟩ ho
      · exact hx
    · exact hwrites
    · exact hwrites
    · trivial

/-! ### The tokens of a text -/

def wrapped (b : Bool) (ts : List Token) : List Token :=
  if b then .openParen :: ts ++ [.closeParen] else ts

def literalToken : Scalar → Token
  | .null => .name "Nothing"
  | .text s => .text s
  | .number x => if x.isFinite then .number x else .name x.text
  | .boolean b => .name (if b then "True" else "False")
  | .date t => .text t.text

def spelling : Expr → List Token
  | .literal value => [literalToken value]
  | .field _ name => [.name "Fields", .bang, .name name, .dot, .name "Value"]
  | .parameter name => [.name "Parameters", .bang, .name name, .dot, .name "Value"]
  | .rowNumber dataset => [.name "RowNumber", .openParen, .text dataset, .closeParen]
  | .lookup key source keyField valueField =>
    .name "Lookup" :: .openParen :: key.spelling ++
      [.comma, .text source, .comma, .text keyField, .comma, .text valueField, .closeParen]
  | .binary op left right =>
    wrapped (left.needsParens op false) left.spelling ++
      .operator op :: wrapped (right.needsParens op true) right.spelling
  | .negate operand => .operator .subtract :: wrapped operand.isBinary operand.spelling

def Delimited (rest : List Char) : Prop :=
  ∀ c ∈ rest.head?, c = ' ' ∨ c = ',' ∨ c = ')'

@[simp] theorem delimited_nil : Delimited [] := by simp [Delimited]

@[simp] theorem delimited_cons {c : Char} {cs : List Char} :
    Delimited (c :: cs) ↔ c = ' ' ∨ c = ',' ∨ c = ')' := by
  simp [Delimited]

theorem Delimited.stops {rest : List Char} (h : Delimited rest) {p : Char → Bool} (hblank : p ' ' = false)
    (hcomma : p ',' = false) (hparen : p ')' = false) : Text.Stops p rest := by
  intro c hc
  rcases h c hc with rfl | rfl | rfl <;> assumption

variable {e : Expr} {rest : List Char}

theorem lexed_word {s : String} (hs : Token.IsName s) (hrest : Delimited rest) :
    lexed (s.toList ++ rest) = .name s :: lexed rest :=
  lexed_name hs (hrest.stops (by decide) (by decide) (by decide))

theorem lexed_literalText {v : Scalar} (h : (literal v).Writes Double.Unsigned) (hrest : Delimited rest) :
    lexed ((literalText v).toList ++ rest) = literalToken v :: lexed rest := by
  cases v with
  | null => exact lexed_word (by decide) hrest
  | text s => exact lexed_quoted s (hrest.stops (by decide) (by decide) (by decide))
  | number x =>
    obtain rfl | ⟨m, rfl⟩ := h
    · exact lexed_word (by decide) hrest
    · obtain ⟨cs, htext, hcs, hx⟩ := Double.exists_numberText m
      have hliteral : literalText (.number (.finite false m)) = String.ofList cs := htext
      rw [hliteral, String.toList_ofList]
      exact lexed_decimal hcs hx (hrest.stops (by decide) (by decide) (by decide))
  | boolean b => cases b <;> exact lexed_word (by decide) hrest
  | date t => exact h.elim

theorem lexed_parenthesized {s : String} {ts : List Token}
    (h : ∀ rest, Delimited rest → lexed (s.toList ++ rest) = ts ++ lexed rest) (b : Bool)
    (hrest : Delimited rest) : lexed ((parenthesized b s).toList ++ rest) = wrapped b ts ++ lexed rest := by
  cases b with
  | false => exact h rest hrest
  | true =>
    have hclose := h (')' :: rest) (by simp)
    simp [parenthesized, wrapped, lexed_openParen, lexed_closeParen, hclose]

theorem lexed_member {collection name : String} (hc : Token.IsName collection) (hn : Token.IsName name)
    (hrest : Delimited rest) :
    lexed (collection.toList ++ '!' :: (name.toList ++ '.' :: ("Value".toList ++ rest))) =
      [.name collection, .bang, .name name, .dot, .name "Value"] ++ lexed rest := by
  have hmark : Text.Stops Token.isNamePart ('!' :: (name.toList ++ '.' :: ("Value".toList ++ rest))) :=
    Text.stops_cons.2 (by decide)
  have hpoint : Text.Stops Token.isNamePart ('.' :: ("Value".toList ++ rest)) := Text.stops_cons.2 (by decide)
  have hvalue : Text.Stops Char.isDigit ("Value".toList ++ rest) := Text.stops_cons.2 (by decide)
  rw [lexed_name hc hmark, lexed_bang, lexed_name hn hpoint, lexed_dot hvalue, lexed_word (by decide) hrest]
  rfl

theorem lexed_call {function : String} (hf : Token.IsName function) (cs : List Char) :
    lexed (function.toList ++ '(' :: cs) = .name function :: .openParen :: lexed cs := by
  rw [lexed_name hf (Text.stops_cons.2 (by decide)), lexed_openParen]

theorem lexed_argument (s : String) (hrest : Delimited rest) :
    lexed (',' :: ' ' :: ((Text.quoted s).toList ++ rest)) = .comma :: .text s :: lexed rest := by
  rw [lexed_comma, lexed_blank (by decide), lexed_quoted s (hrest.stops (by decide) (by decide) (by decide))]

theorem text_field (dataset : Option String) (name : String) :
    (field dataset name).text = "Fields!" ++ name ++ ".Value" := rfl

theorem text_parameter (name : String) : (parameter name).text = "Parameters!" ++ name ++ ".Value" := rfl

theorem text_rowNumber (dataset : String) :
    (rowNumber dataset).text = "RowNumber(" ++ Text.quoted dataset ++ ")" := rfl

theorem text_lookup (key : Expr) (source keyField valueField : String) :
    (lookup key source keyField valueField).text = "Lookup(" ++ key.text ++ ", " ++ Text.quoted source ++
      ", " ++ Text.quoted keyField ++ ", " ++ Text.quoted valueField ++ ")" := rfl

theorem text_binary (op : Operator) (left right : Expr) :
    (binary op left right).text = parenthesized (left.needsParens op false) left.text ++ " " ++ op.text ++
      " " ++ parenthesized (right.needsParens op true) right.text := rfl

theorem text_negate (operand : Expr) :
    (negate operand).text = "-" ++ parenthesized operand.isBinary operand.text := rfl

/-- The text of an expression is read as its tokens, wherever it is delimited. -/
theorem lexed_text (h : e.Written Double.Unsigned) (hrest : Delimited rest) :
    lexed (e.text.toList ++ rest) = e.spelling ++ lexed rest := by
  induction e generalizing rest with
  | literal v => exact lexed_literalText (written_literal.1 h) hrest
  | field dataset name =>
    calc lexed ((field dataset name).text.toList ++ rest)
        = lexed ("Fields".toList ++ '!' :: (name.toList ++ '.' :: ("Value".toList ++ rest))) := by
          simp [text_field]
      _ = (field dataset name).spelling ++ lexed rest := lexed_member (by decide) (written_field.1 h).2 hrest
  | parameter name =>
    calc lexed ((parameter name).text.toList ++ rest)
        = lexed ("Parameters".toList ++ '!' :: (name.toList ++ '.' :: ("Value".toList ++ rest))) := by
          simp [text_parameter]
      _ = (parameter name).spelling ++ lexed rest := lexed_member (by decide) (written_parameter.1 h) hrest
  | rowNumber dataset =>
    calc lexed ((rowNumber dataset).text.toList ++ rest)
        = lexed ("RowNumber".toList ++ '(' :: ((Text.quoted dataset).toList ++ ')' :: rest)) := by
          simp [text_rowNumber]
      _ = (rowNumber dataset).spelling ++ lexed rest := by
        rw [lexed_call (by decide), lexed_quoted dataset (Text.stops_cons.2 (by decide)), lexed_closeParen]
        rfl
  | lookup key source keyField valueField ih =>
    calc lexed ((lookup key source keyField valueField).text.toList ++ rest)
        = lexed ("Lookup".toList ++ '(' :: (key.text.toList ++
            (',' :: ' ' :: ((Text.quoted source).toList ++
            (',' :: ' ' :: ((Text.quoted keyField).toList ++
            (',' :: ' ' :: ((Text.quoted valueField).toList ++ ')' :: rest)))))))) := by simp [text_lookup]
      _ = (lookup key source keyField valueField).spelling ++ lexed rest := by
        rw [lexed_call (by decide), ih (written_lookup.1 h) (by simp), lexed_argument source (by simp),
          lexed_argument keyField (by simp), lexed_argument valueField (by simp), lexed_closeParen]
        simp [spelling]
  | binary op left right ihl ihr =>
    obtain ⟨hl, hr⟩ := written_binary.1 h
    calc lexed ((binary op left right).text.toList ++ rest)
        = lexed ((parenthesized (left.needsParens op false) left.text).toList ++
            ' ' :: op.symbol :: ' ' ::
            ((parenthesized (right.needsParens op true) right.text).toList ++ rest)) := by
          simp [text_binary, Operator.text]
      _ = (binary op left right).spelling ++ lexed rest := by
        rw [lexed_parenthesized (fun rest hrest => ihl hl hrest) _ (by simp), lexed_blank (by decide),
          lexed_operator, lexed_blank (by decide), lexed_parenthesized (fun rest hrest => ihr hr hrest) _ hrest]
        simp [spelling]
  | negate operand ih =>
    calc lexed ((negate operand).text.toList ++ rest)
        = lexed (Operator.subtract.symbol ::
            ((parenthesized operand.isBinary operand.text).toList ++ rest)) := by
          simp [text_negate, Operator.symbol]
      _ = (negate operand).spelling ++ lexed rest := by
        rw [lexed_operator, lexed_parenthesized (fun rest hrest => ih (written_negate.1 h) hrest) _ hrest]
        rfl

end TabularReport.Expr
