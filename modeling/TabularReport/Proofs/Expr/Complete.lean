import TabularReport.Proofs.Expr.Grammar
/-!
Whatever the grammar derives is read, with the tree that it prescribes, so a list of tokens has at most one
tree.  An operand is read wherever it stands; operands joined by operators of a stratum are read up to where
the reader, asked for operators of that strength or less, would go on.
-/
set_option autoImplicit false

namespace TabularReport.Expr

/-- Whether an expression of operators that bind tighter than `min` can end before these tokens. -/
def Ends (min : Nat) (ts : List PlacedToken) : Prop :=
  ∀ p ∈ ts.head?, p.token = .comma ∨ p.token = .closeParen ∨ ∃ op, p.token = .operator op ∧ op.precedence ≤ min

@[simp] theorem ends_nil (min : Nat) : Ends min [] := by simp [Ends]

@[simp] theorem ends_cons (min : Nat) (p : PlacedToken) (ts : List PlacedToken) : Ends min (p :: ts) ↔
    p.token = .comma ∨ p.token = .closeParen ∨ ∃ op, p.token = .operator op ∧ op.precedence ≤ min := by
  simp [Ends]

theorem Ends.mono {min bound : Nat} {ts : List PlacedToken} (hts : Ends min ts) (h : min ≤ bound) :
    Ends bound ts := by
  intro p hp
  obtain hp | hp | ⟨op, hp, hop⟩ := hts p hp
  · exact .inl hp
  · exact .inr (.inl hp)
  · exact .inr (.inr ⟨op, hp, Nat.le_trans hop h⟩)

theorem Ends.three {min : Nat} {ts : List PlacedToken} (hts : Ends min ts) : Ends 3 ts := by
  intro p hp
  obtain hp | hp | ⟨op, hp, _⟩ := hts p hp
  · exact .inl hp
  · exact .inr (.inl hp)
  · exact .inr (.inr ⟨op, hp, precedence_le op⟩)

theorem readOperators_of_ends {stop fuel min : Nat} {e : Expr} {ts : List PlacedToken} (hts : Ends min ts)
    (hfuel : 0 < fuel) : readOperators stop fuel min e ts = .ok (e, ts) := by
  obtain ⟨fuel, rfl⟩ := Nat.exists_eq_succ_of_ne_zero (Nat.pos_iff_ne_zero.1 hfuel)
  unfold readOperators
  split
  · rename_i op offset rest
    have hop : op.precedence ≤ min := by simpa using hts
    rw [if_pos hop]
  · rfl

/-- The tokens are read as the operand `e` wherever they stand. -/
def ReadsPrimary (ts : List Token) (e : Expr) : Prop :=
  ∀ stop fuel placed rest, placed.map (·.token) = ts → Ends 3 rest → 2 * (placed ++ rest).length + 1 ≤ fuel →
    readPrimary stop fuel (placed ++ rest) = .ok (e, rest)

/-- The tokens are read as `e`, and reading goes on with what `e` is joined to, wherever operators that bind
tighter than `bound` are wanted. -/
def ReadsJoined (bound : Nat) (ts : List Token) (e : Expr) : Prop :=
  ∀ stop fuel min placed rest, placed.map (·.token) = ts → min ≤ bound → Ends (bound + 1) rest →
    2 * (placed ++ rest).length + 2 ≤ fuel → ∃ fuel', 2 * rest.length + 1 ≤ fuel' ∧
      readJoined stop fuel min (placed ++ rest) = readOperators stop fuel' min e rest

variable {ts ls rs : List Token} {e left right : Expr}

theorem ReadsPrimary.joined (h : ReadsPrimary ts e) (bound : Nat) : ReadsJoined bound ts e := by
  intro stop fuel min placed rest hts _ hrest hfuel
  obtain ⟨fuel, rfl⟩ := Nat.exists_eq_succ_of_ne_zero (by omega : fuel ≠ 0)
  have hp := h stop fuel placed rest hts hrest.three (by omega)
  refine ⟨fuel, by simp at hfuel; omega, ?_⟩
  rw [readJoined, hp]
  rfl

theorem ReadsJoined.loosen {bound : Nat} (h : ReadsJoined (bound + 1) ts e) : ReadsJoined bound ts e :=
  fun stop fuel min placed rest hts hmin hrest hfuel =>
    h stop fuel min placed rest hts (Nat.le_succ_of_le hmin) (hrest.mono (Nat.le_succ _)) hfuel

theorem ReadsJoined.read {bound : Nat} (h : ReadsJoined bound ts e) {stop fuel min : Nat}
    {placed rest : List PlacedToken} (hts : placed.map (·.token) = ts) (hmin : min ≤ bound)
    (hrest : Ends min rest) (hfuel : 2 * (placed ++ rest).length + 2 ≤ fuel) :
    readJoined stop fuel min (placed ++ rest) = .ok (e, rest) := by
  obtain ⟨fuel', hfuel', hread⟩ :=
    h stop fuel min placed rest hts hmin (hrest.mono (Nat.le_succ_of_le hmin)) hfuel
  rw [hread, readOperators_of_ends hrest (by omega)]

theorem ReadsJoined.binary {bound : Nat} {op : Operator} (hop : op.precedence = bound + 1)
    (hl : ReadsJoined bound ls left) (hr : ReadsJoined (bound + 1) rs right) :
    ReadsJoined bound (ls ++ .operator op :: rs) (.binary op left right) := by
  intro stop fuel min placed rest hplaced hmin hrest hfuel
  simp only [List.map_eq_append_iff, List.map_eq_cons_iff] at hplaced
  obtain ⟨placedL, _, rfl, hls, ⟨_, offset⟩, placedR, rfl, rfl, hrs⟩ := hplaced
  simp only [List.append_assoc, List.cons_append, List.length_append, List.length_cons] at hfuel ⊢
  -- The left operand is read up to the operator, which is wanted here, and the right one up to what follows.
  have hends : Ends (bound + 1) (⟨.operator op, offset⟩ :: (placedR ++ rest)) := by simp [hop]
  obtain ⟨fuel', hfuel', hread⟩ := hl stop fuel min placedL _ hls hmin hends (by simp; omega)
  simp only [List.length_cons, List.length_append] at hfuel'
  obtain ⟨fuel', rfl⟩ := Nat.exists_eq_succ_of_ne_zero (by omega : fuel' ≠ 0)
  refine ⟨fuel', by omega, ?_⟩
  rw [hread, readOperators, if_neg (by omega),
    hr.read hrs (by omega) (hop ▸ hrest) (by simp; omega)]
  rfl

theorem ReadsPrimary.negation (h : ReadsPrimary ts e) :
    ReadsPrimary (.operator .subtract :: ts) (.negate e) := by
  intro stop fuel placed rest hplaced hrest hfuel
  simp only [List.map_eq_cons_iff] at hplaced
  obtain ⟨⟨_, start⟩, placed, rfl, rfl, hts⟩ := hplaced
  obtain ⟨fuel, rfl⟩ := Nat.exists_eq_succ_of_ne_zero (by omega : fuel ≠ 0)
  simp only [List.cons_append, List.length_cons] at hfuel ⊢
  rw [readPrimary, h stop fuel placed rest hts hrest (by omega)]
  rfl

theorem ReadsJoined.parenthesized (h : ReadsJoined 0 ts e) :
    ReadsPrimary (.openParen :: ts ++ [.closeParen]) e := by
  intro stop fuel placed rest hplaced hrest hfuel
  simp only [List.cons_append, List.map_eq_append_iff, List.map_eq_cons_iff, List.map_eq_nil_iff] at hplaced
  obtain ⟨⟨_, start⟩, _, rfl, rfl, inner, _, rfl, hinner, ⟨_, offset⟩, _, rfl, rfl, rfl⟩ := hplaced
  obtain ⟨fuel, rfl⟩ := Nat.exists_eq_succ_of_ne_zero (by omega : fuel ≠ 0)
  simp only [List.cons_append, List.append_assoc, List.nil_append, List.length_cons, List.length_append]
    at hfuel ⊢
  rw [readPrimary, h.read hinner (Nat.le_refl 0) (by simp) (by simp; omega)]
  simp [bind, Except.bind, take, pure, Except.pure]

theorem readsPrimary_single {t : Token} (h : ∀ stop fuel start rest, Ends 3 rest →
    readPrimary stop (fuel + 1) (⟨t, start⟩ :: rest) = .ok (e, rest)) : ReadsPrimary [t] e := by
  intro stop fuel placed rest hplaced hrest hfuel
  simp only [List.map_eq_cons_iff, List.map_eq_nil_iff] at hplaced
  obtain ⟨⟨_, start⟩, _, rfl, rfl, rfl⟩ := hplaced
  obtain ⟨fuel, rfl⟩ := Nat.exists_eq_succ_of_ne_zero (by omega : fuel ≠ 0)
  exact h stop fuel start rest hrest

theorem readsPrimary_number (x : Double) : ReadsPrimary [.number x] (.literal (.number x)) :=
  readsPrimary_single fun stop fuel start rest _ => by rw [readPrimary]

theorem readsPrimary_text (s : String) : ReadsPrimary [.text s] (.literal (.text s)) :=
  readsPrimary_single fun stop fuel start rest _ => by rw [readPrimary]

theorem readsPrimary_word {word : String} (h : bareWord? word = some e) : ReadsPrimary [.name word] e := by
  refine readsPrimary_single fun stop fuel start rest hrest => ?_
  rw [readPrimary, h]
  -- Neither a mark nor a parenthesis follows, so that the word stands alone.
  · rintro _ _ rfl
    simp at hrest
  · rintro _ _ rfl
    simp at hrest

theorem readsPrimary_member {collection : String} {reference : String → Expr} (member property : String)
    (hc : memberOf? collection = some reference) (hp : Text.sameIgnoringCase property "Value" = true) :
    ReadsPrimary [.name collection, .bang, .name member, .dot, .name property] (reference member) := by
  intro stop fuel placed rest hplaced _ hfuel
  simp only [List.map_eq_cons_iff, List.map_eq_nil_iff] at hplaced
  obtain ⟨⟨_, start⟩, _, rfl, rfl, ⟨_, _⟩, _, rfl, rfl, p, _, rfl, h1, q, _, rfl, h2, r, _, rfl, h3, rfl⟩ :=
    hplaced
  obtain ⟨fuel, rfl⟩ := Nat.exists_eq_succ_of_ne_zero (by omega : fuel ≠ 0)
  simp only [List.cons_append, List.nil_append]
  rw [readPrimary]
  exact readMember_eq_ok.2 ⟨reference, p, q, r, member, property, hc, rfl, h1, h2, h3, hp, rfl⟩

theorem readsPrimary_rowNumber {function : String} (dataset : String)
    (hf : Text.sameIgnoringCase function "RowNumber" = true) :
    ReadsPrimary [.name function, .openParen, .text dataset, .closeParen] (.rowNumber dataset) := by
  intro stop fuel placed rest hplaced _ hfuel
  simp only [List.map_eq_cons_iff, List.map_eq_nil_iff] at hplaced
  obtain ⟨⟨_, start⟩, _, rfl, rfl, ⟨_, _⟩, _, rfl, rfl, p, _, rfl, h1, q, _, rfl, h2, rfl⟩ := hplaced
  obtain ⟨fuel, rfl⟩ := Nat.exists_eq_succ_of_ne_zero (by omega : fuel ≠ 0)
  simp only [List.cons_append, List.nil_append]
  rw [readPrimary, if_pos hf]
  exact readRowNumber_eq_ok.2 ⟨p, q, dataset, rfl, h1, h2, rfl⟩

theorem readsPrimary_call {function : String} (hf : Text.sameIgnoringCase function "Lookup" = true)
    (h : ∀ stop fuel placed rest, placed.map (·.token) = ts → 2 * (placed ++ rest).length + 4 ≤ fuel →
      readLookup stop fuel (placed ++ rest) = .ok (e, rest)) :
    ReadsPrimary (.name function :: .openParen :: ts) e := by
  intro stop fuel placed rest hplaced _ hfuel
  simp only [List.map_eq_cons_iff] at hplaced
  obtain ⟨⟨_, start⟩, _, rfl, rfl, ⟨_, _⟩, placed, rfl, rfl, hts⟩ := hplaced
  obtain ⟨fuel, rfl⟩ := Nat.exists_eq_succ_of_ne_zero (by omega : fuel ≠ 0)
  have hr : Text.sameIgnoringCase function "RowNumber" = false := Text.not_sameIgnoringCase hf (by decide)
  simp only [List.cons_append, List.length_cons] at hfuel ⊢
  rw [readPrimary, hr, if_neg Bool.false_ne_true, if_pos hf]
  exact h stop fuel placed rest hts (by omega)

theorem ReadsJoined.lookup (h : ReadsJoined 0 ts e) {function : String} (source keyField valueField : String)
    (hf : Text.sameIgnoringCase function "Lookup" = true) :
    ReadsPrimary (.name function :: .openParen :: ts ++
        [.comma, .text source, .comma, .text keyField, .comma, .text valueField, .closeParen])
      (.lookup e source keyField valueField) := by
  refine readsPrimary_call hf fun stop fuel placed rest hplaced hfuel => ?_
  obtain ⟨key, _, rfl, hkey, hplaced⟩ := List.map_eq_append_iff.1 hplaced
  obtain ⟨⟨_, _⟩, tail, rfl, rfl, htail⟩ := List.map_eq_cons_iff.1 hplaced
  obtain ⟨fuel, rfl⟩ := Nat.exists_eq_succ_of_ne_zero (by omega : fuel ≠ 0)
  simp only [List.append_assoc, List.cons_append, List.length_append, List.length_cons] at hfuel ⊢
  rw [readLookup]
  refine bind_eq_ok.2 ⟨_, h.read hkey (Nat.le_refl 0) (by simp) (by simp; omega), ?_⟩
  refine bind_eq_ok.2 ⟨_, take_eq_ok.2 ⟨_, rfl, rfl⟩, ?_⟩
  have hread : readQuotedTail stop e (tail ++ rest) = .ok (.lookup e source keyField valueField, rest) :=
    readQuotedTail_eq_ok.2 ⟨tail, source, keyField, valueField, rfl, htail, rfl⟩
  obtain ⟨⟨_, _⟩, tail, rfl, rfl, _⟩ := List.map_eq_cons_iff.1 htail
  exact hread

theorem FieldReference.readsPrimary {name : String} (h : FieldReference ts name) :
    ReadsPrimary ts (.field none name) := by
  induction h with
  | member collection field property hc hp =>
    exact readsPrimary_member field property (by simp [memberOf?, hc]) hp
  | parenthesized ts field _ ih => exact (ih.joined 0).parenthesized

theorem ReadsJoined.lookupByFields {fs gs : List Token} {keyField valueField : String}
    (h : ReadsJoined 0 ts e) {function : String} (source : String)
    (hf : Text.sameIgnoringCase function "Lookup" = true) (hfs : FieldReference fs keyField)
    (hgs : FieldReference gs valueField) :
    ReadsPrimary (.name function :: .openParen :: ts ++ .comma :: fs ++ .comma :: gs ++
        [.comma, .text source, .closeParen])
      (.lookup e source keyField valueField) := by
  simp only [List.cons_append, List.append_assoc]
  refine readsPrimary_call hf fun stop fuel placed rest hplaced hfuel => ?_
  simp only [List.map_eq_append_iff, List.map_eq_cons_iff, List.map_eq_nil_iff] at hplaced
  obtain ⟨key, _, rfl, hkey, ⟨_, _⟩, _, rfl, rfl, first, _, rfl, hfirst, ⟨_, _⟩, _, rfl, rfl, second, _, rfl,
    hsecond, ⟨_, _⟩, _, rfl, rfl, ⟨_, _⟩, _, rfl, rfl, ⟨_, _⟩, _, rfl, rfl, rfl⟩ := hplaced
  obtain ⟨fuel, rfl⟩ := Nat.exists_eq_succ_of_ne_zero (by omega : fuel ≠ 0)
  simp only [List.append_assoc, List.cons_append, List.nil_append, List.length_append, List.length_cons]
    at hfuel ⊢
  rw [readLookup]
  refine bind_eq_ok.2 ⟨_, h.read hkey (Nat.le_refl 0) (by simp) (by simp; omega), ?_⟩
  refine bind_eq_ok.2 ⟨_, take_eq_ok.2 ⟨_, rfl, rfl⟩, ?_⟩
  split
  · -- No reference to a field starts with a quoted text, which would have asked for the other spelling.
    rename_i s _ _ hhead
    cases first with
    | nil => simp at hhead
    | cons p first =>
      cases hhead
      exact absurd (hfirst ▸ rfl) (hfs.head_ne_text s)
  · have hreadFirst := hfs.readsPrimary.joined 0
    have hreadSecond := hgs.readsPrimary.joined 0
    refine bind_eq_ok.2 ⟨_, hreadFirst.read hfirst (Nat.le_refl 0) (by simp) (by simp; omega), ?_⟩
    refine bind_eq_ok.2 ⟨keyField, rfl, ?_⟩
    refine bind_eq_ok.2 ⟨_, take_eq_ok.2 ⟨_, rfl, rfl⟩, ?_⟩
    refine bind_eq_ok.2 ⟨_, hreadSecond.read hsecond (Nat.le_refl 0) (by simp) (by simp; omega), ?_⟩
    refine bind_eq_ok.2 ⟨valueField, rfl, ?_⟩
    refine bind_eq_ok.2 ⟨_, take_eq_ok.2 ⟨_, rfl, rfl⟩, ?_⟩
    refine bind_eq_ok.2 ⟨_, readText_eq_ok.2 ⟨_, rfl, rfl⟩, ?_⟩
    refine bind_eq_ok.2 ⟨_, take_eq_ok.2 ⟨_, rfl, rfl⟩, rfl⟩

def Reads : Stratum → List Token → Expr → Prop
  | .concatenation => ReadsJoined 0
  | .additive => ReadsJoined 1
  | .multiplicative => ReadsJoined 2
  | .unary | .primary => ReadsPrimary

theorem Derives.reads {s : Stratum} (h : Derives s ts e) : Reads s ts e := by
  induction h with
  | ofAdditive _ _ _ ih => exact ReadsJoined.loosen ih
  | concatenation _ _ _ _ _ _ ihl ihr => exact ReadsJoined.binary rfl ihl ihr
  | ofMultiplicative _ _ _ ih => exact ReadsJoined.loosen ih
  | sum op _ _ _ _ hop _ _ ihl ihr =>
    exact ReadsJoined.binary (by rcases hop with rfl | rfl <;> rfl) ihl ihr
  | ofUnary _ _ _ ih => exact ReadsPrimary.joined ih 2
  | product op _ _ _ _ hop _ _ ihl ihr =>
    exact ReadsJoined.binary (by rcases hop with rfl | rfl <;> rfl) ihl (ReadsPrimary.joined ihr 3)
  | ofPrimary _ _ _ ih => exact ih
  | negation _ _ _ ih => exact ReadsPrimary.negation ih
  | number x => exact readsPrimary_number x
  | text s => exact readsPrimary_text s
  | true word hw => exact readsPrimary_word (by simp [bareWord?, hw])
  | false word hw =>
    have ht := Text.not_sameIgnoringCase (b := "true") hw (by decide)
    exact readsPrimary_word (by simp [bareWord?, ht, hw])
  | nothing word hw =>
    have ht := Text.not_sameIgnoringCase (b := "true") hw (by decide)
    have hf := Text.not_sameIgnoringCase (b := "false") hw (by decide)
    exact readsPrimary_word (by simp [bareWord?, ht, hf, hw])
  | field collection field property hc hp =>
    exact readsPrimary_member field property (by simp [memberOf?, hc]) hp
  | parameter collection name property hc hp =>
    have hf := Text.not_sameIgnoringCase (b := "Fields") hc (by decide)
    exact readsPrimary_member name property (by simp [memberOf?, hf, hc]) hp
  | rowNumber function dataset hf => exact readsPrimary_rowNumber dataset hf
  | lookup function ts key source keyField valueField hf _ ih =>
    exact ReadsJoined.lookup ih source keyField valueField hf
  | lookupByFields function ts fs gs key source keyField valueField hf _ hfs hgs ih =>
    exact ReadsJoined.lookupByFields ih source hf hfs hgs
  | parenthesized ts e _ ih => exact ReadsJoined.parenthesized ih

/-! ### The whole text -/

theorem ofTokens_eq_ok (stop : Nat) {placed : List PlacedToken} :
    ofTokens stop placed = .ok e ↔ Derives .concatenation (placed.map (·.token)) e := by
  constructor
  · intro h
    unfold ofTokens at h
    split at h
    · contradiction
    · simp only [bind_eq_ok, Prod.exists] at h
      obtain ⟨e', rest, hread, h⟩ := h
      cases rest with
      | cons p rest => contradiction
      | nil =>
        cases h
        obtain ⟨used, rfl, hused, _⟩ := (Sound.of_fuel stop _).joined _ _ _ _ (Nat.zero_le 3) hread
        rw [List.append_nil]
        exact hused
  · intro h
    have hne : placed.isEmpty = false := by
      have := h.ne_nil
      cases placed <;> simp_all
    have hread : readJoined stop (2 * placed.length + 2) 0 (placed ++ []) = .ok (e, []) :=
      (h.reads : ReadsJoined 0 _ e).read rfl (Nat.le_refl 0) (ends_nil 0) (by simp)
    rw [List.append_nil] at hread
    rw [ofTokens, hne, if_neg Bool.false_ne_true]
    exact bind_eq_ok.2 ⟨_, hread, rfl⟩

def bodyTokens (s : String) : List Token :=
  (dropEquals (tokens s)).map (·.token)

theorem parse_eq_ok {s : String} : parse s = .ok e ↔ Derives .concatenation (bodyTokens s) e :=
  ofTokens_eq_ok _

theorem Derives.unique {e' : Expr} (h : Derives .concatenation ts e) (h' : Derives .concatenation ts e') :
    e = e' := by
  have hplaced : (ts.map fun t => (⟨t, 0⟩ : PlacedToken)).map (·.token) = ts := by
    simp [Function.comp_def]
  rw [← hplaced, ← ofTokens_eq_ok 0] at h h'
  exact Except.ok.inj (h ▸ h')

theorem Derives.iff_eq {e' : Expr} (h : Derives .primary ts e) : Derives .concatenation ts e' ↔ e' = e := by
  have h := (ofPrimary ts e h).ofUnaryAbove 0
  exact ⟨fun h' => h'.unique h, fun he => he ▸ h⟩

/-- A text is read as an expression if and only if the grammar derives that expression from its tokens; no
tokens have two trees, and both ways to write a lookup have the same one. -/
theorem parse_iff_derives :
    (∀ s e, parse s = .ok e ↔ Derives .concatenation (bodyTokens s) e) ∧
    (∀ ts e e', Derives .concatenation ts e → Derives .concatenation ts e' → e = e') ∧
    ∀ function ts fs gs key source keyField valueField, Text.sameIgnoringCase function "Lookup" = true →
      Derives .concatenation ts key → FieldReference fs keyField → FieldReference gs valueField → ∀ e,
      (Derives .concatenation (.name function :: .openParen :: ts ++
          [.comma, .text source, .comma, .text keyField, .comma, .text valueField, .closeParen]) e ↔
        e = .lookup key source keyField valueField) ∧
      (Derives .concatenation (.name function :: .openParen :: ts ++ .comma :: fs ++ .comma :: gs ++
          [.comma, .text source, .closeParen]) e ↔
        e = .lookup key source keyField valueField) := by
  refine ⟨fun s e => parse_eq_ok, fun ts e e' h h' => h.unique h', ?_⟩
  intro function ts fs gs key source keyField valueField hf hkey hfs hgs e
  exact ⟨(Derives.lookup function ts key source keyField valueField hf hkey).iff_eq,
    (Derives.lookupByFields function ts fs gs key source keyField valueField hf hkey hfs hgs).iff_eq⟩

theorem parse_bothSpellings :
    parse "=LOOKUP(\"A\" & Fields!Code.value, \"Rates\", \"Key\", \"Rate\")" = .ok
        (.lookup (.binary .concat (.literal (.text "A")) (.field none "Code")) "Rates" "Key" "Rate") ∧
      parse "LOOKUP(\"A\" & Fields!Code.value, (fields!Key.Value), fields!Rate.Value, \"Rates\")" = .ok
        (.lookup (.binary .concat (.literal (.text "A")) (.field none "Code")) "Rates" "Key" "Rate") := by
  obtain ⟨hparse, -, hlookup⟩ := parse_iff_derives
  have hcode : Derives .primary [.name "Fields", .bang, .name "Code", .dot, .name "value"]
      (.field none "Code") := .field "Fields" "Code" "value" (by decide) (by decide)
  have hkey := Derives.binary .concat ((Derives.ofPrimary _ _ (.text "A")).ofUnaryAbove 0)
    ((Derives.ofPrimary _ _ hcode).ofUnaryAbove 1)
  have hmember (name : String) : FieldReference [.name "fields", .bang, .name name, .dot, .name "Value"] name :=
    .member "fields" name "Value" (by decide) (by decide)
  obtain ⟨hnames, hfields⟩ := hlookup "LOOKUP" _ _ _ _ "Rates" "Key" "Rate" (by decide) hkey
    (.parenthesized _ _ (hmember "Key")) (hmember "Rate")
    (.lookup (.binary .concat (.literal (.text "A")) (.field none "Code")) "Rates" "Key" "Rate")
  have parse_of {s : String} {ts : List Token} {e : Expr} (h : Derives .concatenation ts e)
      (hs : bodyTokens s = ts) : parse s = .ok e := (hparse s e).2 (hs ▸ h)
  exact ⟨parse_of (hnames.2 rfl) (by decide +kernel), parse_of (hfields.2 rfl) (by decide +kernel)⟩

end TabularReport.Expr
