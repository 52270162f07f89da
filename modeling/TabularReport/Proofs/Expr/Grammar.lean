import TabularReport.Expr.Parser
import TabularReport.Proofs.Outcome
/-!
The grammar of report expressions, and the readers against it.  `Derives` has a stratum for each strength
of binding and a rule for each form; the operators of a stratum take operands of their own stratum on the
left and of the next one on the right.  What the readers return is derived from the tokens they take.
-/
set_option autoImplicit false

namespace TabularReport.Expr

/-- The strata of the grammar, the loosest first. -/
inductive Stratum where
  | concatenation
  | additive
  | multiplicative
  | unary
  | primary
  deriving DecidableEq

/-- Whether the tokens are a reference to the field, in any number of parentheses. -/
inductive FieldReference : List Token → String → Prop where
  | member (collection field property : String) : Text.sameIgnoringCase collection "Fields" = true →
      Text.sameIgnoringCase property "Value" = true →
      FieldReference [.name collection, .bang, .name field, .dot, .name property] field
  | parenthesized (ts : List Token) (field : String) : FieldReference ts field →
      FieldReference (.openParen :: ts ++ [.closeParen]) field

/-- Whether the tokens are an expression of the stratum, with the tree `e`. -/
inductive Derives : Stratum → List Token → Expr → Prop where
  | ofAdditive (ts : List Token) (e : Expr) : Derives .additive ts e → Derives .concatenation ts e
  | concatenation (ls rs : List Token) (left right : Expr) : Derives .concatenation ls left →
      Derives .additive rs right →
      Derives .concatenation (ls ++ .operator .concat :: rs) (.binary .concat left right)
  | ofMultiplicative (ts : List Token) (e : Expr) : Derives .multiplicative ts e → Derives .additive ts e
  | sum (op : Operator) (ls rs : List Token) (left right : Expr) : op = .add ∨ op = .subtract →
      Derives .additive ls left → Derives .multiplicative rs right →
      Derives .additive (ls ++ .operator op :: rs) (.binary op left right)
  | ofUnary (ts : List Token) (e : Expr) : Derives .unary ts e → Derives .multiplicative ts e
  | product (op : Operator) (ls rs : List Token) (left right : Expr) : op = .multiply ∨ op = .divide →
      Derives .multiplicative ls left → Derives .unary rs right →
      Derives .multiplicative (ls ++ .operator op :: rs) (.binary op left right)
  | ofPrimary (ts : List Token) (e : Expr) : Derives .primary ts e → Derives .unary ts e
  | negation (ts : List Token) (operand : Expr) : Derives .unary ts operand →
      Derives .unary (.operator .subtract :: ts) (.negate operand)
  | number (x : Double) : Derives .primary [.number x] (.literal (.number x))
  | text (s : String) : Derives .primary [.text s] (.literal (.text s))
  | true (word : String) : Text.sameIgnoringCase word "true" = true →
      Derives .primary [.name word] (.literal (.boolean true))
  | false (word : String) : Text.sameIgnoringCase word "false" = true →
      Derives .primary [.name word] (.literal (.boolean false))
  | nothing (word : String) : Text.sameIgnoringCase word "nothing" = true →
      Derives .primary [.name word] (.literal .null)
  | field (collection field property : String) : Text.sameIgnoringCase collection "Fields" = true →
      Text.sameIgnoringCase property "Value" = true →
      Derives .primary [.name collection, .bang, .name field, .dot, .name property] (.field none field)
  | parameter (collection name property : String) :
      Text.sameIgnoringCase collection "Parameters" = true → Text.sameIgnoringCase property "Value" = true →
      Derives .primary [.name collection, .bang, .name name, .dot, .name property] (.parameter name)
  | rowNumber (function dataset : String) : Text.sameIgnoringCase function "RowNumber" = true →
      Derives .primary [.name function, .openParen, .text dataset, .closeParen] (.rowNumber dataset)
  | lookup (function : String) (ts : List Token) (key : Expr) (source keyField valueField : String) :
      Text.sameIgnoringCase function "Lookup" = true → Derives .concatenation ts key →
      Derives .primary (.name function :: .openParen :: ts ++
          [.comma, .text source, .comma, .text keyField, .comma, .text valueField, .closeParen])
        (.lookup key source keyField valueField)
  | lookupByFields (function : String) (ts fs gs : List Token) (key : Expr)
      (source keyField valueField : String) : Text.sameIgnoringCase function "Lookup" = true →
      Derives .concatenation ts key → FieldReference fs keyField → FieldReference gs valueField →
      Derives .primary (.name function :: .openParen :: ts ++ .comma :: fs ++ .comma :: gs ++
          [.comma, .text source, .closeParen])
        (.lookup key source keyField valueField)
  | parenthesized (ts : List Token) (e : Expr) : Derives .concatenation ts e →
      Derives .primary (.openParen :: ts ++ [.closeParen]) e

/-- The stratum of the operands whose operators bind tighter than `min`. -/
def Stratum.above : Nat → Stratum
  | 0 => .concatenation
  | 1 => .additive
  | 2 => .multiplicative
  | _ => .unary

namespace Derives

variable {ts : List Token} {e : Expr}

theorem loosen_succ {min : Nat} (h : Derives (.above (min + 1)) ts e) : Derives (.above min) ts e := by
  match min with
  | 0 => exact ofAdditive ts e h
  | 1 => exact ofMultiplicative ts e h
  | 2 => exact ofUnary ts e h
  | _ + 3 => exact h

theorem loosen {min bound : Nat} (hmin : min ≤ bound) (h : Derives (.above bound) ts e) :
    Derives (.above min) ts e := by
  induction hmin with
  | refl => exact h
  | step _ ih => exact ih h.loosen_succ

theorem ofUnaryAbove (min : Nat) (h : Derives .unary ts e) : Derives (.above min) ts e :=
  loosen (Nat.le_add_right min 3) h

theorem binary (op : Operator) {ls rs : List Token} {left right : Expr}
    (hl : Derives (.above (op.precedence - 1)) ls left) (hr : Derives (.above op.precedence) rs right) :
    Derives (.above (op.precedence - 1)) (ls ++ .operator op :: rs) (.binary op left right) := by
  cases op with
  | concat => exact concatenation ls rs left right hl hr
  | add => exact sum .add ls rs left right (.inl rfl) hl hr
  | subtract => exact sum .subtract ls rs left right (.inr rfl) hl hr
  | multiply => exact product .multiply ls rs left right (.inl rfl) hl hr
  | divide => exact product .divide ls rs left right (.inr rfl) hl hr

theorem ne_nil {s : Stratum} (h : Derives s ts e) : ts ≠ [] := by
  induction h <;> simp_all

end Derives

theorem FieldReference.head_ne_text {ts : List Token} {name : String} (h : FieldReference ts name)
    (s : String) : ts.head? ≠ some (.text s) := by
  cases h <;> simp

theorem Derives.fieldReference {s : Stratum} {ts : List Token} {dataset : Option String} {name : String}
    (h : Derives s ts (.field dataset name)) : FieldReference ts name := by
  generalize he : Expr.field dataset name = e at h
  induction h <;> cases he
  case ofAdditive ih => exact ih rfl
  case ofMultiplicative ih => exact ih rfl
  case ofUnary ih => exact ih rfl
  case ofPrimary ih => exact ih rfl
  case field collection property hc hp => exact .member collection name property hc hp
  case parenthesized ts _ ih => exact .parenthesized ts name (ih rfl)

/-! ### What the readers of single tokens accept -/

section

variable {stop : Nat} {ts rest : List PlacedToken}

theorem take_eq_ok {t : Token} : take stop t ts = .ok rest ↔ ∃ p, ts = p :: rest ∧ p.token = t := by
  cases ts with
  | nil => simp [take, missing, failHere]
  | cons p ts =>
    by_cases hp : p.token = t
    · simp only [take, hp]
      grind
    · simp [take, missing, failHere, hp]

theorem takeWord_eq_ok {word : String} : takeWord stop word ts = .ok rest ↔
    ∃ p s, ts = p :: rest ∧ p.token = .name s ∧ Text.sameIgnoringCase s word = true := by
  cases ts with
  | nil => simp [takeWord, missing, failHere]
  | cons p ts =>
    obtain ⟨token, offset⟩ := p
    cases token with
    | name s =>
      by_cases hs : Text.sameIgnoringCase s word = true
      · simp only [takeWord, Token.isName, hs, if_true, Except.ok.injEq]
        constructor
        · rintro rfl
          exact ⟨_, s, rfl, rfl, hs⟩
        · rintro ⟨_, _, ⟨⟩, _⟩
          rfl
      · simp [takeWord, missing, failHere, Token.isName, hs]
    | _ => simp [takeWord, missing, failHere, Token.isName]

theorem readName_eq_ok {s : String} :
    readName stop ts = .ok (s, rest) ↔ ∃ p, ts = p :: rest ∧ p.token = .name s := by
  unfold readName
  split
  · simp [and_comm]
  · rename_i hts
    simp only [missing, failHere, reduceCtorEq, false_iff]
    rintro ⟨⟨_, offset⟩, rfl, rfl⟩
    exact hts s offset rest rfl

theorem readText_eq_ok {role s : String} :
    readText stop role ts = .ok (s, rest) ↔ ∃ p, ts = p :: rest ∧ p.token = .text s := by
  unfold readText
  split
  · simp [and_comm]
  · rename_i hts
    simp only [missing, failHere, reduceCtorEq, false_iff]
    rintro ⟨⟨_, offset⟩, rfl, rfl⟩
    exact hts s offset rest rfl

theorem fieldArgument_eq_ok {role name : String} {start : Nat} {e : Expr} :
    fieldArgument role start e = .ok name ↔ ∃ dataset, e = .field dataset name := by
  cases e <;> simp [fieldArgument]

theorem derives_of_bareWord? {word : String} {e : Expr} (h : bareWord? word = some e) :
    Derives .primary [.name word] e := by
  unfold bareWord? at h
  split at h
  · rename_i hw
    cases h
    exact .true word hw
  · split at h
    · rename_i hw
      cases h
      exact .false word hw
    · split at h
      · rename_i hw
        cases h
        exact .nothing word hw
      · contradiction

theorem readMember_eq_ok {collection : String} {start : Nat} {e : Expr} :
    readMember stop collection start ts = .ok (e, rest) ↔
      ∃ reference p q r member property, memberOf? collection = some reference ∧ ts = p :: q :: r :: rest ∧
        p.token = .name member ∧ q.token = .dot ∧ r.token = .name property ∧
        Text.sameIgnoringCase property "Value" = true ∧ e = reference member := by
  unfold readMember
  cases memberOf? collection with
  | none => simp
  | some reference =>
    simp only [bind_eq_ok, pure_eq_ok, Prod.exists, readName_eq_ok, take_eq_ok, takeWord_eq_ok,
      Prod.mk.injEq, Option.some.injEq]
    constructor
    · rintro ⟨member, _, ⟨p, rfl, hp⟩, _, ⟨q, rfl, hq⟩, _, ⟨r, property, rfl, hr, hv⟩, rfl, rfl⟩
      exact ⟨reference, p, q, r, member, property, rfl, rfl, hp, hq, hr, hv, rfl⟩
    · rintro ⟨_, p, q, r, member, property, rfl, rfl, hp, hq, hr, hv, rfl⟩
      exact ⟨member, _, ⟨p, rfl, hp⟩, _, ⟨q, rfl, hq⟩, _, ⟨r, property, rfl, hr, hv⟩, rfl, rfl⟩

theorem readRowNumber_eq_ok {e : Expr} : readRowNumber stop ts = .ok (e, rest) ↔
    ∃ p q dataset, ts = p :: q :: rest ∧ p.token = .text dataset ∧ q.token = .closeParen ∧
      e = .rowNumber dataset := by
  unfold readRowNumber
  simp only [bind_eq_ok, pure_eq_ok, Prod.exists, readText_eq_ok, take_eq_ok, Prod.mk.injEq]
  constructor
  · rintro ⟨dataset, _, ⟨p, rfl, hp⟩, _, ⟨q, rfl, hq⟩, rfl, rfl⟩
    exact ⟨p, q, dataset, rfl, hp, hq, rfl⟩
  · rintro ⟨p, q, dataset, rfl, hp, hq, rfl⟩
    exact ⟨dataset, _, ⟨p, rfl, hp⟩, _, ⟨q, rfl, hq⟩, rfl, rfl⟩

theorem readQuotedTail_eq_ok {key e : Expr} : readQuotedTail stop key ts = .ok (e, rest) ↔
    ∃ (used : List PlacedToken) (source keyField valueField : String), ts = used ++ rest ∧
      used.map (·.token) =
        [.text source, .comma, .text keyField, .comma, .text valueField, .closeParen] ∧
      e = .lookup key source keyField valueField := by
  unfold readQuotedTail
  simp only [bind_eq_ok, pure_eq_ok, Prod.exists, readText_eq_ok, take_eq_ok, Prod.mk.injEq]
  constructor
  · rintro ⟨source, _, ⟨p1, rfl, h1⟩, _, ⟨p2, rfl, h2⟩, keyField, _, ⟨p3, rfl, h3⟩, _, ⟨p4, rfl, h4⟩,
      valueField, _, ⟨p5, rfl, h5⟩, _, ⟨p6, rfl, h6⟩, rfl, rfl⟩
    exact ⟨[p1, p2, p3, p4, p5, p6], source, keyField, valueField, rfl, by simp_all, rfl⟩
  · rintro ⟨used, source, keyField, valueField, rfl, hused, rfl⟩
    simp only [List.map_eq_cons_iff, List.map_eq_nil_iff] at hused
    obtain ⟨p1, _, rfl, h1, p2, _, rfl, h2, p3, _, rfl, h3, p4, _, rfl, h4, p5, _, rfl, h5, p6, _, rfl, h6,
      rfl⟩ := hused
    exact ⟨source, _, ⟨p1, rfl, h1⟩, _, ⟨p2, rfl, h2⟩, keyField, _, ⟨p3, rfl, h3⟩, _, ⟨p4, rfl, h4⟩,
      valueField, _, ⟨p5, rfl, h5⟩, _, ⟨p6, rfl, h6⟩, rfl, rfl⟩

end

/-! ### What is read is derived -/

def Settled (min : Nat) (ts : List PlacedToken) : Prop :=
  ∀ p ∈ ts.head?, ∀ op, p.token = .operator op → op.precedence ≤ min

theorem precedence_le (op : Operator) : op.precedence ≤ 3 := by cases op <;> decide

theorem precedence_pos (op : Operator) : 0 < op.precedence := by cases op <;> decide

theorem derives_of_readMember {stop start : Nat} {collection : String} {ts rest : List PlacedToken} {e : Expr}
    (h : readMember stop collection start ts = .ok (e, rest)) :
    ∃ used, ts = used ++ rest ∧ Derives .primary (.name collection :: .bang :: used.map (·.token)) e := by
  obtain ⟨reference, p, q, r, member, property, hm, rfl, hp, hq, hr, hv, rfl⟩ := readMember_eq_ok.1 h
  refine ⟨[p, q, r], rfl, ?_⟩
  simp only [List.map_cons, List.map_nil, hp, hq, hr]
  unfold memberOf? at hm
  split at hm
  · rename_i hc
    cases hm
    exact .field collection member property hc hv
  · split at hm
    · rename_i hc
      cases hm
      exact .parameter collection member property hc hv
    · contradiction

/-- The readers that spend `fuel` take tokens from which what they return is derived. -/
structure Sound (stop fuel : Nat) : Prop where
  joined : ∀ min ts e rest, min ≤ 3 → readJoined stop fuel min ts = .ok (e, rest) →
    ∃ used, ts = used ++ rest ∧ Derives (.above min) (used.map (·.token)) e ∧ Settled min rest
  operators : ∀ min bound left done ts e rest, min ≤ bound → Derives (.above bound) done left →
    Settled (bound + 1) ts → readOperators stop fuel min left ts = .ok (e, rest) →
    ∃ used, ts = used ++ rest ∧ Derives (.above min) (done ++ used.map (·.token)) e ∧ Settled min rest
  primary : ∀ ts e rest, readPrimary stop fuel ts = .ok (e, rest) →
    ∃ used, ts = used ++ rest ∧ Derives .unary (used.map (·.token)) e
  lookup : ∀ function ts e rest, Text.sameIgnoringCase function "Lookup" = true →
    readLookup stop fuel ts = .ok (e, rest) →
    ∃ used, ts = used ++ rest ∧ Derives .primary (.name function :: .openParen :: used.map (·.token)) e

namespace Sound

variable {stop fuel : Nat}

theorem zero (stop : Nat) : Sound stop 0 := by
  constructor
  · intro min ts e rest _ h
    simp [readJoined, failHere] at h
  · intro min bound left done ts e rest _ _ _ h
    simp [readOperators, failHere] at h
  · intro ts e rest h
    simp [readPrimary, failHere] at h
  · intro function ts e rest _ h
    simp [readLookup, failHere] at h

theorem joined_succ (ih : Sound stop fuel) {min : Nat} {ts rest : List PlacedToken} {e : Expr} (hmin : min ≤ 3)
    (h : readJoined stop (fuel + 1) min ts = .ok (e, rest)) :
    ∃ used, ts = used ++ rest ∧ Derives (.above min) (used.map (·.token)) e ∧ Settled min rest := by
  simp only [readJoined, bind_eq_ok, Prod.exists] at h
  obtain ⟨left, ts', hl, h⟩ := h
  obtain ⟨first, rfl, hfirst⟩ := ih.primary _ _ _ hl
  have hsettled : Settled (3 + 1) ts' := fun _ _ op _ => Nat.le_succ_of_le (precedence_le op)
  obtain ⟨used, rfl, hused, hrest⟩ := ih.operators _ 3 _ _ _ _ _ hmin hfirst hsettled h
  exact ⟨first ++ used, by simp, by simpa using hused, hrest⟩

theorem operators_succ (ih : Sound stop fuel) {min bound : Nat} {left : Expr} {done : List Token}
    {ts rest : List PlacedToken} {e : Expr} (hmin : min ≤ bound) (hl : Derives (.above bound) done left)
    (hts : Settled (bound + 1) ts) (h : readOperators stop (fuel + 1) min left ts = .ok (e, rest)) :
    ∃ used, ts = used ++ rest ∧ Derives (.above min) (done ++ used.map (·.token)) e ∧ Settled min rest := by
  -- What was joined already is of the stratum above `bound`, and the operators in front bind no tighter.
  unfold readOperators at h
  split at h
  · rename_i op offset ts'
    have hop : op.precedence ≤ bound + 1 := hts _ rfl op rfl
    split at h
    · rename_i hstop
      cases h
      refine ⟨[], rfl, by simpa using hl.loosen hmin, ?_⟩
      rintro _ ⟨⟩ op' ⟨⟩
      exact hstop
    · rename_i hgo
      simp only [bind_eq_ok, Prod.exists] at h
      obtain ⟨right, ts'', hr, h⟩ := h
      obtain ⟨operand, rfl, hoperand, hts''⟩ := ih.joined _ _ _ _ (precedence_le op) hr
      have hpos := precedence_pos op
      have hjoined := Derives.binary op (hl.loosen (by omega)) hoperand
      obtain ⟨used, rfl, hused, hrest⟩ := ih.operators min (op.precedence - 1) _ _ _ _ _ (by omega) hjoined
        (by rwa [Nat.sub_add_cancel hpos]) h
      exact ⟨⟨.operator op, offset⟩ :: operand ++ used, by simp, by simpa using hused, hrest⟩
  · rename_i hno
    cases h
    refine ⟨[], rfl, by simpa using hl.loosen hmin, ?_⟩
    rintro ⟨token, offset⟩ hp op rfl
    obtain ⟨ts', rfl⟩ := List.head?_eq_some_iff.1 hp
    exact absurd rfl (hno op offset ts')

theorem primary_succ (ih : Sound stop fuel) {ts rest : List PlacedToken} {e : Expr}
    (h : readPrimary stop (fuel + 1) ts = .ok (e, rest)) :
    ∃ used, ts = used ++ rest ∧ Derives .unary (used.map (·.token)) e := by
  cases ts with
  | nil => simp [readPrimary, failHere] at h
  | cons p ts =>
    obtain ⟨token, start⟩ := p
    unfold readPrimary at h
    split at h
    · simp only [bind_eq_ok, pure_eq_ok, Prod.exists, Prod.mk.injEq] at h
      obtain ⟨operand, ts', ho, rfl, rfl⟩ := h
      obtain ⟨used, rfl, hused⟩ := ih.primary _ _ _ ho
      exact ⟨_ :: used, rfl, .negation _ _ hused⟩
    · cases h
      exact ⟨[_], rfl, .ofPrimary _ _ (.number _)⟩
    · cases h
      exact ⟨[_], rfl, .ofPrimary _ _ (.text _)⟩
    · simp only [bind_eq_ok, pure_eq_ok, Prod.exists, Prod.mk.injEq] at h
      obtain ⟨inner, ts', hi, ts'', htake, rfl, rfl⟩ := h
      obtain ⟨used, rfl, hused, _⟩ := ih.joined _ _ _ _ (Nat.zero_le 3) hi
      obtain ⟨close, rfl, hclose⟩ := take_eq_ok.1 htake
      refine ⟨⟨.openParen, start⟩ :: used ++ [close], by simp, .ofPrimary _ _ ?_⟩
      simpa [hclose] using Derives.parenthesized _ _ hused
    · split at h
      · obtain ⟨used, rfl, hused⟩ := derives_of_readMember h
        exact ⟨_ :: _ :: used, rfl, .ofPrimary _ _ hused⟩
      · split at h
        · rename_i hf
          obtain ⟨p, q, dataset, rfl, hp, hq, rfl⟩ := readRowNumber_eq_ok.1 h
          refine ⟨[_, _, p, q], rfl, .ofPrimary _ _ ?_⟩
          simpa [hp, hq] using Derives.rowNumber _ dataset hf
        · split at h
          · rename_i hf
            obtain ⟨used, rfl, hused⟩ := ih.lookup _ _ _ _ hf h
            exact ⟨_ :: _ :: used, rfl, .ofPrimary _ _ hused⟩
          · contradiction
      · split at h
        · rename_i hw
          cases h
          exact ⟨[_], rfl, .ofPrimary _ _ (derives_of_bareWord? hw)⟩
        · contradiction
    · contradiction
    · contradiction

theorem lookup_succ (ih : Sound stop fuel) {function : String} {ts rest : List PlacedToken} {e : Expr}
    (hf : Text.sameIgnoringCase function "Lookup" = true) (h : readLookup stop (fuel + 1) ts = .ok (e, rest)) :
    ∃ used, ts = used ++ rest ∧ Derives .primary (.name function :: .openParen :: used.map (·.token)) e := by
  simp only [readLookup, bind_eq_ok, Prod.exists] at h
  obtain ⟨key, ts', hk, ts'', htake, h⟩ := h
  obtain ⟨first, rfl, hfirst, _⟩ := ih.joined _ _ _ _ (Nat.zero_le 3) hk
  obtain ⟨comma, rfl, hcomma⟩ := take_eq_ok.1 htake
  split at h
  · obtain ⟨used, source, keyField, valueField, hts, hused, rfl⟩ := readQuotedTail_eq_ok.1 h
    refine ⟨first ++ comma :: used, by simp [hts], ?_⟩
    simpa [hcomma, hused] using Derives.lookup function _ key source keyField valueField hf hfirst
  · simp only [bind_eq_ok, pure_eq_ok, Prod.exists, fieldArgument_eq_ok, take_eq_ok, readText_eq_ok,
      Prod.mk.injEq] at h
    obtain ⟨_, _, hkeyField, keyField, ⟨_, rfl⟩, _, ⟨comma', rfl, hcomma'⟩, _, _, hvalueField, valueField,
      ⟨_, rfl⟩, _, ⟨comma'', rfl, hcomma''⟩, source, _, ⟨p, rfl, hp⟩, _, ⟨close, rfl, hclose⟩, rfl, rfl⟩ := h
    obtain ⟨fs, rfl, hfs, _⟩ := ih.joined _ _ _ _ (Nat.zero_le 3) hkeyField
    obtain ⟨gs, rfl, hgs, _⟩ := ih.joined _ _ _ _ (Nat.zero_le 3) hvalueField
    refine ⟨first ++ comma :: fs ++ comma' :: gs ++ [comma'', p, close], by simp, ?_⟩
    simpa [hcomma, hcomma', hcomma'', hp, hclose] using Derives.lookupByFields function _ _ _ key source
      keyField valueField hf hfirst hfs.fieldReference hgs.fieldReference

theorem of_fuel (stop fuel : Nat) : Sound stop fuel := by
  induction fuel with
  | zero => exact zero stop
  | succ fuel ih =>
    exact
      { joined := fun _ _ _ _ hmin h => ih.joined_succ hmin h
        operators := fun _ _ _ _ _ _ _ hmin hl hts h => ih.operators_succ hmin hl hts h
        primary := fun _ _ _ h => ih.primary_succ h
        lookup := fun _ _ _ _ hf h => ih.lookup_succ hf h }

end Sound

end TabularReport.Expr
