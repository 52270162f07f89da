import TabularReport.Expr.Basic
import TabularReport.Text.Letter
import TabularReport.Text.Basic

set_option autoImplicit false

namespace TabularReport

/-- A token.  A text has its doubled quotes collapsed. -/
inductive Token where
  | number (x : Double)
  | text (s : String)
  | name (s : String)
  | operator (op : Operator)
  | equals
  | bang
  | dot
  | comma
  | openParen
  | closeParen
  | unterminated
  | unexpected (c : Char)
  deriving DecidableEq

structure PlacedToken where
  token : Token
  offset : Nat
  deriving DecidableEq

namespace Token

def display : Token → String
  | .number x => x.text
  | .text s => Text.quoted s
  | .name s => s
  | .operator op => op.text
  | .equals => "="
  | .bang => "!"
  | .dot => "."
  | .comma => ","
  | .openParen => "("
  | .closeParen => ")"
  | .unterminated => "unterminated string"
  | .unexpected c => "'" ++ String.singleton c ++ "'"

def isName (word : String) : Token → Bool
  | .name s => Text.sameIgnoringCase s word
  | _ => false

def isNameStart (c : Char) : Bool :=
  Text.isLetter c || c == '_'

def isNamePart (c : Char) : Bool :=
  isNameStart c || c.isDigit

def operatorOf? : Char → Option Operator
  | '+' => some .add
  | '-' => some .subtract
  | '*' => some .multiply
  | '/' => some .divide
  | '&' => some .concat
  | _ => none

def ofSign : Char → Token
  | '=' => .equals
  | '!' => .bang
  | '.' => .dot
  | ',' => .comma
  | '(' => .openParen
  | ')' => .closeParen
  | c => .unexpected c

def spanNumber (cs : List Char) : List Char × List Char :=
  match cs.dropWhile Char.isDigit with
  | '.' :: rest =>
    (cs.takeWhile Char.isDigit ++ '.' :: rest.takeWhile Char.isDigit, rest.dropWhile Char.isDigit)
  | rest => (cs.takeWhile Char.isDigit, rest)

def ofNumberSpelling (spelled : List Char) : Token :=
  match Double.readChars? spelled with
  | some x => .number x
  | none => .unexpected '.'

def startsNumber : Char → List Char → Bool
  | '.', d :: _ => d.isDigit
  | c, _ => c.isDigit

/-- The token at the front of a text that does not start with a blank, its spelling and the rest. -/
def first? : List Char → Option (Token × List Char × List Char)
  | [] => none
  | c :: cs =>
    match operatorOf? c with
    | some op => some (.operator op, [c], cs)
    | none =>
      if c = '"' then
        match Text.readQuoted? cs with
        | some (content, spelled, rest) => some (.text (String.ofList content), c :: spelled, rest)
        | none => some (.unterminated, c :: cs, [])
      else if startsNumber c cs then
        some (ofNumberSpelling (spanNumber (c :: cs)).1, spanNumber (c :: cs))
      else if isNameStart c then
        let spelled := c :: cs.takeWhile isNamePart
        some (.name (String.ofList spelled), spelled, cs.dropWhile isNamePart)
      else some (ofSign c, [c], cs)

theorem spanNumber_append (cs : List Char) : (spanNumber cs).1 ++ (spanNumber cs).2 = cs := by
  have h := List.takeWhile_append_dropWhile (p := Char.isDigit) (l := cs)
  unfold spanNumber
  split
  · rename_i rest hr
    rw [hr] at h
    simpa [List.takeWhile_append_dropWhile] using h
  · exact h

theorem spanNumber_ne_nil {c : Char} {cs : List Char} (h : startsNumber c cs = true) :
    (spanNumber (c :: cs)).1 ≠ [] := by
  unfold spanNumber
  by_cases hc : c.isDigit = true
  · split <;> simp [hc]
  · unfold startsNumber at h
    split at h
    · simp [List.dropWhile_cons]
    · contradiction

/-- A token takes its spelling, which is not empty, off the front of the text. -/
theorem first?_append {cs spelled rest : List Char} {t : Token} (h : first? cs = some (t, spelled, rest)) :
    spelled ≠ [] ∧ spelled ++ rest = cs := by
  unfold first? at h
  split at h
  · contradiction
  · rename_i c cs
    split at h
    · grind
    · split at h
      · split at h
        · rename_i hq
          have := Text.readQuoted?_append hq
          grind
        · grind
      · split at h
        · rename_i hn
          simp only [Option.some.injEq, Prod.mk.injEq] at h
          obtain ⟨_, h⟩ := h
          have h1 := spanNumber_append (c :: cs)
          have h2 := spanNumber_ne_nil hn
          rw [h] at h1 h2
          exact ⟨h2, h1⟩
        · split at h
          · simp only [Option.some.injEq, Prod.mk.injEq] at h
            obtain ⟨_, rfl, rfl⟩ := h
            simp [List.takeWhile_append_dropWhile]
          · grind

theorem length_lt_of_first? {cs spelled rest : List Char} {t : Token}
    (h : first? cs = some (t, spelled, rest)) : rest.length < cs.length := by
  obtain ⟨hne, rfl⟩ := first?_append h
  have := List.length_pos_iff.2 hne
  simp; omega

end Token

def byteLength : List Char → Nat
  | [] => 0
  | c :: cs => c.utf8Size + byteLength cs

def tokensFrom (offset : Nat) (cs : List Char) : List PlacedToken :=
  match _found : Token.first? (Text.trimStart cs) with
  | none => []
  | some (token, spelled, rest) =>
    let start := offset + byteLength (cs.takeWhile Text.isBlank)
    ⟨token, start⟩ :: tokensFrom (start + byteLength spelled) rest
termination_by cs.length
decreasing_by
  exact Nat.lt_of_lt_of_le (Token.length_lt_of_first? _found) (Text.length_trimStart_le cs)

def tokens (s : String) : List PlacedToken :=
  tokensFrom 0 s.toList

end TabularReport
