set_option autoImplicit false

namespace TabularReport.Text

/-- Whether `c` has the property White_Space. -/
def isBlank (c : Char) : Bool :=
  let n := c.toNat
  (9 ≤ n && n ≤ 13) || n == 32 || n == 133 || n == 160 || n == 5760 || (8192 ≤ n && n ≤ 8202) ||
    n == 8232 || n == 8233 || n == 8239 || n == 8287 || n == 12288

def trimStart (cs : List Char) : List Char :=
  cs.dropWhile isBlank

def trimList (cs : List Char) : List Char :=
  (trimStart (trimStart cs).reverse).reverse

def trim (s : String) : String :=
  String.ofList (trimList s.toList)

theorem length_trimStart_le (cs : List Char) : (trimStart cs).length ≤ cs.length :=
  List.dropWhile_sublist isBlank |>.length_le

def hexValue? (c : Char) : Option Nat :=
  if '0' ≤ c && c ≤ '9' then some (c.toNat - 48)
  else if 'a' ≤ c && c ≤ 'f' then some (c.toNat - 87)
  else if 'A' ≤ c && c ≤ 'F' then some (c.toNat - 55)
  else none

def asciiLower (s : String) : String :=
  String.ofList (s.toList.map Char.toLower)

def sameIgnoringCase (a b : String) : Bool :=
  a.toList.map Char.toLower == b.toList.map Char.toLower

theorem sameIgnoringCase_iff (a b : String) : sameIgnoringCase a b = true ↔ asciiLower a = asciiLower b := by
  simp [sameIgnoringCase, asciiLower, String.ofList_inj]

theorem not_sameIgnoringCase {word a b : String} (h : sameIgnoringCase word a = true)
    (hab : sameIgnoringCase a b = false) : sameIgnoringCase word b = false := by
  rw [← Bool.not_eq_true] at hab ⊢
  rw [sameIgnoringCase_iff] at h hab ⊢
  exact h ▸ hab

def doubleQuotes : List Char → List Char
  | [] => []
  | c :: cs => if c = '"' then '"' :: '"' :: doubleQuotes cs else c :: doubleQuotes cs

def quoted (s : String) : String :=
  String.ofList ('"' :: doubleQuotes s.toList ++ ['"'])

/-- Reads on after an opening quote: the text, the characters that spell it with the closing quote, and
the rest.  There is none if no quote closes it. -/
def readQuoted? : List Char → Option (List Char × List Char × List Char)
  | [] => none
  | '"' :: '"' :: cs =>
    match readQuoted? cs with
    | some (text, spelled, rest) => some ('"' :: text, '"' :: '"' :: spelled, rest)
    | none => none
  | c :: cs =>
    if c = '"' then some ([], ['"'], cs)
    else
      match readQuoted? cs with
      | some (text, spelled, rest) => some (c :: text, c :: spelled, rest)
      | none => none

theorem readQuoted?_append {cs text spelled rest : List Char}
    (h : readQuoted? cs = some (text, spelled, rest)) : spelled ++ rest = cs := by
  fun_induction readQuoted? cs generalizing text spelled rest <;> grind

end TabularReport.Text
