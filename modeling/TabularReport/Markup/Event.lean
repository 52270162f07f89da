import TabularReport.Text.Basic
/-!
Markup as a sequence of events: tags, character data and what carries no content.  Closing tags are
matched by name against the tags that are open.  The sequence ends at the end of the text, or before the
first place that is no markup.  A closing tag or an instruction may lack its last `>` at the end.
-/
set_option autoImplicit false

namespace TabularReport.Markup

def numeral? (base most : Nat) (cs : List Char) : Option Nat :=
  if most < cs.length then none
  else
    cs.foldlM (fun n c => do
      let d ← Text.hexValue? c
      guard (d < base)
      return base * n + d) 0

/-- The character with the code point `n`, unless it is NUL or there is none. -/
def charOf? (n : Nat) : Option Char :=
  if h : n ≠ 0 ∧ n.isValidChar then some (Char.ofNatAux n h.2) else none

def reference? : List Char → Option Char
  | '#' :: 'x' :: cs => numeral? 16 6 cs >>= charOf?
  | '#' :: cs => numeral? 10 7 cs >>= charOf?
  | ['l', 't'] => some '<'
  | ['g', 't'] => some '>'
  | ['a', 'm', 'p'] => some '&'
  | ['q', 'u', 'o', 't'] => some '"'
  | ['a', 'p', 'o', 's'] => some '\''
  | _ => none

/-- What stands before the first `;`, and what follows it.  Another `&` may not come first. -/
def untilSemicolon? : List Char → Option (List Char × List Char)
  | [] => none
  | c :: cs =>
    if c = ';' then some ([], cs)
    else if c = '&' then none
    else (untilSemicolon? cs).map fun (name, rest) => (c :: name, rest)

theorem length_untilSemicolon? {cs name rest : List Char} (h : untilSemicolon? cs = some (name, rest)) :
    rest.length < cs.length := by
  fun_induction untilSemicolon? cs generalizing name rest with
  | case1 => contradiction
  | case2 => grind
  | case3 => contradiction
  | case4 c cs _ _ ih =>
    obtain ⟨⟨n, r⟩, hr, he⟩ := Option.map_eq_some_iff.1 h
    have := ih hr
    grind

/-- The text with its references replaced; there is none if an `&` starts no reference. -/
def unescape? (cs : List Char) : Option (List Char) :=
  match cs with
  | [] => some []
  | '&' :: cs =>
    match _found : untilSemicolon? cs with
    | some (name, rest) => do
      let c ← reference? name
      return c :: (← unescape? rest)
    | none => none
  | c :: cs => (unescape? cs).map (c :: ·)
termination_by cs.length
decreasing_by
  · have := length_untilSemicolon? _found
    simp only [List.length_cons]; omega
  · simp

def unescapeText? (s : String) : Option String :=
  (unescape? s.toList).map String.ofList

end TabularReport.Markup

namespace TabularReport.Markup

structure Tag where
  name : String
  attributes : List (String × String)
  deriving DecidableEq

/-- An event.  `text` still holds its references, `verbatim` has none. -/
inductive Event where
  | opening (tag : Tag)
  | empty (tag : Tag)
  | closing
  | text (raw : String)
  | verbatim (s : String)
  | skipped
  deriving DecidableEq

def isSpace (c : Char) : Bool :=
  c == ' ' || c == '\r' || c == '\n' || c == '\t'

def skipSpace (cs : List Char) : List Char :=
  cs.dropWhile isSpace

def splitAt? (stop : Char) : List Char → Option (List Char × List Char)
  | [] => none
  | c :: cs => if c = stop then some ([], cs) else (splitAt? stop cs).map fun (a, b) => (c :: a, b)

def splitAtOrEnd (stop : Char) (cs : List Char) : List Char × List Char :=
  (cs.takeWhile (· != stop), (cs.dropWhile (· != stop)).drop 1)

def splitBefore? (mark : List Char) : List Char → Option (List Char × List Char)
  | [] => none
  | c :: cs =>
    if mark.isPrefixOf (c :: cs) then some ([], (c :: cs).drop mark.length)
    else (splitBefore? mark cs).map fun (a, b) => (c :: a, b)

/-- The inside of a tag up to its `>`, which does not count between quotes. -/
def splitTag? (quote : Option Char) : List Char → Option (List Char × List Char)
  | [] => none
  | c :: cs =>
    match quote with
    | some q => (splitTag? (if c = q then none else some q) cs).map fun (a, b) => (c :: a, b)
    | none =>
      if c = '>' then some ([], cs)
      else (splitTag? (if c = '\'' || c = '"' then some c else none) cs).map fun (a, b) => (c :: a, b)

/-- The inside of a declaration up to the `>` before which as many `<` as `>` stand. -/
def splitDeclaration? (depth : Nat) : List Char → Option (List Char × List Char)
  | [] => none
  | c :: cs =>
    if c = '>' && depth == 0 then some ([], cs)
    else
      let depth := if c = '<' then depth + 1 else if c = '>' then depth - 1 else depth
      (splitDeclaration? depth cs).map fun (a, b) => (c :: a, b)

def afterCaseless? (word cs : List Char) : Option (List Char) :=
  if (cs.take word.length).map Char.toLower == word.map Char.toLower then some (cs.drop word.length)
  else none

def readAttribute? : List Char → Option ((String × String) × List Char)
  | [] => none
  | c :: cs =>
    let stops (c : Char) : Bool := c == '=' || isSpace c
    let key := c :: cs.takeWhile (!stops ·)
    match skipSpace (cs.dropWhile (!stops ·)) with
    | '=' :: rest =>
      match skipSpace rest with
      | q :: rest =>
        if q = '"' || q = '\'' then
          (splitAt? q rest).map fun (value, rest) => ((String.ofList key, String.ofList value), rest)
        else none
      | [] => none
    | _ => none

/-- The attributes in `cs`, none with the key of an earlier one.  `steps` bounds their number. -/
def readAttributes? : Nat → List (String × String) → List Char → Option (List (String × String))
  | 0, _, _ => none
  | steps + 1, found, cs =>
    match skipSpace cs with
    | [] => some found
    | cs => do
      let (next, rest) ← readAttribute? cs
      guard (!found.any (·.1 == next.1))
      readAttributes? steps (found ++ [next]) rest

/-- The tag with this inside: its name reaches to the first space. -/
def readTag? (inside : List Char) : Option Tag := do
  let name := inside.takeWhile (!isSpace ·)
  let attributes ← readAttributes? (inside.length + 1) [] (inside.dropWhile (!isSpace ·))
  return ⟨String.ofList name, attributes⟩

def tagEvent? (inside : List Char) : Option Event :=
  if inside.getLast? = some '/' then (readTag? inside.dropLast).map .empty
  else (readTag? inside).map .opening

def closingName (inside : List Char) : List Char :=
  if inside.all isSpace then inside else (skipSpace inside.reverse).reverse

def readMarkup? (opened : List String) : List Char → Option (Event × List Char)
  | '!' :: '[' :: cs => do
    let cs ← afterCaseless? ['C', 'D', 'A', 'T', 'A', '['] cs
    let (content, rest) ← splitBefore? [']', ']', '>'] cs
    return (.verbatim (String.ofList content), rest)
  | '!' :: '-' :: '-' :: cs => do
    let (_, rest) ← splitBefore? ['-', '-', '>'] cs
    return (.skipped, rest)
  | '!' :: cs => do
    let cs ← afterCaseless? ['D', 'O', 'C', 'T', 'Y', 'P', 'E'] cs
    let (content, rest) ← splitDeclaration? 0 cs
    guard (!content.all isSpace)
    return (.skipped, rest)
  | '?' :: cs =>
    let (content, rest) := splitAtOrEnd '>' cs
    if 2 ≤ content.length && content.getLast? = some '?' then some (.skipped, rest) else none
  | '/' :: cs =>
    let (inside, rest) := splitAtOrEnd '>' cs
    if opened.head? = some (String.ofList (closingName inside)) then some (.closing, rest) else none
  | cs => do
    let (inside, rest) ← splitTag? none cs
    return (← tagEvent? inside, rest)

def openAfter (opened : List String) : Event → List String
  | .opening tag => tag.name :: opened
  | .closing => opened.drop 1
  | _ => opened

def readEvents : Nat → List String → List Char → List Event × Bool
  | 0, _, _ => ([], true)
  | _ + 1, _, [] => ([], true)
  | _ + 1, _, ['<'] => ([], true)
  | steps + 1, opened, '<' :: cs =>
    match readMarkup? opened cs with
    | none => ([], false)
    | some (event, rest) =>
      let (events, complete) := readEvents steps (openAfter opened event) rest
      (event :: events, complete)
  | steps + 1, opened, cs =>
    let (events, complete) := readEvents steps opened (cs.dropWhile (· != '<'))
    (.text (String.ofList (cs.takeWhile (· != '<'))) :: events, complete)

def eventsOf (cs : List Char) : List Event × Bool :=
  readEvents (cs.length + 1) [] cs

end TabularReport.Markup
