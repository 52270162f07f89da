import TabularReport.Text.Basic
/-!
JSON texts, read strictly: one value with nothing but blanks around it, no comments and no commas at an
end.  Of a number only its form matters here.  Escapes can spell half of a surrogate pair; such a string
is well-formed and has no text.
-/
set_option autoImplicit false

namespace TabularReport

inductive Json where
  | null
  | boolean (b : Bool)
  | number
  | string (s : Option String)
  | array (items : List Json)
  | object (members : List (Option String × Json))

namespace Json

def isGap (c : Char) : Bool :=
  c == ' ' || c == '\t' || c == '\n' || c == '\r'

def skipGap (cs : List Char) : List Char :=
  cs.dropWhile isGap

def escaped? : Char → Option Char
  | '"' => some '"'
  | '\\' => some '\\'
  | '/' => some '/'
  | 'b' => some '\x08'
  | 'f' => some '\x0c'
  | 'n' => some '\n'
  | 'r' => some '\r'
  | 't' => some '\t'
  | _ => none

def hexNumber? (a b c d : Char) : Option Nat :=
  [a, b, c, d].foldlM (fun n digit => (Text.hexValue? digit).map (16 * n + ·)) 0

/-- Reads on after an opening quote: the code points up to the closing quote, and the rest.  An escape
with four digits can give a surrogate.  Control characters must be escaped. -/
def readQuote? : List Char → Option (List Nat × List Char)
  | [] => none
  | '"' :: cs => some ([], cs)
  | '\\' :: 'u' :: a :: b :: c :: d :: cs => do
    let n ← hexNumber? a b c d
    let (ns, rest) ← readQuote? cs
    return (n :: ns, rest)
  | '\\' :: c :: cs => do
    let e ← escaped? c
    let (ns, rest) ← readQuote? cs
    return (e.toNat :: ns, rest)
  | c :: cs =>
    if c < ' ' then none
    else do
      let (ns, rest) ← readQuote? cs
      return (c.toNat :: ns, rest)

def isHighSurrogate (n : Nat) : Bool := 0xD800 ≤ n && n ≤ 0xDBFF

def isLowSurrogate (n : Nat) : Bool := 0xDC00 ≤ n && n ≤ 0xDFFF

/-- The characters with these code points, where a high surrogate and the low one after it make one.
There are none if a surrogate is left over. -/
def joinSurrogates? : List Nat → Option (List Char)
  | [] => some []
  | n :: ns =>
    if isHighSurrogate n then
      match ns with
      | low :: ns =>
        if isLowSurrogate low then
          (joinSurrogates? ns).map
            (Char.ofNat (0x10000 + 1024 * (n - 0xD800) + (low - 0xDC00)) :: ·)
        else none
      | [] => none
    else if isLowSurrogate n then none
    else (joinSurrogates? ns).map (Char.ofNat n :: ·)

def afterDigits? (cs : List Char) : Option (List Char) :=
  match cs with
  | c :: rest => if c.isDigit then some (rest.dropWhile Char.isDigit) else none
  | [] => none

def afterFraction? : List Char → Option (List Char)
  | '.' :: cs => afterDigits? cs
  | cs => some cs

def afterExponent? : List Char → Option (List Char)
  | c :: cs =>
    if c = 'e' || c = 'E' then
      match cs with
      | '+' :: cs => afterDigits? cs
      | '-' :: cs => afterDigits? cs
      | cs => afterDigits? cs
    else some (c :: cs)
  | [] => some []

/-- What follows a number.  A leading zero is the only digit before the point. -/
def afterNumber? (cs : List Char) : Option (List Char) := do
  let whole ← match cs with
    | '-' :: '0' :: cs => some cs
    | '-' :: cs => afterDigits? cs
    | '0' :: cs => some cs
    | cs => afterDigits? cs
  afterExponent? (← afterFraction? whole)

def after? (word : String) (cs : List Char) : Option (List Char) :=
  if word.toList.isPrefixOf cs then some (cs.drop word.length) else none

def readBare? (cs : List Char) : Option (Json × List Char) :=
  match after? "null" cs, after? "true" cs, after? "false" cs with
  | some rest, _, _ => some (.null, rest)
  | _, some rest, _ => some (.boolean true, rest)
  | _, _, some rest => some (.boolean false, rest)
  | _, _, _ => (afterNumber? cs).map (.number, ·)

def readString? (cs : List Char) : Option (Option String × List Char) :=
  (readQuote? cs).map fun (ns, rest) => ((joinSurrogates? ns).map String.ofList, rest)

mutual

def readValue? : Nat → List Char → Option (Json × List Char)
  | 0, _ => none
  | fuel + 1, cs =>
    match skipGap cs with
    | '"' :: cs => do
      let (s, rest) ← readString? cs
      return (.string s, rest)
    | '[' :: cs =>
      match skipGap cs with
      | ']' :: rest => some (.array [], rest)
      | cs => do
        let (items, rest) ← readItems? fuel cs
        return (.array items, rest)
    | '{' :: cs =>
      match skipGap cs with
      | '}' :: rest => some (.object [], rest)
      | cs => do
        let (members, rest) ← readMembers? fuel cs
        return (.object members, rest)
    | cs => readBare? cs

def readItems? : Nat → List Char → Option (List Json × List Char)
  | 0, _ => none
  | fuel + 1, cs => do
    let (item, rest) ← readValue? fuel cs
    match skipGap rest with
    | ',' :: rest =>
      let (items, rest) ← readItems? fuel rest
      return (item :: items, rest)
    | ']' :: rest => return ([item], rest)
    | _ => none

def readMembers? : Nat → List Char → Option (List (Option String × Json) × List Char)
  | 0, _ => none
  | fuel + 1, cs =>
    match skipGap cs with
    | '"' :: cs => do
      let (key, rest) ← readString? cs
      match skipGap rest with
      | ':' :: rest =>
        let (value, rest) ← readValue? fuel rest
        match skipGap rest with
        | ',' :: rest =>
          let (members, rest) ← readMembers? fuel rest
          return ((key, value) :: members, rest)
        | '}' :: rest => return ([(key, value)], rest)
        | _ => none
      | _ => none
    | _ => none

end

/-- The value that a text spells.  Twice as many steps as characters, and two, are enough. -/
def read? (s : String) : Option Json := do
  let cs := s.toList
  let (value, rest) ← readValue? (2 * cs.length + 2) cs
  guard (skipGap rest).isEmpty
  return value

end Json
end TabularReport
