import TabularReport.Expr.Token
/-!
Reading report expressions.  Operators associate to the left; `&` binds loosest, then `+` and `-`, then
`*` and `/`, then the minus sign.  Keywords ignore the case of ASCII letters, and both ways to write a
lookup give the same expression.  An error stands at a token or at the end of the text.
-/
set_option autoImplicit false

namespace TabularReport

inductive Wanted where
  | token (t : Token)
  | keyword (word : String)
  | identifier
  | quoted (role : String)

def Wanted.text : Wanted → String
  | .token t => t.display
  | .keyword word => word
  | .identifier => "identifier"
  | .quoted role => "quoted " ++ role

inductive SyntaxFault where
  | empty
  | trailing (found : Token)
  | missing (wanted : Wanted) (found : Option Token)
  | unknownIdentifier (name : String)
  | unsupportedCollection (name : String)
  | unsupportedFunction (name : String)
  | unterminated
  | unexpectedEnd
  | unexpected (found : Token)
  | notAField (role : String) (found : Expr)

def SyntaxFault.text : SyntaxFault → String
  | .empty => "Empty expression"
  | .trailing t => "Unexpected token after expression: " ++ t.display
  | .missing wanted found =>
    "Expected " ++ wanted.text ++ ", found " ++ (found.map Token.display).getD "end of expression"
  | .unknownIdentifier name => "Unknown identifier: " ++ name
  | .unsupportedCollection name => "Unsupported collection: " ++ name
  | .unsupportedFunction name => "Unsupported function: " ++ name
  | .unterminated => "Unterminated string literal"
  | .unexpectedEnd => "Unexpected end of expression"
  | .unexpected t => "Unexpected token: " ++ t.display
  | .notAField role found =>
    "Lookup " ++ role ++ " argument must be a field reference, found " ++ found.text

structure SyntaxError where
  fault : SyntaxFault
  offset : Nat

def natText (n : Nat) : String :=
  String.ofList (digitsOf n)

def SyntaxError.message (e : SyntaxError) : String :=
  "Parse error at offset " ++ natText e.offset ++ ": " ++ e.fault.text

namespace Expr

/-- The offset of the next token; behind the last one it is the length of the text. -/
def offsetOf (stop : Nat) : List PlacedToken → Nat
  | t :: _ => t.offset
  | [] => stop

def failHere {α : Type} (stop : Nat) (ts : List PlacedToken) (fault : SyntaxFault) : Except SyntaxError α :=
  .error ⟨fault, offsetOf stop ts⟩

def missing {α : Type} (stop : Nat) (ts : List PlacedToken) (wanted : Wanted) : Except SyntaxError α :=
  failHere stop ts (.missing wanted (ts.head?.map (·.token)))

def take (stop : Nat) (t : Token) : List PlacedToken → Except SyntaxError (List PlacedToken)
  | p :: ts => if p.token = t then .ok ts else missing stop (p :: ts) (.token t)
  | [] => missing stop [] (.token t)

def takeWord (stop : Nat) (word : String) : List PlacedToken → Except SyntaxError (List PlacedToken)
  | p :: ts => if p.token.isName word then .ok ts else missing stop (p :: ts) (.keyword word)
  | [] => missing stop [] (.keyword word)

def readName (stop : Nat) : List PlacedToken → Except SyntaxError (String × List PlacedToken)
  | ⟨.name s, _⟩ :: ts => .ok (s, ts)
  | ts => missing stop ts .identifier

def readText (stop : Nat) (role : String) : List PlacedToken → Except SyntaxError (String × List PlacedToken)
  | ⟨.text s, _⟩ :: ts => .ok (s, ts)
  | ts => missing stop ts (.quoted role)

def bareWord? (word : String) : Option Expr :=
  if Text.sameIgnoringCase word "true" then some (.literal (.boolean true))
  else if Text.sameIgnoringCase word "false" then some (.literal (.boolean false))
  else if Text.sameIgnoringCase word "nothing" then some (.literal .null)
  else none

def memberOf? (collection : String) : Option (String → Expr) :=
  if Text.sameIgnoringCase collection "Fields" then some (.field none)
  else if Text.sameIgnoringCase collection "Parameters" then some .parameter
  else none

def readMember (stop : Nat) (collection : String) (start : Nat) (ts : List PlacedToken) :
    Except SyntaxError (Expr × List PlacedToken) := do
  match memberOf? collection with
  | none => .error ⟨.unsupportedCollection collection, start⟩
  | some reference =>
    let (member, ts) ← readName stop ts
    let ts ← take stop .dot ts
    let ts ← takeWord stop "Value" ts
    return (reference member, ts)

def readRowNumber (stop : Nat) (ts : List PlacedToken) : Except SyntaxError (Expr × List PlacedToken) := do
  let (dataset, ts) ← readText stop "dataset name" ts
  let ts ← take stop .closeParen ts
  return (.rowNumber dataset, ts)

def readQuotedTail (stop : Nat) (key : Expr) (ts : List PlacedToken) :
    Except SyntaxError (Expr × List PlacedToken) := do
  let (source, ts) ← readText stop "dataset name" ts
  let ts ← take stop .comma ts
  let (keyField, ts) ← readText stop "key field" ts
  let ts ← take stop .comma ts
  let (valueField, ts) ← readText stop "value field" ts
  let ts ← take stop .closeParen ts
  return (.lookup key source keyField valueField, ts)

def fieldArgument (role : String) (start : Nat) : Expr → Except SyntaxError String
  | .field _ name => .ok name
  | e => .error ⟨.notAField role e, start⟩

mutual

/-- Reads operands joined by operators that bind tighter than `min`. -/
def readJoined (stop : Nat) : Nat → Nat → List PlacedToken → Except SyntaxError (Expr × List PlacedToken)
  | 0, _, ts => failHere stop ts .unexpectedEnd
  | fuel + 1, min, ts => do
    let (left, ts) ← readPrimary stop fuel ts
    readOperators stop fuel min left ts

def readOperators (stop : Nat) :
    Nat → Nat → Expr → List PlacedToken → Except SyntaxError (Expr × List PlacedToken)
  | 0, _, _, ts => failHere stop ts .unexpectedEnd
  | fuel + 1, min, left, ts =>
    match ts with
    | ⟨.operator op, _⟩ :: rest =>
      if op.precedence ≤ min then .ok (left, ts)
      else do
        let (right, rest) ← readJoined stop fuel op.precedence rest
        readOperators stop fuel min (.binary op left right) rest
    | _ => .ok (left, ts)

def readPrimary (stop : Nat) : Nat → List PlacedToken → Except SyntaxError (Expr × List PlacedToken)
  | 0, ts => failHere stop ts .unexpectedEnd
  | _ + 1, [] => failHere stop [] .unexpectedEnd
  | fuel + 1, ⟨token, start⟩ :: ts =>
    match token with
    | .operator .subtract => do
      let (operand, ts) ← readPrimary stop fuel ts
      return (.negate operand, ts)
    | .number x => .ok (.literal (.number x), ts)
    | .text s => .ok (.literal (.text s), ts)
    | .openParen => do
      let (inner, ts) ← readJoined stop fuel 0 ts
      let ts ← take stop .closeParen ts
      return (inner, ts)
    | .name word =>
      match ts with
      | ⟨.bang, _⟩ :: ts => readMember stop word start ts
      | ⟨.openParen, _⟩ :: ts =>
        if Text.sameIgnoringCase word "RowNumber" then readRowNumber stop ts
        else if Text.sameIgnoringCase word "Lookup" then readLookup stop fuel ts
        else .error ⟨.unsupportedFunction word, start⟩
      | ts =>
        match bareWord? word with
        | some e => .ok (e, ts)
        | none => .error ⟨.unknownIdentifier word, start⟩
    | .unterminated => .error ⟨.unterminated, start⟩
    | token => .error ⟨.unexpected token, start⟩

def readLookup (stop : Nat) : Nat → List PlacedToken → Except SyntaxError (Expr × List PlacedToken)
  | 0, ts => failHere stop ts .unexpectedEnd
  | fuel + 1, ts => do
    let (key, ts) ← readJoined stop fuel 0 ts
    let ts ← take stop .comma ts
    match ts with
    | ⟨.text _, _⟩ :: _ => readQuotedTail stop key ts
    | _ =>
      let (keyArgument, rest) ← readJoined stop fuel 0 ts
      let keyField ← fieldArgument "destination" (offsetOf stop ts) keyArgument
      let ts ← take stop .comma rest
      let (valueArgument, rest) ← readJoined stop fuel 0 ts
      let valueField ← fieldArgument "result" (offsetOf stop ts) valueArgument
      let ts ← take stop .comma rest
      let (source, ts) ← readText stop "dataset name" ts
      let ts ← take stop .closeParen ts
      return (.lookup key source keyField valueField, ts)

end

/-- Reads an expression from all of `ts`.  Twice as many steps as tokens, and two, are enough. -/
def ofTokens (stop : Nat) (ts : List PlacedToken) : Except SyntaxError Expr := do
  if ts.isEmpty then failHere stop ts .empty
  else
    let (e, rest) ← readJoined stop (2 * ts.length + 2) 0 ts
    match rest with
    | [] => return e
    | t :: _ => failHere stop rest (.trailing t.token)

def dropEquals : List PlacedToken → List PlacedToken
  | ⟨.equals, _⟩ :: ts => ts
  | ts => ts

/-- Reads an expression; one equals sign in front of it is skipped. -/
def parse (s : String) : Except SyntaxError Expr :=
  ofTokens s.utf8ByteSize (dropEquals (tokens s))

/-- Reads report text: an expression after an equals sign, and otherwise the text itself. -/
def ofReportText (s : String) : Except SyntaxError Expr :=
  match s.toList with
  | '=' :: _ => parse s
  | _ => .ok (.literal (.text s))

end Expr
end TabularReport
