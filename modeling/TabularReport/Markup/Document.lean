import TabularReport.Markup.Event

set_option autoImplicit false

namespace TabularReport.Markup

/-- Name and qualifier of a qualified name, divided at its first colon. -/
def splitName (qualified : String) : Option String × String :=
  let cs := qualified.toList
  match cs.dropWhile (· != ':') with
  | _ :: rest => (some (String.ofList (cs.takeWhile (· != ':'))), String.ofList rest)
  | [] => (none, qualified)

/-- An element: its local name and qualifier, its attributes by qualified name, the elements directly
inside it, and the character data directly inside it. -/
structure Element where
  name : String
  qualifier : Option String
  attributes : List (String × String)
  children : List Element
  text : String

namespace Element

def child? (e : Element) (name : String) : Option Element :=
  e.children.find? (·.name == name)

def childrenCalled (e : Element) (name : String) : List Element :=
  e.children.filter (·.name == name)

/-- Follows children by name, the first at each step. -/
def follow? (e : Element) : List String → Option Element
  | [] => some e
  | step :: steps => (e.child? step).bind (·.follow? steps)

def reached (e : Element) (steps : List String) : List Element :=
  steps.foldl (fun found step => found.flatMap (·.childrenCalled step)) [e]

mutual

/-- The proper descendants with this name, parents first. -/
def descendants (name : String) : Element → List Element
  | ⟨_, _, _, children, _⟩ => descendantsIn name children

def descendantsIn (name : String) : List Element → List Element
  | [] => []
  | c :: cs => (if c.name == name then [c] else []) ++ descendants name c ++ descendantsIn name cs

end

mutual

def find? (name : String) : Element → Option Element
  | ⟨_, _, _, children, _⟩ => findIn? name children

def findIn? (name : String) : List Element → Option Element
  | [] => none
  | c :: cs =>
    if c.name == name then some c
    else
      match find? name c with
      | some found => some found
      | none => findIn? name cs

end

def textOf? (e : Element) (name : String) : Option String :=
  (e.child? name).map (·.text)

def attribute? (e : Element) (name : String) : Option String :=
  (e.attributes.find? (·.1 == name)).map (·.2)

/-- The first attribute with this local name, whatever its qualifier. -/
def localAttribute? (e : Element) (name : String) : Option String :=
  (e.attributes.find? fun a => (splitName a.1).2 == name).map (·.2)

end Element

inductive DocumentError where
  | encoding
  | malformed
  | unclosed (name : String)
  | noRoot
  | manyRoots
  deriving DecidableEq

def DocumentError.text : DocumentError → String
  | .encoding => "Not a UTF-8 text"
  | .malformed => "Not well-formed"
  | .unclosed name => "Unclosed element <" ++ name ++ ">"
  | .noRoot => "Document has no root element"
  | .manyRoots => "Document has more than one root element"

/-- The elements that are open, the innermost first, and the outermost element once it is complete. -/
structure Builder where
  stack : List Element := []
  root : Option Element := none

def unescapeAttributes? (as : List (String × String)) : Option (List (String × String)) :=
  as.mapM fun (key, value) => (unescapeText? value).map (key, ·)

def Element.ofTag? (tag : Tag) : Option Element := do
  let (qualifier, name) := splitName tag.name
  return ⟨name, qualifier, ← unescapeAttributes? tag.attributes, [], ""⟩

namespace Builder

def place (b : Builder) (e : Element) : Except DocumentError Builder :=
  match b.stack, b.root with
  | parent :: outer, _ => .ok { b with stack := { parent with children := parent.children ++ [e] } :: outer }
  | [], none => .ok { b with root := some e }
  | [], some _ => .error .manyRoots

def addText (b : Builder) (s : String) : Builder :=
  match b.stack with
  | parent :: outer => { b with stack := { parent with text := parent.text ++ s } :: outer }
  | [] => b

def step (b : Builder) : Event → Except DocumentError Builder
  | .opening tag =>
    match Element.ofTag? tag with
    | some e => .ok { b with stack := e :: b.stack }
    | none => .error .malformed
  | .empty tag =>
    match Element.ofTag? tag with
    | some e => b.place e
    | none => .error .malformed
  | .closing =>
    match b.stack with
    | e :: outer => place { b with stack := outer } e
    | [] => .error .malformed
  | .text raw =>
    match unescapeText? raw with
    | some s => .ok (b.addText s)
    | none => .error .malformed
  | .verbatim s => .ok (b.addText s)
  | .skipped => .ok b

def finish (b : Builder) : Except DocumentError Element :=
  match b.stack, b.root with
  | e :: _, _ => .error (.unclosed e.name)
  | [], some root => .ok root
  | [], none => .error .noRoot

end Builder

def Element.ofChars (cs : List Char) : Except DocumentError Element := do
  let (events, complete) := eventsOf cs
  let b ← events.foldlM Builder.step {}
  if complete then b.finish else .error .malformed

/-- The document with these bytes.  A byte order mark in front is skipped. -/
def Element.ofBytes (bytes : ByteArray) : Except DocumentError Element :=
  match String.fromUTF8? bytes with
  | none => .error .encoding
  | some s =>
    match s.toList with
    | '\ufeff' :: cs => ofChars cs
    | cs => ofChars cs

end TabularReport.Markup
