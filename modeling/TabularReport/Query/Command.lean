import TabularReport.Eval.Basic
/-!
Command texts and their markers.  A text is divided into segments: quoted runs, comments, system
variables, markers such as `@Name`, and single characters.  Only markers are replaced, by placeholders
for their values; the values themselves never enter the text.  A query parameter that is bound to a report
parameter alone takes its whole value, lists included; any other expression gives a single value.
-/
set_option autoImplicit false

namespace TabularReport

inductive Segment where
  | verbatim (cs : List Char)
  | marker (name : List Char)
  deriving DecidableEq

namespace Segment

def chars : Segment → List Char
  | .verbatim cs => cs
  | .marker name => '@' :: name

def isNameStart (c : Char) : Bool :=
  Text.isLetter c || c == '_'

def isNamePart (c : Char) : Bool :=
  Text.isLetterOrNumeral c || c == '_'

/-- The rest of a quoted run, up to the first closing character that is not doubled or to the end. -/
def spanQuoted (close : Char) : List Char → List Char × List Char
  | [] => ([], [])
  | [c] => ([c], [])
  | c :: d :: cs =>
    if c ≠ close then
      let (run, rest) := spanQuoted close (d :: cs)
      (c :: run, rest)
    else if d = close then
      let (run, rest) := spanQuoted close cs
      (c :: d :: run, rest)
    else ([c], d :: cs)

def spanBlock : List Char → List Char × List Char
  | [] => ([], [])
  | '*' :: '/' :: cs => (['*', '/'], cs)
  | c :: cs =>
    let (run, rest) := spanBlock cs
    (c :: run, rest)

def quotedRun (opening close : Char) (cs : List Char) : Segment × List Char :=
  (.verbatim (opening :: (spanQuoted close cs).1), (spanQuoted close cs).2)

def first (c : Char) (cs : List Char) : Segment × List Char :=
  match c, cs with
  | '\'', cs => quotedRun '\'' '\'' cs
  | '"', cs => quotedRun '"' '"' cs
  | '[', cs => quotedRun '[' ']' cs
  | '-', '-' :: cs => (.verbatim ('-' :: '-' :: cs.takeWhile (· != '\n')), cs.dropWhile (· != '\n'))
  | '/', '*' :: cs => (.verbatim ('/' :: '*' :: (spanBlock cs).1), (spanBlock cs).2)
  | '@', '@' :: cs => (.verbatim ('@' :: '@' :: cs.takeWhile isNamePart), cs.dropWhile isNamePart)
  | '@', d :: cs =>
    if isNameStart d then (.marker (d :: cs.takeWhile isNamePart), cs.dropWhile isNamePart)
    else (.verbatim ['@'], d :: cs)
  | c, cs => (.verbatim [c], cs)

theorem spanQuoted_append (close : Char) (cs : List Char) :
    (spanQuoted close cs).1 ++ (spanQuoted close cs).2 = cs := by
  fun_induction spanQuoted close cs <;> simp_all

theorem spanBlock_append (cs : List Char) : (spanBlock cs).1 ++ (spanBlock cs).2 = cs := by
  fun_induction spanBlock cs <;> simp_all

theorem first_append (c : Char) (cs : List Char) : (first c cs).1.chars ++ (first c cs).2 = c :: cs := by
  fun_cases first c cs <;>
    simp_all [chars, quotedRun, spanQuoted_append, spanBlock_append, List.takeWhile_append_dropWhile]

theorem chars_first_ne_nil (c : Char) (cs : List Char) : (first c cs).1.chars ≠ [] := by
  fun_cases first c cs <;> simp [chars, quotedRun]

theorem length_first_lt (c : Char) (cs : List Char) : (first c cs).2.length < (c :: cs).length := by
  have h := congrArg List.length (first_append c cs)
  have := List.length_pos_iff.2 (chars_first_ne_nil c cs)
  simp only [List.length_append] at h
  omega

def ofChars (cs : List Char) : List Segment :=
  match cs with
  | [] => []
  | c :: cs => (first c cs).1 :: ofChars (first c cs).2
termination_by cs.length
decreasing_by exact length_first_lt c cs

theorem flatMap_chars_ofChars (cs : List Char) : (ofChars cs).flatMap chars = cs := by
  fun_induction ofChars cs with
  | case1 => rfl
  | case2 c cs ih => rw [List.flatMap_cons, ih, first_append]

end Segment

structure Command where
  text : String
  params : Row
  deriving DecidableEq

/-- The placeholder names and values of a parameter: its own name, or one numbered name for each value
of a list. -/
def ParameterValue.placeholders (name : String) : ParameterValue → List (String × Scalar)
  | .single v => [(name, v)]
  | .multi vs => vs.mapIdx fun i v => (name ++ "_" ++ natText (i + 1), v)

/-- The text that stands for the placeholders; an empty list reads as NULL. -/
def PlaceholderStyle.renderAll (style : PlaceholderStyle) (names : List String) : String :=
  if names.isEmpty then "NULL" else ", ".intercalate (names.map style.render)

namespace Command

/-- The first parameter that a marker names, up to the case of ASCII letters. -/
def binding? (bindings : ParameterValues) (marker : String) : Option (String × ParameterValue) :=
  bindings.entries.find? fun (name, _) => Text.sameIgnoringCase name marker

def ofSegment (style : PlaceholderStyle) (bindings : ParameterValues) :
    Segment → Except ReportError (List Char × List (String × Scalar))
  | .verbatim cs => .ok (cs, [])
  | .marker name =>
    match binding? bindings (String.ofList name) with
    | none => .error (.unboundMarker (String.ofList name))
    | some (name, value) =>
      let placeholders := value.placeholders name
      .ok ((style.renderAll (placeholders.map (·.1))).toList, placeholders)

def ofText (style : PlaceholderStyle) (bindings : ParameterValues) (text : String) :
    Except ReportError Command := do
  let parts ← (Segment.ofChars text.toList).mapM (ofSegment style bindings)
  return { text := String.ofList (parts.flatMap (·.1)), params := .ofList (parts.flatMap (·.2)) }

end Command

namespace QueryParameter

def evaluate (q : QueryParameter) (d : Definition) (values : ParameterValues) :
    Except EvalError ParameterValue :=
  match q.value with
  | .parameter name => (values.get? name).elim (.error (.unknownParameter name)) .ok
  | e => .single <$> Scope.eval { definition := d, parameters := values } e

end QueryParameter

namespace DataSet

def addBinding (dataset : DataSet) (d : Definition) (values bindings : ParameterValues)
    (q : QueryParameter) : Except ReportError ParameterValues :=
  match q.evaluate d values with
  | .ok v => .ok (bindings.insert q.name v)
  | .error cause => .error (.queryParameter dataset.name q.name cause)

def bindings (dataset : DataSet) (d : Definition) (values : ParameterValues) :
    Except ReportError ParameterValues :=
  dataset.parameters.foldlM (dataset.addBinding d values) ∅

def commandFor (dataset : DataSet) (d : Definition) (settings : Settings) (values : ParameterValues) :
    Except ReportError Command := do
  Command.ofText settings.placeholderStyle (← dataset.bindings d values) dataset.command

end DataSet
end TabularReport
