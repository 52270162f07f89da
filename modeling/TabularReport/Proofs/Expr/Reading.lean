import TabularReport.Proofs.Outcome
import TabularReport.Expr.Parser
/-!
The readers of expressions as programs over the tokens that are left.  A reading that fails leaves the tokens
that it has not consumed, the first of which it may have looked at; but for these tokens it is what the
readers of token lists return.
-/
set_option autoImplicit false

namespace TabularReport.Expr

/-- A program that consumes tokens from the front.  It also leaves some where it fails. -/
abbrev Reading := EStateM SyntaxError (List PlacedToken)

namespace Reading

variable {α β : Type}

def here (stop : Nat) : Reading Nat :=
  return offsetOf stop (← get)

def peek : Reading (Option Token) :=
  return (← get).head?.map (·.token)

def skip : Reading Unit :=
  modify List.tail

def fail (place : Nat) (fault : SyntaxFault) : Reading α :=
  throw ⟨fault, place⟩

def failHere (stop : Nat) (fault : SyntaxFault) : Reading α := do
  fail (← here stop) fault

def missing (stop : Nat) (wanted : Wanted) : Reading α := do
  failHere stop (.missing wanted (← peek))

def take (stop : Nat) (t : Token) : Reading Unit := do
  if (← peek) = some t then skip else missing stop (.token t)

def takeWord (stop : Nat) (word : String) : Reading Unit := do
  if (← peek).any (·.isName word) then skip else missing stop (.keyword word)

def name (stop : Nat) : Reading String := do
  match ← peek with
  | some (.name s) =>
    skip
    return s
  | _ => missing stop .identifier

def text (stop : Nat) (role : String) : Reading String := do
  match ← peek with
  | some (.text s) =>
    skip
    return s
  | _ => missing stop (.quoted role)

def member (stop : Nat) (collection : String) (start : Nat) : Reading Expr := do
  match memberOf? collection with
  | none => fail start (.unsupportedCollection collection)
  | some reference =>
    let member ← name stop
    take stop .dot
    takeWord stop "Value"
    return reference member

def rowNumber (stop : Nat) : Reading Expr := do
  let dataset ← text stop "dataset name"
  take stop .closeParen
  return .rowNumber dataset

def quotedTail (stop : Nat) (key : Expr) : Reading Expr := do
  let source ← text stop "dataset name"
  take stop .comma
  let keyField ← text stop "key field"
  take stop .comma
  let valueField ← text stop "value field"
  take stop .closeParen
  return .lookup key source keyField valueField

def bareWord (word : String) (start : Nat) : Reading Expr :=
  match bareWord? word with
  | some e => return e
  | none => fail start (.unknownIdentifier word)

def fieldOf (role : String) (start : Nat) : Expr → Reading String
  | .field _ name => return name
  | e => fail start (.notAField role e)

/-- The field that an argument refers to.  If it is none, the fault is at the start of the argument. -/
def fieldArgument (stop : Nat) (role : String) (argument : Reading Expr) : Reading String := do
  let start ← here stop
  fieldOf role start (← argument)

def fieldTail (stop : Nat) (key : Expr) (argument : Reading Expr) : Reading Expr := do
  let keyField ← fieldArgument stop "destination" argument
  take stop .comma
  let valueField ← fieldArgument stop "result" argument
  take stop .comma
  let source ← text stop "dataset name"
  take stop .closeParen
  return .lookup key source keyField valueField

mutual

def joined (stop : Nat) : Nat → Nat → Reading Expr
  | 0, _ => failHere stop .unexpectedEnd
  | fuel + 1, min => do
    let left ← primary stop fuel
    operators stop fuel min left

def operators (stop : Nat) : Nat → Nat → Expr → Reading Expr
  | 0, _, _ => failHere stop .unexpectedEnd
  | fuel + 1, min, left => do
    match ← peek with
    | some (.operator op) =>
      if op.precedence ≤ min then return left
      else
        skip
        let right ← joined stop fuel op.precedence
        operators stop fuel min (.binary op left right)
    | _ => return left

def primary (stop : Nat) : Nat → Reading Expr
  | 0 => failHere stop .unexpectedEnd
  | fuel + 1 => do
    let start ← here stop
    let token ← peek
    skip
    match token with
    | some (.operator .subtract) => return .negate (← primary stop fuel)
    | some (.number x) => return .literal (.number x)
    | some (.text s) => return .literal (.text s)
    | some .openParen =>
      let inner ← joined stop fuel 0
      take stop .closeParen
      return inner
    | some (.name word) =>
      match ← peek with
      | some .bang =>
        skip
        member stop word start
      | some .openParen =>
        skip
        if Text.sameIgnoringCase word "RowNumber" then rowNumber stop
        else if Text.sameIgnoringCase word "Lookup" then lookup stop fuel
        else fail start (.unsupportedFunction word)
      | _ => bareWord word start
    | some .unterminated => fail start .unterminated
    | some token => fail start (.unexpected token)
    | none => fail start .unexpectedEnd

def lookup (stop : Nat) : Nat → Reading Expr
  | 0 => failHere stop .unexpectedEnd
  | fuel + 1 => do
    let key ← joined stop fuel 0
    take stop .comma
    match ← peek with
    | some (.text _) => quotedTail stop key
    | _ => fieldTail stop key (joined stop fuel 0)

end

def skipEquals : Reading Unit := do
  if (← peek) = some .equals then skip

def whole (stop : Nat) : Reading Expr := do
  skipEquals
  let ts ← get
  if ts.isEmpty then failHere stop .empty
  else
    let e ← joined stop (2 * ts.length + 2) 0
    match ← peek with
    | none => return e
    | some t => failHere stop (.trailing t)

/-! ### Readings and readers -/

/-- What a reading returns, with the tokens that are left where it succeeds. -/
def read (m : Reading α) (ts : List PlacedToken) : Except SyntaxError (α × List PlacedToken) :=
  match m.run ts with
  | .ok a rest => .ok (a, rest)
  | .error e _ => .error e

variable {stop : Nat} {ts : List PlacedToken}

@[simp] theorem read_pure (a : α) : read (pure a) ts = pure (a, ts) := rfl

@[simp] theorem read_bind (m : Reading α) (f : α → Reading β) :
    read (m >>= f) ts = read m ts >>= fun p => read (f p.1) p.2 := by
  rw [read, EStateM.run_bind, read]
  cases m.run ts <;> rfl

@[simp] theorem read_here : read (here stop) ts = pure (offsetOf stop ts, ts) := rfl

@[simp] theorem read_peek : read peek ts = pure (ts.head?.map (·.token), ts) := rfl

@[simp] theorem read_skip : read skip ts = pure ((), ts.tail) := rfl

@[simp] theorem read_fail (place : Nat) (fault : SyntaxFault) :
    read (fail place fault : Reading α) ts = .error ⟨fault, place⟩ := rfl

@[simp] theorem read_get : read get ts = pure (ts, ts) := rfl

@[simp] theorem read_failHere (fault : SyntaxFault) :
    read (failHere stop fault : Reading α) ts = Expr.failHere stop ts fault := rfl

@[simp] theorem read_missing (wanted : Wanted) :
    read (missing stop wanted : Reading α) ts = Expr.missing stop ts wanted := rfl

@[simp] theorem read_ite (p : Prop) [Decidable p] (m m' : Reading α) :
    read (if p then m else m') ts = if p then read m ts else read m' ts := by
  split <;> rfl

@[simp] theorem read_take (t : Token) :
    read (take stop t) ts = (fun rest => ((), rest)) <$> Expr.take stop t ts := by
  cases ts with
  | nil => rfl
  | cons p ts => by_cases hp : p.token = t <;> simp [take, Expr.take, hp] <;> rfl

@[simp] theorem read_takeWord (word : String) :
    read (takeWord stop word) ts = (fun rest => ((), rest)) <$> Expr.takeWord stop word ts := by
  cases ts with
  | nil => rfl
  | cons p ts => cases hp : p.token.isName word <;> simp [takeWord, Expr.takeWord, hp] <;> rfl

@[simp] theorem read_name : read (name stop) ts = readName stop ts := by
  rcases ts with _ | ⟨⟨t, offset⟩, ts⟩
  · rfl
  · cases t <;> rfl

@[simp] theorem read_text (role : String) : read (text stop role) ts = readText stop role ts := by
  rcases ts with _ | ⟨⟨t, offset⟩, ts⟩
  · rfl
  · cases t <;> rfl

@[simp] theorem read_member (collection : String) (start : Nat) :
    read (member stop collection start) ts = readMember stop collection start ts := by
  unfold member readMember
  cases memberOf? collection with
  | none => rfl
  | some reference => simp only [read_bind, read_name, read_take, read_takeWord, read_pure, bind_map_left]

@[simp] theorem read_rowNumber : read (rowNumber stop) ts = readRowNumber stop ts := by
  simp only [rowNumber, readRowNumber, read_bind, read_text, read_take, read_pure, bind_map_left]

@[simp] theorem read_quotedTail (key : Expr) : read (quotedTail stop key) ts = readQuotedTail stop key ts := by
  simp only [quotedTail, readQuotedTail, read_bind, read_text, read_take, read_pure, bind_map_left]

theorem read_bareWord (word : String) (start : Nat) : read (bareWord word start) ts =
    match bareWord? word with
    | some e => .ok (e, ts)
    | none => .error ⟨.unknownIdentifier word, start⟩ := by
  unfold bareWord
  cases bareWord? word <;> rfl

@[simp] theorem read_fieldOf (role : String) (start : Nat) (e : Expr) :
    read (fieldOf role start e) ts = (fun name => (name, ts)) <$> Expr.fieldArgument role start e := by
  cases e <;> rfl

@[simp] theorem read_fieldArgument (role : String) (argument : Reading Expr) :
    read (fieldArgument stop role argument) ts = read argument ts >>= fun p =>
      (fun name => (name, p.2)) <$> Expr.fieldArgument role (offsetOf stop ts) p.1 := by
  simp only [fieldArgument, read_bind, read_here, pure_bind, read_fieldOf]

/-- The readings that spend `fuel` return what the readers of token lists do. -/
structure Agrees (stop fuel : Nat) : Prop where
  joined : ∀ min ts, read (joined stop fuel min) ts = readJoined stop fuel min ts
  operators : ∀ min left ts, read (operators stop fuel min left) ts = readOperators stop fuel min left ts
  primary : ∀ ts, read (primary stop fuel) ts = readPrimary stop fuel ts
  lookup : ∀ ts, read (lookup stop fuel) ts = readLookup stop fuel ts

namespace Agrees

variable {fuel : Nat}

theorem joined_succ (ih : Agrees stop fuel) (min : Nat) (ts : List PlacedToken) :
    read (Reading.joined stop (fuel + 1) min) ts = readJoined stop (fuel + 1) min ts := by
  simp only [Reading.joined, readJoined, read_bind, ih.primary, ih.operators]

theorem operators_succ (ih : Agrees stop fuel) (min : Nat) (left : Expr) (ts : List PlacedToken) :
    read (Reading.operators stop (fuel + 1) min left) ts = readOperators stop (fuel + 1) min left ts := by
  rcases ts with _ | ⟨⟨t, offset⟩, ts⟩
  · rfl
  · cases t with
    | operator op =>
      by_cases hop : op.precedence ≤ min
      · change read (if op.precedence ≤ min then pure left else _) _ = _
        rw [if_pos hop, readOperators, if_pos hop]
        rfl
      · change read (if op.precedence ≤ min then _ else do
          skip
          let right ← Reading.joined stop fuel op.precedence
          Reading.operators stop fuel min (.binary op left right)) _ = _
        rw [if_neg hop, readOperators, if_neg hop]
        simp only [read_bind, read_skip, pure_bind, List.tail_cons, ih.joined, ih.operators]
    | _ => rfl

theorem primary_succ (ih : Agrees stop fuel) (ts : List PlacedToken) :
    read (Reading.primary stop (fuel + 1)) ts = readPrimary stop (fuel + 1) ts := by
  rcases ts with _ | ⟨⟨t, start⟩, ts⟩
  · rfl
  cases t with
  | operator op =>
    cases op with
    | subtract =>
      change read (do return Expr.negate (← Reading.primary stop fuel)) ts = _
      simp only [readPrimary, read_bind, ih.primary, read_pure]
    | _ => rfl
  | openParen =>
    change read (do let inner ← Reading.joined stop fuel 0; take stop .closeParen; return inner) ts = _
    simp only [readPrimary, read_bind, ih.joined, read_take, bind_map_left, read_pure]
  | name word =>
    rcases ts with _ | ⟨⟨t, offset⟩, ts⟩
    · exact read_bareWord word start
    · cases t with
      | bang => exact read_member word start
      | openParen =>
        change read (if _ then rowNumber stop else if _ then Reading.lookup stop fuel else fail start _) ts = _
        simp only [readPrimary, read_ite, read_rowNumber, ih.lookup, read_fail]
      | _ => exact read_bareWord word start
  | _ => rfl

theorem lookup_succ (ih : Agrees stop fuel) (ts : List PlacedToken) :
    read (Reading.lookup stop (fuel + 1)) ts = readLookup stop (fuel + 1) ts := by
  simp only [Reading.lookup, readLookup, read_bind, ih.joined, read_take, bind_map_left, read_peek, pure_bind]
  refine bind_congr fun key => bind_congr fun ts => ?_
  rcases ts with _ | ⟨⟨t, offset⟩, ts⟩
  · simp only [List.head?_nil, Option.map_none, fieldTail, read_bind, read_fieldArgument, ih.joined, read_take,
      read_text, read_pure, bind_assoc, bind_map_left]
  · cases t with
    | text s => exact read_quotedTail key.1
    | _ =>
      simp only [List.head?_cons, Option.map_some, fieldTail, read_bind, read_fieldArgument, ih.joined, read_take,
        read_text, read_pure, bind_assoc, bind_map_left]

theorem of_fuel (stop fuel : Nat) : Agrees stop fuel := by
  induction fuel with
  | zero => exact ⟨fun _ _ => rfl, fun _ _ _ => rfl, fun _ => by rw [readPrimary]; rfl, fun _ => rfl⟩
  | succ fuel ih =>
    exact
      { joined := ih.joined_succ
        operators := ih.operators_succ
        primary := ih.primary_succ
        lookup := ih.lookup_succ }

end Agrees

theorem read_skipEquals : read skipEquals ts = pure ((), dropEquals ts) := by
  rcases ts with _ | ⟨⟨t, offset⟩, ts⟩
  · rfl
  · cases t <;> rfl

theorem read_whole : read (whole stop) ts = (ofTokens stop (dropEquals ts)).map fun e => (e, []) := by
  simp only [whole, ofTokens, read_bind, read_skipEquals, read_get, pure_bind, read_ite, read_failHere, read_peek,
    (Agrees.of_fuel stop _).joined]
  split
  · rfl
  · cases readJoined stop (2 * (dropEquals ts).length + 2) 0 (dropEquals ts) with
    | error e => rfl
    | ok p => rcases p with ⟨e, _ | ⟨t, rest⟩⟩ <;> rfl

theorem exists_unread {m : Reading α} {e : SyntaxError} (h : read m ts = .error e) :
    ∃ unread, m.run ts = .error e unread := by
  unfold read at h
  split at h
  · contradiction
  · rename_i unread hrun
    cases h
    exact ⟨unread, hrun⟩

end Reading
end TabularReport.Expr
