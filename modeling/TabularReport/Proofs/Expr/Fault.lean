import TabularReport.Proofs.Expr.Reading
import TabularReport.Proofs.Expr.Tiling

set_option autoImplicit false

namespace TabularReport

theorem exists_tiles (s : String) : ∃ spans, Tiles s spans := by
  obtain ⟨spans, hreads, -⟩ := Lexer.exists_reads 0 s.toList
  exact ⟨spans, hreads.tiles⟩

theorem increasing_tokens (s : String) : (tokens s).Pairwise fun t u => t.offset < u.offset := by
  obtain ⟨spans, h⟩ := exists_tiles s
  rw [← h.read, List.pairwise_map]
  exact h.increasing

theorem isValid_of_mem_tokens {s : String} {t : PlacedToken} (ht : t ∈ tokens s) :
    String.Pos.Raw.IsValid s ⟨t.offset⟩ := by
  obtain ⟨spans, h⟩ := exists_tiles s
  rw [← h.read] at ht
  obtain ⟨a, ha, rfl⟩ := List.mem_map.1 ht
  exact (h.boundary a ha).1

namespace Expr

/-- Whether `place` is that of the first of the tokens `left`, or of one in front of them. -/
def Passed (stop : Nat) (all left : List PlacedToken) (place : Nat) : Prop :=
  ∃ used, all = used ++ left ∧ (place = offsetOf stop left ∨ ∃ t ∈ used, t.offset = place)

namespace Passed

variable {stop place : Nat} {all left rest : List PlacedToken}

theorem here (h : left <:+ all) : Passed stop all left (offsetOf stop left) := by
  obtain ⟨used, rfl⟩ := h
  exact ⟨used, rfl, .inl rfl⟩

theorem later (h : Passed stop all left place) (hrest : rest <:+ left) : Passed stop all rest place := by
  obtain ⟨used, rfl, hplace⟩ := h
  obtain ⟨more, rfl⟩ := hrest
  refine ⟨used ++ more, by simp, ?_⟩
  rcases hplace with rfl | ⟨t, ht, hplace⟩
  · cases more with
    | nil => exact .inl rfl
    | cons t more => exact .inr ⟨t, by simp, rfl⟩
  · exact .inr ⟨t, by simp [ht], hplace⟩

theorem eq_or_mem (h : Passed stop all left place) : place = stop ∨ ∃ t ∈ all, t.offset = place := by
  obtain ⟨used, rfl, hplace | ⟨t, ht, hplace⟩⟩ := h
  · cases left with
    | nil => exact .inl hplace
    | cons t left => exact .inr ⟨t, by simp, hplace.symm⟩
  · exact .inr ⟨t, by simp [ht], hplace⟩

theorem le (h : Passed stop all left place) (hall : all.Pairwise fun t u => t.offset < u.offset)
    (hstop : ∀ t ∈ all, t.offset ≤ stop) : place ≤ offsetOf stop left := by
  obtain ⟨used, rfl, rfl | ⟨t, ht, rfl⟩⟩ := h
  · exact Nat.le_refl _
  · cases left with
    | nil => exact hstop t (by simp [ht])
    | cons u left => exact Nat.le_of_lt ((List.pairwise_append.1 hall).2.2 t ht u List.mem_cons_self)

end Passed

namespace Reading

variable {α β : Type} {stop : Nat} {all : List PlacedToken} {marks : List Nat}

/-- Whether a reading of tokens at the end of `all` leaves some of them, and fails only at a place that it
has come to or that was marked before. -/
def Points (stop : Nat) (all : List PlacedToken) (marks : List Nat) (m : Reading α) : Prop :=
  ∀ ts, ts <:+ all → (∀ place ∈ marks, Passed stop all ts place) →
    match m.run ts with
    | .ok _ rest => rest <:+ ts
    | .error e rest => rest <:+ ts ∧ Passed stop all rest e.offset

namespace Points

theorem pure (a : α) : Points stop all marks (Pure.pure a) :=
  fun ts _ _ => List.suffix_refl ts

theorem bind {m : Reading α} {f : α → Reading β} (hm : Points stop all marks m)
    (hf : ∀ a, Points stop all marks (f a)) : Points stop all marks (m >>= f) := by
  intro ts hts hmarks
  have hm := hm ts hts hmarks
  rw [EStateM.run_bind]
  cases hrun : m.run ts with
  | error e rest =>
    rw [hrun] at hm
    exact hm
  | ok a rest =>
    rw [hrun] at hm
    have hf := hf a rest (hm.trans hts) fun place hplace => (hmarks place hplace).later hm
    change match (f a).run rest with
      | .ok _ last => last <:+ ts
      | .error e last => last <:+ ts ∧ Passed stop all last e.offset
    cases hrun' : (f a).run rest with
    | ok b last =>
      rw [hrun'] at hf
      exact hf.trans hm
    | error e last =>
      rw [hrun'] at hf
      exact ⟨hf.1.trans hm, hf.2⟩

theorem here_bind {f : Nat → Reading β} (hf : ∀ place, Points stop all (place :: marks) (f place)) :
    Points stop all marks (here stop >>= f) := by
  intro ts hts hmarks
  refine hf (offsetOf stop ts) ts hts ?_
  exact List.forall_mem_cons.2 ⟨Passed.here hts, hmarks⟩

theorem peek : Points stop all marks peek :=
  fun ts _ _ => List.suffix_refl ts

theorem skip : Points stop all marks skip :=
  fun ts _ _ => List.tail_suffix ts

theorem fail {place : Nat} (hplace : place ∈ marks) (fault : SyntaxFault) :
    Points stop all marks (fail place fault : Reading α) :=
  fun ts _ hmarks => ⟨List.suffix_refl ts, hmarks place hplace⟩

theorem failHere (fault : SyntaxFault) : Points stop all marks (failHere stop fault : Reading α) :=
  here_bind fun _ => fail List.mem_cons_self fault

theorem missing (wanted : Wanted) : Points stop all marks (missing stop wanted : Reading α) :=
  peek.bind fun _ => failHere _

theorem ite {p : Prop} [Decidable p] {m m' : Reading α} (hm : Points stop all marks m)
    (hm' : Points stop all marks m') : Points stop all marks (if p then m else m') := by
  split
  · exact hm
  · exact hm'

theorem take (t : Token) : Points stop all marks (take stop t) :=
  peek.bind fun _ => skip.ite (missing _)

theorem takeWord (word : String) : Points stop all marks (takeWord stop word) :=
  peek.bind fun _ => skip.ite (missing _)

theorem name : Points stop all marks (name stop) := by
  refine peek.bind fun t => ?_
  split
  · exact skip.bind fun _ => pure _
  · exact missing _

theorem text (role : String) : Points stop all marks (text stop role) := by
  refine peek.bind fun t => ?_
  split
  · exact skip.bind fun _ => pure _
  · exact missing _

theorem member (collection : String) {start : Nat} (hstart : start ∈ marks) :
    Points stop all marks (member stop collection start) := by
  unfold Reading.member
  cases memberOf? collection with
  | none => exact fail hstart _
  | some reference => exact name.bind fun _ => (take _).bind fun _ => (takeWord _).bind fun _ => pure _

theorem rowNumber : Points stop all marks (rowNumber stop) :=
  (text _).bind fun _ => (take _).bind fun _ => pure _

theorem quotedTail (key : Expr) : Points stop all marks (quotedTail stop key) :=
  (text _).bind fun _ => (take _).bind fun _ => (text _).bind fun _ => (take _).bind fun _ =>
    (text _).bind fun _ => (take _).bind fun _ => pure _

theorem bareWord (word : String) {start : Nat} (hstart : start ∈ marks) :
    Points stop all marks (bareWord word start) := by
  unfold Reading.bareWord
  cases bareWord? word with
  | none => exact fail hstart _
  | some e => exact pure e

theorem fieldOf (role : String) {start : Nat} (hstart : start ∈ marks) (e : Expr) :
    Points stop all marks (fieldOf role start e) := by
  cases e with
  | field dataset name => exact pure _
  | _ => exact fail hstart _

theorem fieldArgument (role : String) {argument : Reading Expr} (h : ∀ marks, Points stop all marks argument) :
    Points stop all marks (fieldArgument stop role argument) :=
  here_bind fun _ => (h _).bind fun e => fieldOf role List.mem_cons_self e

theorem fieldTail (key : Expr) {argument : Reading Expr} (h : ∀ marks, Points stop all marks argument) :
    Points stop all marks (fieldTail stop key argument) :=
  (fieldArgument _ h).bind fun _ => (take _).bind fun _ => (fieldArgument _ h).bind fun _ => (take _).bind fun _ =>
    (text _).bind fun _ => (take _).bind fun _ => pure _

end Points

/-- The readings that spend `fuel` fail where they have come to, whatever was marked before. -/
structure Pointing (stop : Nat) (all : List PlacedToken) (fuel : Nat) : Prop where
  joined : ∀ marks min, Points stop all marks (joined stop fuel min)
  operators : ∀ marks min left, Points stop all marks (operators stop fuel min left)
  primary : ∀ marks, Points stop all marks (primary stop fuel)
  lookup : ∀ marks, Points stop all marks (lookup stop fuel)

namespace Pointing

variable {fuel : Nat}

theorem zero : Pointing stop all 0 :=
  ⟨fun _ _ => .failHere _, fun _ _ _ => .failHere _, fun _ => .failHere _, fun _ => .failHere _⟩

theorem operators_succ (ih : Pointing stop all fuel) (marks : List Nat) (min : Nat) (left : Expr) :
    Points stop all marks (Reading.operators stop (fuel + 1) min left) := by
  refine Points.peek.bind fun t => ?_
  split
  · exact (Points.pure _).ite (Points.skip.bind fun _ => (ih.joined _ _).bind fun _ => ih.operators _ _ _)
  · exact .pure _

theorem primary_succ (ih : Pointing stop all fuel) (marks : List Nat) :
    Points stop all marks (Reading.primary stop (fuel + 1)) := by
  refine Points.here_bind fun start => Points.peek.bind fun t => Points.skip.bind fun _ => ?_
  have hstart : start ∈ start :: marks := List.mem_cons_self
  split
  · exact (ih.primary _).bind fun _ => .pure _
  · exact .pure _
  · exact .pure _
  · exact (ih.joined _ _).bind fun _ => (Points.take _).bind fun _ => .pure _
  · rename_i word
    refine Points.peek.bind fun t => ?_
    split
    · exact Points.skip.bind fun _ => .member word hstart
    · exact Points.skip.bind fun _ => Points.rowNumber.ite ((ih.lookup _).ite (.fail hstart _))
    · exact .bareWord word hstart
  · exact .fail hstart _
  · exact .fail hstart _
  · exact .fail hstart _

theorem lookup_succ (ih : Pointing stop all fuel) (marks : List Nat) :
    Points stop all marks (Reading.lookup stop (fuel + 1)) := by
  refine (ih.joined _ _).bind fun key => (Points.take _).bind fun _ => Points.peek.bind fun t => ?_
  split
  · exact .quotedTail key
  · exact .fieldTail key fun _ => ih.joined _ _

theorem of_fuel (stop : Nat) (all : List PlacedToken) (fuel : Nat) : Pointing stop all fuel := by
  induction fuel with
  | zero => exact zero
  | succ fuel ih =>
    exact
      { joined := fun _ _ => (ih.primary _).bind fun _ => ih.operators _ _ _
        operators := ih.operators_succ
        primary := ih.primary_succ
        lookup := ih.lookup_succ }

end Pointing

theorem points_skipEquals : Points stop all marks skipEquals :=
  Points.peek.bind fun _ => Points.skip.ite (.pure _)

theorem points_get : Points stop all marks get :=
  fun ts _ _ => List.suffix_refl ts

theorem points_whole : Points stop all marks (whole stop) := by
  refine points_skipEquals.bind fun _ => points_get.bind fun ts => (Points.failHere _).ite ?_
  refine ((Pointing.of_fuel _ _ _).joined _ _).bind fun e => Points.peek.bind fun t => ?_
  split
  · exact .pure e
  · exact .failHere _

end Reading

/-! ### Errors in a text -/

structure Located (s : String) (e : SyntaxError) : Prop where
  token : (∃ t ∈ tokens s, t.offset = e.offset) ∨ e.offset = s.utf8ByteSize
  boundary : String.Pos.Raw.IsValid s ⟨e.offset⟩
  inside : e.offset ≤ s.utf8ByteSize
  reached : ∃ unread, (Reading.whole s.utf8ByteSize).run (tokens s) = .error e unread ∧ unread <:+ tokens s ∧
    e.offset ≤ offsetOf s.utf8ByteSize unread

theorem Located.of_passed {s : String} {e : SyntaxError} {unread : List PlacedToken}
    (hrun : (Reading.whole s.utf8ByteSize).run (tokens s) = .error e unread) (hunread : unread <:+ tokens s)
    (h : Passed s.utf8ByteSize (tokens s) unread e.offset) : Located s e := by
  have hboundary : String.Pos.Raw.IsValid s ⟨e.offset⟩ := by
    obtain hstop | ⟨t, ht, hoffset⟩ := h.eq_or_mem
    · rw [hstop]
      exact String.Pos.Raw.isValid_rawEndPos
    · rw [← hoffset]
      exact isValid_of_mem_tokens ht
  refine ⟨h.eq_or_mem.symm, hboundary, hboundary.le_rawEndPos, unread, hrun, hunread, ?_⟩
  exact h.le (increasing_tokens s) fun t ht => (isValid_of_mem_tokens ht).le_rawEndPos

theorem parse_of_ofReportText {s : String} {e : SyntaxError} (h : ofReportText s = .error e) : parse s = .error e := by
  unfold ofReportText at h
  split at h
  · exact h
  · contradiction

/-- A text is read as its tokens are consumed one by one, and each error stands at one of them or at the end of
the text, never behind the first that is not consumed. -/
theorem located_of_error :
    (∀ s, Reading.read (Reading.whole s.utf8ByteSize) (tokens s) = (parse s).map fun e => (e, [])) ∧
    ∀ s e, parse s = .error e ∨ ofReportText s = .error e → Located s e := by
  refine ⟨fun s => Reading.read_whole, fun s e h => ?_⟩
  have hparse : parse s = .error e := h.elim id parse_of_ofReportText
  have hread : Reading.read (Reading.whole s.utf8ByteSize) (tokens s) = .error e := by
    rw [Reading.read_whole, ← parse, hparse]
    rfl
  obtain ⟨unread, hrun⟩ := Reading.exists_unread hread
  have hpoints : Reading.Points s.utf8ByteSize (tokens s) [] (Reading.whole s.utf8ByteSize) := Reading.points_whole
  have hfailed := hpoints (tokens s) (List.suffix_refl _) (by simp)
  rw [hrun] at hfailed
  exact .of_passed hrun hfailed.1 hfailed.2

/-- A lookup in what is no field: the error stands at the minus sign, though all that is in front of the second
comma is consumed. -/
theorem located_of_negatedField :
    parse "=Lookup(\"é\", -\"é\" & (True), Fields!A.Value, \"D\")" =
        .error ⟨.notAField "destination"
          (.binary .concat (.negate (.literal (.text "é"))) (.literal (.boolean true))), 14⟩ ∧
      Located "=Lookup(\"é\", -\"é\" & (True), Fields!A.Value, \"D\")" ⟨.notAField "destination"
          (.binary .concat (.negate (.literal (.text "é"))) (.literal (.boolean true))), 14⟩ := by
  have htokens : tokens "=Lookup(\"é\", -\"é\" & (True), Fields!A.Value, \"D\")" =
      [⟨.equals, 0⟩, ⟨.name "Lookup", 1⟩, ⟨.openParen, 7⟩, ⟨.text "é", 8⟩, ⟨.comma, 12⟩,
        ⟨.operator .subtract, 14⟩, ⟨.text "é", 15⟩, ⟨.operator .concat, 20⟩, ⟨.openParen, 22⟩, ⟨.name "True", 23⟩,
        ⟨.closeParen, 27⟩, ⟨.comma, 28⟩, ⟨.name "Fields", 30⟩, ⟨.bang, 36⟩, ⟨.name "A", 37⟩, ⟨.dot, 38⟩,
        ⟨.name "Value", 39⟩, ⟨.comma, 44⟩, ⟨.text "D", 46⟩, ⟨.closeParen, 49⟩] := by decide +kernel
  have hparse : parse "=Lookup(\"é\", -\"é\" & (True), Fields!A.Value, \"D\")" =
        .error ⟨.notAField "destination"
          (.binary .concat (.negate (.literal (.text "é"))) (.literal (.boolean true))), 14⟩ := by
    rw [parse, htokens]
    rfl
  exact ⟨hparse, located_of_error.2 _ _ (.inl hparse)⟩

end Expr
end TabularReport
