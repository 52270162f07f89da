import Mathlib.Data.List.Induction
import TabularReport.Proofs.OrderedMap
import TabularReport.Proofs.Store
/-!
Searching kept rows.  An index of rows answers as if the rows were read one after the other.  A store
answers from the rows that were there when the index was made, at the places they have among the rows that
are there now; so after new rows came for a dataset its old indices may miss rows and give wrong ones.
-/
set_option autoImplicit false

namespace TabularReport

theorem Scalar.key?_eq_some {v : Scalar} {text : String} :
    v.key? = some text ↔ v.isNull = false ∧ v.display = text := by
  cases v <;> simp [key?, isNull]

namespace DataRow

def hasKey (keyField : String) (key : Scalar) (row : DataRow) : Bool :=
  (row.get? keyField).any fun v => !v.isNull && v.display == key.display

/-- The first row with the key, found by reading one row after the other.  Null is no key. -/
def scan? (keyField : String) (key : Scalar) (rows : List DataRow) : Option DataRow :=
  if key.isNull then none else rows.find? (hasKey keyField key)

theorem hasKey_eq (keyField : String) (key : Scalar) :
    hasKey keyField key = fun row => decide (KeyIndex.keyOf? keyField row = some key.display) := by
  funext row
  cases h : row.get? keyField with
  | none => simp [hasKey, KeyIndex.keyOf?, h]
  | some v => simp [hasKey, KeyIndex.keyOf?, h, Scalar.key?_eq_some, Bool.decide_and, Bool.beq_eq_decide_eq]

end DataRow

namespace KeyIndex

/-- What is in an index already comes first; a new key gets the place of the first row that has it. -/
theorem get?_addRows (keyField : String) (index : KeyIndex) (start : Nat) (rows : List DataRow) (text : String) :
    OrderedMap.get? (addRows keyField index start rows) text =
      (OrderedMap.get? index text).or
        ((rows.findIdx? fun row => keyOf? keyField row = some text).map (start + ·)) := by
  induction rows generalizing index start with
  | nil => simp [addRows]
  | cons row rows ih =>
    have hlater : ∀ o : Option Nat, (o.map (· + 1)).map (start + ·) = o.map (start + 1 + ·) := by
      intro o
      simp [Function.comp_def, Nat.add_assoc, Nat.add_comm 1]
    rw [addRows, ih, List.findIdx?_cons]
    cases hkey : keyOf? keyField row with
    | none => simp [hlater]
    | some key =>
      simp only [OrderedMap.get?_insertNew, Option.or_assoc, Option.some.injEq]
      by_cases h : text = key
      · simp [h]
      · simp [h, Ne.symm h, hlater]

theorem position?_ofRows (keyField : String) (rows : List DataRow) (key : Scalar) :
    (ofRows keyField rows).position? key =
      if key.isNull then none else rows.findIdx? (DataRow.hasKey keyField key) := by
  have hget := get?_addRows keyField .empty 0 rows
  cases key with
  | null => rfl
  | _ => simp [position?, Scalar.key?, Scalar.isNull, ofRows, hget, DataRow.hasKey_eq]

theorem bind_position?_ofRows (keyField : String) (rows : List DataRow) (key : Scalar) :
    ((ofRows keyField rows).position? key).bind (rows[·]?) = DataRow.scan? keyField key rows := by
  rw [position?_ofRows, DataRow.scan?]
  split
  · rfl
  · rw [List.find?_eq_bind_findIdx?_getElem?]

end KeyIndex

namespace Store

theorem UpToDate.find?_eq_scan? {s : Store} {dataset keyField : String} {rows : List DataRow} (h : s.UpToDate)
    (hi : s.isIndexed dataset keyField = true) (hr : s.rows? dataset = some rows) (key : Scalar) :
    s.find? dataset keyField key = some (DataRow.scan? keyField key rows) := by
  obtain ⟨rows', hrows, hindex⟩ := h.exists_of_isIndexed hi
  rw [hr, Option.some.injEq] at hrows
  subst hrows
  rw [find?_eq_some hindex hr, KeyIndex.bind_position?_ofRows]

inductive Change where
  | rows (dataset : String) (rows : List DataRow)
  | evaluated (dataset : String) (rows : List DataRow)
  | index (dataset keyField : String)
  deriving DecidableEq

/-- The store after a change.  Without fetched rows no index is made. -/
def change (s : Store) : Change → Store
  | .rows dataset rows => s.putRows dataset rows
  | .evaluated dataset rows => s.putEvaluated dataset rows
  | .index dataset keyField => (s.withIndex? dataset keyField).getD s

def after (changes : List Change) : Store :=
  changes.foldl change {}

variable {dataset keyField : String}

theorem index?_change_of_ne {s : Store} {c : Change} (h : c ≠ .index dataset keyField) :
    (s.change c).index? dataset keyField = s.index? dataset keyField := by
  cases c with
  | rows other rows => rfl
  | evaluated other rows => rfl
  | index other otherField =>
    have hne : (dataset, keyField) ≠ (other, otherField) := by
      rintro ⟨⟩
      exact h rfl
    cases hs : s.withIndex? other otherField with
    | none => simp [change, hs]
    | some t =>
      obtain ⟨rows, _, rfl⟩ := withIndex?_eq_some.1 hs
      rw [change, hs, Option.getD_some, index?_withIndex, if_neg hne]

theorem rows?_change_of_ne {s : Store} {c : Change} (h : ∀ rows, c ≠ .rows dataset rows) :
    (s.change c).rows? dataset = s.rows? dataset := by
  cases c with
  | rows other rows =>
    have hne : dataset ≠ other := by
      rintro rfl
      exact h rows rfl
    simp [change, hne]
  | evaluated other rows => rfl
  | index other otherField =>
    cases hs : s.withIndex? other otherField with
    | none => simp [change, hs]
    | some t =>
      obtain ⟨rows, _, rfl⟩ := withIndex?_eq_some.1 hs
      rw [change, hs]
      rfl

theorem index?_foldl_of_not_mem {s : Store} {changes : List Change} (h : .index dataset keyField ∉ changes) :
    (changes.foldl change s).index? dataset keyField = s.index? dataset keyField := by
  induction changes generalizing s with
  | nil => rfl
  | cons c changes ih =>
    rw [List.mem_cons, not_or] at h
    rw [List.foldl_cons, ih h.2, index?_change_of_ne (Ne.symm h.1)]

theorem rows?_foldl_of_not_mem {s : Store} {changes : List Change} (h : ∀ rows, .rows dataset rows ∉ changes) :
    (changes.foldl change s).rows? dataset = s.rows? dataset := by
  induction changes generalizing s with
  | nil => rfl
  | cons c changes ih =>
    have hc : ∀ rows, c ≠ .rows dataset rows := by
      rintro rows rfl
      exact h rows List.mem_cons_self
    have hrest : ∀ rows, .rows dataset rows ∉ changes := fun rows hm => h rows (List.mem_cons_of_mem c hm)
    rw [List.foldl_cons, ih hrest, rows?_change_of_ne hc]

def Backed (s : Store) : Prop :=
  ∀ dataset keyField, (s.index? dataset keyField).isSome → (s.rows? dataset).isSome

theorem Backed.change {s : Store} (h : s.Backed) (c : Change) : (s.change c).Backed := by
  intro dataset keyField hi
  cases c with
  | rows other rows =>
    have hrows := h dataset keyField hi
    simp only [Store.change, rows?_putRows]
    split
    · rfl
    · exact hrows
  | evaluated other rows => exact h dataset keyField hi
  | index other otherField =>
    have hsame : (s.change (.index other otherField)).rows? dataset = s.rows? dataset :=
      rows?_change_of_ne (by simp)
    rw [hsame]
    cases hs : s.withIndex? other otherField with
    | none =>
      rw [Store.change, hs] at hi
      exact h dataset keyField hi
    | some t =>
      obtain ⟨rows, hrows, rfl⟩ := withIndex?_eq_some.1 hs
      rw [Store.change, hs, Option.getD_some, index?_withIndex] at hi
      split at hi
      · rename_i heq
        cases heq
        simp [hrows]
      · exact h dataset keyField hi

theorem backed_after (changes : List Change) : (after changes).Backed := by
  induction changes using List.reverseRecOn with
  | nil => simp [Backed, after]
  | append_singleton changes c ih =>
    rw [after, List.foldl_append]
    exact ih.change c

theorem exists_last_of_mem {α : Type} {a : α} {as : List α} (h : a ∈ as) :
    ∃ earlier later, as = earlier ++ a :: later ∧ a ∉ later := by
  obtain ⟨later, earlier, hsplit, hlast⟩ := List.eq_append_cons_of_mem (List.mem_reverse.2 h)
  refine ⟨earlier.reverse, later.reverse, ?_, by simpa using hlast⟩
  simpa using congrArg List.reverse hsplit

/-- An index is that of the rows that were there when it was made last. -/
theorem index?_after_split {earlier later : List Change} (h : .index dataset keyField ∉ later) :
    (after (earlier ++ .index dataset keyField :: later)).index? dataset keyField =
      ((after earlier).rows? dataset).map (.ofRows keyField) := by
  rw [after, List.foldl_append, List.foldl_cons, index?_foldl_of_not_mem h, change, ← after]
  cases hrows : (after earlier).rows? dataset with
  | none =>
    have hnone : (after earlier).index? dataset keyField = none := by
      have hbacked := backed_after earlier dataset keyField
      simpa [hrows] using hbacked
    simp [withIndex?, hrows, hnone]
  | some rows => simp [withIndex?, hrows, index?_withIndex]

theorem rows?_after_split {earlier later : List Change} (h : ∀ rows, .rows dataset rows ∉ later) :
    (after (earlier ++ .index dataset keyField :: later)).rows? dataset = (after earlier).rows? dataset := by
  rw [after, List.foldl_append, List.foldl_cons, rows?_foldl_of_not_mem h]
  exact rows?_change_of_ne (by simp)

theorem find?_eq_some_iff {s : Store} {key : Scalar} {answer : Option DataRow} :
    s.find? dataset keyField key = some answer ↔ ∃ index rows, s.index? dataset keyField = some index ∧
      s.rows? dataset = some rows ∧ answer = (index.position? key).bind (rows[·]?) := by
  cases hindex : s.index? dataset keyField <;> cases hrows : s.rows? dataset <;>
    simp [find?, hindex, hrows, eq_comm]

theorem index?_after_of_not_mem {changes : List Change} (h : .index dataset keyField ∉ changes) :
    (after changes).index? dataset keyField = none := by
  rw [after, index?_foldl_of_not_mem h, index?_empty]

/-- A store answers a lookup if its index was made when there were rows.  The answer is the row that now
stands where the first row with the key stood when the index was made last.  If no rows came for the
dataset since then, this is the first row with the key among those that are there now. -/
theorem answer_of_changes (changes : List Change) (dataset keyField : String) (key : Scalar)
    (answer : Option DataRow) :
    (after changes).find? dataset keyField key = some answer ↔
      ∃ earlier later indexed current,
        changes = earlier ++ .index dataset keyField :: later ∧ .index dataset keyField ∉ later ∧
        (after earlier).rows? dataset = some indexed ∧ (after changes).rows? dataset = some current ∧
        answer = (if key.isNull then none else indexed.findIdx? (DataRow.hasKey keyField key)).bind (current[·]?) ∧
        ((∀ rows, .rows dataset rows ∉ later) → answer = DataRow.scan? keyField key current) := by
  rw [find?_eq_some_iff]
  constructor
  · rintro ⟨index, current, hindex, hcurrent, rfl⟩
    have hmem : Change.index dataset keyField ∈ changes := by
      by_contra hnot
      rw [index?_after_of_not_mem hnot] at hindex
      contradiction
    obtain ⟨earlier, later, rfl, hlast⟩ := exists_last_of_mem hmem
    rw [index?_after_split hlast, Option.map_eq_some_iff] at hindex
    obtain ⟨indexed, hindexed, rfl⟩ := hindex
    refine ⟨earlier, later, indexed, current, rfl, hlast, hindexed, hcurrent, ?_, ?_⟩
    · rw [KeyIndex.position?_ofRows]
    · intro hkept
      rw [rows?_after_split hkept, hindexed, Option.some.injEq] at hcurrent
      rw [hcurrent, KeyIndex.bind_position?_ofRows]
  · rintro ⟨earlier, later, indexed, current, rfl, hlast, hindexed, hcurrent, rfl, _⟩
    refine ⟨.ofRows keyField indexed, current, ?_, hcurrent, ?_⟩
    · rw [index?_after_split hlast, hindexed, Option.map_some]
    · rw [KeyIndex.position?_ofRows]

def alike : List DataRow :=
  DataRow.numbered [.ofList [("K", .null)], .ofList [("K", .text "42")], .ofList [("K", .number (.ofNat 42))]]

/-- The rows are indexed once; what comes after concerns other rows. -/
def indexedOnce : List Change :=
  [.rows "D" alike, .index "D" "K", .rows "E" [], .evaluated "D" []]

theorem answer_of_indexedOnce :
    (after indexedOnce).find? "D" "K" (.number (.ofNat 42)) =
      some (some { ordinal := 2, fields := .ofList [("K", .text "42")] }) := by
  refine (answer_of_changes indexedOnce "D" "K" _ _).2
    ⟨[.rows "D" alike], [.rows "E" [], .evaluated "D" []], alike, alike, rfl, ?_, ?_, ?_, ?_, fun _ => ?_⟩
  all_goals decide +kernel

def replaced : List Change :=
  [.rows "D" (DataRow.numbered [.ofList [("K", .text "a")]]), .index "D" "K",
    .rows "D" (DataRow.numbered [.ofList [("K", .text "b")]])]

theorem stale_of_replaced :
    ¬ ∀ changes dataset keyField key answer rows, (after changes).find? dataset keyField key = some answer →
      (after changes).rows? dataset = some rows → answer = DataRow.scan? keyField key rows := by
  intro h
  have hfound : (after replaced).find? "D" "K" (.text "a") =
      some (some { ordinal := 1, fields := .ofList [("K", .text "b")] }) := by decide +kernel
  have hrows : (after replaced).rows? "D" = some (DataRow.numbered [.ofList [("K", .text "b")]]) := by
    decide +kernel
  have hscan : DataRow.scan? "K" (.text "a") (DataRow.numbered [.ofList [("K", .text "b")]]) = none := by
    decide +kernel
  have hanswer := h _ _ _ _ _ _ hfound hrows
  rw [hscan] at hanswer
  contradiction

end Store
end TabularReport
