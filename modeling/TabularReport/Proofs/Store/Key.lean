import TabularReport.Proofs.Calendar.Text
import TabularReport.Proofs.Number.Text
import TabularReport.Proofs.Store.Search

set_option autoImplicit false

namespace TabularReport

/-- Whether the scalars are of one kind and equal, numbers as numbers and moments up to their second. -/
def Scalar.Alike : Scalar → Scalar → Prop
  | .text s, .text t => s = t
  | .number x, .number y => x.same y = true
  | .boolean b, .boolean c => b = c
  | .date t, .date u => t.SameSecond u
  | _, _ => False

theorem Scalar.display_eq_iff {a b : Scalar} (ha : a.isNull = false) (hnan : a ≠ .number .nan)
    (hkind : a.kind = b.kind) : a.display = b.display ↔ a.Alike b := by
  cases a <;> cases b <;> try contradiction
  case text.text => rfl
  case number.number x y =>
    have hx : x.isNan = false := by
      cases x
      case nan => contradiction
      all_goals rfl
    exact Double.numberText_eq_iff hx
  case boolean.boolean b c => cases b <;> cases c <;> simp [display, Alike]
  case date.date => exact DateTime.text_eq_iff

theorem Scalar.key?_eq_some_display {a : Scalar} (ha : a.isNull = false) : a.key? = some a.display :=
  key?_eq_some.2 ⟨ha, rfl⟩

namespace KeyIndex

/-- Keys separate the values of one kind.  A value that is not Null, nor NaN, has the key of another of its
kind if and only if both are equal, moments up to their second.  So what an index finds for it is a row
with such a value, if the value of the row is of this kind at all. -/
theorem alike_of_key? {a : Scalar} (ha : a.isNull = false) (hnan : a ≠ .number .nan) :
    (∀ b, a.kind = b.kind → (a.key? = b.key? ↔ a.Alike b)) ∧
      ∀ keyField rows i, (ofRows keyField rows).position? a = some i →
        ∃ row v, rows[i]? = some row ∧ row.get? keyField = some v ∧ (a.kind = v.kind → a.Alike v) := by
  constructor
  · intro b hkind
    have hb : b.isNull = false := by
      cases a <;> cases b <;> first | contradiction | rfl
    rw [Scalar.key?_eq_some_display ha, Scalar.key?_eq_some_display hb, Option.some.injEq,
      Scalar.display_eq_iff ha hnan hkind]
  · intro keyField rows i hposition
    rw [position?_ofRows, ha, if_neg Bool.false_ne_true, List.findIdx?_eq_some_iff_getElem] at hposition
    obtain ⟨hi, hkey, _⟩ := hposition
    obtain ⟨v, hv, hvalue⟩ := (Option.any_eq_true _ _).1 hkey
    rw [Bool.and_eq_true, beq_iff_eq] at hvalue
    exact ⟨rows[i], v, List.getElem?_eq_getElem hi, hv,
      fun hkind => (Scalar.display_eq_iff ha hnan hkind).1 hvalue.2.symm⟩

def keyedRow (v : Scalar) : DataRow where
  ordinal := 1
  fields := .ofList [("Key", v)]

theorem alike_of_zeros :
    (Scalar.number (.finite true .zero)).isNull = false ∧ Scalar.number (.finite true .zero) ≠ .number .nan ∧
      (Scalar.number (.finite true .zero)).key? = (Scalar.number (.finite false .zero)).key? ∧
      (ofRows "Key" [keyedRow (.number (.finite false .zero))]).position? (.number (.finite true .zero)) = some 0 ∧
      ∃ row v, [keyedRow (.number (.finite false .zero))][0]? = some row ∧ row.get? "Key" = some v ∧
        (.number = v.kind → (Scalar.number (.finite true .zero)).Alike v) := by
  obtain ⟨hkeys, hrows⟩ := alike_of_key? (a := .number (.finite true .zero)) rfl (by decide)
  have hkey := (hkeys (.number (.finite false .zero)) rfl).2 (by decide : Double.same _ _ = true)
  have hposition : (ofRows "Key" [keyedRow (.number (.finite false .zero))]).position?
      (.number (.finite true .zero)) = some 0 := by decide +kernel
  exact ⟨rfl, by decide, hkey, hposition, hrows _ _ _ hposition⟩

def tenOClock (nano : Nat) (h : nano < nanosPerSecond) : DateTime where
  day := 0
  second := 36000
  nano := nano
  day_ge := by decide
  day_le := by decide
  second_lt := by decide
  nano_lt := Nat.lt_trans h (by decide)
  leap_last := fun hlong => absurd hlong (Nat.not_le_of_lt h)

/-- Two moments of one second are different, but they have one key, and the key of one finds the row of the
other. -/
theorem confused_of_fractions :
    ∃ t u : DateTime, t ≠ u ∧ (Scalar.date t).key? = (Scalar.date u).key? ∧
      (ofRows "Key" [keyedRow (.date t)]).position? (.date u) = some 0 := by
  refine ⟨tenOClock 500000000 (by decide), tenOClock 250000000 (by decide), by decide, ?_, ?_⟩ <;> decide +kernel

end KeyIndex
end TabularReport
