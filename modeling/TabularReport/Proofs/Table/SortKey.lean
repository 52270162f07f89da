import TabularReport.Proofs.Number.Order
import TabularReport.Table.Basic

set_option autoImplicit false

namespace TabularReport

theorem isLE_or_isLE {α : Type} {cmp : α → α → Ordering} [Std.OrientedCmp cmp] (a b : α) :
    (cmp a b).isLE = true ∨ (cmp b a).isLE = true := by
  by_cases h : (cmp a b).isLE = true
  · exact .inl h
  · exact .inr (Ordering.isLE_of_eq_lt (Std.OrientedCmp.lt_of_not_isLE h))

namespace DateTime

instance : Std.TransCmp compareTo :=
  inferInstanceAs (Std.TransCmp (compareLex (compareLex (compareOn day) (compareOn second)) (compareOn nano)))

instance : Std.LawfulEqCmp compareTo where
  compare_self :=
    @Std.ReflCmp.compare_self _ (compareLex (compareLex (compareOn day) (compareOn second)) (compareOn nano)) _
  eq_of_compare {t s} h := by
    simp only [compareTo, Ordering.then_eq_eq, Std.LawfulEqOrd.compare_eq_iff_eq] at h
    obtain ⟨⟨hday, hsecond⟩, hnano⟩ := h
    cases t
    cases s
    simp_all

end DateTime

namespace SortKey

instance : Std.TransCmp compareTo where
  eq_swap {a b} := by
    cases a <;> cases b
    case number.number => exact @Std.OrientedCmp.eq_swap _ Double.totalCompare _ _ _
    case date.date => exact @Std.OrientedCmp.eq_swap _ DateTime.compareTo _ _ _
    case text.text => exact @Std.OrientedOrd.eq_swap String _ _ _ _
    all_goals rfl
  isLE_trans {a b c} hab hbc := by
    cases a <;> cases b <;> cases c
    case number.number.number => exact @Std.TransCmp.isLE_trans _ Double.totalCompare _ _ _ _ hab hbc
    case date.date.date => exact @Std.TransCmp.isLE_trans _ DateTime.compareTo _ _ _ _ hab hbc
    case text.text.text => exact @Std.TransOrd.isLE_trans String _ _ _ _ _ hab hbc
    all_goals first | rfl | contradiction

instance : Std.LawfulEqCmp compareTo where
  compare_self {a} := by
    cases a
    case number => exact @Std.ReflCmp.compare_self _ Double.totalCompare _ _
    case date => exact @Std.ReflCmp.compare_self _ DateTime.compareTo _ _
    case text => exact @Std.ReflOrd.compare_self String _ _ _
    case null => rfl
  eq_of_compare {a b} h := by
    cases a <;> cases b
    case number.number => exact congrArg number (@Std.LawfulEqCmp.eq_of_compare _ Double.totalCompare _ _ _ h)
    case date.date => exact congrArg date (@Std.LawfulEqCmp.eq_of_compare _ DateTime.compareTo _ _ _ h)
    case text.text => exact congrArg text (Std.LawfulEqOrd.eq_of_compare h)
    case null.null => rfl
    all_goals contradiction

def AreZeros : SortKey → SortKey → Prop
  | .number x, .number y => x.AreZeros y
  | _, _ => False

theorem not_isNan_of_ofValue {type : ColumnType} {v : Scalar} {x : Double} (h : ofValue type v = .number x) :
    x.isNan = false := by
  unfold ofValue at h
  grind

theorem same_ofValue_iff {type : ColumnType} {v : Scalar} {b : SortKey} :
    (ofValue type v).same b = true ↔ ofValue type v = b ∨ (ofValue type v).AreZeros b := by
  cases ha : ofValue type v <;> cases b <;> simp [same, AreZeros]
  case number.number => exact Double.same_iff (not_isNan_of_ofValue ha)

theorem AreZeros.ne {a b : SortKey} (h : a.AreZeros b) : a ≠ b := by
  rintro rfl
  cases a
  case number =>
    obtain ⟨s, rfl, hzero⟩ := h
    cases s <;> cases hzero
  all_goals contradiction

/-- What the order of three keys obeys.  Keys that tie are equal, and equal keys tie if they are not the
two zeros. -/
structure Ordered (a b c : SortKey) : Prop where
  reflexive : a.compareTo a = .eq
  reversed : b.compareTo a = (a.compareTo b).swap
  antisymmetric : (a.compareTo b).isLE = true → (b.compareTo a).isLE = true → a.same b = true
  transitive : (a.compareTo b).isLE = true → (b.compareTo c).isLE = true → (a.compareTo c).isLE = true
  total : (a.compareTo b).isLE = true ∨ (b.compareTo a).isLE = true
  tied_iff : a.compareTo b = .eq ↔ a.same b = true ∧ ¬ a.AreZeros b

/-- The keys of values are in a total order.  It tells equal keys apart exactly if they are the two zeros. -/
theorem ordered_ofValue (type type' type'' : ColumnType) (v v' v'' : Scalar) :
    (ofValue type v).Ordered (ofValue type' v') (ofValue type'' v'') := by
  constructor
  case reflexive => exact Std.ReflCmp.compare_self
  case reversed => exact Std.OrientedCmp.eq_swap
  case antisymmetric =>
    intro h h'
    have htied := Std.OrientedCmp.isLE_antisymm h h'
    exact same_ofValue_iff.2 (.inl (Std.LawfulEqCmp.eq_of_compare htied))
  case transitive => exact Std.TransCmp.isLE_trans
  case total => exact isLE_or_isLE _ _
  case tied_iff =>
    rw [Std.LawfulEqCmp.compare_eq_iff_eq, same_ofValue_iff]
    constructor
    · intro h
      exact ⟨.inl h, fun hzeros => hzeros.ne h⟩
    · rintro ⟨h | hzeros, hne⟩
      · exact h
      · exact absurd hzeros hne

/-- Zero and negative zero are equal numbers, but they do not tie, and sorting moves the second in front. -/
theorem untied_of_zeros :
    ∃ zero negativeZero, zero = ofValue .number (.number (.finite false .zero)) ∧
      negativeZero = ofValue .number (.number (.finite true .zero)) ∧ zero.same negativeZero = true ∧
      zero.compareTo negativeZero ≠ .eq ∧ SortDirection.ascending.positions [zero, negativeZero] = [1, 0] := by
  have hlater : SortDirection.ascending.precedes (ofValue .number (.number (.finite false .zero)))
      (ofValue .number (.number (.finite true .zero))) = false := by decide
  refine ⟨_, _, rfl, rfl, by decide, by decide, ?_⟩
  simp [SortDirection.positions, List.mergeSort, List.MergeSort.Internal.splitInTwo, hlater]

end SortKey
end TabularReport
