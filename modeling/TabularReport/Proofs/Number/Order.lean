import Mathlib.Logic.Function.Basic
import TabularReport.Number.Double

set_option autoImplicit false

namespace TabularReport

theorem Magnitude.units_inj {m n : Magnitude} : m.units = n.units ↔ m = n := by
  constructor
  · intro h
    cases m
    cases n
    cases h
    rfl
  · exact congrArg _

namespace Double

theorem rank_infinite (s : Bool) :
    (infinite s).rank = if s then -(unitsLimit : Int) - 1 else (unitsLimit : Int) := by
  cases s <;> rfl

theorem rank_finite (s : Bool) (m : Magnitude) :
    (finite s m).rank = if s then -(m.units : Int) - 1 else (m.units : Int) := by
  cases s <;> rfl

theorem rank_injective : Function.Injective rank := by
  intro x y h
  have hlt (m : Magnitude) : (m.units : Int) < unitsLimit := Int.ofNat_lt.2 m.bounded
  have hnan : nan.rank = unitsLimit + 1 := rfl
  rcases x with _ | s | ⟨s, m⟩ <;> rcases y with _ | t | ⟨t, n⟩ <;>
    grind [rank_infinite, rank_finite, Magnitude.units_inj]

instance : Std.TransCmp totalCompare :=
  inferInstanceAs (Std.TransCmp (compareOn rank))

instance : Std.LawfulEqCmp totalCompare where
  compare_self := @Std.ReflCmp.compare_self _ (compareOn rank) _
  eq_of_compare h := rank_injective (Std.LawfulEqOrd.eq_of_compare h)

def AreZeros (x y : Double) : Prop :=
  ∃ s, x = .finite s .zero ∧ y = .finite (!s) .zero

theorem signedUnits_eq_iff {s t : Bool} {m n : Magnitude} :
    signedUnits s m = signedUnits t n ↔ (s = t ∧ m = n) ∨ (t = !s) ∧ m = .zero ∧ n = .zero := by
  have hzero : Magnitude.zero.units = 0 := rfl
  rw [← Magnitude.units_inj (n := n), ← Magnitude.units_inj (n := .zero), ← Magnitude.units_inj (n := .zero), hzero]
  cases s <;> cases t <;> grind [signedUnits]

/-- Numbers are equal if they are one number or the two zeros. -/
theorem same_iff {x y : Double} (hx : x.isNan = false) : x.same y = true ↔ x = y ∨ x.AreZeros y := by
  rcases x with _ | s | ⟨s, m⟩ <;> rcases y with _ | t | ⟨t, n⟩
  case nan.nan => contradiction
  case infinite.infinite => simp [same, AreZeros]
  case finite.finite =>
    rw [same, beq_iff_eq, signedUnits_eq_iff]
    constructor
    · rintro (⟨rfl, rfl⟩ | ⟨rfl, rfl, rfl⟩)
      · exact .inl rfl
      · exact .inr ⟨s, rfl, rfl⟩
    · rintro (h | ⟨_, h, h'⟩)
      · cases h
        exact .inl ⟨rfl, rfl⟩
      · cases h
        cases h'
        exact .inr ⟨rfl, rfl, rfl⟩
  all_goals simp_all [same, isNan, AreZeros]

end Double
end TabularReport
