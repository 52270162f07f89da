import Mathlib.Algebra.Ring.Int.Defs
import TabularReport.Proofs.Number.ReadBack

set_option autoImplicit false

namespace TabularReport

def signed (negative : Bool) (n : Nat) : Int :=
  if negative then -n else n

@[simp] theorem natAbs_signed (s : Bool) (n : Nat) : (signed s n).natAbs = n := by
  cases s <;> simp [signed]

theorem signed_not (s : Bool) (n : Nat) : signed (!s) n = -signed s n := by
  cases s <;> simp [signed]

theorem signed_mul (s t : Bool) (m n : Nat) : signed (s ^^ t) (m * n) = signed s m * signed t n := by
  cases s <;> cases t <;> simp [signed]

theorem signed_natAbs (i : Int) : signed (i < 0) i.natAbs = i := by
  simp only [signed, decide_eq_true_eq]
  split <;> omega

theorem fits53_whole {n : Nat} (h : n ≤ Nat.pow 2 53) : Fits53 (n * unitsPerOne) := by
  unfold unitsPerOne
  generalize 1074 = k
  exact fits53_mul_pow h

theorem whole_lt_unitsLimit {n : Nat} (h : n ≤ Nat.pow 2 53) : n * unitsPerOne < unitsLimit := by
  unfold unitsLimit unitsPerOne
  have hexponents : 53 + 1074 < 2098 := by decide
  generalize 1074 = k at hexponents ⊢
  generalize 2098 = l at hexponents ⊢
  calc n * Nat.pow 2 k ≤ Nat.pow 2 53 * Nat.pow 2 k := Nat.mul_le_mul_right _ h
    _ = Nat.pow 2 (53 + k) := (Nat.pow_add 2 53 k).symm
    _ < Nat.pow 2 l := Nat.pow_lt_pow_right (by decide) hexponents

namespace Double

/-- Whether the exact value of the number is the whole number `i`; zero may have either sign. -/
def IsInt (x : Double) (i : Int) : Prop :=
  ∃ s m n, x = .finite s m ∧ m.units = n * unitsPerOne ∧ i = signed s n

/-- A fraction that is a whole number of at most 53 bits is not rounded. -/
theorem round_whole (s : Bool) {num den n : Nat} (hden : 0 < den) (h : num = n * unitsPerOne * den)
    (hn : n ≤ Nat.pow 2 53) : ∃ m, round s num den = .finite s m ∧ m.units = n * unitsPerOne := by
  have hround : roundBits num den = n * unitsPerOne := by
    rw [h, roundBits_mul_self hden (fits53_whole hn)]
  exact ⟨⟨n * unitsPerOne, fits53_whole hn, whole_lt_unitsLimit hn⟩, round_of_roundBits s hround, rfl⟩

theorem round_congr (s : Bool) {num den num' den' : Nat} (h : roundBits num den = roundBits num' den') :
    round s num den = round s num' den' := by
  simp only [round, h]

theorem exists_ofInt {i : Int} (h : i.natAbs ≤ Nat.pow 2 53) :
    ∃ m, ofInt i = .finite (i < 0) m ∧ m.units = i.natAbs * unitsPerOne :=
  round_whole _ Nat.one_pos (Nat.mul_one _).symm h

theorem isInt_ofInt {i : Int} (h : i.natAbs ≤ Nat.pow 2 53) : (ofInt i).IsInt i := by
  obtain ⟨m, hi, hm⟩ := exists_ofInt h
  exact ⟨_, m, _, hi, hm, (signed_natAbs i).symm⟩

theorem ofInt_natCast (n : Nat) : ofInt n = ofNat n := by
  rw [ofInt, ofNat, Int.natAbs_natCast, decide_eq_false (by omega)]

theorem isInt_ofNat {n : Nat} (h : n ≤ Nat.pow 2 53) : (ofNat n).IsInt n := by
  rw [← ofInt_natCast]
  exact isInt_ofInt h

theorem mul_finite (s t : Bool) (m n : Magnitude) :
    finite s m * finite t n = round (s ^^ t) (m.units * n.units) unitsPerOne := by
  have hmul : finite s m * finite t n = mul (.finite s m) (.finite t n) := rfl
  rw [hmul, mul]

theorem div_finite (s t : Bool) (m : Magnitude) {n : Magnitude} (hn : 0 < n.units) :
    finite s m / finite t n = round (s ^^ t) (m.units * unitsPerOne) n.units := by
  have hdiv : finite s m / finite t n = div (.finite s m) (.finite t n) := rfl
  rw [hdiv, div, if_neg (Nat.ne_of_gt hn)]

variable {x y : Double} {i j : Int}

theorem IsInt.same (hx : x.IsInt i) (hy : y.IsInt i) : x.same y = true := by
  obtain ⟨s, m, a, rfl, hm, rfl⟩ := hx
  obtain ⟨t, n, b, rfl, hn, hsame⟩ := hy
  have hunits (s : Bool) (m : Magnitude) (a k : Nat) (hm : m.units = a * k) :
      signedUnits s m = signed s a * k := by
    cases s <;> simp [signedUnits, signed, hm]
  simp only [Double.same, hunits _ _ _ _ hm, hunits _ _ _ _ hn, hsame, BEq.rfl]

theorem IsInt.neg (h : x.IsInt i) : (-x).IsInt (-i) := by
  obtain ⟨s, m, n, rfl, hm, rfl⟩ := h
  exact ⟨!s, m, n, rfl, hm, (signed_not s n).symm⟩

theorem IsInt.mul (hx : x.IsInt i) (hy : y.IsInt j) (h : (i * j).natAbs ≤ Nat.pow 2 53) :
    (x * y).IsInt (i * j) := by
  obtain ⟨s, m, a, rfl, hm, rfl⟩ := hx
  obtain ⟨t, n, b, rfl, hn, rfl⟩ := hy
  rw [← signed_mul, natAbs_signed] at h
  have hunits : m.units * n.units = a * b * unitsPerOne * unitsPerOne := by
    rw [hm, hn]
    exact Nat.mul_mul_mul_comm a _ b _ |>.trans (Nat.mul_assoc _ _ _).symm
  obtain ⟨p, hround, hp⟩ := round_whole (s ^^ t) unitsPerOne_pos hunits h
  exact ⟨s ^^ t, p, a * b, (mul_finite s t m n).trans hround, hp, (signed_mul s t a b).symm⟩

theorem IsInt.nearestInt (h : x.IsInt i) : x.nearestInt = i := by
  obtain ⟨s, m, n, rfl, hm, rfl⟩ := h
  have hdiv : (2 * m.units + unitsPerOne) / (2 * unitsPerOne) = n := by
    have hsum : 2 * m.units + unitsPerOne = (2 * n + 1) * unitsPerOne := by
      rw [hm, Nat.add_mul, Nat.one_mul, Nat.mul_assoc]
    rw [hsum, Nat.mul_div_mul_right _ _ unitsPerOne_pos]
    omega
  cases s <;> simp [Double.nearestInt, signed, hdiv]

theorem IsInt.magnitudeAtMost (h : x.IsInt i) (k : Nat) : x.magnitudeAtMost k = decide (i.natAbs ≤ k) := by
  obtain ⟨s, m, n, rfl, hm, rfl⟩ := h
  simp only [Double.magnitudeAtMost, natAbs_signed, hm, Nat.mul_le_mul_right_iff unitsPerOne_pos]

/-- The quotient of a whole number by one of its divisors. -/
theorem ofInt_mul_div {k : Nat} (hk : 0 < k) (hk' : k ≤ Nat.pow 2 53) (h : (i * k).natAbs ≤ Nat.pow 2 53) :
    ofInt (i * k) / ofNat k = ofInt i := by
  obtain ⟨m, hm, hunits⟩ := exists_ofInt h
  obtain ⟨n, hn, hdivisor⟩ := round_whole false Nat.one_pos (Nat.mul_one _).symm hk'
  have hpos : 0 < n.units := by
    rw [hdivisor]
    exact Nat.mul_pos hk unitsPerOne_pos
  have hsign : decide (i * k < 0) = decide (i < 0) := by
    rw [decide_eq_decide]
    constructor
    · intro h
      have hproduct := mt (Int.mul_nonneg · (Int.natCast_nonneg k)) (Int.not_le.2 h)
      exact Int.not_le.1 hproduct
    · intro h
      exact Int.mul_neg_of_neg_of_pos h (Int.natCast_pos.2 hk)
  have hquotient : roundBits (m.units * unitsPerOne) n.units = roundBits (i.natAbs * unitsPerOne) 1 := by
    refine roundBits_congr hpos Nat.one_pos ?_
    rw [hunits, hdivisor, Int.natAbs_mul, Int.natAbs_natCast]
    grind
  calc ofInt (i * k) / ofNat k = finite (i * k < 0) m / finite false n := by rw [hm, ofNat, hn]
    _ = round (i < 0) (i.natAbs * unitsPerOne) 1 := by
        rw [div_finite _ _ _ hpos, Bool.xor_false, hsign, round_congr _ hquotient]

end Double
end TabularReport
