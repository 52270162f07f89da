/-!
Binary floating-point numbers with 53 significant bits (the 64-bit format of IEEE 754).  Every finite
value is a whole multiple of the least positive one, 2^-1074, so a magnitude is a natural number of such
units, and an operation is the exact result in units, rounded once.  There is one NaN.
-/
set_option autoImplicit false

namespace TabularReport

/-- The whole number nearest to `num / den`; a tie goes to the even one. -/
def divNearest (num den : Nat) : Nat :=
  let q := num / den
  let r := num % den
  if 2 * r < den then q else if den < 2 * r then q + 1 else q + q % 2

theorem divNearest_le_succ (num den : Nat) : divNearest num den ≤ num / den + 1 := by
  simp only [divNearest]; split <;> (try split) <;> omega

theorem divNearest_of_dvd {num den : Nat} (hd : 0 < den) (h : den ∣ num) : divNearest num den = num / den := by
  simp [divNearest, Nat.mod_eq_zero_of_dvd h, hd]

/-- How many low bits of a number with the leading bit of `n` lie below its 53 significant ones. -/
def spareBits (n : Nat) : Nat :=
  n.log2 + 1 - 53

def Fits53 (n : Nat) : Prop :=
  Nat.pow 2 (spareBits n) ∣ n

instance (n : Nat) : Decidable (Fits53 n) :=
  inferInstanceAs (Decidable (Nat.pow 2 (spareBits n) ∣ n))

theorem fits53_zero : Fits53 0 := Nat.dvd_zero _

/-- The number with at most 53 significant bits nearest to `num / den`. -/
def roundBits (num den : Nat) : Nat :=
  let s := spareBits (num / den)
  divNearest num (den * Nat.pow 2 s) * Nat.pow 2 s

theorem pow_two_pos (n : Nat) : 0 < Nat.pow 2 n := Nat.two_pow_pos n

theorem lt_pow_spareBits (n : Nat) : n < Nat.pow 2 (53 + spareBits n) := by
  have h := @Nat.lt_log2_self n
  exact Nat.lt_of_lt_of_le h (Nat.pow_le_pow_right (by decide) (by unfold spareBits; omega))

theorem fits53_mul_pow {m s : Nat} (h : m ≤ Nat.pow 2 53) : Fits53 (m * Nat.pow 2 s) := by
  simp only [Fits53, Nat.pow_eq] at h ⊢
  rcases Nat.eq_zero_or_pos m with rfl | hm
  · simp
  rcases Nat.lt_or_eq_of_le h with h | rfl
  · have hlt : m * 2 ^ s < 2 ^ (53 + s) := by
      rw [Nat.pow_add]; exact Nat.mul_lt_mul_of_pos_right h (Nat.two_pow_pos s)
    have hne : m * 2 ^ s ≠ 0 := Nat.mul_ne_zero (by omega) (Nat.ne_of_gt (Nat.two_pow_pos s))
    have hlog := (Nat.log2_lt hne).2 hlt
    have hs : spareBits (m * 2 ^ s) ≤ s := by unfold spareBits; omega
    exact Nat.dvd_trans (Nat.pow_dvd_pow 2 hs) (Nat.dvd_mul_left _ _)
  · rw [← Nat.pow_add]
    unfold spareBits
    rw [Nat.log2_two_pow]
    exact Nat.pow_dvd_pow 2 (by omega)

theorem fits53_roundBits (num den : Nat) : Fits53 (roundBits num den) := by
  refine fits53_mul_pow ?_
  have hq := lt_pow_spareBits (num / den)
  have h1 := divNearest_le_succ num (den * Nat.pow 2 (spareBits (num / den)))
  have h2 : num / (den * Nat.pow 2 (spareBits (num / den))) < Nat.pow 2 53 := by
    simp only [Nat.pow_eq] at hq ⊢
    rw [← Nat.div_div_eq_div_mul, Nat.div_lt_iff_lt_mul (Nat.two_pow_pos _), ← Nat.pow_add]
    exact hq
  exact Nat.le_trans h1 h2

/-- A fraction that already is a number with at most 53 significant bits is left alone. -/
theorem roundBits_mul_self {n den : Nat} (hd : 0 < den) (h : Fits53 n) : roundBits (n * den) den = n := by
  simp only [roundBits, Nat.mul_div_cancel n hd]
  have hp := pow_two_pos (spareBits n)
  have hdvd : den * Nat.pow 2 (spareBits n) ∣ n * den := by
    rw [Nat.mul_comm n den]; exact Nat.mul_dvd_mul_left den h
  rw [divNearest_of_dvd (Nat.mul_pos hd hp) hdvd, Nat.mul_comm n den, Nat.mul_div_mul_left _ _ hd,
    Nat.div_mul_cancel h]

def unitsPerOne : Nat := Nat.pow 2 1074

/-- The first magnitude in units that is too large for a finite number: 2^1024. -/
def unitsLimit : Nat := Nat.pow 2 2098

theorem unitsPerOne_pos : 0 < unitsPerOne := by
  unfold unitsPerOne
  generalize 1074 = n
  exact pow_two_pos n

theorem unitsLimit_pos : 0 < unitsLimit := by
  unfold unitsLimit
  generalize 2098 = n
  exact pow_two_pos n

/-- A magnitude in units: at most 53 significant bits, below the limit. -/
structure Magnitude where
  units : Nat
  fits : Fits53 units
  bounded : units < unitsLimit
  deriving DecidableEq

namespace Magnitude

def zero : Magnitude := ⟨0, fits53_zero, unitsLimit_pos⟩

end Magnitude

/-- A number: not a number, an infinity, or a sign with a magnitude.  Zero has both signs. -/
inductive Double where
  | nan
  | infinite (negative : Bool)
  | finite (negative : Bool) (size : Magnitude)
  deriving DecidableEq

namespace Double

/-- The number nearest to `num / den` units with the given sign; infinite from the limit on. -/
def round (negative : Bool) (num den : Nat) : Double :=
  if h : roundBits num den < unitsLimit then
    .finite negative ⟨roundBits num den, fits53_roundBits num den, h⟩
  else .infinite negative

def ofNat (n : Nat) : Double :=
  round false (n * unitsPerOne) 1

def ofInt (i : Int) : Double :=
  round (i < 0) (i.natAbs * unitsPerOne) 1

def signedUnits (negative : Bool) (m : Magnitude) : Int :=
  if negative then -(m.units : Int) else m.units

def isNan : Double → Bool
  | .nan => true
  | _ => false

def isFinite : Double → Bool
  | .finite _ _ => true
  | _ => false

def isZero : Double → Bool
  | .finite _ m => m.units == 0
  | _ => false

def isWhole : Double → Bool
  | .finite _ m => m.units % unitsPerOne == 0
  | _ => false

def magnitudeBelow (n : Nat) : Double → Bool
  | .finite _ m => decide (m.units < n * unitsPerOne)
  | _ => false

def magnitudeAtMost (n : Nat) : Double → Bool
  | .finite _ m => decide (m.units ≤ n * unitsPerOne)
  | _ => false

def truncate : Double → Int
  | .finite true m => -((m.units / unitsPerOne : Nat) : Int)
  | .finite false m => (m.units / unitsPerOne : Nat)
  | _ => 0

/-- The whole number nearest to a finite number; a half goes away from zero. -/
def nearestInt : Double → Int
  | .finite true m => -(((2 * m.units + unitsPerOne) / (2 * unitsPerOne) : Nat) : Int)
  | .finite false m => ((2 * m.units + unitsPerOne) / (2 * unitsPerOne) : Nat)
  | _ => 0

def neg : Double → Double
  | .nan => .nan
  | .infinite s => .infinite !s
  | .finite s m => .finite (!s) m

/-- The sum; opposite infinities have none, and a sum of zero is negative only for two negative zeros. -/
def add : Double → Double → Double
  | .nan, _ => .nan
  | _, .nan => .nan
  | .infinite s, .infinite t => if s = t then .infinite s else .nan
  | .infinite s, .finite _ _ => .infinite s
  | .finite _ _, .infinite t => .infinite t
  | .finite s m, .finite t n =>
    let sum := signedUnits s m + signedUnits t n
    if sum = 0 then .finite (s && t) .zero else round (sum < 0) sum.natAbs 1

def sub (x y : Double) : Double :=
  x.add y.neg

/-- The product; zero times an infinity is none. -/
def mul : Double → Double → Double
  | .nan, _ => .nan
  | _, .nan => .nan
  | .infinite s, .infinite t => .infinite (s ^^ t)
  | .infinite s, .finite t n => if n.units = 0 then .nan else .infinite (s ^^ t)
  | .finite s m, .infinite t => if m.units = 0 then .nan else .infinite (s ^^ t)
  | .finite s m, .finite t n => round (s ^^ t) (m.units * n.units) unitsPerOne

/-- The quotient; a finite number over zero is infinite, and zero over zero is none. -/
def div : Double → Double → Double
  | .nan, _ => .nan
  | _, .nan => .nan
  | .infinite _, .infinite _ => .nan
  | .infinite s, .finite t _ => .infinite (s ^^ t)
  | .finite s _, .infinite t => .finite (s ^^ t) .zero
  | .finite s m, .finite t n =>
    if n.units = 0 then (if m.units = 0 then .nan else .infinite (s ^^ t))
    else round (s ^^ t) (m.units * unitsPerOne) n.units

instance : Neg Double := ⟨neg⟩
instance : Add Double := ⟨add⟩
instance : Sub Double := ⟨sub⟩
instance : Mul Double := ⟨mul⟩
instance : Div Double := ⟨div⟩

/-- Numeric equality: the two zeros are equal, NaN equals nothing. -/
def same : Double → Double → Bool
  | .infinite s, .infinite t => s == t
  | .finite s m, .finite t n => signedUnits s m == signedUnits t n
  | _, _ => false

/-- The place of a number in the total order: infinities beyond the finite numbers, negative zero just
below zero, NaN last. -/
def rank : Double → Int
  | .nan => unitsLimit + 1
  | .infinite true => -(unitsLimit : Int) - 1
  | .infinite false => unitsLimit
  | .finite true m => -(m.units : Int) - 1
  | .finite false m => m.units

def totalCompare (x y : Double) : Ordering :=
  compare x.rank y.rank

end Double
end TabularReport
