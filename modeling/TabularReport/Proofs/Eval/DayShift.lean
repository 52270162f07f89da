import TabularReport.Eval.Basic
import TabularReport.Proofs.Calendar.Parts
import TabularReport.Proofs.Number.Whole
/-!
Dates and whole numbers of days.  The milliseconds of a shift are a whole number below 2^53, so that neither
the product that counts them nor the quotient that gives the days back is rounded.  A shift keeps the time
of day, and it is undone by the shift back.
-/
set_option autoImplicit false

namespace TabularReport

namespace DateTime

/-- Whether `u` is the moment at the time of day of `t`, `n` days away. -/
structure DaysAway (t : DateTime) (n : Int) (u : DateTime) : Prop where
  day : u.day = t.day + n
  second : u.second = t.second
  nano : u.nano = t.nano

/-- Whether the outcome is the moment `n` days away or, if there is no such day, the error. -/
def Shifts (t : DateTime) (n : Int) (e : EvalError) (outcome : Except EvalError Scalar) : Prop :=
  if firstDay ≤ t.day + n ∧ t.day + n ≤ lastDay then ∃ u, outcome = .ok (.date u) ∧ t.DaysAway n u
  else outcome = .error e

variable {t u : DateTime} {n : Int}

theorem DaysAway.isLeap (h : t.DaysAway n u) : u.isLeap = t.isLeap := by
  simp only [DateTime.isLeap, h.nano]

theorem DaysAway.symm (h : t.DaysAway n u) : u.DaysAway (-n) t where
  day := by rw [h.day, Int.add_neg_cancel_right]
  second := h.second.symm
  nano := h.nano.symm

theorem Shifts.exists_date {e : EvalError} {w : Scalar} (h : t.Shifts n e (.ok w)) :
    ∃ u, w = .date u ∧ t.DaysAway n u := by
  unfold Shifts at h
  split at h
  · obtain ⟨u, hw, hu⟩ := h
    exact ⟨u, Except.ok.inj hw, hu⟩
  · contradiction

def daysAway? (t : DateTime) (n : Int) : Option DateTime :=
  ofParts? (t.day + n) t.second t.nano

theorem daysAway?_eq_some : t.daysAway? n = some u ↔ t.DaysAway n u :=
  ofParts?_eq_some.trans ⟨fun ⟨hday, hsecond, hnano⟩ => ⟨hday, hsecond, hnano⟩, fun h => ⟨h.day, h.second, h.nano⟩⟩

theorem isSome_daysAway? : (t.daysAway? n).isSome ↔ firstDay ≤ t.day + n ∧ t.day + n ≤ lastDay := by
  unfold daysAway? ofParts?
  constructor
  · intro h
    split at h
    · rename_i hparts
      exact hparts.1
    · contradiction
  · intro h
    rw [dif_pos ⟨h, t.second_lt, t.nano_lt, t.leap_last⟩, Option.isSome_some]

theorem shifts_daysAway? (t : DateTime) (n : Int) (e : EvalError) :
    t.Shifts n e (((t.daysAway? n).map Scalar.date).elim (.error e) .ok) := by
  unfold Shifts
  split
  · rename_i h
    obtain ⟨u, hu⟩ := Option.isSome_iff_exists.1 (isSome_daysAway?.2 h)
    exact ⟨u, by rw [hu]; rfl, daysAway?_eq_some.1 hu⟩
  · rename_i h
    rw [← isSome_daysAway?, Option.not_isSome_iff_eq_none] at h
    rw [h]
    rfl

theorem addMillis?_wholeDays (h : t.isLeap = false) (n : Int) :
    t.addMillis? (n * millisPerDay) = t.daysAway? n := by
  have hnano : t.nano < nanosPerSecond := by simpa [isLeap] using h
  have hsecond := t.second_lt
  have hseconds : (n * millisPerDay).tdiv 1000 = n * secondsPerDay := by
    have hsplit : n * millisPerDay = n * secondsPerDay * 1000 := by simp only [millisPerDay, secondsPerDay]; omega
    rw [hsplit, Int.mul_tdiv_cancel _ (by decide)]
  have hrest : (n * millisPerDay).tmod 1000 = 0 := by
    rw [Int.tmod_def, hseconds]
    simp only [millisPerDay, secondsPerDay]
    omega
  simp only [addMillis?, h, hseconds, hrest, Bool.false_and, Bool.false_eq_true, if_false, daysAway?]
  simp only [nanosPerSecond, secondsPerDay] at *
  congr 1 <;> omega

theorem DaysAway.millisSince (h : t.DaysAway n u) : u.millisSince t = n * millisPerDay := by
  have hdays : u.day - t.day = n := by
    rw [h.day]
    omega
  have hmillis : n * secondsPerDay * nanosPerSecond = n * millisPerDay * 1000000 := by
    simp only [secondsPerDay, nanosPerSecond, millisPerDay]
    omega
  simp only [DateTime.millisSince, h.second, h.nano, hdays, Nat.lt_irrefl, decide_false, Bool.false_and,
    Bool.false_eq_true, if_false, Int.sub_self, Int.add_zero, hmillis]
  exact Int.mul_tdiv_cancel _ (by decide)

theorem natAbs_millis_lt (h : n.natAbs ≤ shiftLimit) : (n * millisPerDay).natAbs < Nat.pow 2 53 := by
  have hpow : Nat.pow 2 53 = 9007199254740992 := by decide
  rw [hpow]
  simp only [shiftLimit] at h
  simp only [millisPerDay]
  omega

theorem isInt_millis {x : Double} (hx : x.IsInt n) (h : n.natAbs ≤ shiftLimit) :
    (x * .ofNat millisPerDay).IsInt (n * millisPerDay) :=
  hx.mul (Double.isInt_ofNat (by decide)) (Nat.le_of_lt (natAbs_millis_lt h))

theorem addDays?_of_isInt {x : Double} (hx : x.IsInt n) (hleap : t.isLeap = false) (h : n.natAbs ≤ shiftLimit) :
    t.addDays? x = t.daysAway? n := by
  rw [addDays?, hx.magnitudeAtMost, decide_eq_true h, if_pos rfl, (isInt_millis hx h).nearestInt,
    addMillis?_wholeDays hleap]

theorem isInt_ofDays (h : n.natAbs ≤ shiftLimit) : (Double.ofInt n).IsInt n :=
  Double.isInt_ofInt (Nat.le_trans h (by decide))

theorem shifts_addDays? {x : Double} (hx : x.IsInt n) (hleap : t.isLeap = false) (h : n.natAbs ≤ shiftLimit)
    (e : EvalError) : t.Shifts n e (((t.addDays? x).map Scalar.date).elim (.error e) .ok) := by
  rw [addDays?_of_isInt hx hleap h]
  exact t.shifts_daysAway? n e

theorem DaysAway.daysSince (h : t.DaysAway n u) (hn : n.natAbs ≤ shiftLimit) : u.daysSince t = .ofInt n := by
  rw [DateTime.daysSince, h.millisSince]
  exact Double.ofInt_mul_div (by decide) (by decide) (Nat.le_of_lt (natAbs_millis_lt hn))

end DateTime

section

variable {t u : DateTime} {v w : Scalar} {x : Double} {n : Int}

theorem Scalar.isNull_of_number? (h : v.number? = some x) : v.isNull = false := by
  cases v <;> simp_all [Scalar.number?, Scalar.isNull]

theorem Operator.apply_of_nonNull (op : Operator) (hv : v.isNull = false) (hw : w.isNull = false) :
    op.apply v w = op.applyNonNull v w := by
  simp [Operator.apply, hv, hw]

namespace DateTime

variable (t)

theorem apply_add (h : v.number? = some x) :
    Operator.add.apply (.date t) v =
      ((t.addDays? x).map Scalar.date).elim (.error (.typeMismatch .add .date (some v.kind))) .ok := by
  have hsum : (Scalar.date t).add? v = (t.addDays? x).map .date := by
    cases v <;> simp_all [Scalar.add?, Scalar.numbers?, Scalar.number?, Option.map_eq_bind]
  rw [Operator.apply_of_nonNull _ rfl (Scalar.isNull_of_number? h), Operator.applyNonNull, hsum, Scalar.kind]

theorem add_apply (h : v.number? = some x) :
    Operator.add.apply v (.date t) =
      ((t.addDays? x).map Scalar.date).elim (.error (.typeMismatch .add v.kind (some .date))) .ok := by
  have hsum : v.add? (.date t) = (t.addDays? x).map .date := by
    cases v <;> simp_all [Scalar.add?, Scalar.numbers?, Scalar.number?, Option.map_eq_bind]
  rw [Operator.apply_of_nonNull _ (Scalar.isNull_of_number? h) rfl, Operator.applyNonNull, hsum]
  rfl

theorem apply_subtract (h : v.number? = some x) :
    Operator.subtract.apply (.date t) v =
      ((t.addDays? (-x)).map Scalar.date).elim (.error (.typeMismatch .subtract .date (some v.kind))) .ok := by
  have hdifference : (Scalar.date t).subtract? v = (t.addDays? (-x)).map .date := by
    cases v <;> simp_all [Scalar.subtract?, Scalar.numbers?, Scalar.number?, Option.map_eq_bind]
  rw [Operator.apply_of_nonNull _ rfl (Scalar.isNull_of_number? h), Operator.applyNonNull, hdifference,
    Scalar.kind]

theorem subtract_apply_date (u : DateTime) :
    Operator.subtract.apply (.date t) (.date u) = .ok (.number (t.daysSince u)) := by
  rw [Operator.apply_of_nonNull _ rfl rfl]
  rfl

end DateTime

namespace Scope

variable {s : Scope} {a b : Expr}

theorem eval_binary_of_ok (op : Operator) (ha : s.eval a = .ok v) (hb : s.eval b = .ok w) :
    s.eval (.binary op a b) = op.apply v w := by
  simp only [eval, ha, hb, bind, Except.bind]

theorem eval_negate_of_number? (hb : s.eval b = .ok v) (hv : v.number? = some x) :
    s.eval (.negate b) = .ok (.number (-x)) := by
  simp only [eval, hb, bind, Except.bind, Scalar.negate, Scalar.isNull_of_number? hv, hv, Bool.false_eq_true,
    if_false]

/-- A whole number of days shifts a date to the same time of day that many days away, on either side of a
sum and negated in a difference, or fails with a mismatch if there is no such day.  Taking the days or the
date away from the shifted date gives back the other.  The milliseconds are counted without rounding. -/
theorem eval_of_wholeDays (ha : s.eval a = .ok (.date t)) (hb : s.eval b = .ok v) (hv : v.number? = some x)
    (hx : x.IsInt n) (hleap : t.isLeap = false) (hn : n.natAbs ≤ shiftLimit) :
    t.Shifts n (.typeMismatch .add .date (some v.kind)) (s.eval (.binary .add a b)) ∧
      t.Shifts n (.typeMismatch .add v.kind (some .date)) (s.eval (.binary .add b a)) ∧
      t.Shifts n (.typeMismatch .subtract .date (some .number))
        (s.eval (.binary .subtract a (.negate b))) ∧
      t.Shifts (-n) (.typeMismatch .subtract .date (some v.kind)) (s.eval (.binary .subtract a b)) ∧
      (∀ w, s.eval (.binary .add a b) = .ok w →
        s.eval (.binary .subtract (.binary .add a b) b) = .ok (.date t) ∧
          s.eval (.binary .subtract (.binary .add a b) a) = .ok (.number (.ofInt n))) ∧
      (Double.ofInt n).same x = true ∧
      (x * .ofNat millisPerDay).IsInt (n * millisPerDay) ∧
      (x * .ofNat millisPerDay).nearestInt = n * millisPerDay ∧
      (n * millisPerDay).natAbs < Nat.pow 2 53 := by
  have hopposite : (-n).natAbs ≤ shiftLimit := by rwa [Int.natAbs_neg]
  have hnegate := eval_negate_of_number? hb hv
  have hplus : (- -x).IsInt n := by
    have h := hx.neg.neg
    rwa [Int.neg_neg] at h
  have hmillis := DateTime.isInt_millis hx hn
  have hleft : t.Shifts n (.typeMismatch .add .date (some v.kind)) (s.eval (.binary .add a b)) := by
    rw [eval_binary_of_ok _ ha hb, t.apply_add hv]
    exact DateTime.shifts_addDays? hx hleap hn _
  refine ⟨hleft, ?right, ?minus, ?back, ?undone, (DateTime.isInt_ofDays hn).same hx, hmillis,
    hmillis.nearestInt, DateTime.natAbs_millis_lt hn⟩
  case right =>
    rw [eval_binary_of_ok _ hb ha, t.add_apply hv]
    exact DateTime.shifts_addDays? hx hleap hn _
  case minus =>
    rw [eval_binary_of_ok _ ha hnegate, t.apply_subtract rfl]
    exact DateTime.shifts_addDays? hplus hleap hn _
  case back =>
    rw [eval_binary_of_ok _ ha hb, t.apply_subtract hv]
    exact DateTime.shifts_addDays? hx.neg hleap hopposite _
  case undone =>
    intro w hsum
    obtain ⟨u, rfl, hu⟩ := DateTime.Shifts.exists_date (hsum ▸ hleft)
    have hreturn : u.addDays? (-x) = some t := by
      rw [DateTime.addDays?_of_isInt hx.neg (hu.isLeap.trans hleap) hopposite]
      exact DateTime.daysAway?_eq_some.2 hu.symm
    rw [eval_binary_of_ok _ hsum hb, eval_binary_of_ok _ hsum ha, u.apply_subtract hv, hreturn,
      u.subtract_apply_date t, hu.daysSince hn]
    exact ⟨rfl, rfl⟩

/-- A hundred million days before and after a moment in the year 134,872: the first are there, the second
lie beyond the last day. -/
theorem eval_of_hundredMillionDays :
    let s : Scope := { definition := {}, parameters := .empty }
    let t : DateTime := ⟨49261000, 45296, 123456789, by decide, by decide, by decide, by decide, by decide⟩
    let n : Int := 100000000
    let sum := fun i => Expr.binary .add (.literal (.date t)) (.literal (.number (.ofInt i)))
    t.isLeap = false ∧ n.natAbs ≤ shiftLimit ∧ (-n).natAbs ≤ shiftLimit ∧ (Double.ofInt n).IsInt n ∧
      (Double.ofInt (-n)).IsInt (-n) ∧
      (∃ u, s.eval (sum (-n)) = .ok (.date u) ∧ t.DaysAway (-n) u ∧
        s.eval (.binary .subtract (sum (-n)) (.literal (.date t))) = .ok (.number (.ofInt (-n)))) ∧
      s.eval (sum n) = .error (.typeMismatch .add .date (some .number)) := by
  intro s t n sum
  have hlater : (Double.ofInt n).IsInt n := DateTime.isInt_ofDays (by decide)
  have hearlier : (Double.ofInt (-n)).IsInt (-n) := DateTime.isInt_ofDays (by decide)
  obtain ⟨hbefore, -, -, -, hundone, -⟩ :=
    eval_of_wholeDays (s := s) (a := .literal (.date t)) (b := .literal (.number (.ofInt (-n)))) rfl rfl rfl hearlier
      (by decide) (by decide)
  obtain ⟨hafter, -⟩ :=
    eval_of_wholeDays (s := s) (a := .literal (.date t)) (b := .literal (.number (.ofInt n))) rfl rfl rfl hlater
      (by decide) (by decide)
  unfold DateTime.Shifts at hbefore hafter
  rw [if_pos (by decide)] at hbefore
  rw [if_neg (by decide)] at hafter
  obtain ⟨u, hu, haway⟩ := hbefore
  exact ⟨by decide, by decide, by decide, hlater, hearlier, ⟨u, hu, haway, (hundone _ hu).2⟩, hafter⟩

end Scope

end
end TabularReport
