import TabularReport.Proofs.Number.Order
import TabularReport.Proofs.Number.ReadBack
import TabularReport.Table.Basic

set_option autoImplicit false

namespace TabularReport

namespace Double

theorem neg_round (num den : Nat) : (round false num den).neg = round true num den := by
  by_cases h : roundBits num den < unitsLimit
  · rw [round, round, dif_pos h, dif_pos h, neg, Bool.not_false]
  · rw [round, round, dif_neg h, dif_neg h, neg, Bool.not_false]

theorem neg_ofDecimal (digits : Nat) (exponent : Int) :
    (ofDecimal false digits exponent).neg = ofDecimal true digits exponent := by
  unfold ofDecimal
  split
  · rfl
  split
  · rfl
  split
  · rfl
  split
  · exact neg_round _ _
  · exact neg_round _ _

theorem readChars?_minus {cs : List Char} (h : readSign cs = (false, cs)) :
    readChars? ('-' :: cs) = (readChars? cs).map neg := by
  have hminus : readSign ('-' :: cs) = (true, cs) := rfl
  unfold readChars?
  rw [hminus, h]
  simp only []
  split
  · rfl
  split
  · rfl
  split
  · rfl
  split
  · exact congrArg some (neg_ofDecimal _ _).symm
  · rfl

theorem IsDecimal.readSign_eq {cs : List Char} (h : IsDecimal cs) : readSign cs = (false, cs) := by
  obtain ⟨d, ds, rfl, hd⟩ := h.exists_cons
  refine readSign_of_ne ?_ ?_ <;> rintro rfl <;> contradiction

theorem isZero_iff {x : Double} : x.isZero = true ↔ ∃ s, x = .finite s .zero := by
  cases x with
  | nan => simp [isZero]
  | infinite s => simp [isZero]
  | finite s m =>
    have hzero : (finite s m).isZero = true ↔ m = .zero := beq_iff_eq.trans (Magnitude.units_inj (n := .zero))
    simp [hzero]

theorem unsignedZero_eq_iff {x y : Double} : x.unsignedZero = y.unsignedZero ↔ x = y ∨ x.AreZeros y := by
  constructor
  · intro h
    unfold unsignedZero at h
    split at h <;> split at h
    · rename_i hx hy
      obtain ⟨s, rfl⟩ := isZero_iff.1 hx
      obtain ⟨t, rfl⟩ := isZero_iff.1 hy
      by_cases hsign : t = s
      · exact .inl (by rw [hsign])
      · exact .inr ⟨s, rfl, by rw [Bool.eq_not.2 hsign]⟩
    · rename_i hy
      exact absurd (isZero_iff.2 ⟨false, h.symm⟩) hy
    · rename_i hx _
      exact absurd (isZero_iff.2 ⟨false, h⟩) hx
    · exact .inl h
  · rintro (rfl | ⟨s, rfl, rfl⟩)
    · rfl
    · rfl

theorem unsignedZero_finite {s : Bool} {m : Magnitude} (h : m ≠ .zero) :
    (finite s m).unsignedZero = .finite s m := by
  have hzero : ¬ (finite s m).isZero = true := by
    rw [isZero_iff]
    rintro ⟨t, ht⟩
    exact h (finite.inj ht).2
  rw [unsignedZero, if_neg hzero]

theorem ofList_minus (cs : List Char) : String.ofList ('-' :: cs) = "-" ++ String.ofList cs :=
  @String.ofList_append ['-'] cs

theorem numberText_minus {m : Magnitude} (h : m ≠ .zero) :
    Scalar.numberText (.finite true m) = "-" ++ Scalar.numberText (.finite false m) := by
  have hunits : m.units ≠ 0 := fun hunits => h (Magnitude.units_inj.1 hunits)
  have hcondition : ((finite true m).isWhole && (finite true m).magnitudeBelow (Nat.pow 10 15)) =
      ((finite false m).isWhole && (finite false m).magnitudeBelow (Nat.pow 10 15)) := rfl
  unfold Scalar.numberText
  rw [hcondition]
  split
  · rename_i hshort
    have hdvd : unitsPerOne ∣ m.units := Nat.dvd_of_mod_eq_zero (beq_iff_eq.1 (Bool.and_eq_true_iff.1 hshort).1)
    have hwhole : 0 < m.units / unitsPerOne := Nat.div_pos (Nat.le_of_dvd (Nat.pos_of_ne_zero hunits) hdvd) unitsPerOne_pos
    have htruncate : (finite true m).truncate = -((m.units / unitsPerOne : Nat) : Int) := rfl
    rw [truncate_finite, intText_natCast, htruncate, intText, Int.natAbs_neg, Int.natAbs_natCast,
      decide_eq_true (by omega), signChars, if_pos rfl, List.singleton_append, ofList_minus]
  · rw [text_finite, text, chars, signChars, if_pos rfl, List.singleton_append, ofList_minus]

theorem numberText_negativeZero :
    Scalar.numberText (.finite true .zero) = Scalar.numberText (.finite false .zero) := by
  decide +kernel

/-- The plain text of a number reads back as the number, of negative zero as zero. -/
theorem readChars?_numberText (x : Double) : readChars? (Scalar.numberText x).toList = some x.unsignedZero := by
  cases x with
  | nan => decide
  | infinite s => cases s <;> decide
  | finite s m =>
    obtain ⟨cs, htext, hdecimal, hread⟩ := exists_numberText m
    by_cases hm : m = .zero
    · subst hm
      cases s with
      | false => rw [htext, String.toList_ofList, hread]; rfl
      | true => rw [numberText_negativeZero, htext, String.toList_ofList, hread]; rfl
    · rw [unsignedZero_finite hm]
      cases s with
      | false => rw [htext, String.toList_ofList, hread]
      | true =>
        rw [numberText_minus hm, htext, ← ofList_minus, String.toList_ofList, readChars?_minus hdecimal.readSign_eq,
          hread]
        rfl

/-- Numbers have one text if and only if they are equal. -/
theorem numberText_eq_iff {x y : Double} (hx : x.isNan = false) :
    Scalar.numberText x = Scalar.numberText y ↔ x.same y = true := by
  rw [same_iff hx]
  constructor
  · intro h
    have hread := readChars?_numberText x
    rw [h, readChars?_numberText y, Option.some.injEq] at hread
    exact unsignedZero_eq_iff.1 hread.symm
  · rintro (rfl | ⟨s, rfl, rfl⟩)
    · rfl
    · cases s
      · exact numberText_negativeZero.symm
      · exact numberText_negativeZero

end Double
end TabularReport
