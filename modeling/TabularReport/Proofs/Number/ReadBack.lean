import TabularReport.Scalar
import TabularReport.Proofs.Number.Digits
/-!
The text of a finite number reads back as that number.  Rounding sees a fraction only up to a common factor,
so a decimal may be compared in units of 10^-1074, where the shortest digits were looked for, whatever number
of places it is laid out with.
-/
set_option autoImplicit false

namespace TabularReport

/-! ### Equal fractions round equally -/

theorem divNearest_mul {c : Nat} (hc : 0 < c) (num den : Nat) :
    divNearest (c * num) (c * den) = divNearest num den := by
  have hlt (a b : Nat) : c * a < c * b ↔ a < b := Nat.mul_lt_mul_left hc
  simp only [divNearest, Nat.mul_div_mul_left _ _ hc, Nat.mul_mod_mul_left, Nat.mul_left_comm 2 c, hlt]

theorem roundBits_mul {c : Nat} (hc : 0 < c) (num den : Nat) :
    roundBits (c * num) (c * den) = roundBits num den := by
  simp only [roundBits, Nat.mul_div_mul_left _ _ hc, Nat.mul_assoc, divNearest_mul hc]

theorem roundBits_congr {num den num' den' : Nat} (hden : 0 < den) (hden' : 0 < den')
    (h : num * den' = num' * den) : roundBits num den = roundBits num' den' := by
  rw [← roundBits_mul hden' num den, ← roundBits_mul hden num' den', Nat.mul_comm den' num, h,
    Nat.mul_comm den' den, Nat.mul_comm num' den]

theorem divNearest_eq_zero_iff {num den : Nat} (hden : 0 < den) : divNearest num den = 0 ↔ 2 * num ≤ den := by
  by_cases hlt : num < den
  · simp only [divNearest, Nat.div_eq_of_lt hlt, Nat.mod_eq_of_lt hlt]
    split
    · omega
    split <;> omega
  · have hquotient : 0 < num / den := Nat.div_pos (Nat.le_of_not_lt hlt) hden
    simp only [divNearest]
    split
    · omega
    split <;> omega

theorem roundBits_of_lt {num den : Nat} (h : 2 * num < den) : roundBits num den = 0 := by
  have hlt : num < den := by omega
  have hspare : spareBits 0 = 0 := by decide
  have hzero : divNearest num den = 0 := (divNearest_eq_zero_iff (by omega)).2 (Nat.le_of_lt h)
  simp [roundBits, Nat.div_eq_of_lt hlt, hspare, hzero]

/-! ### The shortest digits -/

theorem reads_of_onGrid? {reads : Nat → Bool} {exact step d : Nat} (h : onGrid? reads exact step = some d) :
    reads (d * step) = true := by
  unfold onGrid? at h
  grind

theorem reads_firstOnGrid {reads : Nat → Bool} {exact : Nat} (h : reads exact = true) (k : Nat) :
    reads ((firstOnGrid reads exact k).1 * Nat.pow 10 (firstOnGrid reads exact k).2) = true := by
  -- On the grid: a coarser one has a hit, or the search goes on with the finer ones.
  induction k with
  | zero => simpa [firstOnGrid] using h
  | succ k ih =>
    unfold firstOnGrid
    split
    · rename_i d hd
      exact reads_of_onGrid? hd
    · exact ih

namespace Magnitude

theorem pow_five_pos (n : Nat) : 0 < Nat.pow 5 n := Nat.pow_pos (by decide)

theorem readsBack_iff {m : Magnitude} {d : Nat} :
    m.readsBack d = true ↔ roundBits d (Nat.pow 5 decimalPlaces) = m.units := by
  rw [readsBack]
  exact beq_iff_eq

theorem decimalUnits_eq (m : Magnitude) : m.decimalUnits = m.units * Nat.pow 5 decimalPlaces := rfl

theorem readsBack_decimalUnits (m : Magnitude) : m.readsBack m.decimalUnits = true := by
  rw [readsBack_iff, decimalUnits_eq, roundBits_mul_self (pow_five_pos decimalPlaces) m.fits]

theorem readsBack_shortest (m : Magnitude) : m.readsBack (m.shortest.1 * Nat.pow 10 m.shortest.2) = true :=
  reads_firstOnGrid m.readsBack_decimalUnits _

theorem eq_zero_of_units {m : Magnitude} (h : m.units = 0) : m = zero := by
  obtain ⟨units, fits, bounded⟩ := m
  cases h
  rfl

end Magnitude

/-! ### Decimals -/

theorem unitsPerOne_eq : unitsPerOne = Nat.pow 2 decimalPlaces := by
  unfold unitsPerOne decimalPlaces
  generalize 1074 = n
  rfl

theorem two_mul_pow_two_le {p k : Nat} (h : p < 3 * k) : 2 * Nat.pow 2 p ≤ Nat.pow 10 k := by
  simp only [Nat.pow_eq]
  calc 2 * 2 ^ p = 2 ^ (p + 1) := by rw [Nat.pow_succ, Nat.mul_comm]
    _ ≤ 2 ^ (3 * k) := Nat.pow_le_pow_right (by decide) h
    _ = 8 ^ k := by rw [Nat.pow_mul]
    _ ≤ 10 ^ k := Nat.pow_le_pow_left (by decide) k

theorem mul_pow_two_mul_pow_five (n p : Nat) : n * Nat.pow 2 p * Nat.pow 5 p = n * Nat.pow 10 p := by
  simp only [Nat.pow_eq]
  rw [Nat.mul_assoc, ← Nat.mul_pow]

theorem mul_pow_ten {n a b : Nat} (h : a ≤ b) : n * Nat.pow 10 a * Nat.pow 10 (b - a) = n * Nat.pow 10 b := by
  simp only [Nat.pow_eq]
  rw [Nat.mul_assoc, ← Nat.pow_add, Nat.add_sub_cancel' h]

theorem mul_pow_ten_mul (n : Nat) {a b : Nat} (h : a ≤ b) :
    n * Nat.pow 10 (b - a) * Nat.pow 10 a = n * Nat.pow 10 b := by
  rw [Nat.mul_right_comm, mul_pow_ten h]

namespace Double

theorem round_of_roundBits {m : Magnitude} {num den : Nat} (negative : Bool) (h : roundBits num den = m.units) :
    round negative num den = .finite negative m := by
  have hlt : roundBits num den < unitsLimit := h ▸ m.bounded
  rw [round, dif_pos hlt]
  congr

theorem roundBits_of_readsBack {m : Magnitude} {digits places : Nat} (hp : places ≤ decimalPlaces)
    (h : m.readsBack (digits * Nat.pow 10 (decimalPlaces - places)) = true) :
    roundBits (digits * unitsPerOne) (Nat.pow 10 places) = m.units := by
  have hscale : digits * unitsPerOne * Nat.pow 5 decimalPlaces =
      digits * Nat.pow 10 (decimalPlaces - places) * Nat.pow 10 places := by
    rw [unitsPerOne_eq, mul_pow_two_mul_pow_five, mul_pow_ten_mul digits hp]
  rw [← Magnitude.readsBack_iff.1 h]
  exact roundBits_congr (Nat.pow_pos (by decide)) (Magnitude.pow_five_pos decimalPlaces) hscale

/-- A decimal with enough zeros behind its point rounds to zero. -/
theorem roundBits_of_tiny {digits places p : Nat} (k : Nat) (hp : p < 3 * k)
    (h : (digitsOf digits).length + k ≤ places) : roundBits (digits * Nat.pow 2 p) (Nat.pow 10 places) = 0 := by
  refine roundBits_of_lt ?_
  calc 2 * (digits * Nat.pow 2 p) = digits * (2 * Nat.pow 2 p) := by rw [Nat.mul_left_comm]
    _ ≤ digits * Nat.pow 10 k := Nat.mul_le_mul_left digits (two_mul_pow_two_le hp)
    _ < Nat.pow 10 (digitsOf digits).length * Nat.pow 10 k :=
      Nat.mul_lt_mul_of_pos_right (lt_pow_length_digitsOf digits) (Nat.pow_pos (by decide))
    _ = Nat.pow 10 ((digitsOf digits).length + k) := (Nat.pow_add _ _ _).symm
    _ ≤ Nat.pow 10 places := Nat.pow_le_pow_right (by decide) h

theorem ofDecimal_of_readsBack {m : Magnitude} {digits places : Nat} (hp : places ≤ decimalPlaces)
    (h : m.readsBack (digits * Nat.pow 10 (decimalPlaces - places)) = true) :
    ofDecimal false digits (-(places : Int)) = .finite false m := by
  have hround := roundBits_of_readsBack hp h
  unfold ofDecimal
  split
  · rename_i hzero
    subst hzero
    rw [Nat.zero_mul, roundBits_of_lt (Nat.pow_pos (by decide))] at hround
    rw [Magnitude.eq_zero_of_units hround.symm]
  · rw [if_neg (by omega)]
    split
    · -- Such a decimal is not computed with; it would have rounded to zero.
      rename_i htiny
      rw [unitsPerOne_eq, roundBits_of_tiny 401 (by decide) (by omega)] at hround
      rw [Magnitude.eq_zero_of_units hround.symm]
    · split
      · rename_i hwhole
        obtain rfl : places = 0 := by omega
        refine round_of_roundBits false ?_
        simpa using hround
      · rw [Int.neg_neg, Int.toNat_natCast]
        exact round_of_roundBits false hround

/-! ### Reading digits with a point -/

theorem readSign_of_ne {c : Char} {cs : List Char} (hm : c ≠ '-') (hp : c ≠ '+') :
    readSign (c :: cs) = (false, c :: cs) := by
  unfold readSign
  split <;> simp_all

theorem toLower_of_isDigit {c : Char} (h : c.isDigit = true) : c.toLower = c := by
  simp only [Char.isDigit, Bool.and_eq_true, decide_eq_true_eq] at h
  exact dif_neg (by grind)

theorem readChars?_of_start {c : Char} {cs : List Char} (h : c.isDigit = true ∨ c = '.') :
    readChars? (c :: cs) = if (readPoint (c :: cs)).1.isEmpty then none
      else (readExponent? (readPoint (c :: cs)).2.2).map fun e =>
        ofDecimal false (digitsValue (readPoint (c :: cs)).1) (e - (readPoint (c :: cs)).2.1) := by
  have hne (d : Char) (hd : d.isDigit = false ∧ d ≠ '.') : c ≠ d := by
    rintro rfl
    simp_all
  have hlower : c.toLower = c := by
    rcases h with h | rfl
    · exact toLower_of_isDigit h
    · decide
  unfold readChars?
  rw [readSign_of_ne (hne '-' (by decide)) (hne '+' (by decide))]
  simp only [List.map_cons, hlower, List.cons.injEq, hne 'i' (by decide), hne 'n' (by decide), false_and,
    decide_false, Bool.or_self, Bool.false_eq_true, if_false]
  cases readExponent? (readPoint (c :: cs)).2.2 <;> rfl

/-- A number as it is written: digits, and perhaps a point with digits behind it. -/
inductive IsDecimal : List Char → Prop where
  | whole (ds : List Char) : ds ≠ [] → (∀ c ∈ ds, c.isDigit = true) → IsDecimal ds
  | point (ds fraction : List Char) : ds ≠ [] → (∀ c ∈ ds, c.isDigit = true) →
      (∀ c ∈ fraction, c.isDigit = true) → IsDecimal (ds ++ '.' :: fraction)

theorem IsDecimal.exists_cons {cs : List Char} (h : IsDecimal cs) :
    ∃ d ds, cs = d :: ds ∧ d.isDigit = true := by
  cases h with
  | whole ds hne hds =>
    obtain ⟨d, ds, rfl⟩ := List.exists_cons_of_ne_nil hne
    exact ⟨d, ds, rfl, hds d List.mem_cons_self⟩
  | point ds fraction hne hds _ =>
    obtain ⟨d, ds, rfl⟩ := List.exists_cons_of_ne_nil hne
    exact ⟨d, ds ++ '.' :: fraction, rfl, hds d List.mem_cons_self⟩

variable {ds fraction : List Char}

theorem readChars?_whole (hne : ds ≠ []) (hds : ∀ c ∈ ds, c.isDigit = true) :
    readChars? ds = some (ofDecimal false (digitsValue ds) (-((0 : Nat) : Int))) := by
  have hread : readPoint ds = (ds, 0, []) := by
    have htake := Text.takeWhile_run hds Text.stops_nil
    have hdrop := Text.dropWhile_run hds Text.stops_nil
    rw [List.append_nil] at htake hdrop
    simp [readPoint, htake, hdrop]
  cases ds with
  | nil => contradiction
  | cons d ds => simp [readChars?_of_start (.inl (hds d List.mem_cons_self)), hread, readExponent?]

theorem readChars?_point (hne : ds ++ fraction ≠ []) (hds : ∀ c ∈ ds, c.isDigit = true)
    (hfraction : ∀ c ∈ fraction, c.isDigit = true) :
    readChars? (ds ++ '.' :: fraction) =
      some (ofDecimal false (digitsValue (ds ++ fraction)) (-(fraction.length : Int))) := by
  have hread : readPoint (ds ++ '.' :: fraction) = (ds ++ fraction, fraction.length, []) := by
    have hstop : Text.Stops Char.isDigit ('.' :: fraction) := by simp
    have htake := Text.takeWhile_run hfraction Text.stops_nil
    have hdrop := Text.dropWhile_run hfraction Text.stops_nil
    rw [List.append_nil] at htake hdrop
    simp [readPoint, Text.takeWhile_run hds hstop, Text.dropWhile_run hds hstop, htake, hdrop]
  have hempty : (ds ++ fraction).isEmpty = false := by simpa using hne
  cases ds with
  | nil =>
    rw [List.nil_append] at hread ⊢
    simp only [readChars?_of_start (.inr rfl), hread, hempty, readExponent?, Option.map_some]
    simp
  | cons d ds =>
    rw [List.cons_append] at hread ⊢
    simp [readChars?_of_start (.inl (hds d List.mem_cons_self)), hread, readExponent?]

/-! ### The text of a number -/

theorem positional_whole {n places : Nat} (h : n % Nat.pow 10 places = 0) :
    positional n places = digitsOf (n / Nat.pow 10 places) := by
  simp only [positional, h, if_true, List.append_nil]

theorem exists_positional_point {n places : Nat} (h : n % Nat.pow 10 places ≠ 0) :
    ∃ fraction k, positional n places = digitsOf (n / Nat.pow 10 places) ++ '.' :: fraction ∧
      (∀ c ∈ fraction, c.isDigit = true) ∧ fraction.length + k = places ∧
      digitsValue (digitsOf (n / Nat.pow 10 places) ++ fraction) * Nat.pow 10 k = n := by
  have hplaces : 0 < places := by
    rcases Nat.eq_zero_or_pos places with rfl | hpos
    · simp [Nat.mod_one] at h
    · exact hpos
  obtain ⟨k, hk⟩ := exists_dropEndZeros_append (padded places (n % Nat.pow 10 places))
  have hpadded := length_padded hplaces (Nat.mod_lt n (Nat.pow_pos (by decide) : 0 < Nat.pow 10 places))
  have hlength : (dropEndZeros (padded places (n % Nat.pow 10 places))).length + k = places := by
    have hlength := congrArg List.length hk
    rwa [List.length_append, List.length_replicate, hpadded] at hlength
  have hvalue := digitsValue_padded places (n % Nat.pow 10 places)
  rw [← hk, digitsValue_append, digitsValue_replicate_zero, List.length_replicate, Nat.add_zero] at hvalue
  refine ⟨dropEndZeros (padded places (n % Nat.pow 10 places)), k, ?_, ?_, hlength, ?_⟩
  · simp only [positional, h, if_false]
  · exact fun c hc => isDigit_of_mem_padded (hk ▸ List.mem_append_left _ hc)
  · rw [digitsValue_append, digitsValue_digitsOf, Nat.add_mul, hvalue, Nat.mul_assoc]
    simp only [Nat.pow_eq] at hlength ⊢
    rw [← Nat.pow_add, hlength, Nat.mul_comm, Nat.div_add_mod]

theorem isDecimal_digitsOf (n : Nat) : IsDecimal (digitsOf n) :=
  .whole _ (digitsOf_ne_nil n) fun _ hc => isDigit_of_mem_digitsOf hc

theorem isDecimal_positional (n places : Nat) : IsDecimal (positional n places) := by
  by_cases h : n % Nat.pow 10 places = 0
  · rw [positional_whole h]
    exact isDecimal_digitsOf _
  · obtain ⟨fraction, k, htext, hfraction, -⟩ := exists_positional_point h
    rw [htext]
    exact .point _ _ (digitsOf_ne_nil _) (fun _ hc => isDigit_of_mem_digitsOf hc) hfraction

theorem isDecimal_laidOut (places n k : Nat) : IsDecimal (laidOut places n k) := by
  unfold laidOut
  split
  · exact isDecimal_positional n _
  · exact isDecimal_digitsOf _

variable {m : Magnitude} {n places k : Nat}

theorem readChars?_digitsOf (h : m.readsBack (n * Nat.pow 10 decimalPlaces) = true) :
    readChars? (digitsOf n) = some (.finite false m) := by
  rw [readChars?_whole (digitsOf_ne_nil n) fun _ hc => isDigit_of_mem_digitsOf hc, digitsValue_digitsOf,
    ofDecimal_of_readsBack (Nat.zero_le _) (by rwa [Nat.sub_zero])]

theorem readChars?_positional (hp : places ≤ decimalPlaces)
    (h : m.readsBack (n * Nat.pow 10 (decimalPlaces - places)) = true) :
    readChars? (positional n places) = some (.finite false m) := by
  by_cases hfraction : n % Nat.pow 10 places = 0
  · rw [positional_whole hfraction]
    refine readChars?_digitsOf ?_
    rwa [← mul_pow_ten hp, Nat.div_mul_cancel (Nat.dvd_of_mod_eq_zero hfraction)]
  · obtain ⟨fraction, k, htext, hdigits, rfl, hvalue⟩ := exists_positional_point hfraction
    rw [htext, readChars?_point (by simp [digitsOf_ne_nil]) (fun _ hc => isDigit_of_mem_digitsOf hc) hdigits]
    refine congrArg some (ofDecimal_of_readsBack (Nat.le_of_add_right_le hp) ?_)
    have hk : k ≤ decimalPlaces - fraction.length := by omega
    rwa [← mul_pow_ten hk, hvalue, Nat.sub_sub]

theorem readChars?_laidOut (h : m.readsBack (n * Nat.pow 10 k) = true) :
    readChars? (laidOut decimalPlaces n k) = some (.finite false m) := by
  unfold laidOut
  split
  · rename_i hk
    refine readChars?_positional (Nat.sub_le _ _) ?_
    rwa [Nat.sub_sub_self hk]
  · rename_i hk
    refine readChars?_digitsOf ?_
    rwa [mul_pow_ten_mul n (Nat.le_of_not_le hk)]

theorem readChars?_chars (m : Magnitude) : readChars? m.chars = some (.finite false m) :=
  readChars?_laidOut m.readsBack_shortest

theorem isDecimal_chars (m : Magnitude) : IsDecimal m.chars :=
  isDecimal_laidOut _ _ _

/-- A whole number is its own shortest text. -/
theorem readsBack_of_isWhole {m : Magnitude} (h : (finite false m).isWhole = true) :
    m.readsBack (m.units / unitsPerOne * Nat.pow 10 decimalPlaces) = true := by
  have hdvd : unitsPerOne ∣ m.units := Nat.dvd_of_mod_eq_zero (beq_iff_eq.1 h)
  have hunits : m.units / unitsPerOne * Nat.pow 10 decimalPlaces = m.decimalUnits := by
    rw [← mul_pow_two_mul_pow_five, ← unitsPerOne_eq, Nat.div_mul_cancel hdvd, m.decimalUnits_eq]
  rw [hunits, m.readsBack_decimalUnits]

theorem intText_natCast (n : Nat) : intText n = String.ofList (digitsOf n) := by
  simp [intText, signChars]

theorem truncate_finite (m : Magnitude) : (finite false m).truncate = (m.units / unitsPerOne : Nat) := rfl

theorem text_finite (m : Magnitude) : (finite false m).text = String.ofList m.chars := by
  rw [text, chars, signChars, if_neg Bool.false_ne_true, List.nil_append]

/-- The text of a finite number without a sign is a decimal that reads back as that number. -/
theorem exists_numberText (m : Magnitude) : ∃ cs, Scalar.numberText (.finite false m) = String.ofList cs ∧
    IsDecimal cs ∧ readChars? cs = some (.finite false m) := by
  unfold Scalar.numberText
  split
  · rename_i h
    have hwhole : (finite false m).isWhole = true := (Bool.and_eq_true_iff.1 h).1
    refine ⟨digitsOf (m.units / unitsPerOne), ?_, isDecimal_digitsOf _,
      readChars?_digitsOf (readsBack_of_isWhole hwhole)⟩
    rw [truncate_finite, intText_natCast]
  · exact ⟨m.chars, text_finite m, isDecimal_chars m, readChars?_chars m⟩

/-! ### What is read without a sign -/

def Unsigned (x : Double) : Prop :=
  x = .infinite false ∨ ∃ m, x = .finite false m

theorem unsigned_round (num den : Nat) : (round false num den).Unsigned := by
  unfold round
  split
  · exact .inr ⟨_, rfl⟩
  · exact .inl rfl

theorem unsigned_ofDecimal (digits : Nat) (exponent : Int) : (ofDecimal false digits exponent).Unsigned := by
  unfold ofDecimal
  split
  · exact .inr ⟨_, rfl⟩
  split
  · exact .inl rfl
  split
  · exact .inr ⟨_, rfl⟩
  split
  · exact unsigned_round _ _
  · exact unsigned_round _ _

theorem unsigned_of_readChars? {c : Char} {cs : List Char} {x : Double} (hc : c.isDigit = true ∨ c = '.')
    (h : readChars? (c :: cs) = some x) : x.Unsigned := by
  rw [readChars?_of_start hc] at h
  split at h
  · contradiction
  · obtain ⟨e, _, rfl⟩ := Option.map_eq_some_iff.1 h
    exact unsigned_ofDecimal _ _

end Double
end TabularReport
