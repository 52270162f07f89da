import TabularReport.Proofs.Number.Text
import TabularReport.Table.Basic
/-!
Numbers as they are displayed.  Grouping adds commas only, and the groups of three are counted from the end of
the whole part, which leaves no choice.  The sign of a number is written before its digits are rounded, so a
negative number with no digit but zeros keeps its minus.
-/
set_option autoImplicit false

namespace TabularReport

open Double (IsDecimal signChars)

/-! ### Groups of three -/

/-- Digits divided into a group of one to three and groups of three behind it. -/
structure Divides (ds lead : List Char) (groups : List (List Char)) : Prop where
  eq : ds = lead ++ groups.flatten
  ne_nil : lead ≠ []
  length_le : lead.length ≤ 3
  three : ∀ group ∈ groups, group.length = 3

def Grouped (cs : List Char) : Prop :=
  ∃ ds lead groups, Divides ds lead groups ∧ (∀ c ∈ ds, c.isDigit = true) ∧ cs = lead ++ groups.flatMap (',' :: ·)

def afterMinus : List Char → List Char
  | '-' :: cs => cs
  | cs => cs

/-- Whether `out` is `cs` with commas between the groups of its whole part and nowhere else. -/
structure Separated (cs out : List Char) : Prop where
  same : out.filter (· != ',') = cs
  whole : Grouped (afterMinus (out.takeWhile (· != '.')))
  fraction : out.dropWhile (· != '.') = cs.dropWhile (· != '.')

variable {cs ds lead group rest fraction out body : List Char} {groups : List (List Char)}

theorem exists_divides (hne : ds ≠ []) : ∃ lead groups, Divides ds lead groups := by
  induction ds with
  | nil => contradiction
  | cons d ds ih =>
    by_cases hnil : ds = []
    · exact ⟨[d], [], by simp [hnil], by simp, by simp, by simp⟩
    obtain ⟨lead, groups, rfl, hlead, hlength, hthree⟩ := ih hnil
    -- A full group in front is closed by one digit more.
    by_cases hfull : lead.length = 3
    · exact ⟨[d], lead :: groups, by simp, by simp, by simp, List.forall_mem_cons.2 ⟨hfull, hthree⟩⟩
    · exact ⟨d :: lead, groups, by simp, by simp, by simp; omega, hthree⟩

theorem groupDigits_of_length_le (h : lead.length ≤ 3) : groupDigits lead = lead := by
  match lead, h with
  | [], _ | [_], _ | [_, _], _ | [_, _, _], _ => rfl

theorem groupDigits_append (hne : group ≠ []) (hlength : group.length ≤ 3) (hrest : rest ≠ [])
    (hthree : 3 ∣ rest.length) : groupDigits (group ++ rest) = group ++ ',' :: groupDigits rest := by
  have hmod := Nat.mod_eq_zero_of_dvd hthree
  match group, hne, hlength with
  | [_], _, _ => simp [groupDigits, hrest, hmod]
  | [_, _], _, _ =>
    have hone : (rest.length + 1) % 3 ≠ 0 := by omega
    simp [groupDigits, hrest, hmod, hone]
  | [_, _, _], _, _ =>
    have hone : (rest.length + 1) % 3 ≠ 0 := by omega
    have htwo : (rest.length + 1 + 1) % 3 ≠ 0 := by omega
    simp [groupDigits, hrest, hmod, hone, htwo]

theorem three_dvd_length_flatten (h : ∀ group ∈ groups, group.length = 3) : 3 ∣ groups.flatten.length := by
  rw [List.length_flatten, List.map_eq_replicate_iff.2 h, List.sum_replicate_nat]
  exact Nat.dvd_mul_left 3 _

theorem groupDigits_of_divides (h : Divides ds lead groups) :
    groupDigits ds = lead ++ groups.flatMap (',' :: ·) := by
  obtain ⟨rfl, hne, hlength, hthree⟩ := h
  induction groups generalizing lead with
  | nil => simpa using groupDigits_of_length_le hlength
  | cons group groups ih =>
    obtain ⟨hgroup, hgroups⟩ := List.forall_mem_cons.1 hthree
    have hnil : group ≠ [] := List.length_pos_iff.1 (by omega)
    have hrest : group ++ groups.flatten ≠ [] := List.append_ne_nil_of_left_ne_nil hnil _
    have hdvd : 3 ∣ (group ++ groups.flatten).length := three_dvd_length_flatten hthree
    rw [List.flatten_cons, groupDigits_append hne hlength hrest hdvd, ih hnil (Nat.le_of_eq hgroup) hgroups]
    simp

theorem mem_groupDigits {c : Char} (h : c ≠ ',') : c ∈ groupDigits ds ↔ c ∈ ds := by
  induction ds with
  | nil => rfl
  | cons d ds ih =>
    rw [groupDigits]
    split <;> simp [h, ih]

theorem filter_groupDigits (h : ',' ∉ ds) : (groupDigits ds).filter (· != ',') = ds := by
  induction ds with
  | nil => rfl
  | cons d ds ih =>
    obtain ⟨hd, hds⟩ := not_or.1 (mt List.mem_cons.2 h)
    rw [groupDigits]
    split <;> simp [Ne.symm hd, ih hds]

theorem head?_groupDigits (ds : List Char) : (groupDigits ds).head? = ds.head? := by
  cases ds <;> rfl

theorem Divides.lead_ne_nil (h : Divides ds lead groups) : ds ≠ [] :=
  h.eq ▸ List.append_ne_nil_of_left_ne_nil h.ne_nil _

/-- A digit string can be grouped in one way only. -/
theorem grouped_iff : Grouped cs ↔ ∃ ds, ds ≠ [] ∧ (∀ c ∈ ds, c.isDigit = true) ∧ cs = groupDigits ds := by
  constructor
  · rintro ⟨ds, lead, groups, hdivides, hds, rfl⟩
    exact ⟨ds, hdivides.lead_ne_nil, hds, (groupDigits_of_divides hdivides).symm⟩
  · rintro ⟨ds, hne, hds, rfl⟩
    obtain ⟨lead, groups, hdivides⟩ := exists_divides hne
    exact ⟨ds, lead, groups, hdivides, hds, groupDigits_of_divides hdivides⟩

/-! ### Sign, whole part and fraction -/

theorem head?_ne_minus (hds : ∀ c ∈ ds, c.isDigit = true) : ds.head? ≠ some '-' :=
  fun h => not_mem_of_digits hds (by decide) (List.mem_of_head? h)

theorem not_mem_signChars {s : Bool} {c : Char} (hc : c ≠ '-') : c ∉ signChars s := by
  cases s <;> simp [signChars, hc]

theorem exists_sign (cs : List Char) : ∃ s, cs = signChars s ++ afterMinus cs := by
  unfold afterMinus
  split
  · exact ⟨true, rfl⟩
  · exact ⟨false, rfl⟩

theorem afterMinus_sign (s : Bool) (h : cs.head? ≠ some '-') : afterMinus (signChars s ++ cs) = cs := by
  cases s with
  | true => rfl
  | false =>
    rw [signChars, if_neg Bool.false_ne_true, List.nil_append]
    unfold afterMinus
    split
    · simp at h
    · rfl

theorem Double.IsDecimal.exists_fraction (h : IsDecimal body) :
    ∃ ds fraction, body = ds ++ fraction ∧ ds ≠ [] ∧ (∀ c ∈ ds, c.isDigit = true) ∧
      Text.Stops (· != '.') fraction ∧ ',' ∉ fraction := by
  cases h with
  | whole _ hne hds => exact ⟨body, [], by simp, hne, hds, Text.stops_nil, by simp⟩
  | point ds fraction hne hds hfraction =>
    have hcomma : ',' ∉ fraction := not_mem_of_digits hfraction (by decide)
    exact ⟨ds, '.' :: fraction, rfl, hne, hds, by simp, by simp [hcomma]⟩

theorem ne_point_of_mem (s : Bool) (hcs : '.' ∉ cs) : ∀ c ∈ signChars s ++ cs, (c != '.') = true := by
  rintro c hc
  refine bne_iff_ne.2 ?_
  rintro rfl
  exact (List.mem_append.1 hc).elim (not_mem_signChars (by decide)) hcs

theorem groupThousands_sign (s : Bool) (hne : ds ≠ []) (hds : ∀ c ∈ ds, c.isDigit = true)
    (hfraction : Text.Stops (· != '.') fraction) :
    groupThousands (signChars s ++ (ds ++ fraction)) = signChars s ++ groupDigits ds ++ fraction := by
  have hrun : ∀ c ∈ ds, (c != '.') = true := ne_point_of_mem false (not_mem_of_digits hds (by decide))
  have htake := Text.takeWhile_run hrun hfraction
  have hdrop := Text.dropWhile_run hrun hfraction
  cases s with
  | true => simp [groupThousands, signChars, htake, hdrop]
  | false =>
    obtain ⟨d, ds, rfl⟩ := List.exists_cons_of_ne_nil hne
    have hd : d ≠ '-' := by simpa using head?_ne_minus hds
    rw [List.cons_append] at htake hdrop ⊢
    simp [groupThousands, signChars, htake, hdrop, hd]

theorem filter_sign_groupDigits (s : Bool) (hds : ∀ c ∈ ds, c.isDigit = true) (hfraction : ',' ∉ fraction) :
    (signChars s ++ groupDigits ds ++ fraction).filter (· != ',') = signChars s ++ (ds ++ fraction) := by
  have hself {cs : List Char} (h : ',' ∉ cs) : cs.filter (· != ',') = cs :=
    List.filter_eq_self.2 fun c hc => bne_iff_ne.2 fun hcomma => h (hcomma ▸ hc)
  rw [List.filter_append, List.filter_append, filter_groupDigits (not_mem_of_digits hds (by decide)),
    hself (not_mem_signChars (by decide)), hself hfraction, List.append_assoc]

theorem separated_groupThousands (s : Bool) (h : IsDecimal body) :
    Separated (signChars s ++ body) (groupThousands (signChars s ++ body)) := by
  obtain ⟨ds, fraction, rfl, hne, hds, hfraction, hcomma⟩ := h.exists_fraction
  rw [groupThousands_sign s hne hds hfraction]
  have hpoint : '.' ∉ ds := not_mem_of_digits hds (by decide)
  have hrun := ne_point_of_mem s (mt (mem_groupDigits (by decide)).1 hpoint)
  constructor
  case same => exact filter_sign_groupDigits s hds hcomma
  case whole =>
    rw [Text.takeWhile_run hrun hfraction, afterMinus_sign s (head?_groupDigits ds ▸ head?_ne_minus hds)]
    exact grouped_iff.2 ⟨ds, hne, hds, rfl⟩
  case fraction =>
    rw [Text.dropWhile_run hrun hfraction, ← List.append_assoc,
      Text.dropWhile_run (ne_point_of_mem s hpoint) hfraction]

theorem eq_groupThousands_of_separated (s : Bool) (h : IsDecimal body) (hout : Separated (signChars s ++ body) out) :
    out = groupThousands (signChars s ++ body) := by
  obtain ⟨hsame, hwhole, hrest⟩ := hout
  obtain ⟨ds, fraction, rfl, hne, hds, hfraction, hcomma⟩ := h.exists_fraction
  have hrun := ne_point_of_mem s (not_mem_of_digits hds (by decide))
  rw [← List.append_assoc, Text.dropWhile_run hrun hfraction] at hrest
  obtain ⟨ds', hne', hds', hgroups⟩ := grouped_iff.1 hwhole
  obtain ⟨s', hsign⟩ := exists_sign (out.takeWhile (· != '.'))
  have hparts : out = signChars s' ++ groupDigits ds' ++ fraction := by
    rw [← hgroups, ← hsign, ← hrest, List.takeWhile_append_dropWhile]
  rw [hparts, filter_sign_groupDigits s' hds' hcomma, ← List.append_assoc, ← List.append_assoc] at hsame
  have hfront := List.append_cancel_right hsame
  -- Without its commas the text has the same sign and digits, which is all that the groups depend on.
  have hdigits : ds' = ds := by
    rw [← afterMinus_sign s' (head?_ne_minus hds'), hfront, afterMinus_sign s (head?_ne_minus hds)]
  subst hdigits
  rw [hparts, groupThousands_sign s hne hds hfraction, List.append_cancel_right hfront]

theorem separated_iff (s : Bool) (h : IsDecimal body) :
    Separated (signChars s ++ body) out ↔ out = groupThousands (signChars s ++ body) := by
  constructor
  · exact eq_groupThousands_of_separated s h
  · rintro rfl
    exact separated_groupThousands s h

theorem separated_sixDigits :
    Separated "-123456.7890".toList "-123,456.7890".toList ∧
      ¬ Separated "-123456.7890".toList "-,123,456.7890".toList := by
  have hbody : IsDecimal "123456.7890".toList :=
    .point ['1', '2', '3', '4', '5', '6'] ['7', '8', '9', '0'] (by simp) (by simp) (by simp)
  exact ⟨(separated_iff true hbody).2 (by decide +kernel), mt (separated_iff true hbody).1 (by decide +kernel)⟩

/-! ### Digits that are not zero -/

def Significant (cs : List Char) : Prop :=
  ∃ c ∈ cs, c.isDigit = true ∧ c ≠ '0'

theorem significant_append : Significant (cs ++ ds) ↔ Significant cs ∨ Significant ds := by
  simp [Significant, or_and_right, exists_or]

theorem not_significant_signChars (s : Bool) : ¬ Significant (signChars s) := by
  cases s <;> simp [Significant, signChars]

theorem significant_groupDigits : Significant (groupDigits ds) ↔ Significant ds := by
  refine exists_congr fun c => and_congr_left fun h => mem_groupDigits ?_
  rintro rfl
  exact absurd h.1 (by decide)

theorem significant_iff (hds : ∀ c ∈ ds, c.isDigit = true) : Significant ds ↔ digitsValue ds ≠ 0 := by
  induction ds with
  | nil => simp [Significant, digitsValue]
  | cons d ds ih =>
    obtain ⟨hd, hds⟩ := List.forall_mem_cons.1 hds
    have hzero : d.toNat - 48 = 0 ↔ d = '0' := by
      have hrange := Char.isDigit_iff_toNat.1 hd
      rw [← Char.toNat_inj]
      simp only [Char.reduceToNat] at hrange ⊢
      omega
    rw [digitsValue_cons, Ne, Nat.add_eq_zero_iff, Nat.mul_eq_zero, hzero, not_and_or, ← Ne, ← ih hds]
    simp [Significant, hd]

theorem significant_digitsOf {n : Nat} : Significant (digitsOf n) ↔ n ≠ 0 := by
  rw [significant_iff fun _ => isDigit_of_mem_digitsOf, digitsValue_digitsOf]

theorem significant_padded {width n : Nat} : Significant (padded width n) ↔ n ≠ 0 := by
  rw [significant_iff fun _ => isDigit_of_mem_padded, digitsValue_padded]

/-! ### Numbers -/

def Magnitude.places (m : Magnitude) : Nat :=
  if m.units % unitsPerOne == 0 then 0 else 2

/-- The magnitude that is displayed, in units of its last decimal. -/
def Magnitude.shown (m : Magnitude) : Nat :=
  divNearest (m.units * Nat.pow 10 m.places) unitsPerOne

theorem Magnitude.shown_ne_zero_iff {m : Magnitude} : m.shown ≠ 0 ↔ unitsPerOne < 200 * m.units := by
  rw [shown, Ne, divNearest_eq_zero_iff unitsPerOne_pos, Nat.not_le, places]
  have hpos := unitsPerOne_pos
  by_cases hwhole : m.units % unitsPerOne = 0
  · have hone : m.units = 0 ∨ unitsPerOne ≤ m.units :=
      m.units.eq_zero_or_pos.imp_right fun h => Nat.le_of_dvd h (Nat.dvd_of_mod_eq_zero hwhole)
    simp [hwhole]
    omega
  · simp [hwhole]
    omega

namespace Double

theorem unsignedZero_sign (s : Bool) (m : Magnitude) :
    (finite s m).unsignedZero = finite (s && m.units != 0) m := by
  by_cases hm : m = .zero
  · subst hm
    cases s <;> rfl
  · have hunits : m.units ≠ 0 := mt Magnitude.eq_zero_of_units hm
    simp [unsignedZero_finite hm, hunits]

theorem fixed_places (s : Bool) (m : Magnitude) :
    fixed m.places (finite s m) = signChars s ++ (digitsOf (m.shown / Nat.pow 10 m.places) ++
      if m.places = 0 then [] else '.' :: padded m.places (m.shown % Nat.pow 10 m.places)) :=
  List.append_assoc _ _ _

theorem exists_fraction_displayed (s : Bool) (m : Magnitude) :
    ∃ fraction, (finite s m).displayed =
        signChars (s && m.units != 0) ++ groupDigits (digitsOf (m.shown / Nat.pow 10 m.places)) ++ fraction ∧
      (Significant fraction ↔ m.shown % Nat.pow 10 m.places ≠ 0) := by
  have hfinite : (finite s m).isFinite = true := rfl
  have hplaces : (if (finite s m).isWhole then 0 else 2) = m.places := rfl
  rw [displayed, if_pos hfinite, unsignedZero_sign, hplaces, fixed_places]
  refine ⟨_, groupThousands_sign _ (digitsOf_ne_nil _) (fun _ => isDigit_of_mem_digitsOf) ?_, ?_⟩
  · split <;> simp
  · split
    · rename_i hzero
      simp [hzero, Significant, Nat.mod_one]
    · rw [← List.singleton_append, significant_append, significant_padded]
      simp [Significant]

theorem significant_displayed (s : Bool) (m : Magnitude) :
    Significant (finite s m).displayed ↔ unitsPerOne < 200 * m.units := by
  obtain ⟨fraction, hdisplayed, hfraction⟩ := exists_fraction_displayed s m
  rw [hdisplayed, significant_append, significant_append, significant_groupDigits, significant_digitsOf, hfraction,
    or_iff_right (not_significant_signChars _), ← Magnitude.shown_ne_zero_iff]
  have hsum := Nat.div_add_mod m.shown (Nat.pow 10 m.places)
  constructor
  · rintro h hzero
    rw [hzero] at h
    simp at h
  · intro h
    rw [← not_and_or]
    rintro ⟨hwhole, hrest⟩
    rw [hwhole, hrest] at hsum
    exact h hsum.symm

theorem head?_displayed (s : Bool) (m : Magnitude) :
    (finite s m).displayed.head? = some '-' ↔ s = true ∧ m.units ≠ 0 := by
  obtain ⟨fraction, hdisplayed, -⟩ := exists_fraction_displayed s m
  have hminus : (digitsOf (m.shown / Nat.pow 10 m.places)).head? ≠ some '-' :=
    head?_ne_minus fun _ => isDigit_of_mem_digitsOf
  have hhead : (groupDigits (digitsOf (m.shown / Nat.pow 10 m.places)) ++ fraction).head? ≠ some '-' := by
    rw [List.head?_append, head?_groupDigits, List.head?_eq_some_head (digitsOf_ne_nil _)]
    simpa [List.head?_eq_some_head (digitsOf_ne_nil _)] using hminus
  rw [hdisplayed, List.append_assoc]
  cases s <;> cases hm : m.units != 0 <;> simp_all [signChars]

/-- A number is displayed with a minus if it is negative, and with no digit but zeros if it is not above half a
hundredth; both together make a negative zero. -/
theorem minus_of_displayed (s : Bool) (m : Magnitude) :
    ((finite s m).displayed.head? = some '-' ↔ s = true ∧ m.units ≠ 0) ∧
      (Significant (finite s m).displayed ↔ unitsPerOne < 200 * m.units) ∧
      (((finite s m).displayed.head? = some '-' → Significant (finite s m).displayed) ↔
        ¬ (s = true ∧ m.units ≠ 0 ∧ 200 * m.units ≤ unitsPerOne)) := by
  rw [head?_displayed, significant_displayed]
  refine ⟨Iff.rfl, Iff.rfl, ?_⟩
  rw [← and_assoc, ← Nat.not_lt, not_and_not_right]

theorem negativeZero_of_thousandth :
    (ofDecimal true 1 (-3)).displayed = "-0.00".toList ∧
      ¬ ∀ x : Double, x.isFinite = true → x.displayed.head? = some '-' → Significant x.displayed := by
  have hdisplayed : (ofDecimal true 1 (-3)).displayed = "-0.00".toList := by decide +kernel
  refine ⟨hdisplayed, fun h => ?_⟩
  have hsignificant := h (ofDecimal true 1 (-3)) (by decide +kernel) (by rw [hdisplayed]; rfl)
  rw [hdisplayed] at hsignificant
  simp [Significant] at hsignificant

end Double
end TabularReport
