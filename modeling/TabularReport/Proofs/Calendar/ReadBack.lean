import TabularReport.Settings.Basic
import TabularReport.Proofs.Calendar.Parts
import TabularReport.Proofs.Text.Proper

set_option autoImplicit false

namespace TabularReport

variable {cs rest : List Char}

theorem padded_ne_nil (width n : Nat) : padded width n ≠ [] :=
  List.append_ne_nil_of_right_ne_nil _ (digitsOf_ne_nil n)

/-- Digits are read if there are as many as there may be, or if what follows them is no digit. -/
theorem readDigits?_append {most : Nat} {ds : List Char} (hne : ds ≠ []) (hds : ∀ c ∈ ds, c.isDigit = true)
    (hmost : ds.length ≤ most) (hrest : ds.length = most ∨ Text.Stops Char.isDigit rest) :
    readDigits? most (ds ++ rest) = some (ds, rest) := by
  have hstops : Text.Stops Char.isDigit (rest.take (most - ds.length)) := by
    obtain hall | hrest := hrest
    · simp [hall]
    · exact hrest.of_isPrefix (List.take_prefix _ _)
  have htake : ((ds ++ rest).take most).takeWhile Char.isDigit = ds := by
    rw [List.take_append, List.take_of_length_le hmost, Text.takeWhile_run hds hstops]
  simp [readDigits?, htake, hne]

theorem readDigits?_of_not_isDigit {c : Char} (most : Nat) (h : c.isDigit = false) :
    readDigits? most (c :: cs) = none := by
  cases most <;> simp [readDigits?, h]

namespace DatePart

theorem read?_of_not_isDigit {part : DatePart} {c : Char} (hsigned : part.isSigned = false)
    (hblank : Text.isBlank c = false) (hdigit : c.isDigit = false) : part.read? (c :: cs) = none := by
  have htrim : Text.trimStart (c :: cs) = c :: cs := Text.trimStart_eq_self (Text.stops_cons.2 hblank)
  simp [read?, hsigned, htrim, readDigits?_of_not_isDigit _ hdigit]

theorem read?_digits {part : DatePart} {ds : List Char} (hne : ds ≠ []) (hds : ∀ c ∈ ds, c.isDigit = true)
    (hwidth : part.width? = some ds.length) (rest : List Char) :
    part.read? (ds ++ rest) = some ((digitsValue ds : Int), rest) := by
  have hread : readDigits? (part.width?.getD (ds ++ rest).length) (ds ++ rest) = some (ds, rest) := by
    rw [hwidth]
    exact readDigits?_append hne hds (Nat.le_refl _) (.inl rfl)
  obtain ⟨d, ds, rfl⟩ := List.exists_cons_of_ne_nil hne
  have hd : d.isDigit = true := hds d List.mem_cons_self
  have htrim : Text.trimStart (d :: ds ++ rest) = d :: ds ++ rest :=
    Text.trimStart_eq_self (Text.stops_cons.2 (Text.isBlank_of_isDigit hd))
  unfold read?
  rw [htrim]
  split
  · rename_i heq
    cases heq
    contradiction
  · rename_i heq
    cases heq
    contradiction
  · rw [hread]
    rfl

theorem read?_padded {part : DatePart} {width n : Nat} (hwidth : part.width? = some width) (hpos : 0 < width)
    (hn : n < Nat.pow 10 width) (rest : List Char) : part.read? (padded width n ++ rest) = some ((n : Int), rest) := by
  rw [read?_digits (padded_ne_nil width n) (fun _ hc => isDigit_of_mem_padded hc)
    (by rw [hwidth, length_padded hpos hn]), digitsValue_padded]

theorem read?_minus {ds : List Char} (hread : readDigits? cs.length cs = some (ds, rest)) :
    DatePart.year.read? ('-' :: cs) = some (-(digitsValue ds : Int), rest) := by
  have hminus : DatePart.year.read? ('-' :: cs) =
      (readDigits? cs.length cs).bind fun p => some (-(digitsValue p.1 : Int), p.2) := rfl
  rw [hminus, hread, Option.bind_some]

theorem read?_plus {ds : List Char} (hread : readDigits? cs.length cs = some (ds, rest)) :
    DatePart.year.read? ('+' :: cs) = some ((digitsValue ds : Int), rest) := by
  have hplus : DatePart.year.read? ('+' :: cs) =
      (readDigits? cs.length cs).bind fun p => some ((digitsValue p.1 : Int), p.2) := rfl
  rw [hplus, hread, Option.bind_some]

theorem read?_yearChars (year : Int) (hrest : Text.Stops Char.isDigit rest) :
    DatePart.year.read? (DateTime.yearChars year ++ rest) = some (year, rest) := by
  by_cases h : 0 ≤ year ∧ year ≤ 9999
  · have hwidth : year.toNat < Nat.pow 10 4 := by
      simp only [Nat.pow_eq]
      omega
    rw [DateTime.yearChars_plain h, read?_padded rfl (by decide) hwidth, Int.toNat_of_nonneg h.1]
  · have hread : readDigits? (padded 4 year.natAbs ++ rest).length (padded 4 year.natAbs ++ rest) =
        some (padded 4 year.natAbs, rest) :=
      readDigits?_append (padded_ne_nil _ _) (fun _ hc => isDigit_of_mem_padded hc) (by simp) (.inr hrest)
    rw [DateTime.yearChars_signed h, List.cons_append]
    split
    · rename_i hneg
      rw [read?_minus hread, digitsValue_padded, Int.ofNat_natAbs_of_nonpos (Int.le_of_lt hneg), Int.neg_neg]
    · rename_i hpos
      rw [read?_plus hread, digitsValue_padded, Int.natAbs_of_nonneg (Int.not_lt.1 hpos)]

end DatePart

section

variable {part : DatePart} {n : Int} {p q : DateParts} {items : List PatternItem}

theorem readParts?_number (hread : part.read? cs = some (n, rest)) (hset : p.set? part n = some q) :
    readParts? (.number part :: items) p cs = readParts? items q rest := by
  simp [readParts?, PatternItem.read?, hread, hset]

theorem readParts?_literal (c : Char) :
    readParts? (.literal c :: items) p (c :: rest) = readParts? items p rest := by
  simp [readParts?, PatternItem.read?]

theorem readParts?_literal_of_ne {c d : Char} (h : c ≠ d) :
    readParts? (.literal c :: items) p (d :: rest) = none := by
  simp [readParts?, PatternItem.read?, h]

theorem readParts?_blanks (h : Text.Stops Text.isBlank rest) :
    readParts? (.blanks :: items) p (' ' :: rest) = readParts? items p rest := by
  have htrim : Text.trimStart (' ' :: rest) = Text.trimStart rest := rfl
  simp [readParts?, PatternItem.read?, htrim, Text.trimStart_eq_self h]

theorem readParts?_number_literal_of_ne {c d : Char} (hread : part.read? cs = some (n, d :: rest)) (h : c ≠ d) :
    readParts? (.number part :: .literal c :: items) p cs = none := by
  cases hset : p.set? part n with
  | none => simp [readParts?, PatternItem.read?, hread, hset]
  | some q => rw [readParts?_number hread hset, readParts?_literal_of_ne h]

theorem settle?_none {low high value : Nat} (h : low ≤ value ∧ value ≤ high) :
    settle? none low high value = some (some value) := by
  simp [settle?, h]

end

def dayItems : List PatternItem :=
  [.number .year, .literal '-', .number .month, .literal '-', .number .day]

def defaultItems : List (List PatternItem) :=
  [dayItems,
    [.number .month, .literal '/', .number .day, .literal '/', .number .year],
    [.number .day, .literal '/', .number .month, .literal '/', .number .year],
    [.number .year, .literal '/', .number .month, .literal '/', .number .day],
    dayItems ++ .literal 'T' :: (PatternItem.clock .hour ++ [.fraction]),
    dayItems ++ .blanks :: (PatternItem.clock .hour ++ [.fraction])]

theorem ofChars_defaultDateFormats :
    defaultDateFormats.map (fun format => PatternItem.ofChars format.toList) = defaultItems := by
  decide

theorem readDate?_eq {settings : Settings} (h : settings.dateFormats = defaultDateFormats) (text : String) :
    settings.readDate? text = defaultItems.findSome? fun items =>
      (readParts? items {} (Text.trimList text.toList)).bind DateParts.resolve? := by
  rw [← ofChars_defaultDateFormats, List.findSome?_map, Settings.readDate?, h]
  rfl

namespace DateTime

theorem dayChars_append (t : DateTime) (rest : List Char) :
    t.dayChars ++ rest = yearChars t.civil.year ++
      '-' :: (padded 2 t.civil.month ++ '-' :: (padded 2 t.civil.day ++ rest)) := by
  simp [dayChars]

theorem readParts?_dayChars (t : DateTime) (items : List PatternItem) (rest : List Char) :
    readParts? (dayItems ++ items) {} (t.dayChars ++ rest) = readParts? items t.dayParts rest := by
  obtain ⟨hmonth, hday⟩ := t.civil_range
  obtain ⟨hmonth', hday'⟩ := t.civil_lt
  have hyear : DateParts.set? {} .year t.civil.year = some { year := some t.civil.year } := by
    have hrange := t.year_range
    have hbits : -2147483648 ≤ t.civil.year ∧ t.civil.year ≤ 2147483647 := by omega
    simp [DateParts.set?, settleYear?, hbits]
  rw [t.dayChars_append]
  refine (readParts?_number (DatePart.read?_yearChars _ (by simp)) hyear).trans ?_
  refine (readParts?_literal '-').trans ?_
  refine (readParts?_number (DatePart.read?_padded rfl (by decide) hmonth' _)
    (by simp only [DateParts.set?, Int.toNat_natCast, settle?_none hmonth]; rfl)).trans ?_
  refine (readParts?_literal '-').trans ?_
  exact readParts?_number (DatePart.read?_padded rfl (by decide) hday' _)
    (by simp only [DateParts.set?, Int.toNat_natCast, settle?_none hday]; rfl)

theorem readParts?_clockChars (t : DateTime) :
    readParts? (PatternItem.clock .hour ++ [.fraction]) t.dayParts t.clockChars = some t.parts := by
  obtain ⟨hhour, hminute, hsecond⟩ := t.clock_range
  obtain ⟨hhour', hminute', hsecond'⟩ := t.clock_lt
  have hchars : t.clockChars =
      padded 2 t.hour ++ ':' :: (padded 2 t.minute ++ ':' :: (padded 2 t.clockSecond ++ [])) := by
    simp [clockChars]
  have hset : t.dayParts.set? .hour t.hour =
      some { t.dayParts with afternoon := some (t.hour / 12), hourOfHalfDay := some (t.hour % 12) } := by
    have hhalf : 0 ≤ t.hour / 12 ∧ t.hour / 12 ≤ 1 := by omega
    have hrest : 0 ≤ t.hour % 12 ∧ t.hour % 12 ≤ 11 := by omega
    have hguard : t.hour ≤ 23 := by omega
    simp only [DateParts.set?, Int.toNat_natCast, dayParts, settle?_none hhalf, settle?_none hrest, hguard]
    rfl
  have hminute : 0 ≤ t.minute ∧ t.minute ≤ 59 := by omega
  have hsecond : 0 ≤ t.clockSecond ∧ t.clockSecond ≤ 60 := by omega
  rw [hchars]
  refine (readParts?_number (DatePart.read?_padded rfl (by decide) hhour' _) hset).trans ?_
  refine (readParts?_literal ':').trans ?_
  refine (readParts?_number (DatePart.read?_padded rfl (by decide) hminute' _)
    (by simp only [DateParts.set?, Int.toNat_natCast, dayParts, settle?_none hminute]; rfl)).trans ?_
  refine (readParts?_literal ':').trans ?_
  exact readParts?_number (DatePart.read?_padded rfl (by decide) hsecond' _)
    (by simp only [DateParts.set?, Int.toNat_natCast, settle?_none hsecond]; rfl)

/-- The start of a year is no month and no day of two digits before a slash. -/
theorem readParts?_slashed (part : DatePart) (hwidth : part.width? = some 2) (hsigned : part.isSigned = false)
    (items : List PatternItem) (t : DateTime) (rest : List Char) :
    readParts? (.number part :: .literal '/' :: items) {} (t.dayChars ++ rest) = none := by
  rw [t.dayChars_append]
  by_cases h : 0 ≤ t.civil.year ∧ t.civil.year ≤ 9999
  · have hlength : (padded 4 t.civil.year.toNat).length = 4 := by
      refine length_padded (by decide) ?_
      simp only [Nat.pow_eq]
      omega
    have hdigits : ∀ c ∈ padded 4 t.civil.year.toNat, c.isDigit = true := fun _ hc => isDigit_of_mem_padded hc
    rw [yearChars_plain h]
    -- The two digits that are read are followed by a third.
    match padded 4 t.civil.year.toNat, hlength, hdigits with
    | [a, b, c, d], _, hdigits =>
      have hread (rest : List Char) : part.read? ([a, b] ++ c :: rest) = some ((digitsValue [a, b] : Int), c :: rest) :=
        DatePart.read?_digits (by simp) (fun x hx => hdigits x (by simp at hx ⊢; tauto)) hwidth _
      have hslash : '/' ≠ c := by
        rintro rfl
        exact absurd (hdigits '/' (by simp)) (by decide)
      exact readParts?_number_literal_of_ne (hread _) hslash
  · rw [yearChars_signed h, List.cons_append]
    have hnone (c : Char) (cs : List Char) (hblank : Text.isBlank c = false) (hdigit : c.isDigit = false) :
        readParts? (.number part :: .literal '/' :: items) {} (c :: cs) = none := by
      simp [readParts?, PatternItem.read?, DatePart.read?_of_not_isDigit hsigned hblank hdigit]
    split
    · exact hnone '-' _ (by decide) (by decide)
    · exact hnone '+' _ (by decide) (by decide)

theorem readParts?_slashedYear (items : List PatternItem) (t : DateTime) (rest : List Char) :
    readParts? (.number .year :: .literal '/' :: items) {} (t.dayChars ++ rest) = none := by
  rw [t.dayChars_append]
  exact readParts?_number_literal_of_ne (DatePart.read?_yearChars _ (by simp)) (by decide)

theorem not_isBlank_of_mem_padded {width n : Nat} {c : Char} (h : c ∈ padded width n) : Text.isBlank c = false :=
  Text.isBlank_of_isDigit (isDigit_of_mem_padded h)

theorem not_isBlank_of_mem_yearChars {year : Int} {c : Char} (h : c ∈ yearChars year) :
    Text.isBlank c = false := by
  unfold yearChars at h
  split at h
  · exact not_isBlank_of_mem_padded h
  · obtain rfl | h := List.mem_cons.1 h
    · split <;> rfl
    · exact not_isBlank_of_mem_padded h

theorem stops_clockChars (t : DateTime) : Text.Stops Text.isBlank t.clockChars := by
  have hstops : Text.Stops Text.isBlank (padded 2 t.hour) := fun c hc =>
    not_isBlank_of_mem_padded (List.mem_of_head? hc)
  rw [clockChars, List.append_assoc]
  exact hstops.append (padded_ne_nil _ _)

theorem findSome?_withClock {t : DateTime} (h : t.fraction = 0) :
    (defaultItems.findSome? fun items =>
      (readParts? items {} (t.dayChars ++ ' ' :: t.clockChars)).bind DateParts.resolve?) = some t := by
  -- The format of a day alone leaves the clock time.
  have hday : readParts? dayItems {} (t.dayChars ++ ' ' :: t.clockChars) = none := t.readParts?_dayChars [] _
  have hletter : readParts? (dayItems ++ .literal 'T' :: (PatternItem.clock .hour ++ [.fraction])) {}
      (t.dayChars ++ ' ' :: t.clockChars) = none := by
    rw [t.readParts?_dayChars, readParts?_literal_of_ne (by decide)]
  have hblank : readParts? (dayItems ++ .blanks :: (PatternItem.clock .hour ++ [.fraction])) {}
      (t.dayChars ++ ' ' :: t.clockChars) = some t.parts := by
    rw [t.readParts?_dayChars, readParts?_blanks t.stops_clockChars, t.readParts?_clockChars]
  simp [defaultItems, hday, hletter, hblank, readParts?_slashedYear, resolve?_parts h,
    readParts?_slashed .month rfl rfl, readParts?_slashed .day rfl rfl]

theorem findSome?_dayChars {t : DateTime} (h : t.isMidnight = true) :
    (defaultItems.findSome? fun items => (readParts? items {} t.dayChars).bind DateParts.resolve?) = some t := by
  have hday : readParts? dayItems {} t.dayChars = some t.dayParts := by
    have hread := t.readParts?_dayChars [] []
    rwa [List.append_nil, List.append_nil] at hread
  simp [defaultItems, hday, resolve?_dayParts h]

theorem isProper_between (year : Int) (cs : List Char) (n : Nat) :
    Text.IsProper (String.ofList (yearChars year ++ (cs ++ padded 2 n))) := by
  have hyear : yearChars year ≠ [] := by
    unfold yearChars
    split
    · exact padded_ne_nil _ _
    · exact List.cons_ne_nil _ _
  have hfront : Text.Stops Text.isBlank (yearChars year) := fun c hc =>
    not_isBlank_of_mem_yearChars (List.mem_of_head? hc)
  have hback : Text.Stops Text.isBlank (padded 2 n).reverse := fun c hc =>
    not_isBlank_of_mem_padded (List.mem_reverse.1 (List.mem_of_head? hc))
  refine ⟨?_, ?_, ?_⟩ <;> rw [String.toList_ofList]
  · exact List.append_ne_nil_of_left_ne_nil hyear _
  · exact hfront.append hyear
  · rw [← List.append_assoc, List.reverse_append]
    exact hback.append (mt List.reverse_eq_nil_iff.1 (padded_ne_nil _ _))

theorem isProper_text (t : DateTime) : Text.IsProper t.text := by
  have hday : t.dayChars =
      yearChars t.civil.year ++ ('-' :: padded 2 t.civil.month ++ ['-'] ++ padded 2 t.civil.day) := by
    simp [dayChars]
  have hclock : t.dayChars ++ ' ' :: t.clockChars = yearChars t.civil.year ++
      ('-' :: padded 2 t.civil.month ++ '-' :: padded 2 t.civil.day ++ ' ' :: padded 2 t.hour ++
        ':' :: padded 2 t.minute ++ [':'] ++ padded 2 t.clockSecond) := by
    simp [dayChars, clockChars]
  unfold text
  split
  · rw [hday]
    exact isProper_between _ _ _
  · rw [hclock]
    exact isProper_between _ _ _

/-- With the default formats the text of a moment is read as the moment, if there is no fraction of a
second. -/
theorem readDate?_text {t : DateTime} {settings : Settings} (hformats : settings.dateFormats = defaultDateFormats)
    (h : t.fraction = 0) : settings.readDate? t.text = some t := by
  rw [readDate?_eq hformats, t.isProper_text.trimList_toList, text, String.toList_ofList]
  split
  · rename_i hmidnight
    exact findSome?_dayChars hmidnight
  · exact findSome?_withClock h

end DateTime

end TabularReport
