import TabularReport.Number.Decimal
import TabularReport.Proofs.Text.Proper

set_option autoImplicit false

namespace TabularReport

theorem not_mem_of_digits {ds : List Char} {c : Char} (hds : ∀ c ∈ ds, c.isDigit = true) (hc : c.isDigit = false) :
    c ∉ ds := by
  intro hmem
  rw [hds c hmem] at hc
  contradiction

theorem isDigit_of_mem_digitsOf {n : Nat} {c : Char} (h : c ∈ digitsOf n) : c.isDigit = true :=
  Nat.isDigit_of_mem_toDigits (by decide) (by decide) h

theorem digitsOf_ne_nil (n : Nat) : digitsOf n ≠ [] := Nat.toDigits_ne_nil

theorem length_digitsOf_le {n k : Nat} (hk : 0 < k) (h : n < Nat.pow 10 k) : (digitsOf n).length ≤ k :=
  (Nat.length_toDigits_le_iff (by decide) hk).2 h

theorem lt_pow_length_digitsOf (n : Nat) : n < Nat.pow 10 (digitsOf n).length :=
  (Nat.length_toDigits_le_iff (by decide) Nat.length_toDigits_pos).1 (Nat.le_refl _)

theorem digitsValue_digitsOf (n : Nat) : digitsValue (digitsOf n) = n :=
  Nat.ofDigitChars_toDigits (by decide) (by decide)

theorem digitsOf_injective {m n : Nat} (h : digitsOf m = digitsOf n) : m = n := by
  rw [← digitsValue_digitsOf m, h, digitsValue_digitsOf]

theorem digitsValue_cons (c : Char) (cs : List Char) :
    digitsValue (c :: cs) = (c.toNat - 48) * Nat.pow 10 cs.length + digitsValue cs := by
  have hstart : ∀ n, cs.foldl (fun n c => 10 * n + (c.toNat - 48)) n =
      n * Nat.pow 10 cs.length + digitsValue cs := by
    -- On the digits that are left, for any value of those before them.
    unfold digitsValue
    induction cs with
    | nil => simp
    | cons d ds ih =>
      intro n
      rw [List.foldl_cons, List.foldl_cons, ih, ih (10 * 0 + _), List.length_cons]
      simp only [Nat.pow_eq, Nat.pow_succ]
      grind
  simpa [digitsValue] using hstart (c.toNat - 48)

theorem digitsValue_append (cs ds : List Char) :
    digitsValue (cs ++ ds) = digitsValue cs * Nat.pow 10 ds.length + digitsValue ds := by
  induction cs with
  | nil => simp [digitsValue]
  | cons c cs ih =>
    rw [List.cons_append, digitsValue_cons, ih, digitsValue_cons, List.length_append]
    simp only [Nat.pow_eq, Nat.pow_add]
    grind

theorem digitsValue_replicate_zero (k : Nat) : digitsValue (List.replicate k '0') = 0 := by
  induction k with
  | zero => rfl
  | succ k ih => simp [List.replicate_succ, digitsValue_cons, ih]

theorem digitsValue_padded (width n : Nat) : digitsValue (padded width n) = n := by
  simp [padded, digitsValue_append, digitsValue_replicate_zero, digitsValue_digitsOf]

theorem length_padded {width n : Nat} (hw : 0 < width) (h : n < Nat.pow 10 width) :
    (padded width n).length = width := by
  have := length_digitsOf_le hw h
  simp [padded]
  omega

theorem isDigit_of_mem_padded {width n : Nat} {c : Char} (h : c ∈ padded width n) : c.isDigit = true := by
  rcases List.mem_append.1 h with h | h
  · rw [List.eq_of_mem_replicate h]
    decide
  · exact isDigit_of_mem_digitsOf h

theorem exists_dropEndZeros_append (cs : List Char) :
    ∃ k, dropEndZeros cs ++ List.replicate k '0' = cs := by
  have hzeros : ∀ c ∈ cs.reverse.takeWhile (· == '0'), c = '0' := by
    intro c hc
    simpa using Text.mem_takeWhile hc
  refine ⟨(cs.reverse.takeWhile (· == '0')).length, ?_⟩
  rw [← List.reverse_inj, dropEndZeros, List.reverse_append, List.reverse_reverse, List.reverse_replicate,
    ← List.eq_replicate_of_mem hzeros, List.takeWhile_append_dropWhile]

namespace Text

theorem isBlank_of_isDigit {c : Char} (h : c.isDigit = true) : isBlank c = false := by
  have hrange : 48 ≤ c.toNat ∧ c.toNat ≤ 57 := by
    simpa [Char.isDigit, UInt32.le_iff_toNat_le] using h
  simp [isBlank]
  omega

theorem isProper_digitsOf (n : Nat) : IsProper (String.ofList (digitsOf n)) := by
  refine isProper_of_forall ?_ ?_
  · simpa using digitsOf_ne_nil n
  · intro c hc
    rw [String.toList_ofList] at hc
    exact isBlank_of_isDigit (isDigit_of_mem_digitsOf hc)

end Text
end TabularReport
