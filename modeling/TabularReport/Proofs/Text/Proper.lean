import TabularReport.Text.Basic

set_option autoImplicit false

namespace TabularReport.Text

/-- Whether no character of the class `p` stands at the front of `cs`. -/
def Stops (p : Char → Bool) (cs : List Char) : Prop :=
  ∀ c ∈ cs.head?, p c = false

variable {p : Char → Bool} {run rest : List Char}

@[simp] theorem stops_nil : Stops p [] := by simp [Stops]

@[simp] theorem stops_cons {c : Char} {cs : List Char} : Stops p (c :: cs) ↔ p c = false := by
  simp [Stops]

theorem stops_dropWhile (cs : List Char) : Stops p (cs.dropWhile p) := by
  intro c hc
  have h := List.head?_dropWhile_not p cs
  rw [Option.mem_def.1 hc] at h
  simpa using h

theorem takeWhile_run (hrun : ∀ c ∈ run, p c = true) (hrest : Stops p rest) :
    (run ++ rest).takeWhile p = run := by
  rw [List.takeWhile_append_of_pos hrun]
  cases rest with
  | nil => simp
  | cons c cs => simp [stops_cons.1 hrest]

theorem dropWhile_run (hrun : ∀ c ∈ run, p c = true) (hrest : Stops p rest) :
    (run ++ rest).dropWhile p = rest := by
  rw [List.dropWhile_append_of_pos hrun]
  cases rest with
  | nil => simp
  | cons c cs => simp [stops_cons.1 hrest]

theorem mem_takeWhile {cs : List Char} {c : Char} (h : c ∈ cs.takeWhile p) : p c = true :=
  List.all_eq_true.1 List.all_takeWhile c h

structure IsProper (s : String) : Prop where
  nonempty : s.toList ≠ []
  front : Stops isBlank s.toList
  back : Stops isBlank s.toList.reverse

theorem Stops.append {p : Char → Bool} {cs ds : List Char} (hne : cs ≠ []) (h : Stops p cs) :
    Stops p (cs ++ ds) := by
  cases cs with
  | nil => contradiction
  | cons c cs => simpa using h

theorem Stops.of_isPrefix {p : Char → Bool} {cs ds : List Char} (hpre : cs <+: ds) (h : Stops p ds) :
    Stops p cs := by
  obtain ⟨rest, rfl⟩ := hpre
  cases cs with
  | nil => simp
  | cons c cs => simpa using h

theorem isProper_of_forall {s : String} (hne : s.toList ≠ []) (h : ∀ c ∈ s.toList, isBlank c = false) :
    IsProper s := by
  refine ⟨hne, ?_, ?_⟩
  · intro c hc
    exact h c (List.mem_of_head? hc)
  · intro c hc
    exact h c (List.mem_reverse.1 (List.mem_of_head? hc))

theorem IsProper.append {s t : String} (hs : IsProper s) (ht : IsProper t) : IsProper (s ++ t) := by
  refine ⟨?_, ?_, ?_⟩
  · simp [hs.nonempty]
  · rw [String.toList_append]
    exact hs.front.append hs.nonempty
  · rw [String.toList_append, List.reverse_append]
    exact ht.back.append (by simpa using ht.nonempty)

theorem isProper_trim {s : String} (h : (trim s).isEmpty = false) : IsProper (trim s) := by
  have htrim : (trim s).toList = trimList s.toList := String.toList_ofList
  refine ⟨?_, ?_, ?_⟩
  · simpa [String.isEmpty_iff] using h
  · rw [htrim, trimList]
    have hsuffix : trimStart (trimStart s.toList).reverse <:+ (trimStart s.toList).reverse :=
      List.dropWhile_suffix isBlank
    have hprefix : (trimStart (trimStart s.toList).reverse).reverse <+: trimStart s.toList := by
      simpa using List.reverse_prefix.2 hsuffix
    exact (stops_dropWhile s.toList).of_isPrefix hprefix
  · rw [htrim, trimList, List.reverse_reverse]
    exact stops_dropWhile _

theorem trimStart_eq_self {cs : List Char} (h : Stops isBlank cs) : trimStart cs = cs := by
  have hnone : ∀ c ∈ ([] : List Char), isBlank c = true := by simp
  exact dropWhile_run hnone h

theorem isProper_iff {s : String} : IsProper s ↔ s ≠ "" ∧ trim s = s := by
  constructor
  · intro h
    have hback : trimStart s.toList.reverse = s.toList.reverse := trimStart_eq_self h.back
    refine ⟨?_, ?_⟩
    · simpa using h.nonempty
    · rw [trim, trimList, trimStart_eq_self h.front, hback, List.reverse_reverse, String.ofList_toList]
  · rintro ⟨hne, htrim⟩
    rw [← htrim]
    refine isProper_trim ?_
    rw [htrim]
    simpa using hne

theorem IsProper.trimList_toList {s : String} (h : IsProper s) : trimList s.toList = s.toList := by
  have htrim := (isProper_iff.1 h).2
  rwa [trim, ← String.toList_inj, String.toList_ofList] at htrim

end TabularReport.Text
