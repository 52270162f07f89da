import Mathlib.Data.List.Lex
import Mathlib.Data.List.Sort
import TabularReport.Proofs.Markup.Vocabulary
/-!
Searching an element.  An address counts the children on the way down, and the order of the document is that of
addresses: an element is in front of what is inside it, and this is in front of the siblings that follow.  Each
search lists the elements that it is for, each once and in this order, or gives the first of them.
-/
set_option autoImplicit false

namespace TabularReport.Markup.Element

/-- Whether `d` is inside `e`, at this address. -/
inductive Below : Element → List Nat → Element → Prop where
  | child {e c : Element} {i : Nat} : e.children[i]? = some c → Below e [i] c
  | deeper {e c d : Element} {i : Nat} {p : List Nat} : e.children[i]? = some c → Below c p d → Below e (i :: p) d

/-- Whether children of the names `steps` lead from `e` to `d`, at this address. -/
inductive Leads : Element → List String → List Nat → Element → Prop where
  | here {e : Element} : Leads e [] [] e
  | child {e c d : Element} {i : Nat} {p : List Nat} {steps : List String} : e.children[i]? = some c →
      Leads c steps p d → Leads e (c.name :: steps) (i :: p) d

/-- Whether `found` are the elements at the addresses where there is one, each once and in the order of the
document. -/
def Lists (At : List Nat → Element → Prop) (found : List Element) : Prop :=
  ∃ placed : List (List Nat × Element), placed.map Prod.snd = found ∧
    placed.Pairwise (fun a b => List.Lex (· < ·) a.1 b.1) ∧ ∀ p d, (p, d) ∈ placed ↔ At p d

variable {e c d : Element} {p : List Nat} {name step : String} {steps : List String}

theorem below_iff : e.Below p d ↔
    ∃ i c q, e.children[i]? = some c ∧ p = i :: q ∧ (q = [] ∧ d = c ∨ c.Below q d) := by
  constructor
  · intro h
    cases h with
    | child hc => exact ⟨_, _, _, hc, rfl, .inl ⟨rfl, rfl⟩⟩
    | deeper hc h => exact ⟨_, _, _, hc, rfl, .inr h⟩
  · rintro ⟨i, c, q, hc, rfl, ⟨rfl, rfl⟩ | h⟩
    · exact .child hc
    · exact .deeper hc h

theorem leads_nil_iff : e.Leads [] p d ↔ p = [] ∧ d = e := by
  constructor
  · rintro ⟨⟩
    exact ⟨rfl, rfl⟩
  · rintro ⟨rfl, rfl⟩
    exact .here

theorem leads_cons_iff : e.Leads (step :: steps) p d ↔
    ∃ i c q, e.children[i]? = some c ∧ p = i :: q ∧ c.name = step ∧ c.Leads steps q d := by
  constructor
  · rintro (_ | ⟨hc, h⟩)
    exact ⟨_, _, _, hc, rfl, rfl, h⟩
  · rintro ⟨i, c, q, hc, rfl, rfl, h⟩
    exact .child hc h

namespace Lists

variable {A B : List Nat → Element → Prop} {xs ys : List Element}

theorem unique (hx : Lists A xs) (hy : Lists A ys) : xs = ys := by
  obtain ⟨as, rfl, has, hmem⟩ := hx
  obtain ⟨bs, rfl, hbs, hmem'⟩ := hy
  have hirrefl : Std.Irrefl fun a b : List Nat × Element => List.Lex (· < ·) a.1 b.1 :=
    ⟨fun a => List.lex_irrefl Nat.lt_irrefl a.1⟩
  have hantisymm : Std.Antisymm fun a b : List Nat × Element => List.Lex (· < ·) a.1 b.1 :=
    ⟨fun a b h h' => absurd h' (Std.Asymm.asymm _ _ h)⟩
  rw [has.eq_of_mem_iff hbs fun a => (hmem a.1 a.2).trans (hmem' a.1 a.2).symm]

theorem congr (h : Lists A xs) (hiff : ∀ p d, A p d ↔ B p d) : Lists B xs := by
  obtain ⟨as, has, hsorted, hmem⟩ := h
  exact ⟨as, has, hsorted, fun p d => (hmem p d).trans (hiff p d)⟩

theorem nil : Lists (fun _ _ => False) [] :=
  ⟨[], rfl, .nil, by simp⟩

theorem self (e : Element) : Lists (fun p d => p = [] ∧ d = e) [e] :=
  ⟨[([], e)], rfl, by simp, by simp⟩

theorem append (hx : Lists A xs) (hy : Lists B ys) (h : ∀ p d q d', A p d → B q d' → List.Lex (· < ·) p q) :
    Lists (fun p d => A p d ∨ B p d) (xs ++ ys) := by
  obtain ⟨as, rfl, has, hmem⟩ := hx
  obtain ⟨bs, rfl, hbs, hmem'⟩ := hy
  refine ⟨as ++ bs, List.map_append, List.pairwise_append.2 ⟨has, hbs, ?_⟩, ?_⟩
  · exact fun a ha b hb => h a.1 a.2 b.1 b.2 ((hmem _ _).1 ha) ((hmem' _ _).1 hb)
  · exact fun p d => by rw [List.mem_append, hmem, hmem']

theorem inside (hx : Lists A xs) (i : Nat) : Lists (fun p d => ∃ q, p = i :: q ∧ A q d) xs := by
  obtain ⟨as, rfl, has, hmem⟩ := hx
  refine ⟨as.map fun a => (i :: a.1, a.2), by simp, ?_, ?_⟩
  · exact List.pairwise_map.2 (has.imp List.Lex.cons)
  · intro p d
    simp only [List.mem_map, Prod.mk.injEq, Prod.exists, ← hmem]
    constructor
    · rintro ⟨q, d, h, rfl, rfl⟩
      exact ⟨q, rfl, h⟩
    · rintro ⟨q, rfl, h⟩
      exact ⟨q, d, h, rfl, rfl⟩

theorem flatMap {At : Element → List Nat → Element → Prop} {f : Element → List Element} {cs : List Element}
    (h : ∀ c ∈ cs, Lists (At c) (f c)) (start : Nat) :
    Lists (fun p d => ∃ i c q, cs[i]? = some c ∧ p = (start + i) :: q ∧ At c q d) (cs.flatMap f) := by
  induction cs generalizing start with
  | nil => exact nil.congr (by simp)
  | cons c cs ih =>
    obtain ⟨hc, hcs⟩ := List.forall_mem_cons.1 h
    have happend := (hc.inside start).append (ih hcs (start + 1)) (by
      rintro _ _ _ _ ⟨q, rfl, _⟩ ⟨i, _, q', _, rfl, _⟩
      exact .rel (by omega))
    refine happend.congr fun p d => ⟨?_, ?_⟩
    · rintro (⟨q, rfl, hd⟩ | ⟨i, c', q, hi, rfl, hd⟩)
      · exact ⟨0, c, q, rfl, rfl, hd⟩
      · exact ⟨i + 1, c', q, hi, by rw [Nat.add_assoc, Nat.add_comm 1], hd⟩
    · rintro ⟨_ | i, c', q, hi, rfl, hd⟩
      · cases hi
        exact .inl ⟨q, rfl, hd⟩
      · exact .inr ⟨i, c', q, hi, by rw [Nat.add_assoc, Nat.add_comm 1], hd⟩

theorem children {At : Element → List Nat → Element → Prop} {f : Element → List Element}
    (h : ∀ c ∈ e.children, Lists (At c) (f c)) :
    Lists (fun p d => ∃ i c q, e.children[i]? = some c ∧ p = i :: q ∧ At c q d) (e.children.flatMap f) := by
  simpa only [Nat.zero_add] using flatMap h 0

theorem ite {q : Prop} [Decidable q] (hx : Lists A xs) : Lists (fun p d => q ∧ A p d) (if q then xs else []) := by
  split
  · rename_i hq
    exact hx.congr fun p d => by simp [hq]
  · rename_i hq
    exact nil.congr fun p d => by simp [hq]

end Lists

theorem lists_descendants (name : String) (e : Element) :
    Lists (fun p d => e.Below p d ∧ d.name = name) (e.descendants name) := by
  induction e using induction_children with
  | node e ih =>
    have hchild : ∀ c ∈ e.children, Lists (fun p d => (p = [] ∧ d = c ∨ c.Below p d) ∧ d.name = name)
        ((if c.name == name then [c] else []) ++ c.descendants name) := by
      intro c hc
      -- The child is in front of what is inside it.
      have happend := ((Lists.self c).ite (q := (c.name == name) = true)).append (ih c hc) (by
        rintro _ _ _ _ ⟨_, rfl, _⟩ ⟨hq, _⟩
        obtain ⟨i, _, q, _, rfl, _⟩ := below_iff.1 hq
        exact .nil)
      refine happend.congr fun p d => ?_
      rw [or_and_right, beq_iff_eq]
      refine or_congr_left ⟨?_, ?_⟩
      · rintro ⟨hname, rfl, rfl⟩
        exact ⟨⟨rfl, rfl⟩, hname⟩
      · rintro ⟨⟨rfl, rfl⟩, hname⟩
        exact ⟨hname, rfl, rfl⟩
    rw [descendants_eq_flatMap]
    refine (Lists.children hchild).congr fun p d => ?_
    rw [below_iff]
    simp only [← and_assoc, exists_and_right]

theorem reached_cons (e : Element) (step : String) (steps : List String) :
    e.reached (step :: steps) = (e.childrenCalled step).flatMap (·.reached steps) := by
  have hfrom : ∀ found : List Element,
      steps.foldl (fun found step => found.flatMap (·.childrenCalled step)) found =
        found.flatMap (·.reached steps) := by
    intro found
    induction steps generalizing found with
    | nil => exact (List.flatMap_singleton' found).symm
    | cons step steps ih =>
      rw [List.foldl_cons, ih, List.flatMap_assoc]
      refine List.flatMap_congr fun c _ => ?_
      rw [reached, List.foldl_cons, List.flatMap_singleton, ih]
  rw [reached, List.foldl_cons, List.flatMap_singleton, hfrom]

theorem lists_reached (steps : List String) (e : Element) : Lists (e.Leads steps) (e.reached steps) := by
  induction steps generalizing e with
  | nil => exact (Lists.self e).congr fun p d => leads_nil_iff.symm
  | cons step steps ih =>
    have hcalled : (e.childrenCalled step).flatMap (·.reached steps) =
        e.children.flatMap fun c => if c.name = step then c.reached steps else [] := by
      have hother : ∀ c ∈ e.children, (c.name == step) = false →
          (if c.name = step then c.reached steps else []) = [] :=
        fun c _ hc => if_neg (by simpa using hc)
      rw [← flatMap_filter_of_forall hother]
      refine List.flatMap_congr fun c hc => (if_pos ?_).symm
      simpa using (List.mem_filter.1 hc).2
    rw [reached_cons, hcalled]
    exact (Lists.children fun c _ => (ih c).ite).congr fun p d => leads_cons_iff.symm

theorem head?_reached (h : e.follow? steps = some d) : (e.reached steps).head? = some d := by
  induction steps generalizing e with
  | nil => exact h
  | cons step steps ih =>
    rw [follow?] at h
    obtain ⟨c, hc, h⟩ := Option.bind_eq_some_iff.1 h
    rw [child?, ← List.head?_filter] at hc
    obtain ⟨cs, hcs⟩ := List.head?_eq_some_iff.1 hc
    rw [reached_cons, childrenCalled, hcs, List.flatMap_cons, List.head?_append, ih h, Option.some_or]

/-- The first element of a name at any depth is the first of their list, and there is none where the list is
empty; what is found by the first child at each step is the first of what all such children lead to.  Both
lists hold just these elements, each once and in the order of the document. -/
theorem searches_agree (e : Element) (name : String) (steps : List String) :
    e.find? name = (e.descendants name).head? ∧ (e.find? name = none ↔ e.descendants name = []) ∧
      (∀ found, Lists (fun p d => e.Below p d ∧ d.name = name) found ↔ found = e.descendants name) ∧
      (∀ d, e.follow? steps = some d → (e.reached steps).head? = some d) ∧
      ∀ found, Lists (e.Leads steps) found ↔ found = e.reached steps := by
  have hfind := find?_eq_head? name e
  have hdescendants := lists_descendants name e
  have hreached := lists_reached steps e
  refine ⟨hfind, by rw [hfind, List.head?_eq_none_iff], fun found => ⟨fun h => h.unique hdescendants, ?_⟩,
    fun d h => head?_reached h, fun found => ⟨fun h => h.unique hreached, ?_⟩⟩
  · rintro rfl
    exact hdescendants
  · rintro rfl
    exact hreached

/-- Rows inside rows: the steps do not lead into the inner ones, which come first in the document. -/
def nestedRows : Element :=
  let row (n : String) : Element := ⟨"Row", none, [("n", n)], [], ""⟩
  let rows (cs : List Element) : Element := ⟨"Rows", none, [], cs, ""⟩
  ⟨"Report", none, [], [rows [rows [row "1"], row "2"], rows [row "3"]], ""⟩

theorem searches_of_nestedRows :
    (nestedRows.descendants "Row").head? = some ⟨"Row", none, [("n", "1")], [], ""⟩ ∧
      nestedRows.find? "Row" = (nestedRows.descendants "Row").head? ∧
      nestedRows.follow? ["Rows", "Row"] = some ⟨"Row", none, [("n", "2")], [], ""⟩ ∧
      (nestedRows.reached ["Rows", "Row"]).head? = some ⟨"Row", none, [("n", "2")], [], ""⟩ ∧
      Lists (nestedRows.Leads ["Rows", "Row"])
        [⟨"Row", none, [("n", "2")], [], ""⟩, ⟨"Row", none, [("n", "3")], [], ""⟩] := by
  obtain ⟨hfind, -, -, hfirst, hreached⟩ := searches_agree nestedRows "Row" ["Rows", "Row"]
  have hfollow : nestedRows.follow? ["Rows", "Row"] = some ⟨"Row", none, [("n", "2")], [], ""⟩ := by decide
  exact ⟨by decide, hfind, hfollow, hfirst _ hfollow, (hreached _).2 (by decide)⟩

end TabularReport.Markup.Element
