import Mathlib.Data.List.Basic
import TabularReport.Markup.Document

set_option autoImplicit false

namespace TabularReport.Markup.Element

variable {name step : String} {e : Element}

mutual

def decEq : (a b : Element) → Decidable (a = b)
  | ⟨n, q, as, cs, s⟩, ⟨n', q', as', cs', s'⟩ =>
    match decEqList cs cs' with
    | isTrue h => decidable_of_iff (n = n' ∧ q = q' ∧ as = as' ∧ s = s') (by simp [h])
    | isFalse h => isFalse (by simp [h])

def decEqList : (as bs : List Element) → Decidable (as = bs)
  | [], [] => isTrue rfl
  | [], _ :: _ => isFalse (by simp)
  | _ :: _, [] => isFalse (by simp)
  | a :: as, b :: bs =>
    match decEq a b, decEqList as bs with
    | isTrue h, isTrue h' => isTrue (by simp [h, h'])
    | isFalse h, _ => isFalse (by simp [h])
    | _, isFalse h => isFalse (by simp [h])

end

instance : DecidableEq Element := decEq

def unmarked : List Char → List Char
  | '\ufeff' :: cs => cs
  | cs => cs

theorem unmarked_of_ne {c : Char} {cs : List Char} (h : c ≠ '\ufeff') : unmarked (c :: cs) = c :: cs := by
  unfold unmarked
  split
  · simp_all
  · rfl

theorem ofBytes_toUTF8 (s : String) : ofBytes s.toUTF8 = ofChars (unmarked s.toList) := by
  have htext : String.fromUTF8? s.toUTF8 = some s := by
    simp only [String.fromUTF8?, String.fromUTF8, String.toUTF8_eq_toByteArray, s.isValidUTF8]
    rfl
  simp only [ofBytes, htext]
  cases s.toList with
  | nil => rfl
  | cons c cs =>
    by_cases hc : c = '\ufeff'
    · rw [hc]
      rfl
    · simp only [unmarked_of_ne hc]
      split
      · simp_all
      · rfl

theorem ofBytes_ofList {cs : List Char} (hmark : cs.head? ≠ some '\ufeff') :
    ofBytes (String.ofList cs).toUTF8 = ofChars cs := by
  rw [ofBytes_toUTF8, String.toList_ofList]
  cases cs with
  | nil => rfl
  | cons c cs =>
    have hc : c ≠ '\ufeff' := by simpa using hmark
    rw [unmarked_of_ne hc]

theorem descendantsIn_eq_flatMap (cs : List Element) :
    descendantsIn name cs =
      cs.flatMap fun c => (if c.name == name then [c] else []) ++ descendants name c := by
  induction cs with
  | nil => rfl
  | cons c cs ih => rw [descendantsIn, ih, List.flatMap_cons]

theorem descendants_eq_flatMap (e : Element) :
    e.descendants name =
      e.children.flatMap fun c => (if c.name == name then [c] else []) ++ descendants name c := by
  cases e
  rw [descendants, descendantsIn_eq_flatMap]

/-- Whether no child but those called `step` is called `name` or has elements called so inside. -/
def Confined (name step : String) (e : Element) : Prop :=
  ∀ c ∈ e.children, c.name = step ∨ c.name ≠ name ∧ descendants name c = []

instance : Decidable (e.Confined name step) := inferInstanceAs (Decidable (∀ c ∈ e.children, _ ∨ _ ∧ _ = []))

theorem flatMap_filter_of_forall {α β : Type} {p : α → Bool} {f : α → List β} {as : List α}
    (h : ∀ a ∈ as, p a = false → f a = []) : (as.filter p).flatMap f = as.flatMap f := by
  induction as with
  | nil => rfl
  | cons a as ih =>
    have hrest := ih fun b hb => h b (List.mem_cons_of_mem a hb)
    cases hp : p a with
    | true => simp [hp, hrest]
    | false => simp [hp, hrest, h a List.mem_cons_self hp]

theorem Confined.descendants_eq (h : e.Confined name step) :
    e.descendants name =
      (e.childrenCalled step).flatMap fun c => (if c.name == name then [c] else []) ++ descendants name c := by
  rw [descendants_eq_flatMap, childrenCalled, flatMap_filter_of_forall]
  intro c hc hstep
  obtain hname | ⟨hname, hnone⟩ := h c hc
  · simp [hname] at hstep
  · simp [hname, hnone]

theorem Confined.descendants_eq_of_ne (h : e.Confined name step) (hne : step ≠ name) :
    e.descendants name = (e.childrenCalled step).flatMap (descendants name) := by
  rw [h.descendants_eq]
  refine List.flatMap_congr ?_
  intro c hc
  have hname : c.name = step := by simpa [childrenCalled] using (List.mem_filter.1 hc).2
  simp [hname, hne]

theorem Confined.descendants_eq_self (h : e.Confined name name) :
    e.descendants name = (e.childrenCalled name).flatMap fun c => c :: descendants name c := by
  rw [h.descendants_eq]
  refine List.flatMap_congr ?_
  intro c hc
  have hname : c.name = name := by simpa [childrenCalled] using (List.mem_filter.1 hc).2
  simp [hname]

theorem reached_pair (e : Element) (first second : String) :
    e.reached [first, second] = (e.childrenCalled first).flatMap (·.childrenCalled second) := by
  simp [reached]

end TabularReport.Markup.Element
