import Mathlib.Logic.Relation
import TabularReport.Proofs.Markup.Element
/-!
Elements of which only some names are read.  Inside an element everything that has none of these names at any
depth can be dropped, as can qualifiers and other attributes: what is left, its core, has the same elements
and attributes of the names that are read.  Edits outside the vocabulary leave the core as it is.
-/
set_option autoImplicit false

namespace TabularReport.Markup

/-- The names that something reads: of elements, of attributes with their qualifiers, and of attributes
whatever their qualifiers. -/
structure Vocabulary where
  names : List String
  keys : List String
  localKeys : List String

def Vocabulary.readsKey (v : Vocabulary) (key : String) : Bool :=
  v.keys.contains key || v.localKeys.contains (splitName key).2

namespace Element

variable {v : Vocabulary} {name : String}

/-- Whether no name of the vocabulary is in the element, at any depth. -/
inductive Foreign (v : Vocabulary) : Element → Prop
  | intro {e : Element} (name : e.name ∉ v.names) (children : ∀ c ∈ e.children, Foreign v c) : Foreign v e

/-- One edit that adds nothing of the vocabulary: an element is inserted among the children, an attribute is
added, the qualifier is changed, or such an edit is made inside a child. -/
inductive Edit (v : Vocabulary) : Element → Element → Prop
  | insert {e : Element} {before after : List Element} {c : Element} (children : e.children = before ++ after)
      (foreign : c.Foreign v) : Edit v e { e with children := before ++ c :: after }
  | annotate {e : Element} {before after : List (String × String)} {key value : String}
      (attributes : e.attributes = before ++ after) (foreign : key ∉ v.keys)
      (foreignLocal : (splitName key).2 ∉ v.localKeys) :
      Edit v e { e with attributes := before ++ (key, value) :: after }
  | requalify {e : Element} (qualifier : Option String) : Edit v e { e with qualifier }
  | inside {e : Element} {before after : List Element} {c c' : Element} (children : e.children = before ++ c :: after)
      (edit : Edit v c c') : Edit v e { e with children := before ++ c' :: after }

def isKnown (v : Vocabulary) (e : Element) : Bool :=
  v.names.any fun name => e.name == name || !(e.descendants name).isEmpty

mutual

/-- The element without what the vocabulary does not know. -/
def core (v : Vocabulary) : Element → Element
  | ⟨name, _, attributes, children, text⟩ =>
    ⟨name, none, attributes.filter fun a => v.readsKey a.1, coreIn v children, text⟩

def coreIn (v : Vocabulary) : List Element → List Element
  | [] => []
  | c :: cs => if c.isKnown v then core v c :: coreIn v cs else coreIn v cs

end

theorem coreIn_eq_map (cs : List Element) : coreIn v cs = (cs.filter (·.isKnown v)).map (core v) := by
  induction cs with
  | nil => rfl
  | cons c cs ih =>
    rw [coreIn, ih]
    cases h : c.isKnown v <;> simp [h]

theorem children_core (e : Element) : (e.core v).children = (e.children.filter (·.isKnown v)).map (core v) := by
  cases e
  rw [core, coreIn_eq_map]

@[simp] theorem name_core (e : Element) : (e.core v).name = e.name := by
  cases e
  rfl

@[simp] theorem text_core (e : Element) : (e.core v).text = e.text := by
  cases e
  rfl

theorem attributes_core (e : Element) :
    (e.core v).attributes = e.attributes.filter fun a => v.readsKey a.1 := by
  cases e
  rfl

theorem induction_children {motive : Element → Prop}
    (node : ∀ e : Element, (∀ c ∈ e.children, motive c) → motive e) (e : Element) : motive e := by
  refine @Element.rec motive (fun cs => ∀ c ∈ cs, motive c) ?_ ?_ ?_ e
  · intro name qualifier attributes children text ih
    exact node _ ih
  · simp
  · intro c cs hc hcs
    exact List.forall_mem_cons.2 ⟨hc, hcs⟩

mutual

theorem find?_eq_head? (name : String) : (e : Element) → e.find? name = (e.descendants name).head?
  | ⟨_, _, _, children, _⟩ => findIn?_eq_head? name children

theorem findIn?_eq_head? (name : String) : (cs : List Element) → findIn? name cs = (descendantsIn name cs).head?
  | [] => rfl
  | c :: cs => by
    rw [findIn?, descendantsIn, find?_eq_head? name c, findIn?_eq_head? name cs]
    cases c.name == name with
    | true => rfl
    | false => cases descendants name c <;> rfl

end

section

variable (h : name ∈ v.names)
include h

theorem isKnown_of_name {e : Element} (he : (e.name == name) = true) : e.isKnown v = true :=
  List.any_eq_true.2 ⟨name, h, by simp [he]⟩

theorem pieces_of_unknown {e : Element} (he : e.isKnown v = false) :
    (e.name == name) = false ∧ descendants name e = [] := by
  have hname := List.any_eq_false.1 he name h
  simpa using hname

/-- The elements of the vocabulary inside the core are the cores of those inside the element. -/
theorem descendants_core (e : Element) : (e.core v).descendants name = (e.descendants name).map (core v) := by
  induction e using induction_children with
  | node e ih =>
    have hpieces : ∀ c ∈ e.children.filter (·.isKnown v),
        (if (core v c).name == name then [core v c] else []) ++ descendants name (core v c) =
          ((if c.name == name then [c] else []) ++ descendants name c).map (core v) := by
      intro c hc
      rw [ih c (List.mem_of_mem_filter hc), name_core, List.map_append]
      cases c.name == name <;> rfl
    have hunknown : ∀ c ∈ e.children, c.isKnown v = false →
        ((if c.name == name then [c] else []) ++ descendants name c).map (core v) = [] := by
      intro c _ hc
      obtain ⟨hname, hnone⟩ := pieces_of_unknown h hc
      simp [hname, hnone]
    rw [descendants_eq_flatMap, children_core, List.flatMap_map, List.flatMap_congr hpieces,
      flatMap_filter_of_forall hunknown, descendants_eq_flatMap, List.map_flatMap]

theorem childrenCalled_core (e : Element) :
    (e.core v).childrenCalled name = (e.childrenCalled name).map (core v) := by
  have hkept : (e.children.filter (·.isKnown v)).filter (·.name == name) = e.childrenCalled name := by
    rw [List.filter_filter, childrenCalled]
    refine List.filter_congr fun c _ => ?_
    cases hc : c.name == name with
    | false => rfl
    | true => rw [isKnown_of_name h hc, Bool.true_and]
  rw [childrenCalled, children_core, List.filter_map, ← hkept]
  simp only [Function.comp_def, name_core]

theorem child?_core (e : Element) : (e.core v).child? name = (e.child? name).map (core v) := by
  have hcalled := childrenCalled_core h e
  rw [child?, child?, ← List.head?_filter, ← List.head?_filter, ← List.head?_map]
  exact congrArg List.head? hcalled

theorem find?_core (e : Element) : (e.core v).find? name = (e.find? name).map (core v) := by
  rw [find?_eq_head?, find?_eq_head?, descendants_core h, List.head?_map]

@[simp] theorem textOf?_core (e : Element) : (e.core v).textOf? name = e.textOf? name := by
  rw [textOf?, textOf?, child?_core h, Option.map_map]
  simp only [Function.comp_def, text_core]

end

theorem follow?_core {steps : List String} (h : ∀ step ∈ steps, step ∈ v.names) (e : Element) :
    (e.core v).follow? steps = (e.follow? steps).map (core v) := by
  induction steps generalizing e with
  | nil => rfl
  | cons step steps ih =>
    obtain ⟨hstep, hsteps⟩ := List.forall_mem_cons.1 h
    rw [follow?, follow?, child?_core hstep]
    cases e.child? step with
    | none => rfl
    | some c => exact ih hsteps c

theorem reached_core {steps : List String} (h : ∀ step ∈ steps, step ∈ v.names) (e : Element) :
    (e.core v).reached steps = (e.reached steps).map (core v) := by
  have hfrom : ∀ found : List Element,
      steps.foldl (fun found step => found.flatMap (·.childrenCalled step)) (found.map (core v)) =
        (steps.foldl (fun found step => found.flatMap (·.childrenCalled step)) found).map (core v) := by
    intro found
    induction steps generalizing found with
    | nil => rfl
    | cons step steps ih =>
      obtain ⟨hstep, hsteps⟩ := List.forall_mem_cons.1 h
      rw [List.foldl_cons, List.foldl_cons, ← ih hsteps, List.map_flatMap, List.flatMap_map]
      simp only [childrenCalled_core hstep]
  exact hfrom [e]

theorem find?_filter_of_imp {α : Type} {p q : α → Bool} (h : ∀ a, q a = true → p a = true) (as : List α) :
    (as.filter p).find? q = as.find? q := by
  rw [List.find?_filter]
  congr 1
  funext a
  cases hq : q a with
  | false => simp
  | true => simp [h a hq]

theorem attribute?_core {key : String} (h : key ∈ v.keys) (e : Element) :
    (e.core v).attribute? key = e.attribute? key := by
  rw [attribute?, attributes_core, find?_filter_of_imp, attribute?]
  intro a ha
  rw [eq_of_beq ha]
  simp [Vocabulary.readsKey, h]

theorem localAttribute?_core {key : String} (h : key ∈ v.localKeys) (e : Element) :
    (e.core v).localAttribute? key = e.localAttribute? key := by
  rw [localAttribute?, attributes_core, find?_filter_of_imp, localAttribute?]
  intro a ha
  simp [Vocabulary.readsKey, eq_of_beq ha, h]

theorem isKnown_core (e : Element) : (e.core v).isKnown v = e.isKnown v := by
  rw [Bool.eq_iff_iff, isKnown, isKnown, List.any_eq_true, List.any_eq_true]
  refine exists_congr fun name => and_congr_right fun h => ?_
  rw [name_core, descendants_core h, List.isEmpty_map]

theorem Foreign.isKnown {e : Element} (h : e.Foreign v) : e.isKnown v = false := by
  induction h with
  | @intro e name children ih =>
    refine List.any_eq_false.2 fun n hn => ?_
    have hinside : e.descendants n = [] := by
      rw [descendants_eq_flatMap, List.flatMap_eq_nil_iff]
      intro c hc
      obtain ⟨hname, hnone⟩ := pieces_of_unknown hn (ih c hc)
      simp [hname, hnone]
    have hne : e.name ≠ n := fun he => name (he ▸ hn)
    simp [hinside, hne]

theorem core_ext {a b : Element} (hname : a.name = b.name) (htext : a.text = b.text)
    (hattributes : a.attributes.filter (fun x => v.readsKey x.1) = b.attributes.filter fun x => v.readsKey x.1)
    (hchildren : (a.children.filter (·.isKnown v)).map (core v) = (b.children.filter (·.isKnown v)).map (core v)) :
    a.core v = b.core v := by
  cases a
  cases b
  simp_all only [core, coreIn_eq_map]

/-- An edit outside the vocabulary leaves the core as it is. -/
theorem Edit.core_eq {e e' : Element} (h : e.Edit v e') : e'.core v = e.core v := by
  induction h with
  | @insert e before after c children foreign =>
    refine core_ext rfl rfl rfl ?_
    simp [children, foreign.isKnown]
  | @annotate e before after key value attributes foreign foreignLocal =>
    refine core_ext rfl rfl ?_ rfl
    have hkey : v.readsKey key = false := by simp [Vocabulary.readsKey, foreign, foreignLocal]
    simp [attributes, hkey]
  | requalify => exact core_ext rfl rfl rfl rfl
  | @inside e before after c c' children edit ih =>
    refine core_ext rfl rfl rfl ?_
    -- Whether the child is kept is seen in its core, which is the same.
    have hknown : c'.isKnown v = c.isKnown v := by rw [← isKnown_core, ih, isKnown_core]
    simp [children, List.filter_cons, hknown, apply_ite (List.map (core v)), ih]

theorem core_eq_of_edits {e e' : Element} (h : Relation.ReflTransGen (Edit v) e e') : e'.core v = e.core v := by
  induction h with
  | refl => rfl
  | tail _ h ih => exact h.core_eq.trans ih

end Element
end TabularReport.Markup
