set_option autoImplicit false

namespace TabularReport

universe u v

structure OrderedMap (κ : Type u) (α : Type v) where
  entries : List (κ × α)
  distinct : (entries.map (·.1)).Nodup
  deriving DecidableEq

namespace OrderedMap

variable {κ : Type u} {α : Type v}

def empty : OrderedMap κ α := ⟨[], List.nodup_nil⟩

instance : EmptyCollection (OrderedMap κ α) := ⟨empty⟩
instance : Inhabited (OrderedMap κ α) := ⟨empty⟩

def keys (m : OrderedMap κ α) : List κ :=
  m.entries.map (·.1)

def size (m : OrderedMap κ α) : Nat :=
  m.entries.length

def isEmpty (m : OrderedMap κ α) : Bool :=
  m.entries.isEmpty

variable [DecidableEq κ]

def get? (m : OrderedMap κ α) (key : κ) : Option α :=
  (m.entries.find? (·.1 = key)).map (·.2)

def contains (m : OrderedMap κ α) (key : κ) : Bool :=
  (m.get? key).isSome

def put (key : κ) (v : α) : List (κ × α) → List (κ × α)
  | [] => [(key, v)]
  | e :: es => if e.1 = key then (key, v) :: es else e :: put key v es

theorem mem_keys_put {key other : κ} {v : α} {es : List (κ × α)} :
    other ∈ (put key v es).map (·.1) ↔ other = key ∨ other ∈ es.map (·.1) := by
  induction es with
  | nil => simp [put]
  | cons e es ih =>
    by_cases h : e.1 = key
    · simp [put, h]
    · simp only [put, h, if_false, List.map_cons, List.mem_cons, ih]
      grind

theorem nodup_put {key : κ} {v : α} {es : List (κ × α)} (h : (es.map (·.1)).Nodup) :
    ((put key v es).map (·.1)).Nodup := by
  induction es with
  | nil => simp [put]
  | cons e es ih =>
    simp only [List.map_cons, List.nodup_cons] at h
    by_cases he : e.1 = key
    · simpa [put, he] using ⟨by simpa [he] using h.1, h.2⟩
    · rw [put, if_neg he, List.map_cons, List.nodup_cons, mem_keys_put, not_or]
      exact ⟨⟨he, h.1⟩, ih h.2⟩

def insert (m : OrderedMap κ α) (key : κ) (v : α) : OrderedMap κ α :=
  ⟨put key v m.entries, nodup_put m.distinct⟩

/-- Keeps the value of a key that is there. -/
def insertNew (m : OrderedMap κ α) (key : κ) (v : α) : OrderedMap κ α :=
  if m.contains key then m else m.insert key v

def ofList (es : List (κ × α)) : OrderedMap κ α :=
  es.foldl (fun m e => m.insert e.1 e.2) empty

@[simp] theorem get?_empty (key : κ) : (empty : OrderedMap κ α).get? key = none := rfl

theorem find?_put (key other : κ) (v : α) (es : List (κ × α)) :
    ((put key v es).find? (·.1 = other)).map (·.2) =
      if other = key then some v else (es.find? (·.1 = other)).map (·.2) := by
  induction es with
  | nil =>
    by_cases h : key = other
    · simp [put, h]
    · simp [put, h, Ne.symm h]
  | cons e es ih =>
    by_cases he : e.1 = key
    · by_cases h : key = other
      · simp [put, he, h]
      · simp [put, he, h, Ne.symm h]
    · by_cases h : e.1 = other
      · have ho : other ≠ key := by rw [← h]; exact he
        simp [put, h, ho]
      · simpa [put, he, h] using ih

@[simp] theorem get?_insert (m : OrderedMap κ α) (key other : κ) (v : α) :
    (m.insert key v).get? other = if other = key then some v else m.get? other :=
  find?_put key other v m.entries

end OrderedMap
end TabularReport
