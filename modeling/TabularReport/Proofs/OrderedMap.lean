import Mathlib.Data.List.Induction
import Mathlib.Data.List.Nodup
import TabularReport.OrderedMap

set_option autoImplicit false

namespace TabularReport.OrderedMap

universe u v w

variable {κ : Type u} {α : Type v} {β : Type w}

def mapValues (f : α → β) (m : OrderedMap κ α) : OrderedMap κ β :=
  ⟨m.entries.map fun e => (e.1, f e.2), by simpa [Function.comp_def] using m.distinct⟩

@[simp] theorem keys_mapValues (f : α → β) (m : OrderedMap κ α) : (m.mapValues f).keys = m.keys := by
  simp [keys, mapValues, Function.comp_def]

theorem eq_of_mem_entries {m : OrderedMap κ α} {key : κ} {v w : α} (hv : (key, v) ∈ m.entries)
    (hw : (key, w) ∈ m.entries) : v = w :=
  congrArg Prod.snd (List.inj_on_of_nodup_map m.distinct hv hw rfl)

variable [DecidableEq κ]

theorem find?_of_nodup_map {key : α → κ} {as : List α} (h : (as.map key).Nodup) {a : α} (ha : a ∈ as) :
    as.find? (fun b => key b = key a) = some a := by
  cases hfind : as.find? (fun b => key b = key a) with
  | none => simpa using List.find?_eq_none.1 hfind a ha
  | some b =>
    have hkey : key b = key a := by simpa using List.find?_some hfind
    rw [List.inj_on_of_nodup_map h (List.mem_of_find?_eq_some hfind) ha hkey]

theorem get?_of_mem_entries {m : OrderedMap κ α} {e : κ × α} (h : e ∈ m.entries) : m.get? e.1 = some e.2 := by
  rw [get?, find?_of_nodup_map m.distinct h, Option.map_some]

theorem entries_eq_filterMap_keys (m : OrderedMap κ α) :
    m.entries = m.keys.filterMap fun key => (m.get? key).map (key, ·) := by
  have hentries : m.entries.filterMap (fun e => (m.get? e.1).map (e.1, ·)) = m.entries.filterMap some :=
    List.filterMap_congr fun e he => by rw [get?_of_mem_entries he, Option.map_some]
  rw [keys, List.filterMap_map, Function.comp_def, hentries, List.filterMap_some]

theorem eq_of_get?_eq {m n : OrderedMap κ α} (hkeys : m.keys = n.keys)
    (h : ∀ key, m.get? key = n.get? key) : m = n := by
  have hentries : m.entries = n.entries := by
    rw [entries_eq_filterMap_keys m, entries_eq_filterMap_keys n, hkeys]
    simp only [h]
  cases m
  cases n
  cases hentries
  rfl

theorem mem_keys_iff {m : OrderedMap κ α} {key : κ} : key ∈ m.keys ↔ (m.get? key).isSome := by
  simp [keys, get?]

theorem contains_eq_false_iff {m : OrderedMap κ α} {key : κ} : m.contains key = false ↔ m.get? key = none := by
  rw [contains, Option.isSome_eq_false_iff, Option.isNone_iff_eq_none]

theorem contains_congr {m n : OrderedMap κ α} {key : κ} (h : m.get? key = n.get? key) :
    m.contains key = n.contains key := by
  rw [contains, contains, h]

theorem get?_insertNew (m : OrderedMap κ α) (key other : κ) (v : α) :
    (m.insertNew key v).get? other = (m.get? other).or (if other = key then some v else none) := by
  unfold insertNew
  split
  · rename_i hkey
    rw [contains, Option.isSome_iff_exists] at hkey
    obtain ⟨w, hw⟩ := hkey
    by_cases h : other = key
    · simp [h, hw]
    · simp [h]
  · rename_i hkey
    rw [Bool.not_eq_true, contains_eq_false_iff] at hkey
    by_cases h : other = key
    · simp [h, hkey]
    · simp [h]

theorem ofList_concat (es : List (κ × α)) (key : κ) (v : α) :
    ofList (es ++ [(key, v)]) = (ofList es).insert key v := by
  simp [ofList]

/-- Of the entries with one key the last one counts. -/
theorem get?_ofList (es : List (κ × α)) (key : κ) :
    (ofList es).get? key = (es.reverse.find? (·.1 = key)).map (·.2) := by
  induction es using List.reverseRecOn with
  | nil => rfl
  | append_singleton es e ih =>
    rw [ofList_concat, get?_insert, ih, List.reverse_concat, List.find?_cons]
    by_cases h : e.1 = key
    · simp [h]
    · simp [h, Ne.symm h]

theorem mem_of_get?_ofList {es : List (κ × α)} {key : κ} {v : α} (h : (ofList es).get? key = some v) :
    (key, v) ∈ es := by
  rw [get?_ofList, Option.map_eq_some_iff] at h
  obtain ⟨e, he, rfl⟩ := h
  have hkey : e.1 = key := by simpa using List.find?_some he
  subst hkey
  exact List.mem_reverse.1 (List.mem_of_find?_eq_some he)

theorem isSome_get?_ofList {es : List (κ × α)} {key : κ} :
    ((ofList es).get? key).isSome ↔ key ∈ es.map (·.1) := by
  simp [get?_ofList]

theorem put_of_not_mem {key : κ} {v : α} {es : List (κ × α)} (h : key ∉ es.map (·.1)) :
    put key v es = es ++ [(key, v)] := by
  induction es with
  | nil => rfl
  | cons e es ih =>
    rw [List.map_cons, List.mem_cons, not_or] at h
    simp [put, Ne.symm h.1, ih h.2]

theorem entries_ofList {es : List (κ × α)} (h : (es.map (·.1)).Nodup) : (ofList es).entries = es := by
  induction es using List.reverseRecOn with
  | nil => rfl
  | append_singleton es e ih =>
    rw [List.map_append, List.nodup_append] at h
    have hes := ih h.1
    have hnew : e.1 ∉ es.map (·.1) := fun hmem => h.2.2 e.1 hmem e.1 (by simp) rfl
    calc (ofList (es ++ [e])).entries
        = put e.1 e.2 (ofList es).entries := by rw [ofList_concat, insert]
      _ = put e.1 e.2 es := by rw [hes]
      _ = es ++ [e] := put_of_not_mem hnew

theorem map_put (f : α → β) (key : κ) (v : α) (es : List (κ × α)) :
    (put key v es).map (fun e => (e.1, f e.2)) = put key (f v) (es.map fun e => (e.1, f e.2)) := by
  induction es with
  | nil => rfl
  | cons e es ih =>
    by_cases he : e.1 = key
    · simp [put, he]
    · simp [put, he, ih]

theorem mapValues_insert (f : α → β) (m : OrderedMap κ α) (key : κ) (v : α) :
    (m.insert key v).mapValues f = (m.mapValues f).insert key (f v) := by
  simp only [mapValues, insert, map_put]

theorem mapValues_ofList (f : α → β) (es : List (κ × α)) :
    (ofList es).mapValues f = ofList (es.map fun e => (e.1, f e.2)) := by
  have hfold : ∀ m : OrderedMap κ α, (es.foldl (fun m e => m.insert e.1 e.2) m).mapValues f =
      (es.map fun e => (e.1, f e.2)).foldl (fun m e => m.insert e.1 e.2) (m.mapValues f) := by
    induction es with
    | nil => exact fun _ => rfl
    | cons e es ih =>
      intro m
      rw [List.map_cons, List.foldl_cons, List.foldl_cons, ih, mapValues_insert]
  exact hfold empty

theorem keys_ofList (es : List (κ × α)) :
    (ofList es).keys = (ofList (es.map fun e => (e.1, ()))).keys := by
  rw [← keys_mapValues fun _ => (), mapValues_ofList]

end TabularReport.OrderedMap
