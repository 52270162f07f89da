import TabularReport.Store

set_option autoImplicit false

namespace TabularReport.Store

@[simp] theorem rows?_empty (dataset : String) : ({} : Store).rows? dataset = none := rfl

@[simp] theorem evaluated?_empty (dataset : String) : ({} : Store).evaluated? dataset = none := rfl

@[simp] theorem index?_empty (dataset keyField : String) : ({} : Store).index? dataset keyField = none := rfl

@[simp] theorem rows?_putRows (s : Store) (dataset other : String) (rows : List DataRow) :
    (s.putRows dataset rows).rows? other = if other = dataset then some rows else s.rows? other := by
  simp [rows?, putRows]

@[simp] theorem evaluated?_putRows (s : Store) (dataset other : String) (rows : List DataRow) :
    (s.putRows dataset rows).evaluated? other = s.evaluated? other := rfl

@[simp] theorem index?_putRows (s : Store) (dataset other keyField : String) (rows : List DataRow) :
    (s.putRows dataset rows).index? other keyField = s.index? other keyField := rfl

@[simp] theorem rows?_putEvaluated (s : Store) (dataset other : String) (rows : List DataRow) :
    (s.putEvaluated dataset rows).rows? other = s.rows? other := rfl

@[simp] theorem evaluated?_putEvaluated (s : Store) (dataset other : String) (rows : List DataRow) :
    (s.putEvaluated dataset rows).evaluated? other = if other = dataset then some rows else s.evaluated? other := by
  simp [evaluated?, putEvaluated]

@[simp] theorem index?_putEvaluated (s : Store) (dataset other keyField : String) (rows : List DataRow) :
    (s.putEvaluated dataset rows).index? other keyField = s.index? other keyField := rfl

theorem withIndex?_eq_some {s t : Store} {dataset keyField : String} :
    s.withIndex? dataset keyField = some t ↔ ∃ rows, s.rows? dataset = some rows ∧
      t = { s with indices := s.indices.insert (dataset, keyField) (.ofRows keyField rows) } := by
  simp only [withIndex?, Option.map_eq_some_iff, eq_comm (a := t)]

theorem index?_withIndex {s : Store} {dataset keyField : String} {index : KeyIndex} (other otherField : String) :
    index? { s with indices := s.indices.insert (dataset, keyField) index } other otherField =
      if (other, otherField) = (dataset, keyField) then some index else s.index? other otherField := by
  simp only [index?, OrderedMap.get?_insert]

structure Extends (t s : Store) : Prop where
  rows : ∀ {dataset rows}, s.rows? dataset = some rows → t.rows? dataset = some rows
  evaluated : ∀ {dataset rows}, s.evaluated? dataset = some rows → t.evaluated? dataset = some rows
  index : ∀ {dataset keyField index}, s.index? dataset keyField = some index →
    t.index? dataset keyField = some index

theorem Extends.refl (s : Store) : s.Extends s := ⟨id, id, id⟩

theorem Extends.trans {s t u : Store} (h : u.Extends t) (h' : t.Extends s) : u.Extends s :=
  ⟨fun hs => h.rows (h'.rows hs), fun hs => h.evaluated (h'.evaluated hs), fun hs => h.index (h'.index hs)⟩

theorem Extends.isIndexed {s t : Store} {dataset keyField : String} (h : t.Extends s)
    (hs : s.isIndexed dataset keyField = true) : t.isIndexed dataset keyField = true := by
  obtain ⟨index, hi⟩ := Option.isSome_iff_exists.1 hs
  simp [Store.isIndexed, h.index hi]

theorem extends_putRows {s : Store} {dataset : String} {rows : List DataRow} (h : s.rows? dataset = none) :
    (s.putRows dataset rows).Extends s := by
  refine ⟨?_, id, id⟩
  intro other found ho
  have hne : other ≠ dataset := by
    rintro rfl
    rw [h] at ho
    contradiction
  simpa [hne] using ho

theorem extends_putEvaluated {s : Store} {dataset : String} {rows : List DataRow}
    (h : s.evaluated? dataset = none) : (s.putEvaluated dataset rows).Extends s := by
  refine ⟨id, ?_, id⟩
  intro other found ho
  have hne : other ≠ dataset := by
    rintro rfl
    rw [h] at ho
    contradiction
  simpa [hne] using ho

theorem extends_withIndex? {s t : Store} {dataset keyField : String}
    (h : s.isIndexed dataset keyField = false) (ht : s.withIndex? dataset keyField = some t) : t.Extends s := by
  obtain ⟨rows, _, rfl⟩ := withIndex?_eq_some.1 ht
  refine ⟨id, id, ?_⟩
  intro other otherField index hi
  have hne : (other, otherField) ≠ (dataset, keyField) := by
    rintro ⟨⟩
    simp [isIndexed, hi] at h
  rw [index?_withIndex, if_neg hne]
  exact hi

theorem find?_eq_some {s : Store} {dataset keyField : String} {index : KeyIndex} {rows : List DataRow}
    (hi : s.index? dataset keyField = some index) (hr : s.rows? dataset = some rows) (key : Scalar) :
    s.find? dataset keyField key = some ((index.position? key).bind (rows[·]?)) := by
  simp [find?, hi, hr]

def UpToDate (s : Store) : Prop :=
  ∀ dataset keyField index, s.index? dataset keyField = some index →
    ∃ rows, s.rows? dataset = some rows ∧ index = .ofRows keyField rows

theorem UpToDate.exists_of_isIndexed {s : Store} {dataset keyField : String} (h : s.UpToDate)
    (hi : s.isIndexed dataset keyField = true) : ∃ rows, s.rows? dataset = some rows ∧
      s.index? dataset keyField = some (.ofRows keyField rows) := by
  obtain ⟨index, hindex⟩ := Option.isSome_iff_exists.1 hi
  obtain ⟨rows, hrows, rfl⟩ := h dataset keyField index hindex
  exact ⟨rows, hrows, hindex⟩

theorem UpToDate.isSome_find? {s : Store} {dataset keyField : String} (h : s.UpToDate)
    (hi : s.isIndexed dataset keyField = true) (key : Scalar) : (s.find? dataset keyField key).isSome := by
  obtain ⟨rows, hrows, hindex⟩ := h.exists_of_isIndexed hi
  simp [find?_eq_some hindex hrows]

/-- What is added to a store leaves the answers of its lookups as they are. -/
theorem Extends.find? {s t : Store} {dataset keyField : String} (h : t.Extends s) (hs : s.UpToDate)
    (hi : s.isIndexed dataset keyField = true) (key : Scalar) :
    t.find? dataset keyField key = s.find? dataset keyField key := by
  obtain ⟨rows, hrows, hindex⟩ := hs.exists_of_isIndexed hi
  rw [find?_eq_some hindex hrows, find?_eq_some (h.index hindex) (h.rows hrows)]

end TabularReport.Store
