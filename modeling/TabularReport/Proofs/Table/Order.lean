import Mathlib.Data.List.Nodup
import Mathlib.Data.List.Dedup
import TabularReport.Proofs.Table.SortKey
import TabularReport.Table.Basic
/-!
The order of the rows of a table by a column.  Positions are sorted stably, with those of Null last in both
directions.  As a list of positions has only one such order, it can be given key by key: the keys in their
order, and for each the positions that have it.
-/
set_option autoImplicit false

namespace TabularReport

/-- Sorting the elements with their positions keeps those in place that may stand either way. -/
theorem pairwise_mergeSort_zipIdx {α : Type} {le : α → α → Bool}
    (trans : ∀ a b c, le a b = true → le b c = true → le a c = true) (total : ∀ a b, (le a b || le b a) = true)
    (as : List α) :
    (as.zipIdx.mergeSort fun p q => le p.1 q.1).Pairwise fun p q =>
      le p.1 q.1 = true ∧ (le q.1 p.1 = true → p.2 < q.2) := by
  -- The sort is that of the elements with their positions twice, the second time to break ties.
  rw [← List.mergeSort_zipIdx, List.pairwise_map]
  have hperm := List.mergeSort_perm as.zipIdx.zipIdx (List.zipIdxLE fun p q => le p.1 q.1)
  have hsorted := @List.pairwise_mergeSort _ (List.zipIdxLE fun p q : α × Nat => le p.1 q.1)
    (List.zipIdxLE_trans fun _ _ _ => trans _ _ _) (List.zipIdxLE_total fun _ _ => total _ _) as.zipIdx.zipIdx
  have hplaces : (as.zipIdx.zipIdx.map (·.2)).Nodup := by
    rw [List.zipIdx_map_snd]
    exact List.nodup_range'
  have hdistinct := List.pairwise_map.1 ((hperm.map (·.2)).nodup_iff.2 hplaces)
  have hsnd : ∀ p ∈ as.zipIdx.zipIdx.mergeSort (List.zipIdxLE fun p q => le p.1 q.1), p.1.2 = p.2 := by
    intro p hp
    have hplace := List.mem_zipIdx_iff_getElem?.1 (hperm.mem_iff.1 hp)
    rw [List.getElem?_zipIdx, Option.map_eq_some_iff] at hplace
    obtain ⟨a, _, ha⟩ := hplace
    rw [← ha, Nat.zero_add]
  refine (hsorted.and hdistinct).imp_of_mem ?_
  rintro p q hp hq ⟨hle, hne⟩
  have hp' := hsnd p hp
  have hq' := hsnd q hq
  unfold List.zipIdxLE at hle
  grind

namespace SortDirection

/-- The order of the direction, in which Null is a key like others. -/
def compare (direction : SortDirection) (a b : SortKey) : Ordering :=
  match direction with
  | .ascending => a.compareTo b
  | .descending => b.compareTo a

def compareLast (direction : SortDirection) : SortKey → SortKey → Ordering :=
  compareLex (compareOn SortKey.isNull) direction.compare

variable {direction : SortDirection}

instance : Std.TransCmp direction.compare := by
  cases direction with
  | ascending => exact inferInstanceAs (Std.TransCmp SortKey.compareTo)
  | descending => exact inferInstanceAs (Std.TransCmp fun a b => SortKey.compareTo b a)

instance : Std.TransCmp direction.compareLast :=
  inferInstanceAs (Std.TransCmp (compareLex (compareOn SortKey.isNull) direction.compare))

theorem precedes_eq (direction : SortDirection) (a b : SortKey) :
    direction.precedes a b = (direction.compareLast a b).isLE := by
  cases direction <;> cases a <;> cases b <;> rfl

/-- Whether the key at `i` comes before that at `j`: it is less, or it ties and stands in front. -/
def Before (direction : SortDirection) (keys : List SortKey) (i j : Nat) : Prop :=
  ∃ a b, keys[i]? = some a ∧ keys[j]? = some b ∧
    (direction.compareLast a b = .lt ∨ direction.compareLast a b = .eq ∧ i < j)

structure Sorts (direction : SortDirection) (keys : List SortKey) (positions : List Nat) : Prop where
  perm : positions.Perm (List.range keys.length)
  before : positions.Pairwise (direction.Before keys)

variable {keys : List SortKey}

instance {i j : Nat} : Decidable (direction.Before keys i j) :=
  decidable_of_iff ((keys[i]?.any fun a => keys[j]?.any fun b =>
      direction.compareLast a b = .lt ∨ direction.compareLast a b = .eq ∧ i < j) = true)
    (by simp [Before, Option.any_eq_true])

instance {positions : List Nat} : Decidable (direction.Sorts keys positions) :=
  decidable_of_iff (positions.Perm (List.range keys.length) ∧ positions.Pairwise (direction.Before keys))
    ⟨fun ⟨perm, before⟩ => ⟨perm, before⟩, fun h => ⟨h.perm, h.before⟩⟩

theorem not_before_of_before {i j : Nat} (h : direction.Before keys i j) : ¬ direction.Before keys j i := by
  rintro ⟨b', a', hb', ha', h'⟩
  obtain ⟨a, b, ha, hb, h⟩ := h
  obtain rfl : a = a' := Option.some.inj (ha.symm.trans ha')
  obtain rfl : b = b' := Option.some.inj (hb.symm.trans hb')
  rw [@Std.OrientedCmp.eq_swap _ direction.compareLast _ _ _] at h'
  cases hab : direction.compareLast a b <;> simp [hab] at h h'
  omega

theorem Sorts.unique {positions others : List Nat} (h : direction.Sorts keys positions)
    (h' : direction.Sorts keys others) : positions = others :=
  List.Perm.eq_of_pairwise (fun _ _ _ _ hij hji => absurd hji (not_before_of_before hij)) h.before h'.before
    (h.perm.trans h'.perm.symm)

theorem sorts_positions (direction : SortDirection) (keys : List SortKey) :
    direction.Sorts keys (direction.positions keys) := by
  constructor
  case perm =>
    have hperm := (List.mergeSort_perm keys.zipIdx fun a b => direction.precedes a.1 b.1).map (·.2)
    rwa [List.zipIdx_map_snd, ← List.range_eq_range'] at hperm
  case before =>
    have hmem : ∀ p ∈ keys.zipIdx.mergeSort fun a b => direction.precedes a.1 b.1, keys[p.2]? = some p.1 :=
      fun p hp => List.mem_zipIdx_iff_getElem?.1 (List.mem_mergeSort.1 hp)
    refine List.pairwise_map.2 ((pairwise_mergeSort_zipIdx ?_ ?_ keys).imp_of_mem ?_)
    · intro a b c hab hbc
      rw [precedes_eq] at *
      exact Std.TransCmp.isLE_trans hab hbc
    · intro a b
      rw [precedes_eq, precedes_eq, Bool.or_eq_true]
      exact isLE_or_isLE a b
    · rintro p q hp hq ⟨hle, hstays⟩
      rw [precedes_eq] at hle hstays
      refine ⟨p.1, q.1, hmem p hp, hmem q hq, ?_⟩
      cases hcompare : direction.compareLast p.1 q.1 with
      | lt => exact .inl rfl
      | eq =>
        rw [@Std.OrientedCmp.eq_swap _ direction.compareLast _ _ _, hcompare] at hstays
        exact .inr ⟨rfl, hstays rfl⟩
      | gt =>
        rw [hcompare] at hle
        contradiction

end SortDirection

namespace SortKey

def positionsIn (keys : List SortKey) (key : SortKey) : List Nat :=
  (List.range keys.length).filter (keys[·]? = some key)

theorem mem_positionsIn {keys : List SortKey} {key : SortKey} {i : Nat} :
    i ∈ key.positionsIn keys ↔ keys[i]? = some key := by
  simp only [positionsIn, List.mem_filter, List.mem_range, decide_eq_true_eq, and_iff_right_iff_imp]
  intro h
  exact (List.getElem?_eq_some_iff.1 h).1

theorem pairwise_positionsIn (keys : List SortKey) (key : SortKey) :
    (key.positionsIn keys).Pairwise (· < ·) :=
  List.pairwise_lt_range.filter _

def ranked (keys : List SortKey) : List SortKey :=
  (keys.filter (!·.isNull)).dedup.mergeSort fun a b => (a.compareTo b).isLE

theorem mem_ranked {keys : List SortKey} {key : SortKey} :
    key ∈ ranked keys ↔ key ∈ keys ∧ key.isNull = false := by
  simp [ranked]

theorem pairwise_ranked (keys : List SortKey) : (ranked keys).Pairwise fun a b => a.compareTo b = .lt := by
  have hsorted := @List.pairwise_mergeSort _ (fun a b : SortKey => (a.compareTo b).isLE)
    (fun _ _ _ => Std.TransCmp.isLE_trans) (fun a b => Bool.or_eq_true_iff.2 (isLE_or_isLE a b))
    (keys.filter (!·.isNull)).dedup
  have hnodup : (ranked keys).Nodup := (List.mergeSort_perm _ _).nodup_iff.2 (List.nodup_dedup _)
  refine (hsorted.and hnodup).imp ?_
  rintro a b ⟨hle, hne⟩
  rcases Ordering.isLE_iff_eq_lt_or_eq_eq.1 hle with h | h
  · exact h
  · exact absurd (Std.LawfulEqCmp.eq_of_compare h) hne

end SortKey

namespace SortDirection

variable {direction : SortDirection} {keys : List SortKey}

def inOrder {α : Type} (direction : SortDirection) (as : List α) : List α :=
  match direction with
  | .ascending => as
  | .descending => as.reverse

theorem compareLast_of_isNull_eq {a b : SortKey} (h : a.isNull = b.isNull) :
    direction.compareLast a b = direction.compare a b := by
  simp [compareLast, compareLex, compareOn, h]

theorem compareLast_null {a : SortKey} (h : a.isNull = false) : direction.compareLast a .null = .lt := by
  cases a
  case null => contradiction
  all_goals rfl

theorem mem_inOrder {α : Type} {as : List α} {a : α} : a ∈ direction.inOrder as ↔ a ∈ as := by
  cases direction <;> simp [inOrder]

theorem pairwise_inOrder_ranked (direction : SortDirection) (keys : List SortKey) :
    (direction.inOrder (SortKey.ranked keys)).Pairwise fun a b => direction.compare a b = .lt := by
  cases direction with
  | ascending => exact SortKey.pairwise_ranked keys
  | descending => exact List.pairwise_reverse.2 (SortKey.pairwise_ranked keys)

theorem sorts_flatMap {ks : List SortKey} (hks : ks.Pairwise fun a b => direction.compareLast a b = .lt)
    (hall : ∀ key ∈ keys, key ∈ ks) : direction.Sorts keys (ks.flatMap (·.positionsIn keys)) := by
  have hbefore : (ks.flatMap (·.positionsIn keys)).Pairwise (direction.Before keys) := by
    refine List.pairwise_flatMap.2 ⟨?_, ?_⟩
    · intro key _
      refine (SortKey.pairwise_positionsIn keys key).imp_of_mem ?_
      intro i j hi hj hij
      exact ⟨key, key, SortKey.mem_positionsIn.1 hi, SortKey.mem_positionsIn.1 hj,
        .inr ⟨Std.ReflCmp.compare_self, hij⟩⟩
    · refine hks.imp ?_
      intro a b hab i hi j hj
      exact ⟨a, b, SortKey.mem_positionsIn.1 hi, SortKey.mem_positionsIn.1 hj, .inl hab⟩
  have hnodup : (ks.flatMap (·.positionsIn keys)).Nodup :=
    hbefore.imp fun h => by
      rintro rfl
      exact not_before_of_before h h
  refine ⟨(List.perm_ext_iff_of_nodup hnodup List.nodup_range).2 ?_, hbefore⟩
  intro i
  simp only [List.mem_flatMap, SortKey.mem_positionsIn, List.mem_range]
  constructor
  · rintro ⟨key, _, hi⟩
    exact (List.getElem?_eq_some_iff.1 hi).1
  · intro hi
    exact ⟨keys[i], hall _ (List.getElem_mem hi), List.getElem?_eq_getElem hi⟩

/-- The positions in the order of the direction: key by key, and those of Null last. -/
theorem positions_eq (direction : SortDirection) (keys : List SortKey) :
    direction.positions keys =
      (direction.inOrder (SortKey.ranked keys)).flatMap (·.positionsIn keys) ++ SortKey.null.positionsIn keys := by
  have hsorts : direction.Sorts keys
      ((direction.inOrder (SortKey.ranked keys) ++ [SortKey.null]).flatMap (·.positionsIn keys)) := by
    have hvalue : ∀ key ∈ direction.inOrder (SortKey.ranked keys), key.isNull = false :=
      fun key hkey => (SortKey.mem_ranked.1 (mem_inOrder.1 hkey)).2
    refine sorts_flatMap (List.pairwise_append.2 ⟨?_, List.pairwise_singleton _ _, ?_⟩) ?_
    · refine (pairwise_inOrder_ranked direction keys).imp_of_mem ?_
      intro a b ha hb hab
      rw [compareLast_of_isNull_eq ((hvalue a ha).trans (hvalue b hb).symm), hab]
    · intro a ha b hb
      rw [List.mem_singleton.1 hb, compareLast_null (hvalue a ha)]
    · intro key hkey
      rw [List.mem_append, mem_inOrder, SortKey.mem_ranked, List.mem_singleton]
      cases key <;> simp [hkey, SortKey.isNull]
  rw [(sorts_positions direction keys).unique hsorts, List.flatMap_append, List.flatMap_singleton]

end SortDirection

namespace Table

theorem rowsAt_range (t : Table) : t.rowsAt (List.range t.rows.length) = t.rows := by
  have hmem : ∀ p ∈ t.rows.zipIdx, t.rows[p.2]? = some p.1 := fun p hp => List.mem_zipIdx_iff_getElem?.1 hp
  calc t.rowsAt (List.range t.rows.length)
      = (t.rows.zipIdx.map (·.2)).filterMap (t.rows[·]?) := by
        rw [List.zipIdx_map_snd, ← List.range_eq_range', rowsAt]
    _ = t.rows.zipIdx.filterMap fun p => some p.1 := by
        rw [List.filterMap_map]
        exact List.filterMap_congr hmem
    _ = t.rows := by rw [List.filterMap_eq_map', List.zipIdx_map_fst]

/-- Whether the positions are the stable order of the rows with these keys.  Each row is there once, those
with the key Null come last, and the others come by key in the direction; rows that tie stay as they are. -/
structure StablyOrdered (t : Table) (keys : List SortKey) (direction : SortDirection) (order : List Nat) :
    Prop where
  permutation : order.Perm (List.range t.rows.length)
  rows : (t.rowsAt order).Perm t.rows
  nullsLast : ∃ others, order = others ++ SortKey.null.positionsIn keys ∧
    (∀ i ∈ others, keys[i]? ≠ some .null) ∧
    others.Pairwise fun i j => ∃ a b, keys[i]? = some a ∧ keys[j]? = some b ∧
      (direction.compare a b = .lt ∨ direction.compare a b = .eq ∧ i < j)

theorem stablyOrdered_positions (t : Table) {keys : List SortKey} (hkeys : keys.length = t.rows.length)
    (direction : SortDirection) : t.StablyOrdered keys direction (direction.positions keys) := by
  have hsorts := direction.sorts_positions keys
  have hperm : (direction.positions keys).Perm (List.range t.rows.length) := hkeys ▸ hsorts.perm
  have hvalue : ∀ i ∈ (direction.inOrder (SortKey.ranked keys)).flatMap (·.positionsIn keys),
      ∀ a, keys[i]? = some a → a.isNull = false := by
    intro i hi a ha
    obtain ⟨key, hkey, hi⟩ := List.mem_flatMap.1 hi
    obtain rfl : key = a := Option.some.inj ((SortKey.mem_positionsIn.1 hi).symm.trans ha)
    exact (SortKey.mem_ranked.1 (SortDirection.mem_inOrder.1 hkey)).2
  refine ⟨hperm, ?_, _, direction.positions_eq keys, ?_, ?_⟩
  · have hrows := hperm.filterMap (t.rows[·]?)
    rwa [← rowsAt, ← rowsAt, rowsAt_range] at hrows
  · intro i hi hnull
    exact absurd (hvalue i hi .null hnull) (by decide)
  · have hbefore := hsorts.before
    rw [direction.positions_eq] at hbefore
    refine (List.pairwise_append.1 hbefore).1.imp_of_mem ?_
    rintro i j hi hj ⟨a, b, ha, hb, h⟩
    rw [SortDirection.compareLast_of_isNull_eq ((hvalue i hi a ha).trans (hvalue j hj b hb).symm)] at h
    exact ⟨a, b, ha, hb, h⟩

theorem order?_eq_none_iff {t : Table} {name : String} {direction : SortDirection} :
    t.order? name direction = none ↔ ∀ header ∈ t.headers, header.name ≠ name := by
  rw [order?, Option.map_eq_none_iff, keys?]
  constructor
  · intro h header hmem hname
    cases hfind : t.headers.findIdx? (·.name = name) with
    | none => simpa [hname] using List.findIdx?_eq_none_iff.1 hfind header hmem
    | some column =>
      obtain ⟨hlt, _⟩ := List.findIdx?_eq_some_iff_getElem.1 hfind
      simp [hfind, List.getElem?_eq_getElem hlt] at h
  · intro h
    have hnone : t.headers.findIdx? (·.name = name) = none :=
      List.findIdx?_eq_none_iff.2 fun header hmem => decide_eq_false (h header hmem)
    rw [hnone]
    rfl

theorem order?_eq {t : Table} {name : String} {column : Nat} {header : TableHeader}
    (hcolumn : t.headers.findIdx? (·.name = name) = some column) (hheader : t.headers[column]? = some header)
    (direction : SortDirection) :
    t.order? name direction = some (direction.positions (t.rows.map (keyOf header.type column))) := by
  simp [order?, keys?, hcolumn, hheader]

/-- Whether both orders have the same groups of rows with one key, the second in reverse, and end in those
of Null. -/
def Mirrored (keys : List SortKey) (order reverse : List Nat) : Prop :=
  ∃ groups : List (List Nat), (∀ group ∈ groups, ∃ key ∈ keys, key ≠ .null ∧ group = key.positionsIn keys) ∧
    order = groups.flatten ++ SortKey.null.positionsIn keys ∧
    reverse = groups.reverse.flatten ++ SortKey.null.positionsIn keys

theorem mirrored_positions (keys : List SortKey) :
    Mirrored keys (SortDirection.ascending.positions keys) (SortDirection.descending.positions keys) := by
  refine ⟨(SortKey.ranked keys).map (·.positionsIn keys), ?_, ?_, ?_⟩
  · intro group hgroup
    obtain ⟨key, hkey, rfl⟩ := List.mem_map.1 hgroup
    obtain ⟨hmem, hvalue⟩ := SortKey.mem_ranked.1 hkey
    refine ⟨key, hmem, ?_, rfl⟩
    rintro rfl
    contradiction
  · rw [SortDirection.positions_eq, SortDirection.inOrder, List.flatMap_def]
  · rw [SortDirection.positions_eq, SortDirection.inOrder, List.flatMap_def, List.map_reverse]

/-- Sorting by a column is stable, with Null last in both directions.  There is an order unless no column
has the name, by the keys that the rows have in the first column with it.  Descending, the groups of rows
with one key come in reverse, but not the rows in a group. -/
theorem order?_stable (t : Table) (name : String) :
    (∀ direction, t.order? name direction = none ↔ ∀ header ∈ t.headers, header.name ≠ name) ∧
    ∀ column header, t.headers.findIdx? (·.name = name) = some column → t.headers[column]? = some header →
      ∃ keys ascending descending, keys = t.rows.map (keyOf header.type column) ∧
        t.order? name .ascending = some ascending ∧ t.StablyOrdered keys .ascending ascending ∧
        t.order? name .descending = some descending ∧ t.StablyOrdered keys .descending descending ∧
        Mirrored keys ascending descending := by
  refine ⟨fun _ => order?_eq_none_iff, ?_⟩
  intro column header hcolumn hheader
  have horder := order?_eq hcolumn hheader
  have hstable := @stablyOrdered_positions t (t.rows.map (keyOf header.type column)) (List.length_map _)
  exact ⟨_, _, _, rfl, horder _, hstable _, horder _, hstable _, mirrored_positions _⟩

def countKeys : List SortKey :=
  [.number (.ofNat 2), .null, .number (.ofNat 1), .number (.ofNat 2)]

/-- A table with one column of numbers, of which the second is missing and the first and the last tie. -/
def counts : Table where
  tablix := "Stock"
  dataset := "Items"
  headers := [⟨"Count", "", {}, .number, false, "1in"⟩]
  rows := countKeys.mapIdx fun i key =>
    ⟨i + 1, [⟨.null, .number, "", {}, some key, none⟩]⟩

theorem order?_of_counts :
    counts.order? "Count" .ascending = some [2, 0, 3, 1] ∧
      counts.StablyOrdered countKeys .ascending [2, 0, 3, 1] ∧
      counts.order? "Count" .descending = some [0, 3, 2, 1] ∧
      counts.StablyOrdered countKeys .descending [0, 3, 2, 1] ∧ Mirrored countKeys [2, 0, 3, 1] [0, 3, 2, 1] := by
  have hcolumn : counts.headers.findIdx? (·.name = "Count") = some 0 := rfl
  obtain ⟨keys, ascending, descending, rfl, hascending, hstable, hdescending, hstable', hmirrored⟩ :=
    (order?_stable counts "Count").2 0 ⟨"Count", "", {}, .number, false, "1in"⟩ hcolumn rfl
  have hsorts : SortDirection.ascending.Sorts countKeys [2, 0, 3, 1] := by decide +kernel
  have hsorts' : SortDirection.descending.Sorts countKeys [0, 3, 2, 1] := by decide +kernel
  obtain rfl : [2, 0, 3, 1] = ascending := by
    rw [order?_eq hcolumn rfl] at hascending
    exact (hsorts.unique (SortDirection.sorts_positions _ _)).trans (Option.some.inj hascending)
  obtain rfl : [0, 3, 2, 1] = descending := by
    rw [order?_eq hcolumn rfl] at hdescending
    exact (hsorts'.unique (SortDirection.sorts_positions _ _)).trans (Option.some.inj hdescending)
  exact ⟨hascending, hstable, hdescending, hstable', hmirrored⟩

end Table
end TabularReport
