import TabularReport.Expr.Parser
import TabularReport.Proofs.Outcome

set_option autoImplicit false

namespace TabularReport.Expr

@[simp] theorem fieldsRead_field (dataset : Option String) (name : String) :
    (field dataset name).fieldsRead = [(dataset, name)] := rfl

@[simp] theorem fieldsRead_lookup (key : Expr) (source keyField valueField : String) :
    (lookup key source keyField valueField).fieldsRead = key.fieldsRead := rfl

@[simp] theorem fieldsRead_binary (op : Operator) (left right : Expr) :
    (binary op left right).fieldsRead = left.fieldsRead ++ right.fieldsRead := by
  simp [fieldsRead, nodes]

@[simp] theorem fieldsRead_negate (operand : Expr) :
    (negate operand).fieldsRead = operand.fieldsRead := rfl

@[simp] theorem datasetsNamed_rowNumber (dataset : String) :
    (rowNumber dataset).datasetsNamed = [dataset] := rfl

@[simp] theorem datasetsNamed_lookup (key : Expr) (source keyField valueField : String) :
    (lookup key source keyField valueField).datasetsNamed = source :: key.datasetsNamed := rfl

@[simp] theorem datasetsNamed_binary (op : Operator) (left right : Expr) :
    (binary op left right).datasetsNamed = left.datasetsNamed ++ right.datasetsNamed := by
  simp [datasetsNamed, nodes]

@[simp] theorem datasetsNamed_negate (operand : Expr) :
    (negate operand).datasetsNamed = operand.datasetsNamed := rfl

@[simp] theorem lookups_lookup (key : Expr) (source keyField valueField : String) :
    (lookup key source keyField valueField).lookups = ⟨source, keyField, valueField⟩ :: key.lookups := rfl

@[simp] theorem lookups_binary (op : Operator) (left right : Expr) :
    (binary op left right).lookups = left.lookups ++ right.lookups := by
  simp [lookups, nodes]

@[simp] theorem lookups_negate (operand : Expr) : (negate operand).lookups = operand.lookups := rfl

inductive Within : Expr → Expr → Prop where
  | refl (e : Expr) : Within e e
  | key {part key : Expr} {source keyField valueField : String} : Within part key →
      Within part (lookup key source keyField valueField)
  | left {part left right : Expr} {op : Operator} : Within part left → Within part (binary op left right)
  | right {part left right : Expr} {op : Operator} : Within part right → Within part (binary op left right)
  | operand {part operand : Expr} : Within part operand → Within part (negate operand)

theorem self_mem_nodes (e : Expr) : e ∈ e.nodes := by
  cases e <;> simp [nodes]

theorem within_of_mem_nodes {part e : Expr} (h : part ∈ e.nodes) : part.Within e := by
  induction e with
  | literal value | field dataset name | parameter name | rowNumber dataset =>
    obtain rfl := List.mem_singleton.1 h
    exact .refl _
  | lookup key source keyField valueField ih =>
    rw [nodes, List.mem_cons] at h
    obtain rfl | h := h
    · exact .refl _
    · exact .key (ih h)
  | binary op left right ihl ihr =>
    rw [nodes, List.mem_cons, List.mem_append] at h
    obtain rfl | h | h := h
    · exact .refl _
    · exact .left (ihl h)
    · exact .right (ihr h)
  | negate operand ih =>
    rw [nodes, List.mem_cons] at h
    obtain rfl | h := h
    · exact .refl _
    · exact .operand (ih h)

theorem mem_nodes_iff {part e : Expr} : part ∈ e.nodes ↔ part.Within e := by
  constructor
  · exact within_of_mem_nodes
  · intro h
    induction h with
    | refl => exact self_mem_nodes _
    | key _ ih => simp [nodes, ih]
    | left _ ih => simp [nodes, ih]
    | right _ ih => simp [nodes, ih]
    | operand _ ih => simp [nodes, ih]

theorem mem_fieldsRead_iff {dataset : Option String} {name : String} {e : Expr} :
    (dataset, name) ∈ e.fieldsRead ↔ (field dataset name).Within e := by
  rw [← mem_nodes_iff, fieldsRead, List.mem_filterMap]
  grind

theorem mem_parametersRead_iff {name : String} {e : Expr} :
    name ∈ e.parametersRead ↔ (parameter name).Within e := by
  rw [← mem_nodes_iff, parametersRead, List.mem_filterMap]
  grind

theorem mem_datasetsNamed_iff {name : String} {e : Expr} :
    name ∈ e.datasetsNamed ↔ (rowNumber name).Within e ∨
      ∃ key keyField valueField, (lookup key name keyField valueField).Within e := by
  simp only [← mem_nodes_iff, datasetsNamed, List.mem_filterMap]
  grind

theorem mem_lookups_iff {l : LookupSite} {e : Expr} :
    l ∈ e.lookups ↔ ∃ key, (lookup key l.source l.keyField l.valueField).Within e := by
  simp only [← mem_nodes_iff, lookups, List.mem_filterMap]
  constructor
  · rintro ⟨node, hnode, h⟩
    split at h
    · cases h
      exact ⟨_, hnode⟩
    · contradiction
  · rintro ⟨key, hnode⟩
    exact ⟨_, hnode, rfl⟩

theorem source_mem_datasetsNamed {e : Expr} {l : LookupSite} (h : l ∈ e.lookups) :
    l.source ∈ e.datasetsNamed := by
  induction e with
  | literal value => contradiction
  | field dataset name => contradiction
  | parameter name => contradiction
  | rowNumber dataset => contradiction
  | lookup key source keyField valueField ih =>
    rw [lookups_lookup] at h
    rcases List.mem_cons.1 h with rfl | h
    · simp
    · simp [ih h]
  | binary op left right ihl ihr =>
    rw [lookups_binary] at h
    rcases List.mem_append.1 h with h | h
    · simp [ihl h]
    · simp [ihr h]
  | negate operand ih => exact ih h

theorem fieldsRead_qualify (home : String) (e : Expr) :
    (e.qualify home).fieldsRead = e.fieldsRead.map fun f => (some (f.1.getD home), f.2) := by
  induction e with
  | literal value => rfl
  | field dataset name => rfl
  | parameter name => rfl
  | rowNumber dataset => rfl
  | lookup key source keyField valueField ih => simp [qualify, ih]
  | binary op left right hl hr => simp [qualify, hl, hr]
  | negate operand ih => simp [qualify, ih]

def Unbound (e : Expr) : Prop :=
  ∀ f ∈ e.fieldsRead, f.1 = none

theorem Unbound.fst_of_mem_qualify {home : String} {e : Expr} (h : e.Unbound) {f : Option String × String}
    (hf : f ∈ (e.qualify home).fieldsRead) : f.1 = some home := by
  rw [fieldsRead_qualify] at hf
  obtain ⟨g, hg, rfl⟩ := List.mem_map.1 hf
  simp [h g hg]

theorem Unbound.binary {op : Operator} {left right : Expr} (hl : left.Unbound) (hr : right.Unbound) :
    (binary op left right).Unbound := by
  intro f hf
  rw [fieldsRead_binary, List.mem_append] at hf
  exact hf.elim (hl f) (hr f)

theorem unbound_of_memberOf? {collection name : String} {reference : String → Expr}
    (h : memberOf? collection = some reference) : (reference name).Unbound := by
  unfold memberOf? at h
  split at h
  · cases h
    simp [Unbound]
  · split at h
    · cases h
      simp [Unbound, fieldsRead, nodes]
    · contradiction

theorem unbound_of_bareWord? {word : String} {e : Expr} (h : bareWord? word = some e) : e.Unbound := by
  unfold bareWord? at h
  grind [Unbound, fieldsRead, nodes]

theorem unbound_of_readMember {stop start : Nat} {collection : String} {ts rest : List PlacedToken} {e : Expr}
    (h : readMember stop collection start ts = .ok (e, rest)) : e.Unbound := by
  unfold readMember at h
  split at h
  · contradiction
  · rename_i reference hm
    simp only [bind_eq_ok, pure_eq_ok, Prod.mk.injEq] at h
    obtain ⟨_, _, _, _, _, _, rfl, _⟩ := h
    exact unbound_of_memberOf? hm

theorem unbound_of_readRowNumber {stop : Nat} {ts rest : List PlacedToken} {e : Expr}
    (h : readRowNumber stop ts = .ok (e, rest)) : e.Unbound := by
  unfold readRowNumber at h
  simp only [bind_eq_ok, pure_eq_ok, Prod.mk.injEq] at h
  obtain ⟨_, _, _, _, rfl, _⟩ := h
  simp [Unbound, fieldsRead, nodes]

theorem unbound_of_readQuotedTail {stop : Nat} {key e : Expr} {ts rest : List PlacedToken}
    (hk : key.Unbound) (h : readQuotedTail stop key ts = .ok (e, rest)) : e.Unbound := by
  unfold readQuotedTail at h
  simp only [bind_eq_ok, pure_eq_ok, Prod.mk.injEq] at h
  obtain ⟨_, _, _, _, _, _, _, _, _, _, _, _, rfl, _⟩ := h
  exact hk

theorem unbound_of_read (stop fuel : Nat) :
    (∀ min ts e rest, readJoined stop fuel min ts = .ok (e, rest) → e.Unbound) ∧
    (∀ min left ts e rest, left.Unbound → readOperators stop fuel min left ts = .ok (e, rest) → e.Unbound) ∧
    (∀ ts e rest, readPrimary stop fuel ts = .ok (e, rest) → e.Unbound) ∧
    (∀ ts e rest, readLookup stop fuel ts = .ok (e, rest) → e.Unbound) := by
  induction fuel with
  | zero =>
    refine ⟨?_, ?_, ?_, ?_⟩
    · intro min ts e rest h
      simp [readJoined, failHere] at h
    · intro min left ts e rest hl h
      simp [readOperators, failHere] at h
    · intro ts e rest h
      simp [readPrimary, failHere] at h
    · intro ts e rest h
      simp [readLookup, failHere] at h
  | succ fuel ih =>
    obtain ⟨hJoined, hOperators, hPrimary, hLookup⟩ := ih
    refine ⟨?_, ?_, ?_, ?_⟩
    · intro min ts e rest h
      rw [readJoined] at h
      obtain ⟨⟨left, ts'⟩, hl, h⟩ := bind_eq_ok.1 h
      exact hOperators _ _ _ _ _ (hPrimary _ _ _ hl) h
    · intro min left ts e rest hl h
      unfold readOperators at h
      split at h
      · split at h
        · cases h
          exact hl
        · obtain ⟨⟨right, ts'⟩, hr, h⟩ := bind_eq_ok.1 h
          exact hOperators _ _ _ _ _ (hl.binary (hJoined _ _ _ _ hr)) h
      · cases h
        exact hl
    · intro ts e rest h
      cases ts with
      | nil => simp [readPrimary, failHere] at h
      | cons t ts =>
        unfold readPrimary at h
        split at h
        · obtain ⟨⟨operand, ts'⟩, ho, h⟩ := bind_eq_ok.1 h
          cases h
          have hu := hPrimary _ _ _ ho
          exact hu
        · cases h
          simp [Unbound, fieldsRead, nodes]
        · cases h
          simp [Unbound, fieldsRead, nodes]
        · obtain ⟨⟨inner, ts'⟩, hi, h⟩ := bind_eq_ok.1 h
          obtain ⟨ts'', _, h⟩ := bind_eq_ok.1 h
          cases h
          exact hJoined _ _ _ _ hi
        · split at h
          · exact unbound_of_readMember h
          · split at h
            · exact unbound_of_readRowNumber h
            · split at h
              · exact hLookup _ _ _ h
              · contradiction
          · split at h
            · rename_i hw
              cases h
              exact unbound_of_bareWord? hw
            · contradiction
        · contradiction
        · contradiction
    · intro ts e rest h
      rw [readLookup] at h
      obtain ⟨⟨key, ts'⟩, hk, h⟩ := bind_eq_ok.1 h
      obtain ⟨ts'', _, h⟩ := bind_eq_ok.1 h
      have hkey := hJoined _ _ _ _ hk
      split at h
      · exact unbound_of_readQuotedTail hkey h
      · simp only [bind_eq_ok, pure_eq_ok, Prod.mk.injEq] at h
        obtain ⟨_, _, _, _, _, _, _, _, _, _, _, _, _, _, _, _, rfl, _⟩ := h
        exact hkey

theorem unbound_of_parse {s : String} {e : Expr} (h : parse s = .ok e) : e.Unbound := by
  unfold parse ofTokens at h
  split at h
  · simp [failHere] at h
  · obtain ⟨⟨e', rest⟩, he, h⟩ := bind_eq_ok.1 h
    have hu := (unbound_of_read _ _).1 _ _ _ _ he
    cases rest with
    | nil =>
      cases h
      exact hu
    | cons t rest => simp [failHere] at h

theorem unbound_of_ofReportText {s : String} {e : Expr} (h : ofReportText s = .ok e) : e.Unbound := by
  unfold ofReportText at h
  split at h
  · exact unbound_of_parse h
  · cases h
    simp [Unbound, fieldsRead, nodes]

end TabularReport.Expr
