import Packaging.Proofs.Document.Fields

/-! Trees as documents have them, where the entries of every mapping ascend. Sorting a tree gives
such a tree and changes nothing else.
-/

namespace Packaging.Value

mutual

/-- Every mapping of the tree has its entries in ascending order. -/
def Ordered : Value → Prop
  | .list items => OrderedItems items
  | .mapping entries => Fields.Ascending entries ∧ OrderedEntries entries
  | _ => True

def OrderedItems : List Value → Prop
  | [] => True
  | item :: rest => item.Ordered ∧ OrderedItems rest

def OrderedEntries : List (String × Value) → Prop
  | [] => True
  | (_, value) :: rest => value.Ordered ∧ OrderedEntries rest

end

instance (fields : Fields) : Decidable fields.Ascending :=
  inferInstanceAs (Decidable (List.Pairwise _ _))

mutual

/-- Order is tested mapping by mapping. -/
def decideOrdered : (value : Value) → Decidable value.Ordered
  | .list items => decideItems items
  | .mapping entries =>
    have := decideEntries entries
    inferInstanceAs (Decidable (Fields.Ascending entries ∧ OrderedEntries entries))
  | .null | .boolean _ | .integer _ | .real _ | .text _ => .isTrue trivial

def decideItems : (items : List Value) → Decidable (OrderedItems items)
  | [] => .isTrue trivial
  | item :: rest =>
    have := decideOrdered item
    have := decideItems rest
    inferInstanceAs (Decidable (item.Ordered ∧ OrderedItems rest))

def decideEntries : (entries : List (String × Value)) → Decidable (OrderedEntries entries)
  | [] => .isTrue trivial
  | (_, value) :: rest =>
    have := decideOrdered value
    have := decideEntries rest
    inferInstanceAs (Decidable (value.Ordered ∧ OrderedEntries rest))

end

instance (value : Value) : Decidable value.Ordered :=
  decideOrdered value

theorem orderedItems_iff {items : List Value}
    : OrderedItems items ↔ ∀ item ∈ items, item.Ordered := by
  induction items with
  | nil => simp [OrderedItems]
  | cons head rest ih => simp [OrderedItems, ih]

theorem ordered_list_iff {items : List Value}
    : (list items).Ordered ↔ ∀ item ∈ items, item.Ordered := by
  rw [Ordered, orderedItems_iff]

theorem orderedEntries_iff {entries : List (String × Value)}
    : OrderedEntries entries ↔ ∀ entry ∈ entries, entry.2.Ordered := by
  induction entries with
  | nil => simp [OrderedEntries]
  | cons head rest ih => simp [OrderedEntries, ih]

theorem Ordered.ascending {entries : Fields} (ordered : (mapping entries).Ordered)
    : entries.Ascending := by
  rw [Ordered] at ordered
  exact ordered.1

theorem Ordered.of_find? {entries : Fields} (ordered : (mapping entries).Ordered)
    {key : String} {value : Value} (found : entries.find? key = some value)
    : value.Ordered := by
  rw [Ordered, orderedEntries_iff] at ordered
  exact ordered.2 _ (Fields.mem_of_find? found)

theorem OrderedEntries.insert {fields : Fields} {value : Value}
    (ordered : OrderedEntries fields) (given : value.Ordered) (key : String)
    : OrderedEntries (fields.insert key value) := by
  induction fields with
  | nil => exact ⟨given, trivial⟩
  | cons head rest ih =>
      obtain ⟨name, old⟩ := head
      obtain ⟨first, others⟩ := ordered
      unfold Fields.insert
      split
      · exact ⟨given, first, others⟩
      split
      · exact ⟨given, others⟩
      · exact ⟨first, ih others⟩

theorem Ordered.insert {entries : Fields} (ordered : (mapping entries).Ordered) {value : Value}
    (given : value.Ordered) (key : String)
    : (mapping (entries.insert key value)).Ordered := by
  rw [Ordered] at ordered ⊢
  exact ⟨ordered.1.insert key value, ordered.2.insert given key⟩

theorem Ordered.erase {entries : Fields} (ordered : (mapping entries).Ordered) (key : String)
    : (mapping (entries.erase key)).Ordered := by
  rw [Ordered, orderedEntries_iff] at ordered ⊢
  exact ⟨ordered.1.erase key, fun entry member => ordered.2 entry (List.mem_filter.mp member).1⟩

theorem sortedItems_eq_map (items : List Value)
    : sortedItems items = items.map sorted := by
  induction items with
  | nil => rfl
  | cons head rest ih => rw [sortedItems, ih, List.map_cons]

theorem sortedEntries_eq_map (entries : List (String × Value))
    : sortedEntries entries = entries.map fun entry => (entry.1, entry.2.sorted) := by
  induction entries with
  | nil => rfl
  | cons head rest ih => rw [sortedEntries, ih, List.map_cons]

theorem keys_sortedEntries (entries : Fields)
    : Fields.keys (sortedEntries entries) = entries.keys := by
  simp [sortedEntries_eq_map, Fields.keys]

/-- The entries of a mapping, each sorted, in ascending order. -/
def sortedFields (entries : Fields) : Fields :=
  Fields.ofList (sortedEntries entries)

theorem ascending_sortedFields (entries : Fields)
    : (sortedFields entries).Ascending :=
  Fields.ascending_ofList _

/-- In sorted entries without repeated keys the sorted values are found. -/
theorem find?_sortedFields {entries : Fields} (distinct : entries.keys.Nodup) (key : String)
    : (sortedFields entries).find? key = (entries.find? key).map sorted := by
  unfold sortedFields
  rw [Fields.find?_ofList (keys_sortedEntries entries ▸ distinct), sortedEntries_eq_map]
  induction entries with
  | nil => rfl
  | cons head rest ih =>
      obtain ⟨name, value⟩ := head
      have below := (List.nodup_cons.mp distinct).2
      by_cases same : name = key
      · simp [Fields.find?, same]
      · simpa [Fields.find?, same] using ih below

/-- Sorting the entries of a mapping adds no keys. -/
theorem mem_keys_of_mem_sortedFields {entries : Fields} (distinct : entries.keys.Nodup)
    {key : String} (member : key ∈ (sortedFields entries).keys)
    : key ∈ entries.keys := by
  apply Decidable.byContradiction
  intro absent
  have missing : (sortedFields entries).find? key = none := by
    rw [find?_sortedFields distinct, Fields.find?_eq_none_iff.mpr absent]
    rfl
  exact Fields.find?_eq_none_iff.mp missing member

end Packaging.Value
