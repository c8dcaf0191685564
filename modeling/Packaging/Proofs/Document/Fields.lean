import Packaging.Document.Value

/-! The entries of a mapping seen through look-up. Every operation on a mapping is told by what is
found in its result, and keeps the entries in ascending order.
-/

namespace Packaging.Fields

-----------------------------------------------------------------------------------------
-- What look-up finds
-----------------------------------------------------------------------------------------

theorem find?_eq_none_iff {key : String} {fields : Fields}
    : find? key fields = none ↔ key ∉ fields.keys := by
  induction fields with
  | nil => simp [find?, keys]
  | cons head rest ih =>
      obtain ⟨name, value⟩ := head
      by_cases same : name = key
      · simp [find?, keys, same]
      · simpa [find?, keys, same, Ne.symm same] using ih

theorem mem_keys_iff {key : String} {fields : Fields}
    : key ∈ fields.keys ↔ (find? key fields).isSome := by
  rw [Option.isSome_iff_ne_none, ne_eq, find?_eq_none_iff, Decidable.not_not]

theorem mem_of_find? {key : String} {value : Value} {fields : Fields}
    (found : find? key fields = some value)
    : (key, value) ∈ fields := by
  induction fields with
  | nil => simp [find?] at found
  | cons head rest ih =>
      obtain ⟨name, old⟩ := head
      by_cases same : name = key
      · simp only [find?, same, if_true, Option.some.injEq] at found
        simp [same, found]
      · simp only [find?, same, if_false] at found
        exact List.mem_cons_of_mem _ (ih found)

/-- Every entry of a mapping without repeated keys is found. -/
theorem find?_of_mem {key : String} {value : Value} {fields : Fields}
    (distinct : fields.keys.Nodup) (member : (key, value) ∈ fields)
    : find? key fields = some value := by
  induction fields with
  | nil => simp at member
  | cons head rest ih =>
      obtain ⟨name, old⟩ := head
      obtain ⟨fresh, distinct⟩ := List.nodup_cons.mp distinct
      rcases List.mem_cons.mp member with same | later
      · cases same
        simp [find?]
      · have differs : name ≠ key := by
          intro same
          exact fresh (List.mem_map.mpr ⟨(key, value), later, same.symm⟩)
        simpa [find?, differs] using ih distinct later

theorem find?_append (key : String) (front back : Fields)
    : find? key (front ++ back) = (find? key front).or (find? key back) := by
  induction front with
  | nil => rfl
  | cons head rest ih =>
      obtain ⟨name, value⟩ := head
      by_cases same : name = key <;> simp [find?, same, ih]

/-- A choice of entries by their keys hides exactly the keys that it leaves out. -/
theorem find?_filter (keep : String → Bool) (key : String) (fields : Fields)
    : find? key (fields.filter fun entry => keep entry.1)
      = if keep key then find? key fields else none := by
  induction fields with
  | nil => simp [find?]
  | cons head rest ih =>
      obtain ⟨name, value⟩ := head
      by_cases same : name = key
      · subst same
        by_cases kept : keep name <;> simp [find?, kept, ih]
      · by_cases kept : keep name <;> simp [find?, kept, same, ih]

/-- An erased key is not found, and every other key is found as before. -/
theorem find?_erase (key erased : String) (fields : Fields)
    : find? key (erase erased fields) = if key = erased then none else find? key fields := by
  simpa [erase] using find?_filter (fun name => decide (name ≠ erased)) key fields

theorem mem_keys_filter {keep : String × Value → Bool} {key : String} {fields : Fields}
    (member : key ∈ keys (fields.filter keep))
    : key ∈ fields.keys ∧ ∃ value, keep (key, value) := by
  obtain ⟨⟨name, value⟩, chosen, named⟩ := List.mem_map.mp member
  obtain ⟨inFields, kept⟩ := List.mem_filter.mp chosen
  subst named
  exact ⟨List.mem_map_of_mem inFields, value, kept⟩

theorem mem_keys_erase {key erased : String} {fields : Fields}
    (member : key ∈ keys (erase erased fields))
    : key ∈ fields.keys ∧ key ≠ erased := by
  obtain ⟨inFields, _, kept⟩ := mem_keys_filter member
  exact ⟨inFields, by simpa using kept⟩

/-- An inserted value is found under its key, and every other key is found as before. -/
theorem find?_insert (key inserted : String) (value : Value) (fields : Fields)
    : find? key (insert inserted value fields)
      = if key = inserted then some value else find? key fields := by
  induction fields with
  | nil => simp [insert, find?, eq_comm]
  | cons head rest ih =>
      obtain ⟨name, old⟩ := head
      unfold insert
      split
      · simp [find?, eq_comm]
      split
      · next same =>
        by_cases asked : key = inserted <;> simp [find?, ← same, asked, eq_comm]
      · next differs =>
        by_cases first : name = key
        · simp [find?, first, Ne.symm (first ▸ differs)]
        · simp [find?, first, ih]

/-- A value that is inserted as a new one stands behind what was there. -/
theorem find?_insertNew (key inserted : String) (value : Value) (fields : Fields)
    : find? key (insertNew inserted value fields)
      = (find? key fields).or (if key = inserted then some value else none) := by
  unfold insertNew has
  split
  · next present =>
    by_cases same : key = inserted
    · obtain ⟨old, found⟩ := Option.isSome_iff_exists.mp present
      simp [same, found]
    · simp [same]
  · next absent =>
    have missing : find? inserted fields = none := by simpa using absent
    by_cases same : key = inserted <;> simp [find?_insert, same, missing]

/-- Entries that are inserted one by one as new ones stand behind what was there, the first of
a repeated key before the later ones. By induction over the entries.
-/
theorem find?_foldl_insertNew (key : String) (more fields : Fields)
    : find? key (more.foldl (fun fields entry => fields.insertNew entry.1 entry.2) fields)
      = (find? key fields).or (find? key more) := by
  induction more generalizing fields with
  | nil => simp [find?]
  | cons head rest ih =>
      obtain ⟨name, value⟩ := head
      rw [List.foldl_cons, ih, find?_insertNew, Option.or_assoc]
      by_cases same : name = key
      · simp [find?, same]
      · simp [find?, same, Ne.symm same]

-----------------------------------------------------------------------------------------
-- Ascending order
-----------------------------------------------------------------------------------------

theorem Ascending.distinct {fields : Fields} (ascending : fields.Ascending)
    : fields.keys.Nodup := by
  refine List.pairwise_map.mpr (ascending.imp ?_)
  intro left right before same
  exact String.lt_irrefl _ (same ▸ before)

theorem Ascending.filter {fields : Fields} (ascending : fields.Ascending)
    (keep : String × Value → Bool)
    : Ascending (fields.filter keep) :=
  List.Pairwise.filter keep ascending

theorem Ascending.erase {fields : Fields} (ascending : fields.Ascending) (key : String)
    : Ascending (fields.erase key) :=
  ascending.filter _

/-- The keys after an insertion are the inserted one and those from before. -/
theorem mem_keys_insert {key inserted : String} {value : Value} {fields : Fields}
    (member : key ∈ keys (insert inserted value fields))
    : key = inserted ∨ key ∈ fields.keys := by
  by_cases same : key = inserted
  · exact Or.inl same
  · refine Or.inr (Decidable.byContradiction fun absent => ?_)
    have missing : find? key (insert inserted value fields) = none := by
      rw [find?_insert, if_neg same]
      exact find?_eq_none_iff.mpr absent
    exact find?_eq_none_iff.mp missing member

/-- A value is inserted in its place. By induction over the entries: the inserted key comes
before the first greater key and behind every smaller one.
-/
theorem Ascending.insert {fields : Fields} (ascending : fields.Ascending) (key : String)
    (value : Value)
    : Ascending (fields.insert key value) := by
  induction fields with
  | nil => simp [Fields.insert, Ascending]
  | cons head rest ih =>
      obtain ⟨name, old⟩ := head
      obtain ⟨above, below⟩ := List.pairwise_cons.mp ascending
      unfold Fields.insert
      split
      · next before =>
        refine List.pairwise_cons.mpr ⟨?_, ascending⟩
        intro entry member
        rcases List.mem_cons.mp member with same | later
        · exact same ▸ before
        · exact String.lt_trans before (above entry later)
      split
      · next same => exact List.pairwise_cons.mpr ⟨same ▸ above, below⟩
      · next notBefore differs =>
        have behind : name < key := by
          refine String.not_le.mp fun atMost => differs (String.le_antisymm atMost ?_)
          exact String.not_lt.mp notBefore
        -- What follows has the inserted key or one from before, and both are greater.
        refine List.pairwise_cons.mpr ⟨?_, ih below⟩
        intro entry member
        rcases mem_keys_insert (List.mem_map_of_mem member) with same | earlier
        · exact same ▸ behind
        · obtain ⟨other, otherMember, otherKey⟩ := List.mem_map.mp earlier
          exact otherKey ▸ above other otherMember

theorem Ascending.insertNew {fields : Fields} (ascending : fields.Ascending) (key : String)
    (value : Value)
    : Ascending (fields.insertNew key value) := by
  unfold Fields.insertNew
  split
  · exact ascending
  · exact ascending.insert key value

theorem Ascending.foldl_insertNew {fields : Fields} (ascending : fields.Ascending)
    (more : Fields)
    : Ascending (more.foldl (fun fields entry => fields.insertNew entry.1 entry.2) fields) := by
  induction more generalizing fields with
  | nil => exact ascending
  | cons head rest ih => exact ih (ascending.insertNew head.1 head.2)

/-- Mappings in ascending order in which the same is found are the same. By induction over both:
the first key of each would otherwise stand before every key of the other.
-/
theorem Ascending.ext {left right : Fields} (leftAscending : left.Ascending)
    (rightAscending : right.Ascending) (same : ∀ key, find? key left = find? key right)
    : left = right := by
  induction left generalizing right with
  | nil =>
      cases right with
      | nil => rfl
      | cons head rest =>
          obtain ⟨name, value⟩ := head
          simpa [find?] using same name
  | cons head rest ih =>
      obtain ⟨name, value⟩ := head
      cases right with
      | nil => simpa [find?] using same name
      | cons other others =>
          obtain ⟨label, content⟩ := other
          obtain ⟨above, below⟩ := List.pairwise_cons.mp leftAscending
          obtain ⟨otherAbove, otherBelow⟩ := List.pairwise_cons.mp rightAscending
          -- Different first keys would each be found behind the other.
          have heads : name = label := by
            apply Decidable.byContradiction
            intro differs
            have inRight : (name, value) ∈ (label, content) :: others :=
              mem_of_find? ((same name).symm.trans (by simp [find?]))
            have inLeft : (label, content) ∈ (name, value) :: rest :=
              mem_of_find? ((same label).trans (by simp [find?]))
            have first := above _ ((List.mem_cons.mp inLeft).resolve_left
              fun equal => differs (Prod.mk.inj equal).1.symm)
            have second := otherAbove _ ((List.mem_cons.mp inRight).resolve_left
              fun equal => differs (Prod.mk.inj equal).1)
            exact String.lt_asymm first second
          subst heads
          have values : value = content := by simpa [find?] using same name
          subst values
          refine congrArg _ (ih below otherBelow fun key => ?_)
          by_cases equal : name = key
          · subst equal
            -- The first key is in neither rest, since all keys there are greater.
            have missing {entries : Fields} (all : ∀ entry ∈ entries, name < entry.1)
                : find? name entries = none := by
              refine find?_eq_none_iff.mpr fun member => ?_
              obtain ⟨entry, inEntries, named⟩ := List.mem_map.mp member
              exact String.lt_irrefl _ (named ▸ all entry inEntries)
            rw [missing above, missing otherAbove]
          · simpa [find?, equal] using same key

theorem Ascending.insert_of_find? {fields : Fields} (ascending : fields.Ascending)
    {key : String} {value : Value} (found : find? key fields = some value)
    : fields.insert key value = fields := by
  apply (ascending.insert key value).ext ascending
  intro other
  rw [find?_insert]
  split
  · next same => rw [same, found]
  · rfl

-----------------------------------------------------------------------------------------
-- Mappings from a list of entries
-----------------------------------------------------------------------------------------

/-- Entries that are inserted one by one stand before what was there, if none of them repeats a
key. By induction over the entries, with those inserted so far standing behind those to come.
-/
theorem find?_foldl_insert {more : Fields} (distinct : more.keys.Nodup) (key : String)
    (fields : Fields)
    : find? key (more.foldl (fun fields entry => fields.insert entry.1 entry.2) fields)
      = (find? key more).or (find? key fields) := by
  induction more generalizing fields with
  | nil => rfl
  | cons head rest ih =>
      obtain ⟨name, value⟩ := head
      obtain ⟨fresh, distinct⟩ := List.nodup_cons.mp distinct
      rw [List.foldl_cons, ih distinct, find?_insert]
      by_cases same : name = key
      · subst same
        simp [find?, find?_eq_none_iff.mpr fresh]
      · simp [find?, same, Ne.symm same]

theorem Ascending.foldl_insert {fields : Fields} (ascending : fields.Ascending) (more : Fields)
    : Ascending (more.foldl (fun fields entry => fields.insert entry.1 entry.2) fields) := by
  induction more generalizing fields with
  | nil => exact ascending
  | cons head rest ih => exact ih (ascending.insert head.1 head.2)

theorem ascending_ofList (entries : List (String × Value))
    : Ascending (ofList entries) :=
  Ascending.foldl_insert List.Pairwise.nil entries

/-- In the mapping of a list without repeated keys the entries of the list are found. -/
theorem find?_ofList {entries : List (String × Value)} (distinct : (keys entries).Nodup)
    (key : String)
    : find? key (ofList entries) = find? key entries := by
  rw [ofList, find?_foldl_insert distinct, find?, Option.or_none]

-----------------------------------------------------------------------------------------
-- Entries of a table
-----------------------------------------------------------------------------------------

variable {ι : Type} (all : List ι) (key : ι → String) (content : ι → Option Value)

/-- The entries of those things in a table that have a content. -/
def ofTable : Fields :=
  all.flatMap fun thing => (content thing).toList.map fun value => (key thing, value)

/-- A table is also written by choosing the things that have a content. -/
theorem filterMap_eq_ofTable
    : (all.filterMap fun thing => (content thing).map fun value => (key thing, value))
      = ofTable all key content := by
  induction all with
  | nil => rfl
  | cons head rest ih =>
      unfold ofTable at ih ⊢
      cases held : content head <;> simp [held, ih]

theorem keys_ofTable_sublist
    : (keys (ofTable all key content)).Sublist (all.map key) := by
  induction all with
  | nil => exact List.Sublist.slnil
  | cons head rest ih =>
      cases held : content head with
      | none => simpa [ofTable, held] using ih.cons (key head)
      | some value => simpa [ofTable, keys, held] using ih.cons_cons (key head)

/-- Nothing is found under a key that the table does not have. -/
theorem find?_ofTable_of_unknown {name : String} (unknown : name ∉ all.map key)
    : find? name (ofTable all key content) = none :=
  find?_eq_none_iff.mpr fun member =>
    unknown ((keys_ofTable_sublist all key content).subset member)

/-- Under the key of a thing its content is found, by induction over the table. -/
theorem find?_ofTable [DecidableEq ι] (injective : ∀ a b, key a = key b → a = b) (thing : ι)
    : find? (key thing) (ofTable all key content)
      = if thing ∈ all then content thing else none := by
  induction all with
  | nil => simp [ofTable, find?]
  | cons head rest ih =>
      unfold ofTable at ih ⊢
      cases held : content head with
      | none =>
          by_cases same : thing = head
          · subst same
            simp [held, ih]
          · simp [held, ih, same]
      | some value =>
          by_cases same : thing = head
          · simp [held, find?, same]
          · have differs : key head ≠ key thing := fun equal => same (injective _ _ equal).symm
            simp [held, find?, differs, ih, same]

end Packaging.Fields
