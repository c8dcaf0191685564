import Packaging.Proofs.Attributes.RoundTrip
import Packaging.Proofs.Jobs.Settings

/-! Typed data and what is written of it. Data of every kind is read back from its written form, so
what a value gave, however it was spelled, is what its canonical spelling gives.
-/

namespace Packaging

open Value

/-- Data is read back from its written form. Writing what a value gave and reading it again is the
same as reading the value, and a value that is refused gives nothing to write.
-/
structure ReadsBack {α : Type} (decode : Decoder α) (write : α → Value) : Prop where
  written : ∀ data, decode (write data) = .ok data
  rewritten : ∀ value, (decode value >>= fun data => decode (write data)) = decode value

/-- It is enough that each written form gives its data. -/
theorem ReadsBack.of_written {α : Type} {decode : Decoder α} {write : α → Value}
    (written : ∀ data, decode (write data) = .ok data)
    : ReadsBack decode write where
  written := written
  rewritten value := by
    cases decode value with
    | error cause => rfl
    | ok data => exact written data

-----------------------------------------------------------------------------------------
-- Overrides
-----------------------------------------------------------------------------------------

namespace Overrides

/-- The entries of written overrides: each attribute under its key, and null for one that is not
given.
-/
def entries (o : Overrides) : Fields :=
  Fields.ofTable Attribute.all Attribute.key fun a => some (orNull a.kind.encode (a.given o))

/-- Overrides are written as the mapping of their entries. -/
theorem sorted_encode (o : Overrides)
    : o.encode.sorted = .mapping (sortedFields o.entries) :=
  rfl

theorem keys_entries (o : Overrides)
    : Fields.keys o.entries = keys :=
  rfl

theorem distinct_entries (o : Overrides)
    : (Fields.keys o.entries).Nodup := by
  rw [keys_entries]
  decide

/-- Sorted entries have every attribute under its key. -/
theorem find?_sortedFields_entries (o : Overrides) (a : Attribute)
    : (sortedFields o.entries).find? a.key
      = some (orNull a.kind.encode (a.given o)).sorted := by
  rw [find?_sortedFields o.distinct_entries, entries,
    Fields.find?_ofTable _ _ _ Attribute.key_injective, if_pos a.mem_all]
  rfl

/-- The keys of written overrides are those of all attributes. -/
theorem mem_keys_sortedFields_iff (o : Overrides) {key : String}
    : key ∈ (sortedFields o.entries).keys ↔ key ∈ keys := by
  constructor
  · exact mem_keys_of_mem_sortedFields o.distinct_entries
  · intro known
    obtain ⟨a, rfl⟩ := Attribute.parts.exists_of_mem_keys known
    have found : ((sortedFields o.entries).find? a.key).isSome := by
      rw [o.find?_sortedFields_entries]
      rfl
    exact Fields.mem_keys_iff.mpr found

/-- Written data is null just when none is given. -/
theorem sorted_orNull_eq_null_iff {kind : DataKind} {given : Option kind.Data}
    : (orNull kind.encode given).sorted = .null ↔ given = none := by
  cases given with
  | none => exact ⟨fun _ => rfl, fun _ => rfl⟩
  | some data =>
      refine ⟨fun null => ?_, fun impossible => by cases impossible⟩
      exact absurd null (Attribute.sorted_ne_null (kind.encode_ne_null data))

/-- Entries are read as the overrides `o` when each attribute is found among them as it is written
of `o`.
-/
theorem record_of_entries {o : Overrides} {fields : Fields} (distinct : fields.keys.Nodup)
    (found
      : ∀ a : Attribute,
          fields.find? a.key = some (orNull a.kind.encode (a.given o)).sorted)
    : Declaration.record reader fields = .ok o := by
  apply (Attribute.parts.record_eq_ok_iff distinct).mpr
  intro a
  have held := found a
  refine (Attribute.parts.told_of_found held).mpr ?_
  show Decoder.optional a.kind.decode _ = .ok (a.given o)
  cases a.given o with
  | none => rfl
  | some data => exact Attribute.optional_decode_sorted_encode a.kind data

/-- Written overrides are read back after they are sorted. -/
theorem decode_sorted_encode (o : Overrides)
    : Overrides.decode o.encode.sorted = .ok o := by
  have ascending := ascending_sortedFields o.entries
  rw [sorted_encode]
  exact Declaration.record_eq_ok_iff.mp
    (record_of_entries ascending.distinct o.find?_sortedFields_entries)

end Overrides

-----------------------------------------------------------------------------------------
-- Settings of a job
-----------------------------------------------------------------------------------------

/-- A setting is left out just when it has its default, except for the timeout. -/
theorem Setting.encode?_eq_none_iff {s : Setting} {data : s.Data}
    : s.encode? data = none ↔ s ≠ .timeout ∧ data = s.value {} := by
  constructor
  · intro leftOut
    refine ⟨?_, eq_default_of_encode? leftOut⟩
    rintro rfl
    cases leftOut
  · rintro ⟨other, rfl⟩
    cases s with
    | timeout => exact absurd rfl other
    | _ => rfl

namespace Metadata

theorem distinct_entries (m : Metadata)
    : (Fields.keys m.entries).Nodup := by
  rw [Setting.entries_eq]
  exact (Fields.keys_ofTable_sublist _ _ _).nodup (by decide)

/-- Sorted entries have the settings that are not left out. -/
theorem find?_sortedFields_entries (m : Metadata) (s : Setting)
    : (sortedFields m.entries).find? s.key = (s.encode? (s.value m)).map sorted := by
  rw [find?_sortedFields m.distinct_entries, Setting.entries_eq,
    Fields.find?_ofTable _ _ _ Setting.key_injective, if_pos s.mem_all]

/-- Written settings are read back, where one that is left out has its default. -/
theorem decode_form (m : Metadata)
    : Metadata.decode m.form = .ok m := by
  have ascending := ascending_sortedFields m.entries
  exact Declaration.record_eq_ok_iff.mp
    (Setting.record_of_written ascending.distinct m.find?_sortedFields_entries)

/-- The keys of written settings are those of the timeout and of what differs from its default. -/
theorem mem_keys_sortedFields_iff (m : Metadata) {key : String}
    : key ∈ (sortedFields m.entries).keys
      ↔ ∃ s : Setting, s.key = key ∧ (s = .timeout ∨ s.value m ≠ s.value {}) := by
  have held (s : Setting)
      : s.key ∈ (sortedFields m.entries).keys ↔ s = .timeout ∨ s.value m ≠ s.value {} := by
    rw [Fields.mem_keys_iff, find?_sortedFields_entries, Option.isSome_map,
      Option.isSome_iff_ne_none, ne_eq, Setting.encode?_eq_none_iff,
      Classical.not_and_iff_not_or_not, Classical.not_not]
  constructor
  · intro member
    have listed : key ∈ Setting.all.map Setting.key := by
      have inEntries := mem_keys_of_mem_sortedFields m.distinct_entries member
      rw [Setting.entries_eq] at inEntries
      exact (Fields.keys_ofTable_sublist _ _ _).subset inEntries
    obtain ⟨s, _, rfl⟩ := List.mem_map.mp listed
    exact ⟨s, rfl, (held s).mp member⟩
  · rintro ⟨s, rfl, written⟩
    exact (held s).mpr written

end Metadata

-----------------------------------------------------------------------------------------
-- All kinds of data
-----------------------------------------------------------------------------------------

/-- All data that has a written form is read back from it, and reading, writing and reading again
is reading once, in whatever spelling a value stood. Overrides are written under all their keys,
null for what is not given. Of the settings of a job only the timeout is written when it has its
default.
-/
theorem written_data_reads_back
    : ReadsBack Overrides.decode (fun o => o.encode.sorted)
      ∧ ReadsBack Metadata.decode Metadata.form
      ∧ ReadsBack Notifications.decode (fun settings => settings.encode.sorted)
      ∧ ReadsBack PullRequestNotifications.decode (fun settings => settings.encode.sorted)
      ∧ ReadsBack SyncedFile.decode (fun file => file.encode.sorted)
      ∧ ReadsBack SyncedFiles.decode (fun files => files.encode.sorted)
      ∧ ReadsBack ActionCommand.decode (fun command => command.encode.sorted)
      ∧ ReadsBack Actions.decode (fun actions => actions.encode.sorted)
      ∧ ReadsBack ActionName.decode ActionName.encode
      ∧ ReadsBack JobType.decode JobType.encode
      ∧ ReadsBack Trigger.decode Trigger.encode
      ∧ (∀ o : Overrides, ∃ fields : Fields,
        o.encode.sorted = .mapping fields
        ∧ (∀ key, key ∈ fields.keys ↔ key ∈ Overrides.keys)
        ∧ ∀ a : Attribute, fields.find? a.key = some .null ↔ a.given o = none)
      ∧ ∀ m : Metadata, ∃ fields : Fields,
        m.form = .mapping fields
        ∧ ∀ key, key ∈ fields.keys
          ↔ ∃ s : Setting, s.key = key ∧ (s = .timeout ∨ s.value m ≠ s.value {}) := by
  refine ⟨.of_written Overrides.decode_sorted_encode, .of_written Metadata.decode_form,
    .of_written Notifications.decode_sorted_encode, .of_written fun _ => rfl,
    .of_written SyncedFile.decode_sorted_encode, .of_written SyncedFiles.decode_sorted_encode,
    .of_written ActionCommand.decode_sorted_encode, .of_written Actions.decode_sorted_encode,
    .of_written ?_, .of_written ?_, .of_written ?_, ?_, ?_⟩
  · intro name
    exact ActionName.decode_text_eq_ok.mpr rfl
  · intro type
    cases type <;> rfl
  · intro trigger
    cases trigger <;> rfl
  · intro o
    refine ⟨sortedFields o.entries, o.sorted_encode, fun key => o.mem_keys_sortedFields_iff,
      fun a => ?_⟩
    rw [o.find?_sortedFields_entries, Option.some.injEq, Overrides.sorted_orNull_eq_null_iff]
  · intro m
    exact ⟨sortedFields m.entries, rfl, fun key => m.mem_keys_sortedFields_iff⟩

/-- Settings that are given as a list are written as a mapping, without the defaults among them. -/
example
    : let given : Value := .list [.list [], .list [.text "f39"], .null, .boolean false]
      ∃ m : Metadata,
        Metadata.decode given = .ok m
        ∧ m.form
          = .mapping [("dist_git_branches", .list [.text "f39"]), ("timeout", .integer 7200)] :=
  ⟨{ distGitBranches := ["f39"] }, by rfl, by decide⟩

end Packaging
