import Packaging.Proofs.Attributes.RoundTrip
import Packaging.Proofs.Declarations.Stages
import Packaging.Resolution

/-! The canonical form of a job read again. Its type, settings and attributes stand under keys of
their own, so each of them is found as it was written.
-/

namespace Packaging.Job

open Declaration Value

/-- All keys that the form of a job may have. -/
def formKeys : List String :=
  ["job", "trigger"] ++ Metadata.keys ++ Overrides.keys

/-- The entries of a job stand under keys of a form, in the same order. -/
theorem keys_entries_sublist (job : Job)
    : (Fields.keys job.entries).Sublist formKeys := by
  have settings := Fields.keys_ofTable_sublist Setting.all Setting.key
    fun s => s.encode? (s.value job.metadata)
  have attributes := Fields.keys_ofTable_sublist Attribute.all Attribute.key
    fun a => (a.value job.attributes).map a.kind.encode
  rw [← Setting.entries_eq] at settings
  rw [← Attribute.entries_eq] at attributes
  have split : Fields.keys job.entries
      = ["job", "trigger"] ++ Fields.keys job.metadata.entries
        ++ Fields.keys job.attributes.entries := by
    simp [entries, Fields.keys]
  rw [split]
  exact (settings.append_left _).append attributes

theorem distinct_entries (job : Job)
    : (Fields.keys job.entries).Nodup :=
  job.keys_entries_sublist.nodup (by decide)

/-- The entries of the canonical form of a job. -/
def fields (job : Job) : Fields :=
  sortedFields job.entries

/-- The canonical form of a job is the mapping of its sorted entries. -/
theorem form_eq (job : Job)
    : job.form = .mapping job.fields :=
  rfl

theorem mem_formKeys_of_mem (job : Job) {key : String} (member : key ∈ job.fields.keys)
    : key ∈ formKeys :=
  job.keys_entries_sublist.subset (mem_keys_of_mem_sortedFields job.distinct_entries member)

/-- The form of a job has no other keys. -/
theorem find?_fields_of_unknown (job : Job) {key : String} (unknown : key ∉ formKeys)
    : job.fields.find? key = none :=
  Fields.find?_eq_none_iff.mpr fun member => unknown (job.mem_formKeys_of_mem member)

theorem find?_metadata_entries (m : Metadata) (s : Setting)
    : Fields.find? s.key m.entries = s.encode? (s.value m) := by
  rw [Setting.entries_eq, Fields.find?_ofTable _ _ _ Setting.key_injective, if_pos s.mem_all]

theorem find?_attributes_entries (x : Attributes) (a : Attribute)
    : Fields.find? a.key x.entries = (a.value x).map a.kind.encode := by
  rw [Attribute.entries_eq, Fields.find?_ofTable _ _ _ Attribute.key_injective,
    if_pos a.mem_all]

/-- No entry of settings stands under a key that is no setting. -/
theorem find?_metadata_entries_of_unknown (m : Metadata) {key : String}
    (unknown : key ∉ Metadata.keys)
    : Fields.find? key m.entries = none := by
  rw [Setting.entries_eq]
  exact Fields.find?_ofTable_of_unknown _ _ _ unknown

/-- No entry of attributes stands under a key that is no attribute. -/
theorem find?_attributes_entries_of_unknown (x : Attributes) {key : String}
    (unknown : key ∉ Overrides.keys)
    : Fields.find? key x.entries = none := by
  rw [Attribute.entries_eq]
  exact Fields.find?_ofTable_of_unknown _ _ _ unknown

theorem find?_fields_job (job : Job)
    : job.fields.find? "job" = some (.text job.type.label) := by
  rw [fields, find?_sortedFields job.distinct_entries]
  rfl

theorem find?_fields_trigger (job : Job)
    : job.fields.find? "trigger" = some (.text job.trigger.label) := by
  rw [fields, find?_sortedFields job.distinct_entries]
  rfl

/-- The form of a job has the settings that are not left out. -/
theorem find?_fields_setting (job : Job) (s : Setting)
    : job.fields.find? s.key = (s.encode? (s.value job.metadata)).map Value.sorted := by
  have notJob : "job" ≠ s.key := by cases s <;> decide
  have notTrigger : "trigger" ≠ s.key := by cases s <;> decide
  have notAttribute : s.key ∉ Overrides.keys := by cases s <;> decide
  rw [fields, find?_sortedFields job.distinct_entries, entries, Fields.find?_append,
    Fields.find?_append, find?_metadata_entries,
    find?_attributes_entries_of_unknown _ notAttribute]
  simp [Fields.find?, notJob, notTrigger]

/-- The form of a job has the attributes that it has. -/
theorem find?_fields_attribute (job : Job) (a : Attribute)
    : job.fields.find? a.key
      = (a.value job.attributes).map fun data => (a.kind.encode data).sorted := by
  have notJob : "job" ≠ a.key := by cases a <;> decide
  have notTrigger : "trigger" ≠ a.key := by cases a <;> decide
  have notSetting : a.key ∉ Metadata.keys := by cases a <;> decide
  rw [fields, find?_sortedFields job.distinct_entries, entries, Fields.find?_append,
    Fields.find?_append, find?_attributes_entries,
    find?_metadata_entries_of_unknown _ notSetting]
  simp [Fields.find?, notJob, notTrigger, Function.comp_def]

theorem ofLabel_type (type : JobType)
    : JobType.ofLabel type.label = .ok type := by
  cases type <;> rfl

theorem ofLabel_trigger (trigger : Trigger)
    : Trigger.ofLabel trigger.label = .ok trigger := by
  cases trigger <;> rfl

/-- The form of a job declares the job with all its attributes, silently. -/
theorem declaration_form (job : Job)
    : JobDeclaration.ofValue job.form
      = ⟨[], .ok ⟨job.type, job.trigger, job.metadata, job.attributes.asOverrides⟩⟩ := by
  have ascending : job.fields.Ascending := ascending_sortedFields _
  have optionsAscending := (ascending.erase "job").erase "trigger"
  have known : ∀ key ∈ (JobDeclaration.attributes job.fields).keys, key ∈ Overrides.keys := by
    intro key member
    obtain ⟨inOptions, _, notSetting⟩ := Fields.mem_keys_filter member
    obtain ⟨inErased, notTrigger⟩ := Fields.mem_keys_erase inOptions
    obtain ⟨inFields, notJob⟩ := Fields.mem_keys_erase inErased
    have listed := job.mem_formKeys_of_mem inFields
    simp only [decide_eq_true_eq] at notSetting
    simpa [formKeys, notSetting, notTrigger, notJob] using listed
  refine JobDeclaration.ofFields_of_known
    (job.find?_fields_of_unknown (by decide)) (job.find?_fields_of_unknown (by decide))
    (required_eq_ok_iff.mpr ⟨_, job.find?_fields_job, ofLabel_type _⟩)
    (required_eq_ok_iff.mpr ⟨_, ?_, ofLabel_trigger _⟩) ?_ known ?_
  · rw [Fields.find?_erase, if_neg (by decide)]
    exact job.find?_fields_trigger
  · apply Setting.record_of_written (optionsAscending.filter _).distinct
    intro s
    exact (JobDeclaration.find?_settings s job.fields).trans (job.find?_fields_setting s)
  · apply Attribute.record_of_written (optionsAscending.filter _).distinct
    intro a
    exact (JobDeclaration.find?_attributes a job.fields).trans (job.find?_fields_attribute a)

/-- The form of a job resolves to the job when it lacks nothing that it would inherit. -/
theorem resolve_form {inherited : Attributes} {job : Job} (settled : job.attributes.Settled)
    (below : job.attributes.Below inherited) (fresh : job.attributes.derivedUrl = none)
    : Job.resolve inherited job.form = ⟨[], .ok job⟩ := by
  rw [Job.resolve, Traced.silent_bind job.declaration_form,
    Attributes.overlay_asOverrides settled below fresh]
  rfl

end Packaging.Job
