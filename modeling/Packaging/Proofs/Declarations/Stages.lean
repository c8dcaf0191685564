import Packaging.Proofs.Declarations.Entries
import Packaging.Proofs.Jobs.Settings
import Packaging.Proofs.Traced

/-! What the declarations of a package and of a job say, told by the entries that their mappings
give. A declaration is read just when each entry decodes by itself.
-/

namespace Packaging

open Declaration

-----------------------------------------------------------------------------------------
-- Packages
-----------------------------------------------------------------------------------------

namespace PackageDeclaration

/-- The entries of a package that are left for its attributes. -/
def options (renamed : Fields) : Fields :=
  (renamed.erase "jobs").erase "config_file_path"

theorem find?_options (a : Attribute) (renamed : Fields)
    : (options renamed).find? a.key = renamed.find? a.key := by
  have notPath : a.key ≠ "config_file_path" := by cases a <;> decide
  have notJobs : a.key ≠ "jobs" := by cases a <;> decide
  rw [options, Fields.find?_erase, if_neg notPath, Fields.find?_erase, if_neg notJobs]

theorem outcome_eq_ok_iff {fields : Fields} {declared : PackageDeclaration}
    : (ofFields fields).outcome = .ok declared
      ↔ ∃ renamed,
          renameSynonym fields = .ok renamed ∧ rawJobs renamed = .ok declared.jobs
          ∧ documentPath (renamed.erase "jobs") = .ok declared.configPath
          ∧ record Overrides.reader (options renamed) = .ok declared.overrides := by
  obtain ⟨path, overrides, jobs⟩ := declared
  simp only [ofFields, Traced.outcome_bind_eq_ok, Traced.outcome_liftM, outcome_reportUnknown,
    Traced.outcome_pure, Except.ok.injEq, mk.injEq, options]
  constructor
  · intro read
    obtain ⟨renamed, rename, _, jobs, _, path, _, _, _, overrides, rfl, rfl, rfl⟩ := read
    exact ⟨renamed, rename, jobs, path, overrides⟩
  · intro stages
    obtain ⟨renamed, rename, jobs, path, overrides⟩ := stages
    exact ⟨renamed, rename, _, jobs, _, path, (), trivial, _, overrides, rfl, rfl, rfl⟩

/-- Reading a package reports what is left over, and nothing else. -/
theorem ofFields_of_stages {fields renamed : Fields} {declared : PackageDeclaration}
    (rename : renameSynonym fields = .ok renamed) (jobs : rawJobs renamed = .ok declared.jobs)
    (path : documentPath (renamed.erase "jobs") = .ok declared.configPath)
    (overrides : record Overrides.reader (options renamed) = .ok declared.overrides)
    : ofFields fields = ⟨(reportUnknown .package (options renamed)).trace, .ok declared⟩ := by
  unfold options at overrides
  simp only [ofFields, rename, jobs, path, overrides, Traced.liftM_ok_bind]
  rw [Traced.bind_of_ok _ (outcome_reportUnknown _ _), Traced.trace_pure, List.append_nil]
  rfl

/-- A declaration without unknown keys is read silently. -/
theorem ofFields_of_known {fields renamed : Fields} {declared : PackageDeclaration}
    (rename : renameSynonym fields = .ok renamed) (jobs : rawJobs renamed = .ok declared.jobs)
    (path : documentPath (renamed.erase "jobs") = .ok declared.configPath)
    (known : ∀ key ∈ (options renamed).keys, key ∈ Overrides.keys)
    (overrides : record Overrides.reader (options renamed) = .ok declared.overrides)
    : ofFields fields = ⟨[], .ok declared⟩ := by
  rw [ofFields_of_stages rename jobs path overrides, reportUnknown_of_known known]

/-- What the entries of a package declare: its path and its jobs as they stand, and each attribute
by the entry under its key. The files to copy have one spelling.
-/
structure Declares (fields : Fields) (declared : PackageDeclaration) : Prop where
  single : ¬ BothSpellings fields
  jobs : rawJobs fields = .ok declared.jobs
  path : documentPath fields = .ok declared.configPath
  attributes : ∀ a, Attribute.parts.Told (fun key => spelled? key fields) declared.overrides a

/-- A package is read as what its entries declare, and as nothing else. -/
theorem outcome_eq_ok_iff_declares {fields : Fields} (ascending : fields.Ascending)
    {declared : PackageDeclaration}
    : (ofFields fields).outcome = .ok declared ↔ Declares fields declared := by
  rw [outcome_eq_ok_iff]
  -- The later stages find what the renaming makes of both spellings.
  have told {renamed : Fields} (step : renameSynonym fields = .ok renamed)
      : (rawJobs renamed = .ok declared.jobs
          ∧ documentPath (renamed.erase "jobs") = .ok declared.configPath
          ∧ record Overrides.reader (options renamed) = .ok declared.overrides)
        ↔ rawJobs fields = .ok declared.jobs ∧ documentPath fields = .ok declared.configPath
          ∧ ∀ a, Attribute.parts.Told (fun key => spelled? key fields)
              declared.overrides a := by
    have found := find?_of_renameSynonym step
    have distinct : (options renamed).keys.Nodup :=
      ((ascending_of_renameSynonym ascending step).erase "jobs"
        |>.erase "config_file_path").distinct
    have jobs : rawJobs renamed = rawJobs fields := by
      rw [rawJobs, found, spelled?_of_ne (by decide) (by decide), rawJobs]
    have path : documentPath (renamed.erase "jobs") = documentPath fields := by
      rw [documentPath, Fields.find?_erase, if_neg (by decide), found,
        spelled?_of_ne (by decide) (by decide), documentPath]
    have attributes (a : Attribute)
        : Attribute.parts.Told (fun key => (options renamed).find? key) declared.overrides a
          ↔ Attribute.parts.Told (fun key => spelled? key fields) declared.overrides a :=
      Attribute.parts.told_congr ((find?_options a renamed).trans (found a.key))
    rw [jobs, path, Attribute.parts.record_eq_ok_iff distinct]
    simp only [attributes]
  constructor
  · intro read
    obtain ⟨renamed, step, stages⟩ := read
    have single : ¬ BothSpellings fields := by
      intro both
      have failed := renameSynonym_eq_error_iff.mpr ⟨both, rfl⟩
      simp [step] at failed
    obtain ⟨jobs, path, attributes⟩ := (told step).mp stages
    exact ⟨single, jobs, path, attributes⟩
  · intro declares
    obtain ⟨single, jobs, path, attributes⟩ := declares
    obtain ⟨renamed, step⟩ := exists_renameSynonym single
    exact ⟨renamed, step, (told step).mpr ⟨jobs, path, attributes⟩⟩

/-- A package is read just when it has one spelling, its jobs and its path are of their kinds, and
each attribute that it gives decodes.
-/
theorem exists_outcome_eq_ok_iff {fields : Fields} (ascending : fields.Ascending)
    : (∃ declared, (ofFields fields).outcome = .ok declared)
      ↔ ¬ BothSpellings fields
        ∧ (∃ jobs, rawJobs fields = .ok jobs) ∧ (∃ path, documentPath fields = .ok path)
        ∧ ∀ (a : Attribute) (value : Value),
            Value.present? (spelled? a.key fields) = some value
            → ∃ data, a.kind.decode value = .ok data := by
  simp only [outcome_eq_ok_iff_declares ascending]
  constructor
  · intro read
    obtain ⟨declared, single, jobs, path, attributes⟩ := read
    refine ⟨single, ⟨_, jobs⟩, ⟨_, path⟩, ?_⟩
    intro a value given
    have told := Attribute.told_iff.mp (attributes a)
    rw [given] at told
    obtain ⟨data, decoded, _⟩ := told
    exact ⟨data, decoded⟩
  · intro valid
    obtain ⟨single, ⟨jobs, hasJobs⟩, ⟨path, hasPath⟩, decodes⟩ := valid
    have tells : ∃ overrides, ∀ a,
        Attribute.parts.Told (fun key => spelled? key fields) overrides a := by
      apply Attribute.parts.exists_told_iff.mpr
      intro a value found
      by_cases null : value = .null
      · exact ⟨none, Decoder.optional_eq_ok_iff.mpr (Or.inl ⟨null, rfl⟩)⟩
      · obtain ⟨data, decoded⟩ := decodes a value (Value.present?_eq_some_iff.mpr ⟨found, null⟩)
        exact ⟨some data, Decoder.optional_eq_ok_iff.mpr (Or.inr ⟨null, data, decoded, rfl⟩)⟩
    obtain ⟨overrides, told⟩ := tells
    exact ⟨⟨path, overrides, jobs⟩, single, hasJobs, hasPath, told⟩

def keys : List String :=
  ["jobs", "config_file_path"] ++ Overrides.keys

/-- A package that is not read has an invalid value under one of its keys. -/
theorem field_of_outcome_eq_error {fields : Fields} {error : Error}
    (failed : (ofFields fields).outcome = .error error)
    : ∃ key fault, key ∈ keys ∧ error = .invalid key fault := by
  simp only [ofFields, Traced.outcome_bind_eq_error, Traced.outcome_liftM,
    outcome_reportUnknown, Traced.outcome_pure, reduceCtorEq, and_false, exists_false, or_false,
    false_or] at failed
  rcases failed with rename | ⟨renamed, _, jobs | ⟨_, _, path | ⟨_, _, _, _, overrides⟩⟩⟩
  · exact ⟨_, _, by decide, (renameSynonym_eq_error_iff.mp rename).2⟩
  · exact ⟨"jobs", _, by decide, (exists_of_rawJobs_eq_error jobs).choose_spec⟩
  · exact ⟨"config_file_path", _, by decide, (exists_of_documentPath_eq_error path).choose_spec⟩
  · obtain ⟨key, _, cause, _, known, _, told⟩ := exists_of_record_eq_error overrides
    exact ⟨key, _, List.mem_append_right _ known, told⟩

end PackageDeclaration

-----------------------------------------------------------------------------------------
-- Jobs
-----------------------------------------------------------------------------------------

namespace JobDeclaration

/-- The entries of a job without its type and its trigger. -/
def options (flat : Fields) : Fields :=
  (flat.erase "job").erase "trigger"

/-- The entries of a job that are settings. -/
def settings (flat : Fields) : Fields :=
  (options flat).filter fun entry => entry.1 ∈ Metadata.keys

/-- The entries of a job that are left for its attributes. -/
def attributes (flat : Fields) : Fields :=
  (options flat).filter fun entry => entry.1 ∉ Metadata.keys

theorem find?_settings (s : Setting) (flat : Fields)
    : (settings flat).find? s.key = flat.find? s.key := by
  have notJob : s.key ≠ "job" := by cases s <;> decide
  have notTrigger : s.key ≠ "trigger" := by cases s <;> decide
  have setting : s.key ∈ Metadata.keys := Setting.parts.key_mem_keys s
  have kept := Fields.find?_filter (fun key => decide (key ∈ Metadata.keys)) s.key (options flat)
  rw [if_pos (by simpa using setting)] at kept
  rw [settings, kept, options, Fields.find?_erase, if_neg notTrigger, Fields.find?_erase,
    if_neg notJob]

theorem find?_attributes (a : Attribute) (flat : Fields)
    : (attributes flat).find? a.key = flat.find? a.key := by
  have notJob : a.key ≠ "job" := by cases a <;> decide
  have notTrigger : a.key ≠ "trigger" := by cases a <;> decide
  have notSetting : a.key ∉ Metadata.keys := by cases a <;> decide
  have kept := Fields.find?_filter (fun key => decide (key ∉ Metadata.keys)) a.key (options flat)
  rw [if_pos (by simpa using notSetting)] at kept
  rw [attributes, kept, options, Fields.find?_erase, if_neg notTrigger, Fields.find?_erase,
    if_neg notJob]

theorem outcome_eq_ok_iff {fields : Fields} {declared : JobDeclaration}
    : (ofFields fields).outcome = .ok declared
      ↔ ∃ flat,
          flatten fields = .ok flat
          ∧ required flat "job" JobType.ofLabel = .ok declared.type
          ∧ required (flat.erase "job") "trigger" Trigger.ofLabel = .ok declared.trigger
          ∧ record Metadata.reader (settings flat) = .ok declared.metadata
          ∧ record Overrides.reader (attributes flat) = .ok declared.overrides := by
  obtain ⟨type, trigger, metadata, overrides⟩ := declared
  simp only [ofFields, Traced.outcome_bind_eq_ok, Traced.outcome_liftM, outcome_reportUnknown,
    Traced.outcome_pure, Except.ok.injEq, mk.injEq, flatten_eq_ok_iff, settings, attributes,
    options]
  constructor
  · intro read
    obtain ⟨renamed, rename, flat, lift, _, type, _, trigger, _, metadata, _, _, _, overrides,
      rfl, rfl, rfl, rfl⟩ := read
    exact ⟨flat, ⟨renamed, rename, lift⟩, type, trigger, metadata, overrides⟩
  · intro stages
    obtain ⟨flat, ⟨renamed, rename, lift⟩, type, trigger, metadata, overrides⟩ := stages
    exact ⟨renamed, rename, flat, lift, _, type, _, trigger, _, metadata, (), trivial, _,
      overrides, rfl, rfl, rfl, rfl⟩

/-- Reading a job reports what is left over, and nothing else. -/
theorem ofFields_of_stages {fields flat : Fields} {declared : JobDeclaration}
    (step : flatten fields = .ok flat)
    (type : required flat "job" JobType.ofLabel = .ok declared.type)
    (trigger : required (flat.erase "job") "trigger" Trigger.ofLabel = .ok declared.trigger)
    (metadata : record Metadata.reader (settings flat) = .ok declared.metadata)
    (overrides : record Overrides.reader (attributes flat) = .ok declared.overrides)
    : ofFields fields = ⟨(reportUnknown .job (attributes flat)).trace, .ok declared⟩ := by
  obtain ⟨renamed, rename, lift⟩ := flatten_eq_ok_iff.mp step
  unfold settings options at metadata
  unfold attributes options at overrides
  simp only [ofFields, rename, lift, type, trigger, metadata, overrides, Traced.liftM_ok_bind]
  rw [Traced.bind_of_ok _ (outcome_reportUnknown _ _), Traced.trace_pure, List.append_nil]
  rfl

/-- A job without unknown keys is read silently. -/
theorem ofFields_of_known {fields : Fields} {declared : JobDeclaration}
    (synonym : fields.find? syncedFilesSynonym = none)
    (nested : fields.find? "metadata" = none)
    (type : required fields "job" JobType.ofLabel = .ok declared.type)
    (trigger : required (fields.erase "job") "trigger" Trigger.ofLabel = .ok declared.trigger)
    (metadata : record Metadata.reader (settings fields) = .ok declared.metadata)
    (known : ∀ key ∈ (attributes fields).keys, key ∈ Overrides.keys)
    (overrides : record Overrides.reader (attributes fields) = .ok declared.overrides)
    : ofFields fields = ⟨[], .ok declared⟩ := by
  have step : flatten fields = .ok fields :=
    flatten_eq_ok_iff.mpr
      ⟨fields, renameSynonym_of_missing synonym, liftMetadata_of_missing nested⟩
  rw [ofFields_of_stages step type trigger metadata overrides, reportUnknown_of_known known]

/-- What the entries of a job declare: its type and its trigger by their names, and each setting
and each attribute by the entry under its key.
-/
structure Declares (fields : Fields) (declared : JobDeclaration) : Prop where
  flat : ∃ flat, flatten fields = .ok flat
  type
    : ∃ name,
        jobField? "job" fields = some (.text name) ∧ JobType.ofLabel name = .ok declared.type
  trigger
    : ∃ name,
        jobField? "trigger" fields = some (.text name)
        ∧ Trigger.ofLabel name = .ok declared.trigger
  settings : ∀ s, Setting.parts.Told (fun key => jobField? key fields) declared.metadata s
  attributes : ∀ a, Attribute.parts.Told (fun key => jobField? key fields) declared.overrides a

/-- A job is read as what its entries declare, and as nothing else. -/
theorem outcome_eq_ok_iff_declares {fields : Fields} (ascending : fields.Ascending)
    {declared : JobDeclaration}
    : (ofFields fields).outcome = .ok declared ↔ Declares fields declared := by
  rw [outcome_eq_ok_iff]
  have told {flat : Fields} (step : flatten fields = .ok flat)
      : (required flat "job" JobType.ofLabel = .ok declared.type
          ∧ required (flat.erase "job") "trigger" Trigger.ofLabel = .ok declared.trigger
          ∧ record Metadata.reader (settings flat) = .ok declared.metadata
          ∧ record Overrides.reader (attributes flat) = .ok declared.overrides)
        ↔ Declares fields declared := by
    have flatAscending := ascending_of_flatten ascending step
    have settingsDistinct : (settings flat).keys.Nodup :=
      ((flatAscending.erase "job").erase "trigger" |>.filter _).distinct
    have attributesDistinct : (attributes flat).keys.Nodup :=
      ((flatAscending.erase "job").erase "trigger" |>.filter _).distinct
    have settingTold (s : Setting)
        : Setting.parts.Told (fun key => (settings flat).find? key) declared.metadata s
          ↔ Setting.parts.Told (fun key => jobField? key fields) declared.metadata s :=
      Setting.parts.told_congr
        ((find?_settings s flat).trans (find?_of_flatten step (by cases s <;> decide)))
    have attributeTold (a : Attribute)
        : Attribute.parts.Told (fun key => (attributes flat).find? key) declared.overrides a
          ↔ Attribute.parts.Told (fun key => jobField? key fields) declared.overrides a :=
      Attribute.parts.told_congr
        ((find?_attributes a flat).trans (find?_of_flatten step (by cases a <;> decide)))
    -- No stage takes away a key that a later one looks up.
    rw [required_eq_ok_iff, required_eq_ok_iff, Setting.parts.record_eq_ok_iff settingsDistinct,
      Attribute.parts.record_eq_ok_iff attributesDistinct, Fields.find?_erase,
      if_neg (by decide), find?_of_flatten step (by decide), find?_of_flatten step (by decide)]
    simp only [settingTold, attributeTold]
    constructor
    · intro stages
      obtain ⟨type, trigger, settings, attributes⟩ := stages
      exact ⟨⟨flat, step⟩, type, trigger, settings, attributes⟩
    · intro declares
      obtain ⟨_, type, trigger, settings, attributes⟩ := declares
      exact ⟨type, trigger, settings, attributes⟩
  constructor
  · intro read
    obtain ⟨flat, step, stages⟩ := read
    exact (told step).mp stages
  · intro declares
    obtain ⟨flat, step⟩ := declares.flat
    exact ⟨flat, step, (told step).mpr declares⟩

def keys : List String :=
  ["job", "trigger", "metadata"] ++ Metadata.keys ++ Overrides.keys

/-- A job that is not read has an invalid value under one of its keys. -/
theorem field_of_outcome_eq_error {raw : Value} {error : Error}
    (failed : (ofValue raw).outcome = .error error)
    : ∃ key fault, key ∈ keys ∧ error = .invalid key fault := by
  cases raw with
  | mapping fields =>
      simp only [ofValue, ofFields, Traced.outcome_bind_eq_error, Traced.outcome_liftM,
        outcome_reportUnknown, Traced.outcome_pure, reduceCtorEq, and_false, exists_false,
        or_false, false_or] at failed
      rcases failed with rename | ⟨renamed, _, lift | ⟨flat, _, type | ⟨_, _, trigger |
        ⟨_, _, metadata | ⟨_, _, _, _, overrides⟩⟩⟩⟩⟩
      · exact ⟨_, _, by decide, (renameSynonym_eq_error_iff.mp rename).2⟩
      · obtain ⟨fault, told⟩ := field_of_liftMetadata_eq_error lift
        exact ⟨_, fault, by decide, told⟩
      · obtain ⟨fault, told⟩ := field_of_required_eq_error field_of_jobType_eq_error type
        exact ⟨_, fault, by decide, told⟩
      · obtain ⟨fault, told⟩ := field_of_required_eq_error field_of_trigger_eq_error trigger
        exact ⟨_, fault, by decide, told⟩
      · obtain ⟨key, _, cause, _, known, _, told⟩ := exists_of_record_eq_error metadata
        exact ⟨key, _, by simp [keys, Metadata.keys, known], told⟩
      · obtain ⟨key, _, cause, _, known, _, told⟩ := exists_of_record_eq_error overrides
        exact ⟨key, _, List.mem_append_right _ known, told⟩
  | _ =>
      cases failed
      exact ⟨"job", _, by decide, rfl⟩

end JobDeclaration

end Packaging
