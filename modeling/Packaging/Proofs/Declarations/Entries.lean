import Packaging.Proofs.Document.Records

/-! What a declaration's mapping holds under a key once spellings are settled and nested settings
are moved up. Both steps are told by look-up alone.
-/

namespace Packaging.Declaration

-----------------------------------------------------------------------------------------
-- Spellings
-----------------------------------------------------------------------------------------

/-- The entry under a key, where the files to copy may stand under their other spelling. -/
def spelled? (key : String) (fields : Fields) : Option Value :=
  if key = syncedFilesSynonym then none
  else if key = syncedFilesKey then
    (fields.find? syncedFilesKey).or (fields.find? syncedFilesSynonym)
  else fields.find? key

/-- Whether a mapping gives the files to copy under both spellings. -/
def BothSpellings (fields : Fields) : Prop :=
  (fields.find? syncedFilesKey).isSome ∧ (fields.find? syncedFilesSynonym).isSome

/-- A key with one spelling keeps its entry. -/
theorem spelled?_of_ne {key : String} (notKey : key ≠ syncedFilesKey)
    (notSynonym : key ≠ syncedFilesSynonym) (fields : Fields)
    : spelled? key fields = fields.find? key := by
  simp [spelled?, notKey, notSynonym]

/-- Only two spellings at once are refused. -/
theorem renameSynonym_eq_error_iff {fields : Fields} {error : Error}
    : renameSynonym fields = .error error
      ↔ BothSpellings fields ∧ error = .invalid syncedFilesKey .twoSpellings := by
  unfold renameSynonym BothSpellings Fields.has
  cases synonym : fields.find? syncedFilesSynonym with
  | none => simp
  | some files =>
      cases plain : fields.find? syncedFilesKey with
      | none => simp
      | some other => simp [eq_comm]

/-- A mapping with at most one spelling is renamed. -/
theorem exists_renameSynonym {fields : Fields} (single : ¬ BothSpellings fields)
    : ∃ renamed, renameSynonym fields = .ok renamed := by
  cases step : renameSynonym fields with
  | error error => exact absurd (renameSynonym_eq_error_iff.mp step).1 single
  | ok renamed => exact ⟨renamed, rfl⟩

/-- After renaming, each key has the entry of either of its spellings. -/
theorem find?_of_renameSynonym {fields renamed : Fields}
    (step : renameSynonym fields = .ok renamed) (key : String)
    : renamed.find? key = spelled? key fields := by
  unfold renameSynonym Fields.has at step
  cases synonym : fields.find? syncedFilesSynonym with
  | none =>
      simp only [synonym, Except.ok.injEq] at step
      subst step
      unfold spelled?
      split
      · next other => rw [other, synonym]
      split
      · next plain => rw [plain, synonym, Option.or_none]
      · rfl
  | some files =>
      cases plain : fields.find? syncedFilesKey with
      | some value => simp [synonym, plain] at step
      | none =>
          simp only [synonym, plain, Option.isSome_none, Bool.false_eq_true, if_false,
            Except.ok.injEq] at step
          subst step
          rw [Fields.find?_insert, Fields.find?_erase]
          have apart : syncedFilesKey ≠ syncedFilesSynonym := by decide
          unfold spelled?
          by_cases same : key = syncedFilesKey
          · simp [same, apart, plain, synonym]
          · simp [same]

theorem ascending_of_renameSynonym {fields renamed : Fields} (ascending : fields.Ascending)
    (step : renameSynonym fields = .ok renamed)
    : renamed.Ascending := by
  unfold renameSynonym at step
  split at step
  · cases step
    exact ascending
  · split at step
    · simp at step
    · cases step
      exact (ascending.erase _).insert _ _

theorem renameSynonym_of_missing {fields : Fields}
    (missing : fields.find? syncedFilesSynonym = none)
    : renameSynonym fields = .ok fields := by
  simp [renameSynonym, missing]

-----------------------------------------------------------------------------------------
-- Nested settings
-----------------------------------------------------------------------------------------

/-- The entry under a key in the mapping that stands under `metadata`. -/
def nested? (key : String) (fields : Fields) : Option Value :=
  match fields.find? "metadata" with
  | some (.mapping nested) => Fields.find? key nested
  | _ => none

theorem nested?_of_mapping {fields nested : Fields}
    (found : fields.find? "metadata" = some (.mapping nested)) (key : String)
    : nested? key fields = nested.find? key := by
  rw [nested?, found]

/-- After nested entries are moved up, what was there is found first. -/
theorem find?_of_liftMetadata {fields lifted : Fields}
    (step : liftMetadata fields = .ok lifted) (key : String)
    : lifted.find? key
      = (if key = "metadata" then none else fields.find? key).or (nested? key fields) := by
  unfold liftMetadata at step
  unfold nested?
  split at step
  · next missing =>
    cases step
    by_cases same : key = "metadata" <;> simp [same, missing]
  · next null =>
    cases step
    rw [Fields.find?_erase, null]
    simp
  · next nested mapping =>
    cases step
    rw [Fields.find?_foldl_insertNew, Fields.find?_erase, mapping]
  · simp at step

theorem ascending_of_liftMetadata {fields lifted : Fields} (ascending : fields.Ascending)
    (step : liftMetadata fields = .ok lifted)
    : lifted.Ascending := by
  unfold liftMetadata at step
  split at step
  · cases step
    exact ascending
  · cases step
    exact ascending.erase _
  · cases step
    exact (ascending.erase _).foldl_insertNew _
  · simp at step

/-- Only something under `metadata` that is neither null nor a mapping is refused. -/
theorem field_of_liftMetadata_eq_error {fields : Fields} {error : Error}
    (step : liftMetadata fields = .error error)
    : ∃ fault, error = .invalid "metadata" fault := by
  unfold liftMetadata at step
  split at step
  · simp at step
  · simp at step
  · simp at step
  · next value _ _ _ =>
    cases step
    exact ⟨_, rfl⟩

theorem liftMetadata_of_missing {fields : Fields} (missing : fields.find? "metadata" = none)
    : liftMetadata fields = .ok fields := by
  simp [liftMetadata, missing]

-----------------------------------------------------------------------------------------
-- The entries of a job
-----------------------------------------------------------------------------------------

/-- The entries of a job with spellings settled and nested entries moved up. -/
def flatten (fields : Fields) : Except Error Fields :=
  renameSynonym fields >>= liftMetadata

/-- The entry that a job gives for a key: at its top level in either spelling, or else, if the
top level has no such entry, nested under `metadata`.
-/
def jobField? (key : String) (fields : Fields) : Option Value :=
  (spelled? key fields).or (nested? key fields)

theorem flatten_eq_ok_iff {fields flat : Fields}
    : flatten fields = .ok flat
      ↔ ∃ renamed, renameSynonym fields = .ok renamed ∧ liftMetadata renamed = .ok flat := by
  unfold flatten
  cases renameSynonym fields <;> simp [bind, Except.bind]

/-- After both steps a key has its entry of the top level in either spelling, without `metadata`
itself, or else the one that is nested.
-/
theorem find?_flat {fields flat : Fields} (step : flatten fields = .ok flat) (key : String)
    : flat.find? key
      = (if key = "metadata" then none else spelled? key fields).or (nested? key fields) := by
  obtain ⟨renamed, rename, lift⟩ := flatten_eq_ok_iff.mp step
  have nested : nested? key renamed = nested? key fields := by
    unfold nested?
    rw [find?_of_renameSynonym rename, spelled?_of_ne (by decide) (by decide)]
  rw [find?_of_liftMetadata lift, find?_of_renameSynonym rename, nested]

/-- After both steps a key has the entry that the job gives for it. -/
theorem find?_of_flatten {fields flat : Fields} (step : flatten fields = .ok flat)
    {key : String} (other : key ≠ "metadata")
    : flat.find? key = jobField? key fields := by
  rw [find?_flat step, if_neg other, jobField?]

theorem ascending_of_flatten {fields flat : Fields} (ascending : fields.Ascending)
    (step : flatten fields = .ok flat)
    : flat.Ascending := by
  obtain ⟨renamed, rename, lift⟩ := flatten_eq_ok_iff.mp step
  exact ascending_of_liftMetadata (ascending_of_renameSynonym ascending rename) lift

-----------------------------------------------------------------------------------------
-- Names that have to be given
-----------------------------------------------------------------------------------------

/-- A required thing is the one that a text under its key names. -/
theorem required_eq_ok_iff {α : Type} {fields : Fields} {key : String}
    {ofLabel : String → Except Error α} {thing : α}
    : required fields key ofLabel = .ok thing
      ↔ ∃ name, fields.find? key = some (.text name) ∧ ofLabel name = .ok thing := by
  unfold required
  split
  · next missing => simp [missing]
  · next null => simp [null]
  · next name text => simp [text]
  · next value _ notText found =>
    simp only [found, reduceCtorEq, Option.some.injEq, false_iff, not_exists, not_and]
    intro name same
    subst same
    exact absurd rfl (notText name)

/-- A required thing that is missing, of another type or unknown is refused under its key. -/
theorem field_of_required_eq_error {α : Type} {fields : Fields} {key : String}
    {ofLabel : String → Except Error α} {error : Error}
    (unknown
      : ∀ name error, ofLabel name = .error error → ∃ fault, error = .invalid key fault)
    (step : required fields key ofLabel = .error error)
    : ∃ fault, error = .invalid key fault := by
  unfold required at step
  split at step
  · exact ⟨_, (Except.error.inj step).symm⟩
  · exact ⟨_, (Except.error.inj step).symm⟩
  · exact unknown _ _ step
  · exact ⟨_, (Except.error.inj step).symm⟩

theorem field_of_jobType_eq_error (name : String) (error : Error)
    (step : JobType.ofLabel name = .error error)
    : ∃ fault, error = .invalid "job" fault := by
  unfold JobType.ofLabel at step
  split at step
  · simp at step
  · exact ⟨_, (Except.error.inj step).symm⟩

theorem field_of_trigger_eq_error (name : String) (error : Error)
    (step : Trigger.ofLabel name = .error error)
    : ∃ fault, error = .invalid "trigger" fault := by
  unfold Trigger.ofLabel at step
  split at step
  · simp at step
  · exact ⟨_, (Except.error.inj step).symm⟩

-----------------------------------------------------------------------------------------
-- The jobs and the path of a package
-----------------------------------------------------------------------------------------

/-- The jobs of a package are a list, or null. -/
theorem exists_rawJobs_iff {fields : Fields}
    : (∃ jobs, rawJobs fields = .ok jobs)
      ↔ ∀ value, Value.present? (fields.find? "jobs") = some value
          → ∃ raws, value = .list raws := by
  unfold rawJobs
  split
  · next missing => simp [missing, Value.present?]
  · next null => simp [null, Value.present?, Option.filter_some]
  · next raws found => simp [found, Value.present?, Option.filter_some]
  · next value notNull notList found =>
    have other : ¬ ∃ raws, value = .list raws := by
      intro isList
      obtain ⟨raws, list⟩ := isList
      exact notList raws list
    have given : value ≠ .null := fun null => notNull null
    simp [found, Value.present?, Option.filter_some, given, other]

/-- The path of the document is a text, or null. -/
theorem exists_documentPath_iff {fields : Fields}
    : (∃ path, documentPath fields = .ok path)
      ↔ ∀ value, Value.present? (fields.find? "config_file_path") = some value
          → ∃ text, value = .text text := by
  unfold documentPath
  split
  · next missing => simp [missing, Value.present?]
  · next null => simp [null, Value.present?, Option.filter_some]
  · next text found => simp [found, Value.present?, Option.filter_some]
  · next value notNull notText found =>
    have other : ¬ ∃ text, value = .text text := by
      intro isText
      obtain ⟨text, same⟩ := isText
      exact notText text same
    have given : value ≠ .null := fun null => notNull null
    simp [found, Value.present?, Option.filter_some, given, other]

/-- Anything else than jobs is refused under their key. -/
theorem exists_of_rawJobs_eq_error {fields : Fields} {error : Error}
    (step : rawJobs fields = .error error)
    : ∃ fault, error = .invalid "jobs" fault := by
  unfold rawJobs at step
  split at step
  · simp at step
  · simp at step
  · simp at step
  · exact ⟨_, (Except.error.inj step).symm⟩

theorem exists_of_documentPath_eq_error {fields : Fields} {error : Error}
    (step : documentPath fields = .error error)
    : ∃ fault, error = .invalid "config_file_path" fault := by
  unfold documentPath at step
  split at step
  · simp at step
  · simp at step
  · simp at step
  · exact ⟨_, (Except.error.inj step).symm⟩

-----------------------------------------------------------------------------------------
-- Keys that nobody reads
-----------------------------------------------------------------------------------------

theorem outcome_reportUnknown (scope : Scope) (fields : Fields)
    : (reportUnknown scope fields).outcome = .ok () := by
  unfold reportUnknown
  split <;> rfl

/-- Where every key is an attribute nothing is reported. -/
theorem reportUnknown_of_known {fields : Fields}
    (known : ∀ key ∈ fields.keys, key ∈ Overrides.keys) (scope : Scope)
    : reportUnknown scope fields = ⟨[], .ok ()⟩ := by
  have none : unknownKeys fields = [] := by
    simpa [unknownKeys, List.filter_eq_nil_iff] using known
  simp only [reportUnknown, none]
  rfl

end Packaging.Declaration
