import Packaging.Proofs.Declarations.NestedSettings
import Packaging.Proofs.Declarations.Recognized

/-! Mappings whose files to copy stand under their other spelling. A package and a job are read as
with the plain spelling. What is nested in a job has a single spelling, so under the other one it is
as good as missing.
-/

namespace Packaging

open Declaration Value

namespace Declaration

-----------------------------------------------------------------------------------------
-- The other spelling
-----------------------------------------------------------------------------------------

/-- The mapping with the files to copy, if it gives any, under their other spelling. -/
def respell (fields : Fields) : Fields :=
  match fields.find? syncedFilesKey with
  | none => fields
  | some files => (fields.erase syncedFilesKey).insert syncedFilesSynonym files

variable {fields : Fields}

theorem find?_respell (key : String) (fields : Fields)
    : (respell fields).find? key
      = if key = syncedFilesSynonym then
          (fields.find? syncedFilesKey).or (fields.find? syncedFilesSynonym)
        else if key = syncedFilesKey then none
        else fields.find? key := by
  unfold respell
  cases plain : fields.find? syncedFilesKey with
  | none =>
      by_cases synonym : key = syncedFilesSynonym
      · rw [if_pos synonym, synonym, Option.none_or]
      · rw [if_neg synonym]
        by_cases same : key = syncedFilesKey
        · rw [if_pos same, same, plain]
        · rw [if_neg same]
  | some files =>
      simp only [Fields.find?_insert, Fields.find?_erase, Option.some_or]

theorem ascending_respell (ascending : fields.Ascending)
    : (respell fields).Ascending := by
  unfold respell
  split
  · exact ascending
  · exact (ascending.erase _).insert _ _

theorem ordered_respell (ordered : (mapping fields).Ordered)
    : (mapping (respell fields)).Ordered := by
  unfold respell
  split
  · exact ordered
  · next files found => exact (ordered.erase _).insert (ordered.of_find? found) _

/-- The plain spelling and the other one are settled to the same. -/
theorem renameSynonym_respell (ascending : fields.Ascending)
    (free : fields.find? syncedFilesSynonym = none)
    : renameSynonym (respell fields) = renameSynonym fields := by
  have single : ¬ BothSpellings (respell fields) := by
    rw [BothSpellings, find?_respell, if_neg (by decide), if_pos rfl]
    simp
  obtain ⟨renamed, step⟩ := exists_renameSynonym single
  rw [step, renameSynonym_of_missing free]
  refine congrArg Except.ok ((ascending_of_renameSynonym (ascending_respell ascending) step).ext
    ascending fun key => ?_)
  rw [find?_of_renameSynonym step]
  unfold spelled?
  by_cases synonym : key = syncedFilesSynonym
  · rw [if_pos synonym, synonym, free]
  · rw [if_neg synonym]
    by_cases same : key = syncedFilesKey
    · rw [if_pos same, find?_respell, if_neg (by decide), if_pos rfl, find?_respell, if_pos rfl,
        free, Option.none_or, Option.or_none, same]
    · rw [if_neg same, find?_respell, if_neg synonym, if_neg same]

end Declaration

/-- A package that gives both spellings fails before anything else is read. -/
theorem PackageDeclaration.ofFields_of_bothSpellings {fields : Fields} (both : BothSpellings fields)
    : ofFields fields = ⟨[], .error (.invalid syncedFilesKey .twoSpellings)⟩ := by
  rw [ofFields, renameSynonym_eq_error_iff.mpr ⟨both, rfl⟩]
  rfl

theorem PackageDeclaration.ofFields_respell {fields : Fields} (ascending : fields.Ascending)
    (free : fields.find? syncedFilesSynonym = none)
    : ofFields (respell fields) = ofFields fields := by
  rw [ofFields, renameSynonym_respell ascending free, ofFields]

namespace JobDeclaration

variable {fields nested flat : Fields}

theorem ofFields_respell (ascending : fields.Ascending)
    (free : fields.find? syncedFilesSynonym = none)
    : ofFields (respell fields) = ofFields fields :=
  ofFields_congr (by rw [flatten, renameSynonym_respell ascending free, flatten])

/-- A job that gives both spellings fails before anything else is read. -/
theorem ofFields_of_bothSpellings (both : BothSpellings fields)
    : ofFields fields = ⟨[], .error (.invalid syncedFilesKey .twoSpellings)⟩ := by
  rw [ofFields, renameSynonym_eq_error_iff.mpr ⟨both, rfl⟩]
  rfl

-----------------------------------------------------------------------------------------
-- Nested spellings
-----------------------------------------------------------------------------------------

/-- Nobody reads the other spelling where it is nested. -/
theorem outcome_ofFields_respell_nested (ascending : fields.Ascending)
    : (ofFields (fields.insert "metadata" (.mapping (respell nested)))).outcome
      = (ofFields (fields.insert "metadata" (.mapping (nested.erase syncedFilesKey)))).outcome := by
  refine outcome_ofFields_congr (ascending.insert _ _) (ascending.insert _ _)
    { others := ?_, part := ?_ }
  · intro key _ other
    rw [Fields.find?_insert, if_neg other, Fields.find?_insert, if_neg other]
  · rw [Fields.find?_insert, if_pos rfl, Fields.find?_insert, if_pos rfl]
    refine .some (.mapping fun key known => ?_)
    have notSynonym : key ≠ syncedFilesSynonym := fun same => absurd (same ▸ known) (by decide)
    rw [find?_respell, if_neg notSynonym, Fields.find?_erase]

/-- How reading a job ends, told by its flat entries. -/
theorem outcome_ofFields_of_flatten (step : flatten fields = .ok flat)
    : (ofFields fields).outcome
      = required flat "job" JobType.ofLabel >>= fun type =>
          required (flat.erase "job") "trigger" Trigger.ofLabel >>= fun trigger =>
          record Metadata.reader (settings flat) >>= fun metadata =>
          record Overrides.reader (attributes flat) >>= fun overrides =>
          .ok ⟨type, trigger, metadata, overrides⟩ := by
  obtain ⟨renamed, rename, lift⟩ := flatten_eq_ok_iff.mp step
  rw [outcome_ofFields, rename]
  show (liftMetadata renamed >>= _) = _
  rw [lift]
  rfl

/-- An attribute that is null may be left out of the flat entries of a job. -/
theorem outcome_ofFields_of_null {other : Fields} {a : Attribute} (ascending : fields.Ascending)
    (step : flatten fields = .ok flat) (null : flat.find? a.key = some .null)
    (without : flatten other = .ok (flat.erase a.key))
    : (ofFields other).outcome = (ofFields fields).outcome := by
  have flatAscending := ascending_of_flatten ascending step
  have type : required (flat.erase a.key) "job" JobType.ofLabel
      = required flat "job" JobType.ofLabel := by
    refine required_congr ?_ _
    rw [Fields.find?_erase, if_neg (by cases a <;> decide)]
  have trigger : required ((flat.erase a.key).erase "job") "trigger" Trigger.ofLabel
      = required (flat.erase "job") "trigger" Trigger.ofLabel := by
    refine required_congr ?_ _
    rw [Fields.find?_erase, Fields.find?_erase, Fields.find?_erase,
      if_neg (by cases a <;> decide : "trigger" ≠ a.key)]
  have metadata
      : record Metadata.reader (settings (flat.erase a.key))
        = record Metadata.reader (settings flat) := by
    refine record_congr_parts Setting.parts (((flatAscending.erase _).erase _).filter _)
      ((((flatAscending.erase _).erase _).erase _).filter _) fun s => ?_
    have notSetting : a.key ∉ Metadata.keys := by cases a <;> decide
    have apart : s.key ≠ a.key := fun same => notSetting (same ▸ Setting.parts.key_mem_keys s)
    exact (find?_settings s _).trans
      ((Fields.find?_erase ..).trans ((if_neg apart).trans (find?_settings s flat).symm))
  have overrides
      : record Overrides.reader (attributes (flat.erase a.key))
        = record Overrides.reader (attributes flat) := by
    have left : (attributes flat).Ascending := ((flatAscending.erase _).erase _).filter _
    have found : (attributes flat).find? a.key = some .null := (find?_attributes a flat).trans null
    have erased := Attribute.parts.record_erase left.distinct found
      (congrArg Except.ok a.given_start.symm)
    rw [← erased]
    refine record_congr_parts Attribute.parts (left.erase _)
      ((((flatAscending.erase _).erase _).erase _).filter _) fun b => ?_
    show (attributes (flat.erase a.key)).find? b.key = ((attributes flat).erase a.key).find? b.key
    rw [find?_attributes, Fields.find?_erase, Fields.find?_erase, find?_attributes]
  rw [outcome_ofFields_of_flatten step, outcome_ofFields_of_flatten without, type, trigger,
    metadata, overrides]

/-- A job with the files to copy spelled the other way in one place, where nothing has that spelling
yet: at its top level, or nested where the entry counts for nothing. It does so behind an entry of
the job itself, or when it is null.
-/
inductive Respells : Fields → Fields → Prop
  | own {fields : Fields} (free : fields.find? syncedFilesSynonym = none)
    : Respells fields (respell fields)
  | nested {fields nested : Fields} (found : fields.find? "metadata" = some (.mapping nested))
    (free : nested.find? syncedFilesSynonym = none)
    (idle : own? syncedFilesKey fields = none → present? (nested.find? syncedFilesKey) = none)
    : Respells fields (fields.insert "metadata" (.mapping (respell nested)))

/-- A nested null is the entry of the flat job, and without it there is none. -/
theorem exists_flatten_erase_nested (ascending : fields.Ascending)
    (found : fields.find? "metadata" = some (.mapping nested))
    (none : own? syncedFilesKey fields = none)
    : ∃ flat,
        flatten fields = .ok flat ∧ flat.find? syncedFilesKey = nested.find? syncedFilesKey
        ∧ flatten (fields.insert "metadata" (.mapping (nested.erase syncedFilesKey)))
          = .ok (flat.erase syncedFilesKey) := by
  have replaced
      : (fields.insert "metadata" (.mapping (nested.erase syncedFilesKey))).find? "metadata"
        = some (.mapping (nested.erase syncedFilesKey)) := by
    rw [Fields.find?_insert, if_pos rfl]
  have own (key : String)
      : own? key (fields.insert "metadata" (.mapping (nested.erase syncedFilesKey)))
        = own? key fields :=
    own?_congr (fun other differs => by rw [Fields.find?_insert, if_neg differs]) key
  have single {fields : Fields} (none : own? syncedFilesKey fields = Option.none)
      : ¬ BothSpellings fields := by
    intro both
    obtain ⟨plain, _⟩ := both
    have missing : fields.find? syncedFilesKey = Option.none := (Option.or_eq_none_iff.mp none).1
    simp [missing] at plain
  obtain ⟨flat, step⟩ := exists_flatten (single none) (.inr (.inr ⟨nested, found⟩))
  obtain ⟨other, without⟩ :=
    exists_flatten (single ((own _).trans none)) (.inr (.inr ⟨_, replaced⟩))
  refine ⟨flat, step, ?_, ?_⟩
  · rw [find?_flat step, ← own?, none, Option.none_or, nested?_of_mapping found]
  · rw [without]
    refine congrArg Except.ok ((ascending_of_flatten (ascending.insert _ _) without).ext
      ((ascending_of_flatten ascending step).erase _) fun key => ?_)
    rw [find?_flat without, ← own?, own, nested?_of_mapping replaced, Fields.find?_erase,
      Fields.find?_erase, find?_flat step, ← own?, nested?_of_mapping found]
    split
    · next same => rw [same, none, Option.none_or]
    · rfl

/-- A nested entry that counts for nothing may be left out. -/
theorem outcome_ofFields_erase_nested (ascending : fields.Ascending)
    (found : fields.find? "metadata" = some (.mapping nested))
    (idle : own? syncedFilesKey fields = none → present? (nested.find? syncedFilesKey) = none)
    : (ofFields (fields.insert "metadata" (.mapping (nested.erase syncedFilesKey)))).outcome
      = (ofFields fields).outcome := by
  by_cases null : own? syncedFilesKey fields = none ∧ nested.find? syncedFilesKey = some .null
  · obtain ⟨flat, step, kept, without⟩ := exists_flatten_erase_nested ascending found null.1
    exact outcome_ofFields_of_null (a := .syncedFiles) ascending step (kept.trans null.2) without
  · refine congrArg Traced.outcome (ofFields_congr
      (flatten_insert_metadata ascending found fun key given => ?_))
    rw [Fields.find?_erase]
    split
    · next same =>
      subst same
      cases entry : nested.find? syncedFilesKey with
      | none => rfl
      | some value =>
          have none := idle given
          rw [entry] at none
          by_cases isNull : value = .null
          · exact absurd ⟨given, isNull ▸ entry⟩ null
          · simp [present?, Option.filter_some, isNull] at none
    · rfl

/-- A job that is spelled the other way is read alike. -/
theorem Respells.readAlike {other : Fields} (ordered : (mapping fields).Ordered)
    (respells : Respells fields other)
    : ReadAlike (.mapping fields) (.mapping other) := by
  cases respells with
  | own free => exact congrArg Traced.outcome (ofFields_respell ordered.ascending free)
  | nested found free idle =>
      exact (outcome_ofFields_respell_nested ordered.ascending).trans
        (outcome_ofFields_erase_nested ordered.ascending found idle)

theorem Respells.ordered {other : Fields} (ordered : (mapping fields).Ordered)
    (respells : Respells fields other)
    : (mapping other).Ordered := by
  cases respells with
  | own free => exact ordered_respell ordered
  | nested found free idle => exact ordered.insert (ordered_respell (ordered.of_find? found)) _

end JobDeclaration

end Packaging
