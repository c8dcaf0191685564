import Mathlib.Data.List.Forall2
import Packaging.Proofs.Declarations.Stages

/-! What a declaration is read from. Mappings with the same entries under the keys that somebody
reads declare the same, whatever else they hold, and fail with the same error.
-/

namespace Packaging

-----------------------------------------------------------------------------------------
-- Mappings that are alike
-----------------------------------------------------------------------------------------

namespace Fields

/-- Mappings in which the same is found under each of the keys. -/
def AlikeOn (keys : List String) (left right : Fields) : Prop :=
  ∀ key ∈ keys, right.find? key = left.find? key

/-- Mappings in which the same is found under each of the keys but one. What is found under that one
is related.
-/
structure AlikeBut (keys : List String) (part : String) (related : Value → Value → Prop)
    (left right : Fields) : Prop where
  others : ∀ key ∈ keys, key ≠ part → right.find? key = left.find? key
  part : Option.Rel related (left.find? part) (right.find? part)

end Fields

/-- The same value twice, or two mappings that are related. -/
inductive Value.AlikeAs (related : Fields → Fields → Prop) : Value → Value → Prop
  | same (value : Value) : AlikeAs related value value
  | mapping {left right : Fields} (entries : related left right)
    : AlikeAs related (.mapping left) (.mapping right)

/-- The same value twice, or two lists whose items are related one by one. -/
inductive Value.AlikeItems (related : Value → Value → Prop) : Value → Value → Prop
  | same (value : Value) : AlikeItems related value value
  | list {left right : List Value} (items : List.Forall₂ related left right)
    : AlikeItems related (.list left) (.list right)

namespace JobDeclaration

/-- The keys that are read in the mapping of a job. -/
def recognized : List String :=
  Declaration.syncedFilesSynonym :: keys

/-- Mappings of jobs that differ under no key that is read, neither at their top level nor in what
is nested there under `metadata`. What is nested has a single spelling.
-/
def AlikeFields : Fields → Fields → Prop :=
  Fields.AlikeBut recognized "metadata" (Value.AlikeAs (Fields.AlikeOn keys))

/-- Values of jobs that differ at most under keys that nobody reads. -/
def AlikeValue : Value → Value → Prop :=
  Value.AlikeAs AlikeFields

end JobDeclaration

namespace PackageDeclaration

/-- The keys that are read in the mapping of a package. -/
def recognized : List String :=
  Declaration.syncedFilesSynonym :: keys

/-- Mappings of packages that differ under no key that is read, where each of the jobs may differ
under keys that nobody reads.
-/
def AlikeFields : Fields → Fields → Prop :=
  Fields.AlikeBut recognized "jobs" (Value.AlikeItems JobDeclaration.AlikeValue)

end PackageDeclaration

namespace Declaration

-----------------------------------------------------------------------------------------
-- Records
-----------------------------------------------------------------------------------------

section Records

variable {α : Type} {reader : RecordReader α}

/-- Entries of other keys decode to no change, so the check passes them by. -/
theorem checkEach_filter (fields : Fields)
    : checkEach reader (fields.filter fun entry => entry.1 ∈ reader.keys)
      = checkEach reader fields := by
  induction fields with
  | nil => rfl
  | cons head rest ih =>
      obtain ⟨key, value⟩ := head
      by_cases known : key ∈ reader.keys
      · rw [List.filter_cons_of_pos (by simpa using known), checkEach, ih, checkEach]
      · rw [List.filter_cons_of_neg (by simpa using known), ih, checkEach,
          RecordReader.decode_single, RecordReader.change_of_unknown known]
        rfl

theorem ofEntries_filter (record : α) (fields : Fields)
    : reader.ofEntries record (fields.filter fun entry => entry.1 ∈ reader.keys)
      = reader.ofEntries record fields := by
  induction fields generalizing record with
  | nil => rfl
  | cons head rest ih =>
      obtain ⟨key, value⟩ := head
      by_cases known : key ∈ reader.keys
      · rw [List.filter_cons_of_pos (by simpa using known), RecordReader.ofEntries,
          RecordReader.ofEntries]
        simp only [ih]
      · rw [List.filter_cons_of_neg (by simpa using known), ih, RecordReader.ofEntries,
          RecordReader.change_of_unknown known]
        rfl

/-- A record is read from the entries under its keys alone. -/
theorem record_filter (fields : Fields)
    : record reader (fields.filter fun entry => entry.1 ∈ reader.keys) = record reader fields := by
  rw [record, record, checkEach_filter, RecordReader.decode, RecordReader.decode,
    ofEntries_filter]

/-- Mappings that are alike under the keys of a record are read as the same record, or refused with
the same error.
-/
theorem record_congr {left right : Fields} (leftAscending : left.Ascending)
    (rightAscending : right.Ascending) (alike : Fields.AlikeOn reader.keys left right)
    : record reader right = record reader left := by
  have same
      : (right.filter fun entry => entry.1 ∈ reader.keys)
        = left.filter fun entry => entry.1 ∈ reader.keys := by
    refine (rightAscending.filter _).ext (leftAscending.filter _) fun key => ?_
    rw [Fields.find?_filter (fun key => decide (key ∈ reader.keys)),
      Fields.find?_filter (fun key => decide (key ∈ reader.keys))]
    by_cases known : key ∈ reader.keys
    · simp only [known, decide_true, if_true, alike key known]
    · simp only [known, decide_false, Bool.false_eq_true, if_false]
  rw [← record_filter right, same, record_filter]

/-- Where the same is found under the key of every part, the same record is read. -/
theorem record_congr_parts {ι : Type} {Data : ι → Type} (parts : reader.Parts ι Data)
    {left right : Fields} (leftAscending : left.Ascending) (rightAscending : right.Ascending)
    (same : ∀ part, right.find? (parts.key part) = left.find? (parts.key part))
    : record reader right = record reader left := by
  refine record_congr leftAscending rightAscending fun key known => ?_
  obtain ⟨part, rfl⟩ := parts.exists_of_mem_keys known
  exact same part

end Records

-----------------------------------------------------------------------------------------
-- Steps
-----------------------------------------------------------------------------------------

theorem required_congr {α : Type} {left right : Fields} {key : String}
    (same : right.find? key = left.find? key) (ofLabel : String → Except Error α)
    : required right key ofLabel = required left key ofLabel := by
  rw [required, same, required]

theorem documentPath_congr {left right : Fields}
    (same : right.find? "config_file_path" = left.find? "config_file_path")
    : documentPath right = documentPath left := by
  rw [documentPath, same, documentPath]

/-- The spellings are settled alike, as long as the two of them are not the key that is left out. -/
theorem endAlike_renameSynonym {keys : List String} {part : String}
    {related : Value → Value → Prop} {left right : Fields}
    (alike : Fields.AlikeBut keys part related left right) (key : syncedFilesKey ∈ keys)
    (synonym : syncedFilesSynonym ∈ keys) (notKey : part ≠ syncedFilesKey)
    (notSynonym : part ≠ syncedFilesSynonym)
    : EndAlike (Fields.AlikeBut keys part related) (renameSynonym left) (renameSynonym right) := by
  have sameKey := alike.others _ key notKey.symm
  have sameSynonym := alike.others _ synonym notSynonym.symm
  have both : BothSpellings right ↔ BothSpellings left := by
    rw [BothSpellings, sameKey, sameSynonym, BothSpellings]
  cases step : renameSynonym left with
  | error error =>
      obtain ⟨twice, told⟩ := renameSynonym_eq_error_iff.mp step
      rw [renameSynonym_eq_error_iff.mpr ⟨both.mpr twice, told⟩]
      exact .error error
  | ok renamed =>
      have single : ¬ BothSpellings right := by
        intro twice
        rw [renameSynonym_eq_error_iff.mpr ⟨both.mp twice, rfl⟩] at step
        cases step
      obtain ⟨again, stepAgain⟩ := exists_renameSynonym single
      rw [stepAgain]
      refine .ok { others := ?_, part := ?_ }
      · intro name known other
        rw [find?_of_renameSynonym stepAgain, find?_of_renameSynonym step, spelled?, sameKey,
          sameSynonym, alike.others name known other, spelled?]
      · rw [find?_of_renameSynonym stepAgain, find?_of_renameSynonym step,
          spelled?_of_ne notKey notSynonym, spelled?_of_ne notKey notSynonym]
        exact alike.part

/-- Something that is neither null nor a mapping is refused under `metadata`, and nothing else is.
-/
theorem liftMetadata_eq_error_iff {fields : Fields} {error : Error}
    : liftMetadata fields = .error error
      ↔ ∃ value,
          fields.find? "metadata" = some value ∧ value ≠ .null
          ∧ (∀ nested, value ≠ .mapping nested)
          ∧ error = .invalid "metadata" (.kind .mapping value.kind) := by
  unfold liftMetadata
  split
  · next missing => simp [missing]
  · next null => simp [null]
  · next nested mapping => simp [mapping]
  · next value notNull notMapping found =>
    have given : value ≠ .null := fun null => notNull null
    have other (nested : Fields) : value ≠ .mapping nested := fun same => notMapping nested same
    simp [found, given, other, eq_comm]

/-- What is nested is moved up alike. -/
theorem endAlike_liftMetadata {left right : Fields} (alike : JobDeclaration.AlikeFields left right)
    : EndAlike (Fields.AlikeOn JobDeclaration.keys) (liftMetadata left) (liftMetadata right) := by
  obtain ⟨others, part⟩ := alike
  generalize foundLeft : left.find? "metadata" = entry at part
  generalize foundRight : right.find? "metadata" = otherEntry at part
  have nested : ∀ key ∈ JobDeclaration.keys, nested? key right = nested? key left := by
    intro key known
    rw [nested?, foundRight, nested?, foundLeft]
    cases part with
    | none => rfl
    | some related =>
        cases related with
        | same => rfl
        | mapping entries => exact entries key known
  -- A value that is refused is no mapping, so it is the same in both.
  have refused (error : Error)
      : liftMetadata right = .error error ↔ liftMetadata left = .error error := by
    rw [liftMetadata_eq_error_iff, liftMetadata_eq_error_iff, foundRight, foundLeft]
    cases part with
    | none => rfl
    | some related =>
        cases related with
        | same => rfl
        | mapping entries => simp
  cases step : liftMetadata left with
  | error error =>
      rw [(refused error).mpr step]
      exact .error error
  | ok lifted =>
      cases stepAgain : liftMetadata right with
      | error error =>
          rw [(refused error).mp stepAgain] at step
          cases step
      | ok again =>
          refine .ok fun key known => ?_
          rw [find?_of_liftMetadata stepAgain, find?_of_liftMetadata step, nested key known]
          by_cases same : key = "metadata"
          · rw [if_pos same, if_pos same]
          · rw [if_neg same, if_neg same, others key (List.mem_cons_of_mem _ known) same]

/-- The jobs are read alike. -/
theorem endAlike_rawJobs {related : Value → Value → Prop} {left right : Fields}
    (refl : ∀ value, related value value)
    (alike
      : Option.Rel (Value.AlikeItems related) (left.find? "jobs") (right.find? "jobs"))
    : EndAlike (Option.Rel (List.Forall₂ related)) (rawJobs left) (rawJobs right) := by
  have same (result : Except Error (Option (List Value)))
      : EndAlike (Option.Rel (List.Forall₂ related)) result result := by
    cases result with
    | error error => exact .error error
    | ok jobs =>
        refine .ok ?_
        cases jobs with
        | none => exact .none
        | some raws => exact .some (List.forall₂_same.mpr fun raw _ => refl raw)
  generalize foundLeft : left.find? "jobs" = entry at alike
  generalize foundRight : right.find? "jobs" = otherEntry at alike
  cases alike with
  | none =>
      rw [rawJobs, foundLeft, rawJobs, foundRight]
      exact same _
  | some items =>
      cases items with
      | same value =>
          rw [rawJobs, foundLeft, rawJobs, foundRight]
          exact same _
      | list items =>
          rw [rawJobs, foundLeft, rawJobs, foundRight]
          exact .ok (.some items)

end Declaration

-----------------------------------------------------------------------------------------
-- Declarations
-----------------------------------------------------------------------------------------

open Declaration

namespace JobDeclaration

theorem setting_mem_keys (s : Setting)
    : s.key ∈ keys :=
  List.mem_append_left _ (List.mem_append_right _ (Setting.parts.key_mem_keys s))

theorem attribute_mem_keys (a : Attribute)
    : a.key ∈ keys :=
  List.mem_append_right _ (Attribute.parts.key_mem_keys a)

/-- How reading a job ends, its reports aside. -/
theorem outcome_ofFields (fields : Fields)
    : (ofFields fields).outcome
      = renameSynonym fields >>= fun renamed =>
          liftMetadata renamed >>= fun flat =>
          required flat "job" JobType.ofLabel >>= fun type =>
          required (flat.erase "job") "trigger" Trigger.ofLabel >>= fun trigger =>
          record Metadata.reader (settings flat) >>= fun metadata =>
          record Overrides.reader (attributes flat) >>= fun overrides =>
          .ok ⟨type, trigger, metadata, overrides⟩ := by
  simp only [ofFields, Traced.outcome_bind, Traced.outcome_liftM, outcome_reportUnknown,
    Traced.outcome_pure]
  rfl

/-- The mappings of jobs that are alike declare the same job, or fail with the same error. -/
theorem outcome_ofFields_congr {left right : Fields} (leftAscending : left.Ascending)
    (rightAscending : right.Ascending) (alike : AlikeFields left right)
    : (ofFields right).outcome = (ofFields left).outcome := by
  rw [outcome_ofFields, outcome_ofFields]
  refine (EndAlike.eq ?_).symm
  refine (endAlike_renameSynonym alike (by decide) (by decide) (by decide) (by decide)).bind ?_
  intro renamed again rename renameAgain alike
  refine (endAlike_liftMetadata alike).bind ?_
  intro flat flatAgain lift liftAgain alike
  have flatAscending := ascending_of_liftMetadata
    (ascending_of_renameSynonym leftAscending rename) lift
  have againAscending := ascending_of_liftMetadata
    (ascending_of_renameSynonym rightAscending renameAgain) liftAgain
  have type := required_congr (alike "job" (by decide)) JobType.ofLabel
  have trigger : required (flatAgain.erase "job") "trigger" Trigger.ofLabel
      = required (flat.erase "job") "trigger" Trigger.ofLabel := by
    refine required_congr ?_ _
    rw [Fields.find?_erase, Fields.find?_erase, alike "trigger" (by decide)]
  have metadata
      : record Metadata.reader (settings flatAgain) = record Metadata.reader (settings flat) := by
    refine record_congr_parts Setting.parts (((flatAscending.erase _).erase _).filter _)
      (((againAscending.erase _).erase _).filter _) fun s => ?_
    exact (find?_settings s flatAgain).trans
      ((alike s.key (setting_mem_keys s)).trans (find?_settings s flat).symm)
  have overrides
      : record Overrides.reader (attributes flatAgain)
        = record Overrides.reader (attributes flat) := by
    refine record_congr_parts Attribute.parts (((flatAscending.erase _).erase _).filter _)
      (((againAscending.erase _).erase _).filter _) fun a => ?_
    exact (find?_attributes a flatAgain).trans
      ((alike a.key (attribute_mem_keys a)).trans (find?_attributes a flat).symm)
  rw [type, trigger, metadata, overrides]
  exact .refl _

/-- Two values that declare the same job, or fail with the same error. -/
def ReadAlike (raw other : Value) : Prop :=
  (ofValue other).outcome = (ofValue raw).outcome

theorem ReadAlike.refl (raw : Value)
    : ReadAlike raw raw :=
  rfl

/-- Values of jobs that are alike declare the same job, or fail with the same error. -/
theorem AlikeValue.readAlike {left right : Value} (alike : AlikeValue left right)
    (leftOrdered : left.Ordered) (rightOrdered : right.Ordered)
    : ReadAlike left right := by
  cases alike with
  | same => rfl
  | mapping entries =>
      exact outcome_ofFields_congr leftOrdered.ascending rightOrdered.ascending entries

/-- Values that are alike one by one are read alike one by one, by induction over them. -/
theorem forall₂_readAlike {raws others : List Value} (alike : List.Forall₂ AlikeValue raws others)
    (ordered : ∀ raw ∈ raws, raw.Ordered) (othersOrdered : ∀ other ∈ others, other.Ordered)
    : List.Forall₂ ReadAlike raws others := by
  induction alike with
  | nil => exact .nil
  | cons head _ ih =>
      obtain ⟨first, below⟩ := List.forall_mem_cons.mp ordered
      obtain ⟨otherFirst, otherBelow⟩ := List.forall_mem_cons.mp othersOrdered
      exact .cons (head.readAlike first otherFirst) (ih below otherBelow)

end JobDeclaration

namespace PackageDeclaration

theorem attribute_mem_recognized (a : Attribute)
    : a.key ∈ recognized :=
  List.mem_cons_of_mem _ (List.mem_append_right _ (Attribute.parts.key_mem_keys a))

/-- Mappings of packages that differ under no key that is read, but for jobs that are read alike. -/
def AlikeJobs : Fields → Fields → Prop :=
  Fields.AlikeBut recognized "jobs" (Value.AlikeItems JobDeclaration.ReadAlike)

/-- Packages whose jobs differ under keys that nobody reads have jobs that are read alike. -/
theorem AlikeFields.alikeJobs {left right : Fields} (alike : AlikeFields left right)
    (leftOrdered : (Value.mapping left).Ordered) (rightOrdered : (Value.mapping right).Ordered)
    : AlikeJobs left right := by
  obtain ⟨others, part⟩ := alike
  refine ⟨others, ?_⟩
  generalize foundLeft : left.find? "jobs" = entry at part
  generalize foundRight : right.find? "jobs" = otherEntry at part
  cases part with
  | none => exact .none
  | some items =>
      refine .some ?_
      cases items with
      | same => exact .same _
      | list items =>
          have ordered := Value.ordered_list_iff.mp (leftOrdered.of_find? foundLeft)
          have othersOrdered := Value.ordered_list_iff.mp (rightOrdered.of_find? foundRight)
          exact .list (JobDeclaration.forall₂_readAlike items ordered othersOrdered)

/-- Declarations of packages that only differ in jobs that are read alike. -/
structure Alike (left right : PackageDeclaration) : Prop where
  configPath : right.configPath = left.configPath
  overrides : right.overrides = left.overrides
  jobs : Option.Rel (List.Forall₂ JobDeclaration.ReadAlike) left.jobs right.jobs

/-- How reading a package ends, its reports aside. -/
theorem outcome_ofFields (fields : Fields)
    : (ofFields fields).outcome
      = renameSynonym fields >>= fun renamed =>
          rawJobs renamed >>= fun jobs =>
          documentPath (renamed.erase "jobs") >>= fun path =>
          record Overrides.reader (options renamed) >>= fun overrides =>
          .ok ⟨path, overrides, jobs⟩ := by
  simp only [ofFields, Traced.outcome_bind, Traced.outcome_liftM, outcome_reportUnknown,
    Traced.outcome_pure]
  rfl

/-- Mappings of packages that are alike declare packages that are alike, or fail with the same
error.
-/
theorem endAlike_ofFields {left right : Fields} (leftAscending : left.Ascending)
    (rightAscending : right.Ascending) (alike : AlikeJobs left right)
    : EndAlike Alike (ofFields left).outcome (ofFields right).outcome := by
  rw [outcome_ofFields, outcome_ofFields]
  refine (endAlike_renameSynonym alike (by decide) (by decide) (by decide) (by decide)).bind ?_
  intro renamed again rename renameAgain alike
  have renamedAscending := ascending_of_renameSynonym leftAscending rename
  have againAscending := ascending_of_renameSynonym rightAscending renameAgain
  refine (endAlike_rawJobs JobDeclaration.ReadAlike.refl alike.part).bind ?_
  intro jobs jobsAgain _ _ sameJobs
  have path : documentPath (again.erase "jobs") = documentPath (renamed.erase "jobs") := by
    refine documentPath_congr ?_
    rw [Fields.find?_erase, Fields.find?_erase, alike.others _ (by decide) (by decide)]
  have overrides
      : record Overrides.reader (options again) = record Overrides.reader (options renamed) := by
    refine record_congr_parts Attribute.parts ((renamedAscending.erase _).erase _)
      ((againAscending.erase _).erase _) fun a => ?_
    have notJobs : a.key ≠ "jobs" := by cases a <;> decide
    exact (find?_options a again).trans
      ((alike.others a.key (attribute_mem_recognized a) notJobs).trans
        (find?_options a renamed).symm)
  rw [path, overrides]
  refine (EndAlike.refl _).bind fun path _ _ _ samePath => ?_
  refine (EndAlike.refl _).bind fun overrides _ _ _ sameOverrides => ?_
  exact .ok { configPath := samePath.symm, overrides := sameOverrides.symm, jobs := sameJobs }

end PackageDeclaration

end Packaging
