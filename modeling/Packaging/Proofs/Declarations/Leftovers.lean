import Mathlib.Tactic.SplitIfs
import Packaging.Proofs.Declarations.Stages

/-! What reading a declaration reports. The keys that nobody reads are told at once and in order,
and without any of them nothing is told.
-/

namespace Packaging

open Declaration

/-- The reports of keys that are left over: a single one, which tells all of them in ascending
order, or none if there are no such keys.
-/
def Warns (scope : Scope) (left : String → Prop) (events : List Event) : Prop :=
  ∃ keys : List String,
    keys.Pairwise (· < ·) ∧ (∀ key, key ∈ keys ↔ left key)
    ∧ events = if keys = [] then [] else [.unprocessed scope keys]

theorem Warns.congr {scope : Scope} {left other : String → Prop} {events : List Event}
    (warns : Warns scope left events) (same : ∀ key, left key ↔ other key)
    : Warns scope other events := by
  obtain ⟨keys, ascending, told, rfl⟩ := warns
  exact ⟨keys, ascending, fun key => (told key).trans (same key), rfl⟩

/-- Of a mapping the keys that are no attributes are reported. -/
theorem warns_reportUnknown {fields : Fields} (ascending : fields.Ascending) (scope : Scope)
    : Warns scope (fun key => key ∈ fields.keys ∧ key ∉ Overrides.keys)
        (reportUnknown scope fields).trace := by
  refine ⟨unknownKeys fields, ?_, ?_, ?_⟩
  · exact (List.pairwise_map.mpr ascending).filter _
  · simp [unknownKeys]
  · unfold reportUnknown
    cases unknownKeys fields <;> rfl

-----------------------------------------------------------------------------------------
-- Packages
-----------------------------------------------------------------------------------------

namespace PackageDeclaration

/-- A key in the mapping of a package that nobody reads. -/
def LeavesOver (fields : Fields) (key : String) : Prop :=
  key ∈ fields.keys ∧ key ≠ syncedFilesSynonym ∧ key ∉ keys

/-- The keys that are left for the attributes but are none are those that nobody reads. -/
theorem mem_keys_options_iff {fields renamed : Fields} (rename : renameSynonym fields = .ok renamed)
    {key : String}
    : key ∈ (options renamed).keys ∧ key ∉ Overrides.keys ↔ LeavesOver fields key := by
  by_cases known : key ∈ Overrides.keys
  · simp [LeavesOver, keys, known]
  · have notKey : key ≠ syncedFilesKey := by
      rintro rfl
      exact known (by decide)
    simp only [LeavesOver, keys, Fields.mem_keys_iff, options, Fields.find?_erase,
      find?_of_renameSynonym rename, spelled?, if_neg notKey]
    split_ifs <;> simp_all

/-- A package that is read reports the keys that nobody reads. -/
theorem warns_ofFields {fields : Fields} (ascending : fields.Ascending)
    {declared : PackageDeclaration} (read : (ofFields fields).outcome = .ok declared)
    : Warns .package (LeavesOver fields) (ofFields fields).trace := by
  obtain ⟨renamed, rename, jobs, path, overrides⟩ := outcome_eq_ok_iff.mp read
  have left : (options renamed).Ascending :=
    ((ascending_of_renameSynonym ascending rename).erase _).erase _
  rw [ofFields_of_stages rename jobs path overrides]
  exact (warns_reportUnknown left _).congr fun key => mem_keys_options_iff rename

end PackageDeclaration

-----------------------------------------------------------------------------------------
-- Jobs
-----------------------------------------------------------------------------------------

namespace JobDeclaration

/-- A key in the mapping of a job, or nested there under `metadata`, that nobody reads. Nested keys
have a single spelling, and nothing nested is moved up from them.
-/
def LeavesOver (fields : Fields) (key : String) : Prop :=
  (key ∈ fields.keys ∧ key ≠ "metadata" ∧ key ≠ syncedFilesSynonym
    ∨ ∃ nested : Fields, fields.find? "metadata" = some (.mapping nested) ∧ key ∈ nested.keys)
  ∧ key ∉ ["job", "trigger"] ++ Metadata.keys ++ Overrides.keys

theorem isSome_nested?_iff {fields : Fields} {key : String}
    : (nested? key fields).isSome
      ↔ ∃ nested : Fields, fields.find? "metadata" = some (.mapping nested) ∧ key ∈ nested.keys := by
  unfold nested?
  split
  · next nested found => simp [found, Fields.mem_keys_iff]
  · next other =>
    simp only [Option.isSome_none, Bool.false_eq_true, false_iff, not_exists, not_and]
    exact fun nested found => absurd found (other nested)

/-- The keys that are left for the attributes but are none are those that nobody reads. -/
theorem mem_keys_attributes_iff {fields flat : Fields} (step : flatten fields = .ok flat)
    {key : String}
    : key ∈ (attributes flat).keys ∧ key ∉ Overrides.keys ↔ LeavesOver fields key := by
  have kept := Fields.find?_filter (fun key => decide (key ∉ Metadata.keys)) key (options flat)
  by_cases known : key ∈ Overrides.keys
  · simp [LeavesOver, known]
  · have notKey : key ≠ syncedFilesKey := by
      rintro rfl
      exact known (by decide)
    rw [Fields.mem_keys_iff, attributes, kept, LeavesOver, ← isSome_nested?_iff,
      Fields.mem_keys_iff]
    simp only [options, Fields.find?_erase, find?_flat step, spelled?, if_neg notKey]
    split_ifs <;> simp_all

/-- A job that is read reports the keys that nobody reads. -/
theorem warns_ofFields {fields : Fields} (ascending : fields.Ascending)
    {declared : JobDeclaration} (read : (ofFields fields).outcome = .ok declared)
    : Warns .job (LeavesOver fields) (ofFields fields).trace := by
  obtain ⟨flat, step, type, trigger, metadata, overrides⟩ := outcome_eq_ok_iff.mp read
  have left : (attributes flat).Ascending :=
    (((ascending_of_flatten ascending step).erase _).erase _).filter _
  rw [ofFields_of_stages step type trigger metadata overrides]
  exact (warns_reportUnknown left _).congr fun key => mem_keys_attributes_iff step

end JobDeclaration

end Packaging
