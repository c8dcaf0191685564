import Packaging.Proofs.Resolution.Inheritance

/-! How the resolution of a document fails. The document lacks a spec file, or a value in it is
invalid and is located by its key; among jobs the first invalid one is told. Documents are taken as
they are read, with the entries of every mapping in ascending order.
-/

namespace Packaging

open Declaration Value

-----------------------------------------------------------------------------------------
-- What has to be valid
-----------------------------------------------------------------------------------------

/-- The package part of a document is valid: the files to copy have one spelling, the jobs are a
list, the path is a text unless the hint takes its place, and each attribute that is given decodes.
What the list of jobs holds does not matter.
-/
structure Hints.ValidPackage (hints : Hints) (fields : Fields) : Prop where
  single : ¬ BothSpellings fields
  jobs : ∀ value, present? (fields.find? "jobs") = some value → ∃ raws, value = .list raws
  path
    : hints.configPath = none
        → ∀ value, present? (fields.find? "config_file_path") = some value
          → ∃ text, value = .text text
  attributes
    : ∀ (a : Attribute) (value : Value), present? (spelled? a.key fields) = some value
        → ∃ data, a.kind.decode value = .ok data

/-- Neither the document nor the hint gives a path of the spec file with content. -/
def Hints.LacksSpec (hints : Hints) (fields : Fields) : Prop :=
  (fields.find? "specfile_path" = none ∨ fields.find? "specfile_path" = some .null
    ∨ fields.find? "specfile_path" = some (.text ""))
  ∧ (hints.specPath = none ∨ hints.specPath = some "")

/-- An entry of the list of jobs resolves by itself, whatever it inherits. -/
def Job.Resolves (raw : Value) : Prop :=
  ∀ inherited, ∃ job, (Job.resolve inherited raw).outcome = .ok job

namespace Job

/-- What a job inherits does not decide whether it resolves. -/
theorem resolves_iff {raw : Value} (inherited : Attributes)
    : Resolves raw ↔ ∃ job, (resolve inherited raw).outcome = .ok job := by
  constructor
  · exact fun resolves => resolves inherited
  · intro succeeds other
    obtain ⟨job, resolved⟩ := succeeds
    -- Only the declaration can fail, and it is read before anything is inherited.
    obtain ⟨declared, read, _⟩ := outcome_resolve_eq_ok_iff.mp resolved
    exact ⟨⟨declared.type, declared.trigger, declared.metadata, other.overlay declared.overrides⟩,
      outcome_resolve_eq_ok_iff.mpr ⟨declared, read, rfl, rfl, rfl, rfl⟩⟩

/-- A job fails just when its entry does not resolve. -/
theorem not_resolves_iff {raw : Value} (inherited : Attributes)
    : ¬ Resolves raw ↔ ∃ error, (resolve inherited raw).outcome = .error error := by
  rw [resolves_iff inherited]
  cases (resolve inherited raw).outcome <;> simp

/-- Jobs resolve together just when each of them does. By induction over the list. -/
theorem exists_resolveAll_iff {inherited : Attributes} {raws : List Value}
    : (∃ jobs, (resolveAll inherited 0 raws).outcome = .ok jobs) ↔ ∀ raw ∈ raws, Resolves raw := by
  simp only [outcome_resolveAll_eq_ok_iff, resolves_iff inherited]
  induction raws with
  | nil => simp
  | cons raw rest ih =>
      simp only [List.forall₂_cons_left_iff, List.forall_mem_cons, ← ih]
      constructor
      · intro together
        obtain ⟨_, job, others, resolved, all, rfl⟩ := together
        exact ⟨⟨job, resolved⟩, others, all⟩
      · intro each
        obtain ⟨⟨job, resolved⟩, others, all⟩ := each
        exact ⟨_, job, others, resolved, all, rfl⟩

/-- Jobs that do not resolve together fail with the first of them that does not resolve. The error
names its index, and a key under which its own error is.
-/
theorem field_of_resolveAll_eq_error {inherited : Attributes} {raws : List Value} {error : Error}
    (failed : (resolveAll inherited 0 raws).outcome = .error error)
    : ∃ before raw after key fault,
        raws = before ++ raw :: after
        ∧ (∀ earlier ∈ before, Resolves earlier)
        ∧ (∀ other, (resolve other raw).outcome = .error (.invalid key fault))
        ∧ key ∈ JobDeclaration.keys
        ∧ error = .invalid ("jobs[" ++ toString before.length ++ "]." ++ key) fault := by
  obtain ⟨before, raw, after, cause, split, passed, failedJob, rfl⟩ :=
    outcome_resolveAll_eq_error_iff.mp failed
  have unread := outcome_resolve_eq_error_iff.mp failedJob
  obtain ⟨key, fault, known, rfl⟩ := JobDeclaration.field_of_outcome_eq_error unread
  refine ⟨before, raw, after, key, fault, split, ?_, ?_, known, ?_⟩
  · intro earlier member
    exact (resolves_iff inherited).mpr (passed earlier member)
  · intro other
    exact outcome_resolve_eq_error_iff.mpr unread
  · simp [Error.within, String.append_assoc]

end Job

namespace Hints

/-- The package part of a document is read just when it is valid. -/
theorem exists_declaration_iff (hints : Hints) {fields : Fields} (ascending : fields.Ascending)
    : (∃ declared, (PackageDeclaration.ofFields (hints.inject fields)).outcome = .ok declared)
      ↔ hints.ValidPackage fields := by
  have kept (key : String) (other : key ≠ "config_file_path")
      : (hints.inject fields).find? key = fields.find? key :=
    hints.find?_inject_of_ne other fields
  have single : BothSpellings (hints.inject fields) ↔ BothSpellings fields := by
    rw [BothSpellings, kept _ (by decide), kept _ (by decide), BothSpellings]
  -- A hint makes the path a text, whatever stood there.
  have path
      : (∀ value, present? ((hints.inject fields).find? "config_file_path") = some value
          → ∃ text, value = .text text)
        ↔ (hints.configPath = none
            → ∀ value, present? (fields.find? "config_file_path") = some value
              → ∃ text, value = .text text) := by
    rw [hints.find?_inject]
    cases hints.configPath with
    | none => simp
    | some hint =>
        simp only [reduceCtorEq, false_implies, iff_true]
        intro value given
        have found := (present?_eq_some_iff.mp given).1
        split at found
        · next impossible => simp at impossible
        · exact ⟨_, (Option.some.inj found).symm⟩
        · exact ⟨_, (Option.some.inj found).symm⟩
  rw [PackageDeclaration.exists_outcome_eq_ok_iff (hints.ascending_inject ascending),
    exists_rawJobs_iff, exists_documentPath_iff, single, path, kept "jobs" (by decide)]
  simp only [hints.spelled?_inject]
  constructor
  · intro readable
    obtain ⟨one, jobs, text, decodes⟩ := readable
    exact ⟨one, jobs, text, decodes⟩
  · intro valid
    obtain ⟨one, jobs, text, decodes⟩ := valid
    exact ⟨one, jobs, text, decodes⟩

/-- The spec file is not found just when neither the document nor the hint gives its path. -/
theorem fillSpec_eq_error_iff_lacksSpec {hints : Hints} {fields : Fields}
    {declared : PackageDeclaration} (declares : declared.Declares (hints.inject fields))
    : hints.fillSpec (.ofOverrides declared.overrides) = .error .missingSpecFile
      ↔ hints.LacksSpec fields := by
  have entry : spelled? "specfile_path" (hints.inject fields) = fields.find? "specfile_path" := by
    rw [spelled?_of_ne (by decide) (by decide), hints.find?_inject_of_ne (by decide)]
  have own : (Attributes.ofOverrides declared.overrides).specfilePath
      = declared.overrides.specfilePath := by
    simp [Attributes.ofOverrides, Attributes.overlay]
  have given : declared.overrides.specfilePath = none ∨ declared.overrides.specfilePath = some ""
      ↔ fields.find? "specfile_path" = none ∨ fields.find? "specfile_path" = some .null
        ∨ fields.find? "specfile_path" = some (.text "") := by
    have told := declares.attributes .specfilePath
    cases found : fields.find? "specfile_path" with
    | none =>
        have missing : declared.overrides.specfilePath = none :=
          (Attribute.parts.told_of_missing (entry.trans found)).mp told
        simp [missing]
    | some value =>
        have decoded : Decoder.optional Decoder.text value
            = .ok declared.overrides.specfilePath :=
          (Attribute.parts.told_of_found (entry.trans found)).mp told
        cases value with
        | null =>
            have missing : declared.overrides.specfilePath = none :=
              (Except.ok.inj decoded).symm
            simp [missing]
        | text path =>
            have same : declared.overrides.specfilePath = some path :=
              (Except.ok.inj decoded).symm
            simp [same]
        | _ => simp [Decoder.optional, Decoder.text, Decoder.refuse, Except.map] at decoded
  rw [fillSpec_eq_error_iff, own, filled_eq_none_iff, filled_eq_none_iff, given, LacksSpec]
  simp

-----------------------------------------------------------------------------------------
-- How a resolution ends
-----------------------------------------------------------------------------------------

/-- How the resolution of a document ends. The cases exclude each other: the package part comes
before the spec file, and the spec file before the jobs.
-/
inductive Ending (hints : Hints) : Value → Except Error Package → Prop
  | noMapping {document : Value} (other : ∀ fields, document ≠ .mapping fields)
    : Ending hints document (.error (.unparsable (.invalid "document" .topLevel)))
  | invalidPackage {fields : Fields} {key : String} {fault : Fault}
      (invalid : ¬ hints.ValidPackage fields) (known : key ∈ PackageDeclaration.keys)
    : Ending hints (.mapping fields) (.error (.unparsable (.invalid key fault)))
  | missingSpec {fields : Fields} (valid : hints.ValidPackage fields)
      (lacks : hints.LacksSpec fields)
    : Ending hints (.mapping fields) (.error .missingSpecFile)
  | invalidJob {fields : Fields} {before after : List Value} {raw : Value} {key : String}
      {fault : Fault} (valid : hints.ValidPackage fields) (knows : ¬ hints.LacksSpec fields)
      (listed : listedJobs fields = before ++ raw :: after)
      (passed : ∀ earlier ∈ before, Job.Resolves earlier)
      (failed : ∀ inherited, (Job.resolve inherited raw).outcome = .error (.invalid key fault))
      (known : key ∈ JobDeclaration.keys)
    : Ending hints (.mapping fields)
        (.error (.unparsable
          (.invalid ("jobs[" ++ toString before.length ++ "]." ++ key) fault)))
  | resolved {fields : Fields} {package : Package} (valid : hints.ValidPackage fields)
      (knows : ¬ hints.LacksSpec fields) (all : ∀ raw ∈ listedJobs fields, Job.Resolves raw)
      (count : package.jobs.length = (listedJobs fields).length)
    : Ending hints (.mapping fields) (.ok package)

/-- A mapping that is not built fails with what the failure becomes when it is refused. -/
theorem outcome_resolve_of_build_error {hints : Hints} {fields : Fields} {cause : Error}
    (failed : (hints.build (hints.inject fields)).outcome = .error cause)
    : (hints.resolve (.mapping fields)).outcome
      = (refuse (.mapping (hints.inject fields)) cause).outcome := by
  rw [resolve_mapping, Traced.outcome_tryCatch_of_error _ failed]

/-- Every resolution ends in one of these ways. Each stage of the resolution either fails as the
case for it says or hands over to the next.
-/
theorem ending_resolve (hints : Hints) {document : Value} (ordered : document.Ordered)
    : hints.Ending document (hints.resolve document).outcome := by
  by_cases mapping : ∃ fields, document = .mapping fields
  · obtain ⟨fields, rfl⟩ := mapping
    have readable := hints.exists_declaration_iff ordered.ascending
    cases read : (PackageDeclaration.ofFields (hints.inject fields)).outcome with
    | error error =>
        obtain ⟨key, fault, known, rfl⟩ := PackageDeclaration.field_of_outcome_eq_error read
        have invalid : ¬ hints.ValidPackage fields := by
          rw [← readable]
          simp [read]
        rw [outcome_resolve_of_build_error (outcome_build_eq_error_iff.mpr (Or.inl read))]
        exact .invalidPackage invalid known
    | ok declared =>
        have valid := readable.mp ⟨declared, read⟩
        have declares := (PackageDeclaration.outcome_eq_ok_iff_declares
          (hints.ascending_inject ordered.ascending)).mp read
        have lacks := fillSpec_eq_error_iff_lacksSpec declares
        have listed := (listedJobs_of_inject ordered.ascending read).symm
        cases spec : hints.fillSpec (.ofOverrides declared.overrides) with
        | error error =>
            obtain rfl := (fillSpec_eq_error_iff.mp spec).2.2
            rw [outcome_resolve_of_build_error
              (outcome_build_eq_error_iff.mpr (Or.inr ⟨declared, read, Or.inl spec⟩))]
            exact .missingSpec valid (lacks.mp spec)
        | ok x =>
            have knows : ¬ hints.LacksSpec fields := by
              rw [← lacks]
              simp [spec]
            cases jobs : (Job.resolveAll (hints.fillNames x) 0
                (declared.jobs.getD defaultJobs)).outcome with
            | error error =>
                rw [outcome_resolve_of_build_error (outcome_build_eq_error_iff.mpr
                  (Or.inr ⟨declared, read, Or.inr ⟨x, spec, jobs⟩⟩))]
                obtain ⟨before, raw, after, key, fault, split, passed, failed, known, rfl⟩ :=
                  Job.field_of_resolveAll_eq_error jobs
                exact .invalidJob valid knows (listed ▸ split) passed failed known
            | ok resolved =>
                have built : (hints.build (hints.inject fields)).outcome
                    = .ok ⟨declared.configPath, hints.fillNames x, resolved⟩ :=
                  outcome_build_eq_ok_iff.mpr ⟨declared, x, read, spec, jobs, rfl, rfl⟩
                rw [outcome_resolve_mapping_eq_ok_iff.mpr built]
                refine .resolved valid knows ?_ ?_
                · exact listed ▸ Job.exists_resolveAll_iff.mp ⟨resolved, jobs⟩
                · rw [← listed]
                  exact (Job.outcome_resolveAll_eq_ok_iff.mp jobs).length_eq.symm
  · have other : ∀ fields, document ≠ .mapping fields := fun fields same =>
      mapping ⟨fields, same⟩
    cases document with
    | mapping fields => exact absurd rfl (other fields)
    | _ => exact .noMapping other

/-- What errors a resolution has. It succeeds, or lacks a spec file, or fails with an invalid
value, and never while entries that decode one by one are decoded together. The spec file is
missing just when the package part is valid and gives none. With a valid package part and a spec
file it fails just when some job does not resolve by itself, under a key of the first such job, and
otherwise gives one job for each entry. Without a valid package part the value is located by a key
of the package.
-/
theorem failures_of_resolve (hints : Hints) {document : Value} (ordered : document.Ordered)
    : (∀ (α : Type) (reader : RecordReader α) (fields : Fields),
        checkEach reader fields = .ok () → ∃ final, reader.decode (.mapping fields) = .ok final)
      ∧ ((∃ package, (hints.resolve document).outcome = .ok package)
        ∨ (hints.resolve document).outcome = .error .missingSpecFile
        ∨ ∃ key fault, (hints.resolve document).outcome = .error (.unparsable (.invalid key fault)))
      ∧ ((hints.resolve document).outcome = .error .missingSpecFile
        ↔ ∃ fields,
            document = .mapping fields ∧ hints.ValidPackage fields ∧ hints.LacksSpec fields)
      ∧ (∀ fields, document = .mapping fields → hints.ValidPackage fields
        → ¬ hints.LacksSpec fields
        → ((∃ error, (hints.resolve document).outcome = .error error)
            ↔ ∃ raw ∈ listedJobs fields, ¬ Job.Resolves raw)
          ∧ (∀ error, (hints.resolve document).outcome = .error error
            → ∃ before raw after key fault,
                listedJobs fields = before ++ raw :: after
                ∧ (∀ earlier ∈ before, Job.Resolves earlier) ∧ ¬ Job.Resolves raw
                ∧ key ∈ JobDeclaration.keys
                ∧ (∀ inherited,
                  (Job.resolve inherited raw).outcome = .error (.invalid key fault))
                ∧ error = .unparsable
                    (.invalid ("jobs[" ++ toString before.length ++ "]." ++ key) fault))
          ∧ ∀ package, (hints.resolve document).outcome = .ok package
            → package.jobs.length = (listedJobs fields).length)
      ∧ ((¬ ∃ fields, document = .mapping fields ∧ hints.ValidPackage fields)
        → ∃ key fault,
            (hints.resolve document).outcome = .error (.unparsable (.invalid key fault))
            ∧ key ∈ "document" :: PackageDeclaration.keys) := by
  have ending := hints.ending_resolve ordered
  -- The ways to end exclude each other, so every part is decided by the case at hand.
  generalize (hints.resolve document).outcome = outcome at ending
  refine ⟨fun _ _ _ => exists_decode_of_checkEach, ?_, ?_, ?_, ?_⟩
  · cases ending with
    | resolved => exact Or.inl ⟨_, rfl⟩
    | missingSpec => exact Or.inr (Or.inl rfl)
    | _ => exact Or.inr (Or.inr ⟨_, _, rfl⟩)
  · cases ending with
    | noMapping other => simp [other]
    | invalidPackage invalid => simp [invalid]
    | missingSpec valid lacks => simp [valid, lacks]
    | invalidJob valid knows => simp [knows]
    | resolved valid knows => simp [knows]
  · intro fields same valid knows
    cases ending with
    | noMapping other => exact absurd same (other fields)
    | invalidPackage invalid =>
        obtain rfl := mapping.inj same
        exact absurd valid invalid
    | missingSpec _ lacks =>
        obtain rfl := mapping.inj same
        exact absurd lacks knows
    | @invalidJob entries before after raw key fault _ _ listed passed failed known =>
        obtain rfl := mapping.inj same
        have member : raw ∈ listedJobs entries := by simp [listed]
        have refused : ¬ Job.Resolves raw := (Job.not_resolves_iff {}).mpr ⟨_, failed {}⟩
        refine ⟨by simpa using ⟨raw, member, refused⟩, ?_, by simp⟩
        intro error told
        exact ⟨before, raw, after, key, fault, listed, passed, refused, known, failed,
          (Except.error.inj told).symm⟩
    | resolved _ _ all count =>
        obtain rfl := mapping.inj same
        refine ⟨by simpa using all, by simp, ?_⟩
        intro package told
        exact Except.ok.inj told ▸ count
  · intro invalid
    cases ending with
    | noMapping => exact ⟨_, _, rfl, by simp⟩
    | invalidPackage _ known => exact ⟨_, _, rfl, List.mem_cons_of_mem _ known⟩
    | missingSpec valid => exact absurd ⟨_, rfl, valid⟩ invalid
    | invalidJob valid => exact absurd ⟨_, rfl, valid⟩ invalid
    | resolved valid => exact absurd ⟨_, rfl, valid⟩ invalid

/-- A package whose second job has a text in the place of a flag. -/
theorem failures_of_resolve_second_job
    : let first : Value := .mapping [("job", .text "tests"), ("trigger", .text "commit")]
      let second : Value := .mapping
        [("create_pr", .text "sure"), ("job", .text "tests"), ("trigger", .text "commit")]
      let fields : Fields :=
        [("jobs", .list [first, second]), ("specfile_path", .text "foo.spec")]
      let hints : Hints := {}
      (mapping fields).Ordered ∧ hints.ValidPackage fields ∧ ¬ hints.LacksSpec fields
      ∧ (hints.resolve (.mapping fields)).outcome
        = .error (.unparsable
            (.invalid "jobs[1].create_pr" (.mismatch (.wrongType (.text "sure") .boolean))))
      ∧ ∃ raw ∈ listedJobs fields, ¬ Job.Resolves raw := by
  intro first second fields hints
  have ordered : (mapping fields).Ordered := by decide
  have valid : hints.ValidPackage fields :=
    (hints.exists_declaration_iff ordered.ascending).mp ⟨_, rfl⟩
  have knows : ¬ hints.LacksSpec fields := by
    unfold LacksSpec
    decide
  have failed : (hints.resolve (.mapping fields)).outcome
      = .error (.unparsable
          (.invalid "jobs[1].create_pr" (.mismatch (.wrongType (.text "sure") .boolean)))) := by
    decide
  have jobs := (failures_of_resolve hints ordered).2.2.2.1 fields rfl valid knows
  exact ⟨ordered, valid, knows, failed, jobs.1.mp ⟨_, failed⟩⟩

end Hints

end Packaging
