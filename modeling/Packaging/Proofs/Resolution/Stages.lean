import Mathlib.Data.List.Forall2
import Packaging.Proofs.Declarations.Stages
import Packaging.Resolution

/-! How a document is resolved, stage by stage. The hints come in before the jobs inherit, and each
job is resolved by itself.
-/

namespace Packaging

open Declaration

-----------------------------------------------------------------------------------------
-- Jobs
-----------------------------------------------------------------------------------------

namespace Job

/-- A job resolves to what it declares laid over what it inherits. -/
theorem outcome_resolve_eq_ok_iff {inherited : Attributes} {raw : Value} {job : Job}
    : (resolve inherited raw).outcome = .ok job
      ↔ ∃ declared,
          (JobDeclaration.ofValue raw).outcome = .ok declared
          ∧ job.type = declared.type ∧ job.trigger = declared.trigger
          ∧ job.metadata = declared.metadata
          ∧ job.attributes = inherited.overlay declared.overrides := by
  obtain ⟨type, trigger, metadata, attributes⟩ := job
  simp only [resolve, Traced.outcome_bind_eq_ok, Traced.outcome_pure, Except.ok.injEq, mk.injEq]
  constructor
  · intro stages
    obtain ⟨declared, read, rfl, rfl, rfl, rfl⟩ := stages
    exact ⟨declared, read, rfl, rfl, rfl, rfl⟩
  · intro stages
    obtain ⟨declared, read, rfl, rfl, rfl, rfl⟩ := stages
    exact ⟨declared, read, rfl, rfl, rfl, rfl⟩

theorem outcome_resolve_eq_error_iff {inherited : Attributes} {raw : Value} {error : Error}
    : (resolve inherited raw).outcome = .error error
      ↔ (JobDeclaration.ofValue raw).outcome = .error error := by
  simp [resolve, Traced.outcome_bind_eq_error, Traced.outcome_pure]

/-- All jobs resolve just when each of them does, in order. By induction over the list, for any
index of its first job.
-/
theorem outcome_resolveAll_eq_ok_iff {inherited : Attributes} {index : Nat}
    {raws : List Value} {jobs : List Job}
    : (resolveAll inherited index raws).outcome = .ok jobs
      ↔ List.Forall₂ (fun raw job => (resolve inherited raw).outcome = .ok job) raws jobs := by
  induction raws generalizing index jobs with
  | nil => simp [resolveAll, Traced.outcome_pure, eq_comm]
  | cons raw rest ih =>
      simp only [resolveAll, Traced.outcome_bind_eq_ok, Traced.outcome_mapError_eq_ok,
        Traced.outcome_pure, Except.ok.injEq, List.forall₂_cons_left_iff, ih]
      constructor
      · intro together
        obtain ⟨job, resolved, others, all, rfl⟩ := together
        exact ⟨job, others, resolved, all, rfl⟩
      · intro each
        obtain ⟨job, others, resolved, all, rfl⟩ := each
        exact ⟨job, resolved, others, all, rfl⟩

/-- Jobs fail just when one of them does and none before it, and the error is located at its
index.
-/
theorem outcome_resolveAll_eq_error_iff {inherited : Attributes} {index : Nat}
    {raws : List Value} {error : Error}
    : (resolveAll inherited index raws).outcome = .error error
      ↔ ∃ before raw after cause,
          raws = before ++ raw :: after
          ∧ (∀ earlier ∈ before, ∃ job, (resolve inherited earlier).outcome = .ok job)
          ∧ (resolve inherited raw).outcome = .error cause
          ∧ error = cause.within ("jobs[" ++ toString (index + before.length) ++ "]") := by
  induction raws generalizing index with
  | nil => simp [resolveAll, Traced.outcome_pure]
  | cons head rest ih =>
      simp only [resolveAll, Traced.outcome_bind_eq_error, Traced.outcome_mapError_eq_ok,
        Traced.outcome_mapError_eq_error, Traced.outcome_pure, reduceCtorEq, and_false,
        exists_false, or_false, ih]
      constructor
      · intro failure
        rcases failure with ⟨cause, failed, rfl⟩ | ⟨job, resolved, before, raw, after, cause, rfl,
          passed, failed, rfl⟩
        · exact ⟨[], head, rest, cause, rfl, by simp, failed, by simp⟩
        · refine ⟨head :: before, raw, after, cause, rfl, ?_, failed, ?_⟩
          · exact List.forall_mem_cons.mpr ⟨⟨job, resolved⟩, passed⟩
          · rw [List.length_cons, Nat.add_assoc, Nat.add_comm 1]
      · intro located
        obtain ⟨before, raw, after, cause, split, passed, failed, rfl⟩ := located
        cases before with
        | nil =>
            obtain ⟨rfl, rfl⟩ := List.cons.inj split
            exact Or.inl ⟨cause, failed, by simp⟩
        | cons first before =>
            obtain ⟨rfl, rfl⟩ := List.cons.inj split
            obtain ⟨⟨job, resolved⟩, passed⟩ := List.forall_mem_cons.mp passed
            refine Or.inr ⟨job, resolved, before, raw, after, cause, rfl, passed, failed, ?_⟩
            rw [List.length_cons, Nat.add_assoc, Nat.add_comm 1]

end Job

-----------------------------------------------------------------------------------------
-- Hints
-----------------------------------------------------------------------------------------

namespace Hints

/-- Only the path of the document is injected. -/
theorem find?_inject_of_ne (hints : Hints) {key : String} (other : key ≠ "config_file_path")
    (fields : Fields)
    : (hints.inject fields).find? key = fields.find? key := by
  unfold inject
  split
  · rfl
  · split
    · split
      · rw [Fields.find?_insert, if_neg other]
      · rfl
    · rw [Fields.find?_insert, if_neg other]

/-- Attributes are injected nowhere. -/
theorem spelled?_inject (hints : Hints) (a : Attribute) (fields : Fields)
    : spelled? a.key (hints.inject fields) = spelled? a.key fields := by
  have other : a.key ≠ "config_file_path" := by cases a <;> decide
  rw [spelled?, spelled?, hints.find?_inject_of_ne other,
    hints.find?_inject_of_ne (by decide : syncedFilesKey ≠ _),
    hints.find?_inject_of_ne (by decide : syncedFilesSynonym ≠ _)]

/-- The path of the document after injection: a given text with content stays, and anything else
makes room for the hint.
-/
theorem find?_inject (hints : Hints) (fields : Fields)
    : (hints.inject fields).find? "config_file_path"
      = match hints.configPath, fields.find? "config_file_path" with
        | none, given => given
        | some path, some (.text given) => some (.text (if given = "" then path else given))
        | some path, _ => some (.text path) := by
  unfold inject
  cases hints.configPath with
  | none => rfl
  | some path =>
      cases found : fields.find? "config_file_path" with
      | none => simp [Fields.find?_insert]
      | some value =>
          cases value with
          | text given => by_cases empty : given = "" <;> simp [empty, Fields.find?_insert, found]
          | _ => simp [Fields.find?_insert]

theorem ascending_inject (hints : Hints) {fields : Fields} (ascending : fields.Ascending)
    : (hints.inject fields).Ascending := by
  unfold inject
  split
  · exact ascending
  · split
    · split
      · exact ascending.insert _ _
      · exact ascending
    · exact ascending.insert _ _

/-- The path of the spec file is known when the package or the hint gives one with content. -/
theorem fillSpec_eq_ok_iff {hints : Hints} {x y : Attributes}
    : hints.fillSpec x = .ok y
      ↔ ∃ path, (filled x.specfilePath).or (filled hints.specPath) = some path
          ∧ y = { x with specfilePath := some path } := by
  unfold fillSpec
  cases own : filled x.specfilePath with
  | some path =>
      have kept : ({ x with specfilePath := some path } : Attributes) = x := by
        rw [← (filled_eq_some_iff.mp own).1]
      simp [kept, eq_comm]
  | none =>
      cases filled hints.specPath with
      | none => simp
      | some path => simp [eq_comm]

/-- Without a path of the spec file there is no other error. -/
theorem fillSpec_eq_error_iff {hints : Hints} {x : Attributes} {error : Error}
    : hints.fillSpec x = .error error
      ↔ filled x.specfilePath = none ∧ filled hints.specPath = none
        ∧ error = .missingSpecFile := by
  unfold fillSpec
  cases filled x.specfilePath with
  | some path => simp
  | none =>
      cases filled hints.specPath with
      | none => simp [eq_comm]
      | some path => simp

/-- A package is built from its declaration, its attributes with the hints filled in, and its jobs
resolved against these attributes.
-/
theorem outcome_build_eq_ok_iff {hints : Hints} {fields : Fields} {package : Package}
    : (hints.build fields).outcome = .ok package
      ↔ ∃ declared x,
          (PackageDeclaration.ofFields fields).outcome = .ok declared
          ∧ hints.fillSpec (.ofOverrides declared.overrides) = .ok x
          ∧ (Job.resolveAll (hints.fillNames x) 0 (declared.jobs.getD defaultJobs)).outcome
              = .ok package.jobs
          ∧ package.configPath = declared.configPath
          ∧ package.attributes = hints.fillNames x := by
  obtain ⟨path, attributes, jobs⟩ := package
  simp only [build, Traced.outcome_bind_eq_ok, Traced.outcome_liftM, Traced.outcome_pure,
    Except.ok.injEq, Package.mk.injEq]
  constructor
  · intro stages
    obtain ⟨declared, read, x, spec, jobs, resolved, rfl, rfl, rfl⟩ := stages
    exact ⟨declared, x, read, spec, resolved, rfl, rfl⟩
  · intro stages
    obtain ⟨declared, x, read, spec, resolved, rfl, rfl⟩ := stages
    exact ⟨declared, read, x, spec, jobs, resolved, rfl, rfl, rfl⟩

/-- Building fails at the first stage that does. -/
theorem outcome_build_eq_error_iff {hints : Hints} {fields : Fields} {error : Error}
    : (hints.build fields).outcome = .error error
      ↔ (PackageDeclaration.ofFields fields).outcome = .error error
        ∨ ∃ declared, (PackageDeclaration.ofFields fields).outcome = .ok declared
          ∧ (hints.fillSpec (.ofOverrides declared.overrides) = .error error
            ∨ ∃ x, hints.fillSpec (.ofOverrides declared.overrides) = .ok x
              ∧ (Job.resolveAll (hints.fillNames x) 0
                  (declared.jobs.getD defaultJobs)).outcome = .error error) := by
  simp [build, Traced.outcome_bind_eq_error, Traced.outcome_liftM, Traced.outcome_pure]

/-- A mapping is built with the hints injected, and a failure is refused. -/
theorem resolve_mapping (hints : Hints) (fields : Fields)
    : hints.resolve (.mapping fields)
      = tryCatch (hints.build (hints.inject fields))
          (refuse (.mapping (hints.inject fields))) :=
  rfl

/-- A mapping resolves just when a package is built from it with the hints injected. -/
theorem outcome_resolve_mapping_eq_ok_iff {hints : Hints} {fields : Fields} {package : Package}
    : (hints.resolve (.mapping fields)).outcome = .ok package
      ↔ (hints.build (hints.inject fields)).outcome = .ok package := by
  rw [resolve_mapping]
  cases built : (hints.build (hints.inject fields)).outcome with
  | ok other => rw [Traced.tryCatch_of_ok _ built, built]
  | error error =>
      rw [Traced.outcome_tryCatch_of_error _ built]
      have refused : ∃ cause,
          (refuse (.mapping (hints.inject fields)) error).outcome = .error cause := by
        cases error <;> exact ⟨_, rfl⟩
      obtain ⟨cause, refused⟩ := refused
      simp [refused]

theorem exists_mapping_of_resolve {hints : Hints} {document : Value} {package : Package}
    (resolved : (hints.resolve document).outcome = .ok package)
    : ∃ fields, document = .mapping fields := by
  cases document with
  | mapping fields => exact ⟨fields, rfl⟩
  | _ => simp [resolve, refuse, throw, throwThe, MonadExceptOf.throw, Traced.fail, bind,
      Traced.bind, Traced.note] at resolved

end Hints

end Packaging
