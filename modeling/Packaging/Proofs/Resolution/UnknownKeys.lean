import Packaging.Proofs.Declarations.Leftovers
import Packaging.Proofs.Resolution.AlikeJobs
import Packaging.Proofs.Resolution.Inheritance

/-! Keys that nobody reads. They change nothing in how a document is resolved, at whatever level
they stand, and are only reported.
-/

namespace Packaging

open Declaration Value

/-- Documents that differ at most under keys that nobody reads: those of the package, of its jobs,
or nested in a job under `metadata`.
-/
def Value.AlikeDocument : Value → Value → Prop :=
  AlikeAs PackageDeclaration.AlikeFields

-----------------------------------------------------------------------------------------
-- Jobs
-----------------------------------------------------------------------------------------

namespace Job

variable {inherited : Attributes}

/-- Jobs that resolve report what each of them does, in order. By induction over the values. -/
theorem trace_resolveAll {index : Nat} {raws : List Value} {jobs : List Job}
    (resolved : (resolveAll inherited index raws).outcome = .ok jobs)
    : (resolveAll inherited index raws).trace
      = (raws.map fun raw => (JobDeclaration.ofValue raw).trace).flatten := by
  induction raws generalizing index jobs with
  | nil => rfl
  | cons raw rest ih =>
      rw [resolveAll, Traced.outcome_bind_eq_ok] at resolved
      obtain ⟨job, first, further⟩ := resolved
      obtain ⟨others, below, _⟩ := Traced.outcome_bind_eq_ok.mp further
      have own : (resolve inherited raw).trace = (JobDeclaration.ofValue raw).trace := by
        obtain ⟨declared, read, _⟩ :=
          outcome_resolve_eq_ok_iff.mp (Traced.outcome_mapError_eq_ok.mp first)
        rw [resolve, Traced.bind_of_ok _ read, Traced.trace_pure, List.append_nil]
      rw [resolveAll, Traced.bind_of_ok _ first, Traced.bind_of_ok _ below, Traced.trace_pure,
        List.append_nil, ih below, List.map_cons, List.flatten_cons, ← own]
      rfl

/-- Jobs that resolve each report the keys in their mappings that nobody reads. By induction over
them.
-/
theorem warns_of_resolve {raws : List Value} {jobs : List Job}
    (ordered : ∀ raw ∈ raws, raw.Ordered)
    (resolved : List.Forall₂ (fun raw job => (resolve inherited raw).outcome = .ok job) raws jobs)
    : List.Forall₂
        (fun raw events =>
          ∃ entries,
            raw = .mapping entries ∧ Warns .job (JobDeclaration.LeavesOver entries) events)
        raws (raws.map fun raw => (JobDeclaration.ofValue raw).trace) := by
  induction resolved with
  | nil => exact .nil
  | @cons raw job raws jobs head rest ih =>
      obtain ⟨first, below⟩ := List.forall_mem_cons.mp ordered
      obtain ⟨entries, rfl, _⟩ := inherits_of_outcome first head
      obtain ⟨declared, read, _⟩ := outcome_resolve_eq_ok_iff.mp head
      exact .cons ⟨entries, rfl, JobDeclaration.warns_ofFields first.ascending read⟩ (ih below)

end Job

-----------------------------------------------------------------------------------------
-- Packages
-----------------------------------------------------------------------------------------

namespace Hints

variable {hints : Hints} {fields left right : Fields}

/-- Documents that are alike resolve to the same package, or fail with the same error. -/
theorem outcome_resolve_congr {document other : Value} (ordered : document.Ordered)
    (otherOrdered : other.Ordered) (alike : document.AlikeDocument other)
    : (hints.resolve other).outcome = (hints.resolve document).outcome := by
  cases alike with
  | same => rfl
  | mapping entries =>
      exact outcome_resolve_of_alikeJobs ordered.ascending otherOrdered.ascending
        (entries.alikeJobs ordered otherOrdered)

/-- A document that resolves reports what its package and then what each of its jobs does. -/
theorem trace_resolve {package : Package} (ascending : fields.Ascending)
    (resolved : (hints.resolve (.mapping fields)).outcome = .ok package)
    : (hints.resolve (.mapping fields)).trace
      = (PackageDeclaration.ofFields (hints.inject fields)).trace
        ++ ((listedJobs fields).map fun raw => (JobDeclaration.ofValue raw).trace).flatten := by
  have built := outcome_resolve_mapping_eq_ok_iff.mp resolved
  obtain ⟨declared, x, read, spec, jobs, _, _⟩ := outcome_build_eq_ok_iff.mp built
  have filledSpec
      : (liftM (hints.fillSpec (.ofOverrides declared.overrides)) : Reported Attributes)
        = ⟨[], .ok x⟩ := by
    rw [spec]
    rfl
  rw [resolve_mapping, Traced.tryCatch_of_ok _ built, build, Traced.bind_of_ok _ read]
  dsimp only
  rw [Traced.silent_bind filledSpec, Traced.bind_of_ok _ jobs, Traced.trace_pure, List.append_nil,
    Job.trace_resolveAll jobs, listedJobs_of_inject ascending read]

/-- What is injected is read, so a package leaves over the same keys with it. -/
theorem leavesOver_inject_iff {key : String}
    : PackageDeclaration.LeavesOver (hints.inject fields) key
      ↔ PackageDeclaration.LeavesOver fields key := by
  by_cases path : key = "config_file_path"
  · simp [PackageDeclaration.LeavesOver, PackageDeclaration.keys, path]
  · rw [PackageDeclaration.LeavesOver, Fields.mem_keys_iff, find?_inject_of_ne _ path,
      ← Fields.mem_keys_iff, PackageDeclaration.LeavesOver]

end Hints

/-- Keys that nobody reads are only reported. Documents that differ in nothing else resolve to the
same package or fail with the same error. When a document resolves, its package and then each of its
jobs report such keys of their own: in a single event that tells all of them in ascending order, or
in none if there are no such keys.
-/
theorem Hints.unknown_keys_only_reported {hints : Hints} {document other : Value}
    (ordered : document.Ordered) (otherOrdered : other.Ordered)
    (alike : document.AlikeDocument other)
    : (hints.resolve other).outcome = (hints.resolve document).outcome
      ∧ ∀ package,
          (hints.resolve document).outcome = .ok package
          → ∃ fields own each,
              document = .mapping fields
              ∧ (hints.resolve document).trace = own ++ each.flatten
              ∧ Warns .package (PackageDeclaration.LeavesOver fields) own
              ∧ List.Forall₂
                  (fun raw events =>
                    ∃ entries,
                      raw = .mapping entries
                      ∧ Warns .job (JobDeclaration.LeavesOver entries) events)
                  (listedJobs fields) each := by
  refine ⟨outcome_resolve_congr ordered otherOrdered alike, ?_⟩
  intro package resolved
  obtain ⟨fields, rfl⟩ := exists_mapping_of_resolve resolved
  obtain ⟨declared, x, read, _, jobs, _, _⟩ :=
    outcome_build_eq_ok_iff.mp (outcome_resolve_mapping_eq_ok_iff.mp resolved)
  have own := PackageDeclaration.warns_ofFields (hints.ascending_inject ordered.ascending) read
  refine ⟨fields, _, _, rfl, trace_resolve ordered.ascending resolved,
    own.congr fun key => leavesOver_inject_iff, ?_⟩
  rw [← listedJobs_of_inject ordered.ascending read, Job.outcome_resolveAll_eq_ok_iff] at jobs
  exact Job.warns_of_resolve (ordered_listedJobs ordered) jobs

/-- A job with a key that nobody reads and another one nested under `metadata`, in a package with
two such keys.
-/
theorem Hints.unknown_keys_only_reported_nested
    : let hints : Hints := { specPath := some "foo.spec" }
      let plain : Value := .mapping
        [("job", .text "tests"), ("metadata", .mapping [("targets", .list [])]),
          ("trigger", .text "commit")]
      let raw : Value := .mapping
        [("job", .text "tests"),
          ("metadata", .mapping [("files_to_sync", .null), ("targets", .list [])]),
          ("notes", .list []), ("trigger", .text "commit")]
      let document : Value := .mapping [("jobs", .list [plain])]
      let other : Value := .mapping
        [("ham", .mapping []), ("jobs", .list [raw]), ("metadata", .text "spam")]
      (hints.resolve other).outcome = (hints.resolve document).outcome
      ∧ (hints.resolve document).trace = []
      ∧ (hints.resolve other).trace
        = [.unprocessed .package ["ham", "metadata"],
            .unprocessed .job ["files_to_sync", "notes"]] := by
  intro hints plain raw document other
  have nested
      : Fields.AlikeOn JobDeclaration.keys [("targets", .list [])]
          [("files_to_sync", .null), ("targets", .list [])] := by
    unfold Fields.AlikeOn
    decide
  have jobs : JobDeclaration.AlikeValue plain raw :=
    .mapping { others := by decide, part := .some (.mapping nested) }
  have alike : document.AlikeDocument other :=
    .mapping { others := by decide, part := .some (.list (.cons jobs .nil)) }
  exact ⟨(unknown_keys_only_reported (by decide) (by decide) alike).1, by decide, by decide⟩

end Packaging
