import Mathlib.Logic.Relation
import Packaging.Proofs.Declarations.Synonyms
import Packaging.Proofs.Resolution.AlikeJobs

/-! Documents whose files to copy are spelled the other way. A package resolves the same whichever
of its mappings give which spelling, as long as none gives both.
-/

namespace Packaging

open Declaration Value

/-- A document with the files to copy spelled the other way in one place, where nothing has that
spelling yet: in its package or in one of its jobs.
-/
inductive Value.Respells : Value → Value → Prop
  | package {fields : Fields} (free : fields.find? syncedFilesSynonym = none)
    : Respells (.mapping fields) (.mapping (respell fields))
  | job {fields entries other : Fields} {raws : List Value} {index : Nat}
    (listed : fields.find? "jobs" = some (.list raws))
    (here : raws[index]? = some (.mapping entries)) (entry : JobDeclaration.Respells entries other)
    : Respells (.mapping fields) (.mapping (withJob fields raws index (.mapping other)))

namespace Hints

variable {hints : Hints}

/-- The path of the document is injected beside either spelling. -/
theorem inject_respell {fields : Fields} (ascending : fields.Ascending)
    : hints.inject (respell fields) = respell (hints.inject fields) := by
  refine (hints.ascending_inject (ascending_respell ascending)).ext
    (ascending_respell (hints.ascending_inject ascending)) fun key => ?_
  have kept : (respell fields).find? "config_file_path" = fields.find? "config_file_path" := by
    rw [find?_respell, if_neg (by decide), if_neg (by decide)]
  by_cases path : key = "config_file_path"
  · rw [path, find?_inject, kept, find?_respell, if_neg (by decide), if_neg (by decide),
      find?_inject]
  · rw [find?_inject_of_ne _ path, find?_respell, find?_respell, find?_inject_of_ne _ path,
      find?_inject_of_ne _ (by decide), find?_inject_of_ne _ (by decide)]

theorem outcome_resolve_respell {fields : Fields} (ascending : fields.Ascending)
    (free : fields.find? syncedFilesSynonym = none)
    : (hints.resolve (.mapping (respell fields))).outcome
      = (hints.resolve (.mapping fields)).outcome := by
  refine outcome_resolve_of_build (congrArg Traced.outcome ?_)
  have same := PackageDeclaration.ofFields_respell (hints.ascending_inject ascending)
    ((hints.find?_inject_of_ne (by decide) fields).trans free)
  rw [inject_respell ascending, build, same, build]

/-- One spelling more or less the other way leaves how a document resolves. -/
theorem outcome_resolve_of_respells {document other : Value} (ordered : document.Ordered)
    (respells : document.Respells other)
    : (hints.resolve other).outcome = (hints.resolve document).outcome := by
  cases respells with
  | package free => exact outcome_resolve_respell ordered.ascending free
  | @job fields entries other raws index listed here entry =>
      have raw := ordered_list_iff.mp (ordered.of_find? listed)
      have alike := entry.readAlike (raw _ (List.mem_of_getElem? here))
      exact (outcome_resolve_withJob ordered.ascending alike).trans
        (by rw [withJob_of_listed ordered.ascending listed here])

end Hints

theorem Value.Respells.ordered {document other : Value} (ordered : document.Ordered)
    (respells : document.Respells other)
    : other.Ordered := by
  cases respells with
  | package free => exact ordered_respell ordered
  | job listed here entry =>
      have raw := ordered_list_iff.mp (ordered.of_find? listed)
      exact ordered.withJob listed (entry.ordered (raw _ (List.mem_of_getElem? here)))

/-- Any number of spellings the other way leave how a document resolves, by induction over them. -/
theorem Hints.outcome_resolve_of_respelled {hints : Hints} {document other : Value}
    (ordered : document.Ordered) (respelled : Relation.ReflTransGen Value.Respells document other)
    : other.Ordered ∧ (hints.resolve other).outcome = (hints.resolve document).outcome := by
  induction respelled with
  | refl => exact ⟨ordered, rfl⟩
  | tail _ last ih =>
      obtain ⟨orderedSoFar, same⟩ := ih
      exact ⟨last.ordered orderedSoFar, (outcome_resolve_of_respells orderedSoFar last).trans same⟩

/-- The two spellings of the files to copy mean the same in a package, at the top level of a job,
and nested in a job that gives the files itself: documents that differ in these spellings resolve
to the same package, or fail with the same error. A mapping of a package or a job that has both
spellings is refused, whatever else it holds. Nested in a job there is only one spelling, and the
other one is read as if the nested entry were missing.
-/
theorem Hints.resolve_respelled (hints : Hints)
    : (∀ document other,
        document.Ordered → Relation.ReflTransGen Value.Respells document other
        → (hints.resolve other).outcome = (hints.resolve document).outcome)
      ∧ (∀ fields : Fields,
          BothSpellings fields
          → PackageDeclaration.ofFields fields
              = ⟨[], .error (.invalid syncedFilesKey .twoSpellings)⟩
            ∧ JobDeclaration.ofValue (.mapping fields)
              = ⟨[], .error (.invalid syncedFilesKey .twoSpellings)⟩)
      ∧ ∀ (fields entries nested : Fields) (raws : List Value) (index : Nat),
          fields.Ascending → entries.Ascending
          → let job (nested : Fields) : Value :=
              .mapping (entries.insert "metadata" (.mapping nested))
            (hints.resolve (.mapping (withJob fields raws index (job (respell nested))))).outcome
            = (hints.resolve
                (.mapping (withJob fields raws index (job (nested.erase syncedFilesKey))))).outcome
    := by
  refine ⟨?_, ?_, ?_⟩
  · intro document other ordered respelled
    exact (outcome_resolve_of_respelled ordered respelled).2
  · intro fields both
    exact ⟨PackageDeclaration.ofFields_of_bothSpellings both,
      JobDeclaration.ofFields_of_bothSpellings both⟩
  · intro fields entries nested raws index ascending entriesAscending job
    exact outcome_resolve_withJob ascending
      (JobDeclaration.outcome_ofFields_respell_nested entriesAscending)

/-- What is nested in a job behind its own files, those files and the files of the package are
spelled the other way, one after another. A job with both spellings is refused. Nested in a job
without files of its own, the other spelling loses them.
-/
theorem Hints.resolve_respelled_thrice
    : let files (source : String) : Value := .list [.text source]
      let job (key : String) : Fields :=
        [("job", .text "tests"), ("metadata", .mapping [(key, files "c")]),
          ("trigger", .text "commit")]
      let document (job : Fields) : Fields :=
        [("jobs", .list [.mapping job]), ("specfile_path", .text "foo.spec")]
      let plain : Fields := (job "synced_files").insert "synced_files" (files "b")
      let respelled : Fields := (job "files_to_sync").insert "files_to_sync" (files "b")
      (resolve {} (.mapping ((document respelled).insert "files_to_sync" (files "a")))).outcome
        = (resolve {} (.mapping ((document plain).insert "synced_files" (files "a")))).outcome
      ∧ JobDeclaration.ofValue (.mapping (plain.insert "files_to_sync" .null))
        = ⟨[], .error (.invalid "synced_files" .twoSpellings)⟩
      ∧ (resolve {} (.mapping (document (job "files_to_sync")))).outcome
        = (resolve {}
            (.mapping (document ((job "files_to_sync").insert "metadata" (.mapping []))))).outcome
      ∧ (resolve {} (.mapping (document (job "files_to_sync")))).outcome
        ≠ (resolve {} (.mapping (document (job "synced_files")))).outcome
    := by
  intro files job document plain respelled
  obtain ⟨same, refused, lost⟩ := resolve_respelled {}
  let between := (job "files_to_sync").insert "synced_files" (files "b")
  refine ⟨same _ _ (by decide) ?_, (refused _ ⟨rfl, rfl⟩).2, ?_, by decide⟩
  · have nested : JobDeclaration.Respells plain between :=
      @JobDeclaration.Respells.nested plain [("synced_files", files "c")] rfl rfl (by decide)
    have own : JobDeclaration.Respells between respelled := .own rfl
    let package (job : Fields) := (document job).insert "synced_files" (files "a")
    have first : Value.Respells (.mapping (package plain)) (.mapping (package between)) :=
      @Value.Respells.job (package plain) _ _ [.mapping plain] 0 rfl rfl nested
    have second : Value.Respells (.mapping (package between)) (.mapping (package respelled)) :=
      @Value.Respells.job (package between) _ _ [.mapping between] 0 rfl rfl own
    exact .head first (.head second (.head (.package rfl) .refl))
  · exact lost (document plain) (job "files_to_sync") [("synced_files", files "c")] [.null] 0
      (by decide) (by decide)

end Packaging
