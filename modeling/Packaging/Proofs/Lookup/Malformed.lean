import Packaging.Proofs.Document.Reading
import Packaging.Proofs.Lookup.Directories
import Packaging.Proofs.Lookup.InProject
import Packaging.Proofs.Lookup.SearchOrder
import Packaging.Proofs.Resolution.Failures

/-! What is not found and what is malformed. A lookup that finds no file says so, and a file that is
found is never taken for a missing one, whatever is wrong with its content.
-/

namespace Packaging

open Declaration Value

-----------------------------------------------------------------------------------------
-- Malformed content
-----------------------------------------------------------------------------------------

/-- What makes a document unfit for a package, apart from a missing spec file. -/
inductive Hints.Refuses (hints : Hints) : Value → Prop
  | noMapping {document : Value} (other : ∀ fields, document ≠ .mapping fields)
    : hints.Refuses document
  | invalidPackage {fields : Fields} (invalid : ¬ hints.ValidPackage fields)
    : hints.Refuses (.mapping fields)
  | invalidJob {fields : Fields} {raw : Value} (knows : ¬ hints.LacksSpec fields)
      (listed : raw ∈ listedJobs fields) (refused : ¬ Job.Resolves raw)
    : hints.Refuses (.mapping fields)

/-- What makes the content of a file unfit for a package, apart from a missing spec file. -/
inductive Hints.Rejects (hints : Hints) (format : Format) (content : ByteArray) : Prop
  | notText (binary : String.fromUTF8? content = none)
  | malformed {text : String} (decoded : String.fromUTF8? content = some text)
      (unreadable : format.read? text = none)
  | refused {text : String} {document : Value} (decoded : String.fromUTF8? content = some text)
      (read : format.read? text = some document) (refuses : hints.Refuses document)

namespace Hints

variable {hints : Hints} {format : Format}

/-- A document is refused just when its resolution says that it cannot be parsed. -/
theorem unparsable_iff_refuses {document : Value} (ordered : document.Ordered)
    : (∃ cause, (hints.resolve document).outcome = .error (.unparsable cause))
      ↔ hints.Refuses document := by
  have ending := hints.ending_resolve ordered
  generalize (hints.resolve document).outcome = outcome at ending
  cases ending with
  | noMapping other => simpa using Refuses.noMapping other
  | invalidPackage invalid => simpa using Refuses.invalidPackage invalid
  | missingSpec valid lacks =>
      simp only [reduceCtorEq, Except.error.injEq, exists_false, false_iff]
      intro refuses
      cases refuses with
      | noMapping other => exact other _ rfl
      | invalidPackage invalid => exact invalid valid
      | invalidJob knows => exact knows lacks
  | invalidJob valid knows listed passed failed =>
      simp only [Except.error.injEq, Error.unparsable.injEq, exists_eq', true_iff]
      refine .invalidJob knows (listed ▸ List.mem_append_cons_self) ?_
      exact (Job.not_resolves_iff {}).mpr ⟨_, failed {}⟩
  | resolved valid knows all =>
      simp only [reduceCtorEq, exists_false, false_iff]
      intro refuses
      cases refuses with
      | noMapping other => exact other _ rfl
      | invalidPackage invalid => exact invalid valid
      | invalidJob _ listed refused => exact refused (all _ listed)

/-- Content is rejected just when what it comes to says that it cannot be parsed. -/
theorem unparsable_iff_rejects {path : Path} {content : ByteArray}
    : (∃ cause, hints.ofContent format path content = .error (.unparsable cause))
      ↔ hints.Rejects format content := by
  unfold ofContent
  cases decoded : String.fromUTF8? content with
  | none => simpa using Rejects.notText decoded
  | some text =>
      dsimp only
      cases read : format.read? text with
      | none => simpa using Rejects.malformed decoded read
      | some document =>
          dsimp only
          rw [unparsable_iff_refuses (Format.ordered_read? read)]
          constructor
          · exact Rejects.refused decoded read
          · intro rejects
            cases rejects with
            | notText binary => simp [decoded] at binary
            | malformed same unreadable => simp_all
            | refused same again refuses => simp_all

/-- A document that is not resolved lacks a spec file or cannot be parsed. -/
theorem error_of_resolve {document : Value} {error : Error} (ordered : document.Ordered)
    (failed : (hints.resolve document).outcome = .error error)
    : error = .missingSpecFile ∨ ∃ cause, error = .unparsable cause := by
  have ending := hints.ending_resolve ordered
  generalize (hints.resolve document).outcome = outcome at ending failed
  subst failed
  cases ending with
  | missingSpec => exact .inl rfl
  | noMapping => exact .inr ⟨_, rfl⟩
  | invalidPackage => exact .inr ⟨_, rfl⟩
  | invalidJob => exact .inr ⟨_, rfl⟩

end Hints

-----------------------------------------------------------------------------------------
-- Ends of a lookup
-----------------------------------------------------------------------------------------

namespace Locator

variable {locator : Locator} {fs : FileSystem}

/-- A document that loads is ordered. -/
theorem ordered_of_load {candidate : Path × ConfigName} {document : Value}
    (loaded : fs.load (candidatePath candidate) = .ok document)
    : document.Ordered := by
  rw [load_candidatePath_eq] at loaded
  cases content : fs.readText (candidatePath candidate) with
  | error error => simp [content, Except.bind] at loaded
  | ok text =>
      simp only [content, Except.bind, Format.read] at loaded
      split at loaded
      · next read =>
        obtain rfl := Except.ok.inj loaded
        exact Format.ordered_read? read
      · cases loaded

/-- In directories only the lack of every file is reported as such. -/
theorem configNotFound_iff
    : (∃ searched, (locator.locate fs).outcome = .error (.configNotFound searched))
      ↔ ∃ directories,
          (locator.searchOrder fs).outcome = .ok directories ∧ Misses fs directories := by
  constructor
  · rintro ⟨searched, failed⟩
    have ending := locator.ending_locate fs
    generalize (locator.locate fs).outcome = outcome at ending failed
    cases ending with
    | unordered unordered =>
        obtain rfl := Except.error.inj failed
        cases error_of_searchOrder unordered
    | missed order misses => exact ⟨_, order, misses⟩
    | unloaded => cases failed
    | unlisted => cases failed
    | resolved order first loaded found =>
        rcases Hints.error_of_resolve (ordered_of_load loaded) failed with same | ⟨_, same⟩
        · cases same
        · cases same
  · rintro ⟨directories, order, misses⟩
    exact ⟨directories, outcome_locate_of_misses order misses⟩

end Locator

namespace Git.Repository

variable {repository : Repository} {reference : String} {tree : Tree} {name : ConfigName}
  {content : ByteArray}

/-- Bytes that are no text are a failure of the repository. -/
theorem outcome_package_of_binary (path : String) (found : repository.tree reference = .ok tree)
    (decides : tree.Decides name content) (binary : String.fromUTF8? content = none)
    : ((repository.project path).package reference).outcome
      = .error (.git (.notText name.label reference)) := by
  rw [outcome_package_of_decides path found decides, binary]

theorem outcome_package_of_unreadable (path : String) (found : repository.tree reference = .ok tree)
    (decides : tree.Decides name content) {text : String}
    (decoded : String.fromUTF8? content = some text) (unreadable : name.format.read? text = none)
    : ((repository.project path).package reference).outcome
      = .error (.unparsable (.file (.malformed name.format (.ofString name.label)))) := by
  rw [outcome_package_of_decides path found decides, decoded]
  dsimp only
  rw [unreadable]

/-- A tree that cannot be listed ends the lookup, whatever the document is. -/
theorem outcome_package_of_unlisted (path : String) (found : repository.tree reference = .ok tree)
    (decides : tree.Decides name content) {text : String} {document : Value} {error : GitError}
    (decoded : String.fromUTF8? content = some text) (read : name.format.read? text = some document)
    (unlisted : listing tree.walk = .error error)
    : ((repository.project path).package reference).outcome = .error (.git error) := by
  rw [outcome_package_of_decides path found decides, decoded]
  dsimp only
  rw [read, unlisted]

/-- A text comes to the same as on disk, as long as the files of the tree can be listed. -/
theorem outcome_package_of_listed (path : String) (found : repository.tree reference = .ok tree)
    (decides : tree.Decides name content) {text : String} {paths : List String}
    (decoded : String.fromUTF8? content = some text) (listed : listing tree.walk = .ok paths)
    : ((repository.project path).package reference).outcome
      = (((repository.project path).hints name
          (paths.filter Pattern.specFile.accepts).head?).ofContent name.format
            (.ofString name.label) content).map some := by
  rw [outcome_package_of_decides path found decides]
  unfold Hints.ofContent
  rw [decoded, listed]
  dsimp only
  cases name.format.read? text <;> rfl

/-- A file that decides is never taken for a missing one. -/
theorem package_ne_none_of_decides (path : String) (found : repository.tree reference = .ok tree)
    (decides : tree.Decides name content)
    : ((repository.project path).package reference).outcome ≠ .ok none := by
  have present (outcome : Except Error Package) : outcome.map some ≠ .ok none := by
    cases outcome <;> simp [Except.map]
  rw [outcome_package_of_decides path found decides]
  split
  · simp
  · split
    · simp
    · split
      · simp
      · exact present _

/-- In a repository there is no package just when the reference leads to a tree without any of the
files.
-/
theorem package_eq_none_iff (path : String)
    : ((repository.project path).package reference).outcome = .ok none
      ↔ ∃ tree, repository.tree reference = .ok tree ∧ tree.Misses := by
  constructor
  · intro missing
    cases found : repository.tree reference with
    | error error => simp [outcome_package_of_tree_error path found] at missing
    | ok tree =>
        refine ⟨tree, rfl, ?_⟩
        rcases tree.misses_or_decides with misses | ⟨name, content, decides⟩
        · exact misses
        · exact absurd missing (package_ne_none_of_decides path found decides)
  · rintro ⟨tree, found, misses⟩
    exact outcome_package_of_misses path found misses

/-- A text that can be listed beside fails to parse just when it is rejected. -/
theorem unparsable_iff_rejects (path : String) (found : repository.tree reference = .ok tree)
    (decides : tree.Decides name content) {text : String} {paths : List String}
    (decoded : String.fromUTF8? content = some text) (listed : listing tree.walk = .ok paths)
    : (∃ cause, ((repository.project path).package reference).outcome = .error (.unparsable cause))
      ↔ ((repository.project path).hints name
          (paths.filter Pattern.specFile.accepts).head?).Rejects name.format content := by
  rw [outcome_package_of_listed path found decides decoded listed,
    ← @Hints.unparsable_iff_rejects _ _ (.ofString name.label)]
  generalize Hints.ofContent _ _ _ _ = outcome
  cases outcome <;> simp [Except.map]

/-- Only names up to the one that decides are asked for, at the reference itself. -/
theorem exists_asked_of_decides (path : String) (found : repository.tree reference = .ok tree)
    (decides : tree.Decides name content)
    : ∃ before after,
        ConfigName.all = before ++ name :: after
        ∧ ∀ label place,
            .content label place
              ∈ Step.questions ((repository.project path).package reference).trace
            → place = reference ∧ ∃ other ∈ before ++ [name], label = other.label := by
  obtain ⟨⟨before, after, split, missing⟩, file⟩ := decides
  refine ⟨before, after, split, fun label place asked => ?_⟩
  have first := Project.mem_questions_package asked
  rw [firstContent_of_decides path found split missing file] at first
  simp only [Step.questions, List.filterMap_map, List.mem_filterMap] at first
  obtain ⟨other, member, same⟩ := first
  simp only [Function.comp, Project.question, Option.some.injEq, Question.content.injEq] at same
  exact ⟨same.2.symm, other, member, same.1.symm⟩

end Git.Repository

/-- A lookup tells what is missing from what is malformed. In directories a missing configuration
is reported just when no name is a file in them, and otherwise the first file alone decides. It
fails to parse if it does not load, and where the directories can be searched for a spec file just
when its content is rejected. Where they cannot, a document that loads ends with that failure as it
is. In a repository the package is missing just when the reference leads to a tree without any of
the files, and names are asked for up to the first file. Of a text in a tree whose files can be
listed, it fails to parse just when the content is rejected. Bytes that are no text, and a document
in a tree that cannot be listed, are told as failures of the repository.
-/
theorem missing_apart_from_malformed (locator : Locator) (fs : FileSystem)
    (repository : Git.Repository) (path reference : String)
    : let found := (locator.locate fs).outcome
      let project := repository.project path
      let kept := (project.package reference).outcome
      (((∃ searched, found = .error (.configNotFound searched))
          ↔ ∃ directories,
              (locator.searchOrder fs).outcome = .ok directories ∧ Locator.Misses fs directories)
        ∧ ∀ directories candidate,
            (locator.searchOrder fs).outcome = .ok directories
            → (∀ fault,
                Locator.Blocks fs directories candidate fault
                → found
                  = .error
                      (.unparsable (.file (.refused (Locator.candidatePath candidate) fault))))
              ∧ ∀ content,
                  Locator.Decides fs directories candidate content
                  → (∀ cause,
                      fs.load (Locator.candidatePath candidate) = .error cause
                      → found = .error (.unparsable (.file cause)))
                    ∧ (∀ document error,
                        fs.load (Locator.candidatePath candidate) = .ok document
                        → SpecFile.find? fs directories = .error error
                        → found = .error (.file error))
                    ∧ ∀ spec,
                        SpecFile.find? fs directories = .ok spec
                        → found
                            = (locator.hints spec candidate.2).ofContent candidate.2.format
                                (Locator.candidatePath candidate) content
                          ∧ ((∃ cause, found = .error (.unparsable cause))
                            ↔ (locator.hints spec candidate.2).Rejects candidate.2.format content))
      ∧ (kept = .ok none ↔ ∃ tree, repository.tree reference = .ok tree ∧ tree.Misses)
      ∧ (∀ error, repository.tree reference = .error error → kept = .error (.git error))
      ∧ ∀ tree name content,
          repository.tree reference = .ok tree
          → tree.Decides name content
          → (∃ before after,
              ConfigName.all = before ++ name :: after
              ∧ ∀ label place,
                  .content label place ∈ Step.questions (project.package reference).trace
                  → place = reference ∧ ∃ other ∈ before ++ [name], label = other.label)
            ∧ (String.fromUTF8? content = none
              → kept = .error (.git (.notText name.label reference)))
            ∧ ∀ text,
                String.fromUTF8? content = some text
                → (name.format.read? text = none
                    → kept
                      = .error (.unparsable
                          (.file (.malformed name.format (.ofString name.label)))))
                  ∧ (∀ document error,
                      name.format.read? text = some document
                      → Git.Repository.listing tree.walk = .error error
                      → kept = .error (.git error))
                  ∧ ∀ paths,
                      Git.Repository.listing tree.walk = .ok paths
                      → ((∃ cause, kept = .error (.unparsable cause))
                        ↔ (project.hints name
                            (paths.filter Pattern.specFile.accepts).head?).Rejects
                              name.format content) := by
  intro found project kept
  refine ⟨⟨Locator.configNotFound_iff, ?_⟩, Git.Repository.package_eq_none_iff path,
    fun error => Git.Repository.outcome_package_of_tree_error path, ?_⟩
  · intro directories candidate order
    refine ⟨fun fault => Locator.outcome_locate_of_blocks order, fun content decides => ?_⟩
    refine ⟨?_, ?_, ?_⟩
    · intro cause failed
      exact Locator.outcome_locate_of_unloaded order decides.first?_eq failed
    · intro document error loaded unlisted
      exact Locator.outcome_locate_of_unlisted order decides.first?_eq loaded unlisted
    · intro spec listed
      have whole := Locator.outcome_locate_of_decides order decides listed
      refine ⟨whole, ?_⟩
      rw [show found = _ from whole]
      exact Hints.unparsable_iff_rejects
  · intro tree name content stands decides
    refine ⟨Git.Repository.exists_asked_of_decides path stands decides,
      Git.Repository.outcome_package_of_binary path stands decides, fun text decoded => ?_⟩
    refine ⟨?_, ?_, ?_⟩
    · exact Git.Repository.outcome_package_of_unreadable path stands decides decoded
    · intro document error read unlisted
      exact Git.Repository.outcome_package_of_unlisted path stands decides decoded read unlisted
    · intro paths listed
      exact Git.Repository.unparsable_iff_rejects path stands decides decoded listed

end Packaging
