import Packaging.Lookup.InProject
import Packaging.Proofs.Git.Trees
import Packaging.Proofs.Paths
import Packaging.Proofs.Traced

/-! How a document is looked up in a project, and in one whose files are in a repository. Names that
are missing are passed over, and the first file decides, whatever it holds.
-/

namespace Packaging

-----------------------------------------------------------------------------------------
-- Any project
-----------------------------------------------------------------------------------------

/-- In a sequence the second part asks after a success of the first. -/
theorem mem_questions_bind {Q ε α β : Type} {first : Traced (Step Q) ε α}
    {next : α → Traced (Step Q) ε β} {question : Q}
    : question ∈ Step.questions (first >>= next).trace
      ↔ question ∈ Step.questions first.trace
        ∨ ∃ value, first.outcome = .ok value
          ∧ question ∈ Step.questions (next value).trace := by
  cases found : first.outcome with
  | error error => simp [Traced.bind_of_error next found]
  | ok value => simp [Traced.bind_of_ok next found, Step.questions]

namespace Project

variable {project : Project} {reference : String}

/-- The hints for a document under a name. -/
def hints (project : Project) (name : ConfigName) (spec : Option String) : Hints where
  configPath := some name.label
  repoName := some project.name
  specPath := spec

/-- The question for the file of a name. -/
def question (reference : String) (name : ConfigName) : Step Question :=
  .asked (.content name.label reference)

/-- Names that a project does not have are asked for and passed over. By induction over them. -/
theorem firstContent_append {before : List ConfigName}
    (missing
      : ∀ name ∈ before,
          ∃ error, project.content name.label reference = .error error
            ∧ error.isFileNotFound = true)
    (rest : List ConfigName)
    : project.firstContent reference (before ++ rest)
      = ⟨before.map (question reference) ++ (project.firstContent reference rest).trace,
          (project.firstContent reference rest).outcome⟩ := by
  induction before with
  | nil => rfl
  | cons name before ih =>
      obtain ⟨⟨error, failed, notFound⟩, others⟩ := List.forall_mem_cons.mp missing
      have asked : (project.askContent name.label reference).outcome = .ok (.error error) :=
        congrArg Except.ok failed
      rw [List.cons_append, firstContent, Traced.bind_of_ok _ asked]
      dsimp only
      rw [if_pos notFound, ih others]
      rfl

/-- The first content that a project has is what is taken. -/
theorem firstContent_of_ok {name : ConfigName} {rest : List ConfigName} {text : String}
    (read : project.content name.label reference = .ok text)
    : project.firstContent reference (name :: rest)
      = ⟨[question reference name], .ok (some (name, text))⟩ := by
  have asked : (project.askContent name.label reference).outcome = .ok (.ok text) :=
    congrArg Except.ok read
  rw [firstContent, Traced.bind_of_ok _ asked]
  rfl

/-- A failure other than a missing file ends the search. -/
theorem firstContent_of_error {name : ConfigName} {rest : List ConfigName} {error : GitError}
    (failed : project.content name.label reference = .error error)
    (other : error.isFileNotFound = false)
    : project.firstContent reference (name :: rest)
      = ⟨[question reference name], .error (.git error)⟩ := by
  have asked : (project.askContent name.label reference).outcome = .ok (.error error) :=
    congrArg Except.ok failed
  rw [firstContent, Traced.bind_of_ok _ asked]
  dsimp only
  rw [if_neg (by simp [other])]
  rfl

/-- A name decides the format in which its text is read. -/
theorem read_label (name : ConfigName) (text : String)
    : (do
        let format ← Format.ofPath (.ofString name.label)
        format.read (.ofString name.label) text)
      = name.format.read (.ofString name.label) text := by
  rw [name.ofPath_label]
  rfl

theorem outcome_document (name : ConfigName) (text : String)
    : (document name text).outcome
      = match name.format.read? text with
        | some document => .ok document
        | none => .error (.unparsable (.file (.malformed name.format (.ofString name.label)))) := by
  unfold document
  dsimp only
  rw [read_label, Format.read]
  cases name.format.read? text <;> rfl

theorem questions_document (name : ConfigName) (text : String)
    : Step.questions (document name text).trace = [] := by
  unfold document
  dsimp only
  cases Format.ofPath (.ofString name.label) >>= _ <;> rfl

theorem outcome_package_of_none
    (missing : (project.firstContent reference ConfigName.all).outcome = .ok none)
    : (project.package reference).outcome = .ok none := by
  rw [package, Traced.bind_of_ok _ missing]
  rfl

theorem package_of_error {error : Error}
    (failed : (project.firstContent reference ConfigName.all).outcome = .error error)
    : project.package reference
      = ⟨(project.firstContent reference ConfigName.all).trace, .error error⟩ := by
  rw [package, Traced.bind_of_error _ failed]

theorem outcome_specFile_of_ok {reference : Option String} {paths : List String}
    (listed : project.files reference (some .specFile) = .ok paths)
    : (project.specFile reference).outcome = .ok paths.head? := by
  have asked : (project.askFiles reference (some .specFile)).outcome = .ok paths := by
    rw [askFiles, listed]
    rfl
  rw [specFile, Traced.bind_of_ok _ asked]
  rfl

theorem outcome_specFile_of_error {error : GitError}
    (failed : project.files (some reference) (some .specFile) = .error error)
    : (project.specFile (some reference)).outcome = .error (.git error) := by
  have asked
      : (project.askFiles (some reference) (some .specFile)).outcome = .error (.git error) := by
    rw [askFiles, failed]
    rfl
  rw [specFile, Traced.bind_of_error _ asked]

/-- What the first text of a project comes to. Its files are listed only for a document. -/
theorem outcome_package_of_text {name : ConfigName} {text : String}
    (first : (project.firstContent reference ConfigName.all).outcome = .ok (some (name, text)))
    : (project.package reference).outcome
      = match name.format.read? text with
        | none => .error (.unparsable (.file (.malformed name.format (.ofString name.label))))
        | some document =>
          match project.files (some reference) (some .specFile) with
          | .error error => .error (.git error)
          | .ok paths => ((project.hints name paths.head?).resolve document).outcome.map some := by
  have read := outcome_document name text
  rw [package, Traced.bind_of_ok _ first]
  dsimp only
  cases parsed : name.format.read? text with
  | none =>
      rw [parsed] at read
      rw [Traced.bind_of_error _ read]
  | some document =>
      rw [parsed] at read
      rw [Traced.bind_of_ok _ read]
      dsimp only
      cases listed : project.files (some reference) (some .specFile) with
      | error error => rw [Traced.bind_of_error _ (outcome_specFile_of_error listed)]
      | ok paths =>
          rw [Traced.bind_of_ok _ (outcome_specFile_of_ok listed)]
          dsimp only
          rw [Traced.bind_pure]
          rfl

/-- Content is asked for only while the first of it is searched. -/
theorem mem_questions_package {path other : String}
    (asked : .content path other ∈ Step.questions (project.package reference).trace)
    : .content path other
      ∈ Step.questions (project.firstContent reference ConfigName.all).trace := by
  rw [package, mem_questions_bind] at asked
  rcases asked with first | ⟨found, _, later⟩
  · exact first
  · exfalso
    cases found with
    | none =>
        simp only [mem_questions_bind] at later
        rcases later with noted | ⟨_, _, done⟩
        · simp [Traced.note, Step.questions] at noted
        · simp [Step.questions] at done
    | some found =>
        simp only [mem_questions_bind, questions_document, List.not_mem_nil, false_or] at later
        obtain ⟨document, _, asked | ⟨spec, _, resolved | ⟨package, _, done⟩⟩⟩ := later
        · rw [specFile, mem_questions_bind] at asked
          rcases asked with listed | ⟨_, _, done⟩
          · simp [askFiles, Step.questions] at listed
          · simp [Step.questions] at done
        · simp [Traced.mapTrace, Step.questions] at resolved
        · simp [Step.questions] at done

end Project

-----------------------------------------------------------------------------------------
-- A repository
-----------------------------------------------------------------------------------------

namespace Git

/-- The content of the file that a name is directly inside a tree. -/
def Tree.file? (tree : Tree) (name : String) : Option ByteArray :=
  match tree.lookup? (bytes name) with
  | some (.blob _ content) => some content
  | _ => none

/-- None of the names is a file in the tree. -/
def Tree.Misses (tree : Tree) : Prop :=
  ∀ name : ConfigName, tree.file? name.label = none

/-- The file of a name has the given content, and no earlier name is a file. -/
structure Tree.Decides (tree : Tree) (name : ConfigName) (content : ByteArray) : Prop where
  first
    : ∃ before after,
        ConfigName.all = before ++ name :: after
        ∧ ∀ earlier ∈ before, tree.file? earlier.label = none
  content : tree.file? name.label = some content

/-- Either no name is a file, or one of them decides. -/
theorem Tree.misses_or_decides (tree : Tree)
    : tree.Misses ∨ ∃ name content, tree.Decides name content := by
  cases found : ConfigName.all.find? (fun name => (tree.file? name.label).isSome) with
  | none =>
      left
      intro name
      have member : name ∈ ConfigName.all := by cases name <;> decide
      simpa using List.find?_eq_none.mp found name member
  | some name =>
      obtain ⟨file, before, after, split, earlier⟩ := List.find?_eq_some_iff_append.mp found
      obtain ⟨content, read⟩ := Option.isSome_iff_exists.mp file
      exact Or.inr ⟨name, content, ⟨before, after, split, by simpa using earlier⟩, read⟩

/-- A path of one name leads to the entry of that name. -/
theorem Tree.find?_bytes {name : String} (single : Path.IsSegment name) (tree : Tree)
    : tree.find? (names (bytes name)) = tree.lookup? (bytes name) := by
  have plain : ∀ byte ∈ bytes name, decide (byte = slash) = false := by
    intro byte member
    refine decide_eq_false fun same => ?_
    exact single.slash (slash_mem_bytes_iff.mp (same ▸ member))
  have content : (bytes name).isEmpty = false := by
    rw [List.isEmpty_eq_false_iff]
    exact fun empty => single.content (bytes_eq_nil_iff.mp empty)
  rw [names, Text.pieces_of_forall plain]
  simp [find?, content]

namespace Repository

variable {repository : Repository} {reference : String} {tree : Tree}

/-- What a path leads to decides what is read. -/
theorem content_eq (found : repository.tree reference = .ok tree) {path : String}
    (looked : isTreePath path = true)
    : repository.content path reference
      = match tree.find? (Tree.names (bytes path)) with
        | some (.blob _ file) =>
          match String.fromUTF8? file with
          | some text => .ok text
          | none => .error (.notText path reference)
        | _ => .error (.noFile path reference) := by
  unfold content
  rw [found, looked]
  show (match tree.find? (Tree.names (bytes path)) with
    | some (.blob _ file) => _
    | _ => _) = _
  cases tree.find? (Tree.names (bytes path)) with
  | none => rfl
  | some node =>
      cases node with
      | blob mode file =>
          dsimp only
          cases String.fromUTF8? file <;> rfl
      | tree entries => rfl
      | submodule => rfl

/-- At a tree each name is read from the file that it is there. -/
theorem content_label (found : repository.tree reference = .ok tree) (name : ConfigName)
    : repository.content name.label reference
      = match tree.file? name.label with
        | none => .error (.noFile name.label reference)
        | some content =>
          match String.fromUTF8? content with
          | some text => .ok text
          | none => .error (.notText name.label reference) := by
  have looked : isTreePath name.label = true := by cases name <;> rfl
  rw [content_eq found looked, tree.find?_bytes name.isSegment_label, Tree.file?]
  cases tree.lookup? (bytes name.label) with
  | none => rfl
  | some node => cases node <;> rfl

theorem content_of_tree_error {error : GitError} (failed : repository.tree reference = .error error)
    (path : String)
    : repository.content path reference = .error error := by
  unfold content
  rw [failed]
  rfl

/-- A reference that leads to no tree is not a missing file. -/
theorem isFileNotFound_of_tree_error {error : GitError}
    (failed : repository.tree reference = .error error)
    : error.isFileNotFound = false := by
  unfold Repository.tree at failed
  split at failed
  · cases failed
  · cases failed
    rfl
  · cases failed
    rfl

/-- At a tree the files that pass a test are listed in the order of the walk. -/
theorem filesWhere_eq {reference : Option String}
    (found : repository.tree (reference.getD "HEAD") = .ok tree) (test : String → Bool)
    : repository.filesWhere reference test
      = (listing tree.walk).map fun paths => paths.filter test := by
  rw [filesWhere, found, ← listingWhere_eq]
  rfl

theorem files_eq {reference : Option String}
    (found : repository.tree (reference.getD "HEAD") = .ok tree) (pattern : Option Pattern)
    : repository.files reference pattern
      = (listing tree.walk).map fun paths =>
          paths.filter fun path => pattern.all (·.accepts path) :=
  filesWhere_eq found _

/-- A project answers as its repository does. -/
theorem content_project (repository : Repository) (path : String)
    : (repository.project path).content = repository.content := by
  unfold project
  cases repository.names path
  rfl

theorem files_project (repository : Repository) (path : String)
    : (repository.project path).files = repository.files := by
  unfold project
  cases repository.names path
  rfl

variable (path : String)

/-- Names that are no files are asked for in their order and passed over. -/
theorem firstContent_of_missing (found : repository.tree reference = .ok tree)
    {before : List ConfigName} (missing : ∀ name ∈ before, tree.file? name.label = none)
    (rest : List ConfigName)
    : (repository.project path).firstContent reference (before ++ rest)
      = ⟨before.map (Project.question reference)
          ++ ((repository.project path).firstContent reference rest).trace,
          ((repository.project path).firstContent reference rest).outcome⟩ := by
  refine Project.firstContent_append (fun name member => ?_) rest
  refine ⟨.noFile name.label reference, ?_, rfl⟩
  rw [content_project, content_label found name, missing name member]

theorem firstContent_of_decides (found : repository.tree reference = .ok tree)
    {name : ConfigName} {content : ByteArray} {before after : List ConfigName}
    (split : ConfigName.all = before ++ name :: after)
    (missing : ∀ earlier ∈ before, tree.file? earlier.label = none)
    (file : tree.file? name.label = some content)
    : (repository.project path).firstContent reference ConfigName.all
      = ⟨(before ++ [name]).map (Project.question reference),
          match String.fromUTF8? content with
          | none => .error (.git (.notText name.label reference))
          | some text => .ok (some (name, text))⟩ := by
  have read := content_label found name
  rw [← content_project repository path, file] at read
  dsimp only at read
  rw [split, firstContent_of_missing path found missing, List.map_append]
  cases decoded : String.fromUTF8? content with
  | none =>
      rw [decoded] at read
      rw [Project.firstContent_of_error read rfl]
      rfl
  | some text =>
      rw [decoded] at read
      rw [Project.firstContent_of_ok read]
      rfl

theorem outcome_package_of_tree_error {error : GitError}
    (failed : repository.tree reference = .error error)
    : ((repository.project path).package reference).outcome = .error (.git error) := by
  have read (name : String) : (repository.project path).content name reference = .error error := by
    rw [content_project, content_of_tree_error failed]
  have first
      : (repository.project path).firstContent reference ConfigName.all
        = ⟨[Project.question reference .hiddenYaml], .error (.git error)⟩ :=
    Project.firstContent_of_error (read _) (isFileNotFound_of_tree_error failed)
  exact congrArg Traced.outcome (Project.package_of_error (congrArg Traced.outcome first))

theorem outcome_package_of_misses (found : repository.tree reference = .ok tree)
    (misses : tree.Misses)
    : ((repository.project path).package reference).outcome = .ok none := by
  have missing : ∀ name ∈ ConfigName.all, tree.file? name.label = none := fun name _ => misses name
  have all := firstContent_of_missing path found missing []
  rw [List.append_nil] at all
  exact Project.outcome_package_of_none (congrArg Traced.outcome all)

/-- What the file that decides comes to. Its content has to be text, or else the project itself
fails, and a document needs the list of all files.
-/
theorem outcome_package_of_decides (found : repository.tree reference = .ok tree)
    {name : ConfigName} {content : ByteArray} (decides : tree.Decides name content)
    : ((repository.project path).package reference).outcome
      = match String.fromUTF8? content with
        | none => .error (.git (.notText name.label reference))
        | some text =>
          match name.format.read? text with
          | none => .error (.unparsable (.file (.malformed name.format (.ofString name.label))))
          | some document =>
            match listing tree.walk with
            | .error error => .error (.git error)
            | .ok paths =>
              let spec := (paths.filter Pattern.specFile.accepts).head?
              (((repository.project path).hints name spec).resolve document).outcome.map some := by
  obtain ⟨⟨before, after, split, missing⟩, file⟩ := decides
  have first := congrArg Traced.outcome
    (firstContent_of_decides path found split missing file)
  have listed := @files_eq repository tree (some reference) found (some .specFile)
  rw [← files_project repository path] at listed
  cases decoded : String.fromUTF8? content with
  | none =>
      rw [decoded] at first
      rw [Project.package_of_error first]
  | some text =>
      rw [decoded] at first
      rw [Project.outcome_package_of_text first, listed]
      dsimp only
      cases listing tree.walk <;> rfl

end Repository

end Git

end Packaging
