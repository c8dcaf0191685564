import Packaging.Proofs.Git.Identifiers
import Packaging.Proofs.Git.Listing
import Packaging.Proofs.Lookup.InProject
import Packaging.Proofs.Lookup.SpecFile

/-! Files at a reference, listed and read. The paths that are listed are those that can be read, in
the order of their bytes, so the spec file of a project is the least path of one.
-/

namespace Packaging

-----------------------------------------------------------------------------------------
-- Spec files
-----------------------------------------------------------------------------------------

namespace SpecFile

/-- What is chosen from a set of paths: the least one by its bytes, or nothing from no paths. -/
def ChosenByBytes (paths : Set String) : Option String → Prop
  | none => paths = ∅
  | some path => path ∈ paths ∧ ∀ other ∈ paths, Git.bytes path ≤ Git.bytes other

theorem Chosen.byBytes {paths : Set String} {chosen : Option String} (least : Chosen paths chosen)
    : ChosenByBytes paths chosen := by
  cases chosen with
  | none => exact least
  | some path => exact ⟨least.1, fun other member => Git.bytes_le_iff.mpr (least.2 member)⟩

/-- Among ascending paths the first one of a spec file is the least. -/
theorem chosenByBytes_head? {paths : List String}
    (ascending : paths.Pairwise fun first second => Git.bytes first < Git.bytes second)
    : ChosenByBytes {path | path ∈ paths ∧ IsPath path}
        (paths.filter Pattern.specFile.accepts).head? := by
  have specs
      : {path | path ∈ paths ∧ IsPath path}
        = {path | path ∈ paths.filter Pattern.specFile.accepts} := by
    ext path
    simp [accepts_iff_isPath]
  rw [specs]
  refine (chosen_head? ?_).byBytes
  exact (ascending.imp Git.bytes_lt_iff.mp).filter _

end SpecFile

namespace Git.Repository

-----------------------------------------------------------------------------------------
-- Content
-----------------------------------------------------------------------------------------

/-- A path that is not looked for in any tree: it starts with a step, or it holds the character that
ends names.
-/
def Refuses (path : String) : Prop :=
  (Text.pieces (· = '/') path.toList).head? = some ['.']
    ∨ (Text.pieces (· = '/') path.toList).head? = some ['.', '.']
    ∨ '\x00' ∈ path.toList

/-- A path whose parts all have content is looked for unless it is refused. -/
theorem isTreePath_eq_false_iff {path : String}
    (content : [] ∉ Text.pieces (· = '/') path.toList)
    : isTreePath path = false ↔ Refuses path := by
  have first := Text.head?_pieces (· = '/') path.toList
  have proper : path.toList.takeWhile (fun c => !decide (c = '/')) ≠ [] := by
    intro empty
    rw [empty] at first
    exact content (List.mem_of_head? first)
  unfold Refuses isTreePath
  rw [first]
  simp only [ne_eq, decide_not, Option.some.injEq]
  generalize path.toList.takeWhile (fun c => !decide (c = '/')) = start at proper
  by_cases here : start = ['.'] <;> by_cases above : start = ['.', '.'] <;>
    simp [proper, here, above]

variable {repository : Repository} {reference : String} {tree : Tree} {path : String}

theorem content_of_refuses (found : repository.tree reference = .ok tree)
    (refused : isTreePath path = false)
    : repository.content path reference = .error .corrupt := by
  unfold content
  rw [found, refused]
  rfl

/-- A file that is reached by the names of its path is read, as far as it is text. -/
theorem content_of_reaches (found : repository.tree reference = .ok tree) (stored : tree.Stored)
    (looked : isTreePath path = true) {mode : FileMode} {file : ByteArray}
    (reached : tree.Reaches (Tree.names (bytes path)) (.blob mode file))
    : repository.content path reference
      = match String.fromUTF8? file with
        | some text => .ok text
        | none => .error (.notText path reference) := by
  have content : [] ∉ Tree.names (bytes path) :=
    fun member => (stored.proper_of_reaches reached [] member).content rfl
  have read := content_eq found looked
  rw [(stored.find?_eq_some_iff content).mpr reached] at read
  exact read

/-- A path whose names reach no file is that of a missing one. -/
theorem content_of_not_reaches (found : repository.tree reference = .ok tree)
    (looked : isTreePath path = true) (content : [] ∉ Tree.names (bytes path))
    (none : ∀ mode file, ¬ tree.Reaches (Tree.names (bytes path)) (.blob mode file))
    : repository.content path reference = .error (.noFile path reference) := by
  rw [content_eq found looked]
  split
  · next mode file entry => exact absurd (Tree.reaches_of_find? entry content) (none mode file)
  · rfl

-----------------------------------------------------------------------------------------
-- Lists and contents
-----------------------------------------------------------------------------------------

/-- How a path is read beside a list of paths. A path that is refused is never read. Any other one
is listed when it is not missing, and then it is read from the file to which its names lead.
-/
structure ReadAsListed (repository : Repository) (reference : String) (tree : Tree)
    (paths : List String) (path : String)
    : Prop where
  refused : Refuses path → repository.content path reference = .error .corrupt
  listed
    : ¬ Refuses path
      → (path ∈ paths ↔ repository.content path reference ≠ .error (.noFile path reference))
  read
    : ¬ Refuses path
      → path ∈ paths
      → ∃ mode file,
          tree.Reaches (Tree.names (bytes path)) (.blob mode file)
          ∧ repository.content path reference
            = match String.fromUTF8? file with
              | some text => .ok text
              | none => .error (.notText path reference)

/-- The paths of a stored tree are read as they are listed. -/
theorem readAsListed (found : repository.tree reference = .ok tree) (stored : tree.Stored)
    (content : [] ∉ Text.pieces (· = '/') path.toList)
    : repository.ReadAsListed reference tree tree.paths path := by
  have looked (kept : ¬ Refuses path) : isTreePath path = true :=
    Bool.eq_true_of_not_eq_false (mt (isTreePath_eq_false_iff content).mp kept)
  have read (kept : ¬ Refuses path) (listed : path ∈ tree.paths)
      : ∃ mode file,
          tree.Reaches (Tree.names (bytes path)) (.blob mode file)
          ∧ repository.content path reference
            = match String.fromUTF8? file with
              | some text => .ok text
              | none => .error (.notText path reference) := by
    obtain ⟨mode, file, reached⟩ := stored.mem_paths_iff.mp listed
    exact ⟨mode, file, reached, content_of_reaches found stored (looked kept) reached⟩
  refine ⟨fun refused => ?_, fun kept => ⟨fun listed => ?_, fun present => ?_⟩, read⟩
  · exact content_of_refuses found ((isTreePath_eq_false_iff content).mpr refused)
  · obtain ⟨mode, file, _, same⟩ := read kept listed
    rw [same]
    cases String.fromUTF8? file <;> simp
  · apply Decidable.byContradiction
    intro missing
    refine present (content_of_not_reaches found (looked kept) ?_ ?_)
    · exact mt Tree.nil_mem_names_iff.mp content
    · exact fun mode file reached => missing (stored.mem_paths_iff.mpr ⟨mode, file, reached⟩)

end Git.Repository

/-- At a reference that leads to a stored tree, lists of files and their contents agree. A test or a
pattern restricts the list of all files, which ascends by the bytes of whole paths, and every path
of parts with content is read as it is listed. The spec file of the project is the least path of
one.
-/
theorem list_agrees_with_content {repository : Git.Repository} {reference : Option String}
    {tree : Git.Tree} (place : String)
    (found : repository.tree (reference.getD "HEAD") = .ok tree) (stored : tree.Stored)
    : ∃ paths,
        repository.files reference none = .ok paths
        ∧ (∀ test, repository.filesWhere reference test = .ok (paths.filter test))
        ∧ (∀ pattern,
            repository.files reference (some pattern) = .ok (paths.filter pattern.accepts))
        ∧ paths.Pairwise (fun first second => Git.bytes first < Git.bytes second)
        ∧ (∀ path,
            [] ∉ Text.pieces (· = '/') path.toList
            → repository.ReadAsListed (reference.getD "HEAD") tree paths path)
        ∧ ∃ spec,
            ((repository.project place).specFile reference).outcome = .ok spec
            ∧ SpecFile.ChosenByBytes {path | path ∈ paths ∧ SpecFile.IsPath path} spec := by
  have filtered (test : String → Bool)
      : repository.filesWhere reference test = .ok (tree.paths.filter test) := by
    rw [Git.Repository.filesWhere_eq found, stored.listing_eq]
    rfl
  have ascending := stored.ascending_paths
  refine ⟨tree.paths, ?_, filtered, fun pattern => filtered pattern.accepts, ascending, ?_, ?_⟩
  · have all := filtered fun _ => true
    rwa [List.filter_true] at all
  · exact fun path content => Git.Repository.readAsListed found stored content
  · have listed
        : (repository.project place).files reference (some .specFile)
          = .ok (tree.paths.filter Pattern.specFile.accepts) := by
      rw [Git.Repository.files_project]
      exact filtered _
    exact ⟨_, Project.outcome_specFile_of_ok listed, SpecFile.chosenByBytes_head? ascending⟩

namespace Nested

/-- A file in a directory, and one whose name goes on from that of the directory. -/
def changes : List Git.Change :=
  [⟨Git.bytes "a/b.spec", some (.regular, "".toUTF8)⟩,
    ⟨Git.bytes "a.spec", some (.regular, "".toUTF8)⟩]

def tree : Git.Tree :=
  changes.foldl Git.Change.apply []

def reference : String := "0123456789012345678901234567890123456789"

def repository : Git.Repository :=
  .holding reference tree

theorem tree_repository
    : repository.tree reference = .ok tree :=
  Git.Repository.tree_holding (by decide) tree

theorem stored_tree
    : tree.Stored := by
  refine Git.Change.stored_foldl_apply .empty ?_
  intro change member
  simp only [changes, List.mem_cons, List.not_mem_nil, or_false] at member
  rcases member with rfl | rfl
  · exact ⟨"a/b.spec", rfl, by decide⟩
  · exact ⟨"a.spec", rfl, by decide⟩

/-- A dot comes before a slash, so the file comes before the directory. -/
theorem tree_eq
    : tree
      = [(Git.bytes "a.spec", .blob .regular "".toUTF8),
        (Git.bytes "a", .tree [(Git.bytes "b.spec", .blob .regular "".toUTF8)])] := by
  unfold tree changes
  simp only [Git.bytes_eq_flatMap]
  rfl

theorem paths_tree
    : tree.paths = ["a.spec", "a/b.spec"] := by
  have inside
      : Git.Repository.textOf? (Git.bytes "a" ++ Git.slash :: Git.bytes "b.spec")
        = some "a/b.spec" := by
    rw [Git.textOf?_eq_some_iff]
    simp only [Git.bytes_eq_flatMap]
    rfl
  rw [tree_eq]
  simp [Git.Tree.paths, Git.Tree.walk, Git.walkEntries, Git.Node.walk, List.filterMap_cons,
    Git.Visit.path?, Git.textOf?_bytes, inside]

theorem files_repository
    : repository.files (some reference) none = .ok ["a.spec", "a/b.spec"] := by
  rw [@Git.Repository.files_eq _ _ (some reference) tree_repository, stored_tree.listing_eq,
    paths_tree]
  rfl

end Nested

/-- Both files are listed, the one beside the directory before the one in it. What is no file has no
content, and the first file is the spec file.
-/
theorem list_agrees_with_content_nested
    : let repository := Nested.repository
      let reference := Nested.reference
      repository.tree reference = .ok Nested.tree
      ∧ Nested.tree.Stored
      ∧ repository.files (some reference) none = .ok ["a.spec", "a/b.spec"]
      ∧ repository.files (some reference) (some (.startsWith "a/")) = .ok ["a/b.spec"]
      ∧ repository.content "a" reference = .error (.noFile "a" reference)
      ∧ ((repository.project "").specFile (some reference)).outcome = .ok (some "a.spec") := by
  intro repository reference
  obtain ⟨paths, files, _, matching, _, read, spec, chosen, least⟩ :=
    @list_agrees_with_content repository (some reference) _ "" Nested.tree_repository
      Nested.stored_tree
  obtain rfl := Except.ok.inj (files.symm.trans Nested.files_repository)
  refine ⟨Nested.tree_repository, Nested.stored_tree, files, ?_, ?_, ?_⟩
  · rw [matching]
    decide
  · have unlisted : "a" ∉ ["a.spec", "a/b.spec"] := by decide
    have kept : ¬ Git.Repository.Refuses "a" := by
      unfold Git.Repository.Refuses
      decide
    exact not_not.mp (mt ((read "a" (by decide)).listed kept).mpr unlisted)
  · have first : "a.spec" ∈ {path | path ∈ ["a.spec", "a/b.spec"] ∧ SpecFile.IsPath path} :=
      ⟨by decide, SpecFile.accepts_iff_isPath.mp (by decide)⟩
    rw [chosen]
    cases spec with
    | none => exact absurd first (Set.eq_empty_iff_forall_notMem.mp least "a.spec")
    | some path =>
        have member : path = "a.spec" ∨ path = "a/b.spec" := by simpa using least.1.1
        rcases member with rfl | rfl
        · rfl
        · have less : Git.bytes "a.spec" < Git.bytes "a/b.spec" :=
            Git.bytes_lt_iff.mpr (by decide)
          exact absurd less (List.not_lt.mpr (least.2 _ first))

/-- A path that starts with a step is not listed, and yet it is not missing: it is refused. -/
theorem step_neither_listed_nor_missing
    : let repository := Nested.repository
      let reference := Nested.reference
      let path := "./a.spec"
      repository.tree reference = .ok Nested.tree
      ∧ Nested.tree.Stored
      ∧ [] ∉ Text.pieces (· = '/') path.toList
      ∧ ∃ paths,
          repository.files (some reference) none = .ok paths
          ∧ ¬ (path ∈ paths
            ↔ repository.content path reference ≠ .error (.noFile path reference)) := by
  intro repository reference path
  have refused : repository.content path reference = .error .corrupt :=
    Git.Repository.content_of_refuses Nested.tree_repository (by decide)
  have unlisted : path ∉ ["a.spec", "a/b.spec"] := by decide
  refine ⟨Nested.tree_repository, Nested.stored_tree, by decide, _, Nested.files_repository, ?_⟩
  intro same
  exact unlisted (same.mpr (by simp [refused]))

end Packaging
