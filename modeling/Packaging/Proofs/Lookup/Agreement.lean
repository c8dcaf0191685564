import Packaging.Proofs.Files.Checkout
import Packaging.Proofs.Git.Identifiers
import Packaging.Proofs.Lookup.Malformed
import Packaging.Proofs.Lookup.SpecNames

/-! One tree in a directory and in a repository. Both lookups take the same file for the document
and the same name for the spec file, so they come to the same end.
-/

namespace Packaging

/-- A lookup on disk and one in a repository end alike. A text that cannot be read is malformed in
both, although it comes from other places, and an invalid value is one under the same key.
-/
inductive Agree : Except Error Package → Except Error (Option Package) → Prop
  | resolved (package : Package) : Agree (.ok package) (.ok (some package))
  | notFound (searched : List Path) : Agree (.error (.configNotFound searched)) (.ok none)
  | missingSpecFile : Agree (.error .missingSpecFile) (.error .missingSpecFile)
  | malformed (format : Format) (first second : Path)
    : Agree (.error (.unparsable (.file (.malformed format first))))
        (.error (.unparsable (.file (.malformed format second))))
  | invalid (key : String) (fault : Fault)
    : Agree (.error (.unparsable (.invalid key fault)))
        (.error (.unparsable (.invalid key fault)))

/-- A text comes to the same end wherever it is found. -/
theorem Hints.agree_ofContent (hints : Hints) (format : Format) (first second : Path)
    {content : ByteArray} {text : String} (decoded : String.fromUTF8? content = some text)
    : Agree (hints.ofContent format first content)
        ((hints.ofContent format second content).map some) := by
  unfold ofContent
  rw [decoded]
  dsimp only
  cases read : format.read? text with
  | none => exact .malformed format first second
  | some document =>
      dsimp only
      have ending := hints.ending_resolve (Format.ordered_read? read)
      generalize (hints.resolve document).outcome = outcome at ending
      cases ending with
      | resolved => exact .resolved _
      | missingSpec => exact .missingSpecFile
      | noMapping => exact .invalid _ _
      | invalidPackage => exact .invalid _ _
      | invalidJob => exact .invalid _ _

/-- The name of a document as one in a directory. -/
def ConfigName.fileName (name : ConfigName) : FileName where
  text := name.label
  content := name.isSegment_label.content
  noStep := by cases name <;> decide
  slash := name.isSegment_label.slash
  zero := by cases name <;> decide

namespace FileTree

/-- The content of the file that a name is directly in a directory. -/
def file? (tree : FileTree) (name : FileName) : Option ByteArray :=
  match tree.at? [name] with
  | some (.file _ content) => some content
  | _ => none

/-- In a repository a name is the same file as in the tree. -/
theorem file?_toTree (entries : List (FileName × FileTree)) (name : FileName)
    : (toTree entries).file? name.text = (directory entries).file? name := by
  unfold Git.Tree.file? file?
  rw [lookup?_toTree, at?_single]
  cases entries.lookup name with
  | none => rfl
  | some tree => cases tree <;> rfl

theorem file?_eq_some_iff {tree : FileTree} {name : FileName} {content : ByteArray}
    : tree.file? name = some content
      ↔ ∃ executable, tree.at? [name] = some (.file executable content) := by
  unfold file?
  split <;> simp_all

variable {fs : FileSystem} {path : String} {tree : FileTree}

/-- On disk a name is the same file as in the tree. -/
theorem isFile_of_holds (holds : fs.Holds path tree) {name : FileName} (other : name ≠ FileName.git)
    : fs.isFile (FileSystem.pathBelow path name.text) = (tree.file? name).isSome := by
  rw [Bool.eq_iff_iff, holds.isFile_iff other, Option.isSome_iff_exists]
  simp only [file?_eq_some_iff]
  exact exists_comm

-----------------------------------------------------------------------------------------
-- The file that decides
-----------------------------------------------------------------------------------------

theorem label_ne_git (name : ConfigName)
    : name.fileName ≠ FileName.git := by
  cases name <;> decide

/-- The candidates in one directory have the paths of the names in it. -/
theorem text_candidatePath (content : path ≠ "") (name : ConfigName)
    : (Locator.candidatePath (⟨path⟩, name)).text
      = FileSystem.pathBelow path name.fileName.text :=
  Path.text_join_of_ne content name.isSegment_label.backslash

theorem candidates_single (directory : Path)
    : Locator.candidates [directory] = ConfigName.all.map fun name => (directory, name) := by
  rw [Locator.candidates, List.flatMap_singleton]

variable {entries : List (FileName × FileTree)}

/-- On disk a candidate is a file just when its name is one in the repository. -/
theorem isFile_candidatePath (content : path ≠ "") (holds : fs.Holds path (directory entries))
    (name : ConfigName)
    : fs.isFile (Locator.candidatePath (⟨path⟩, name)).text
      = ((toTree entries).file? name.label).isSome := by
  rw [text_candidatePath content, isFile_of_holds holds (label_ne_git name), ← file?_toTree]
  rfl

theorem misses_of_holds (content : path ≠ "") (holds : fs.Holds path (directory entries))
    (misses : (toTree entries).Misses)
    : Locator.Misses fs [⟨path⟩] := by
  intro candidate member
  rw [candidates_single] at member
  obtain ⟨name, _, rfl⟩ := List.mem_map.mp member
  rw [isFile_candidatePath content holds, misses name]
  rfl

/-- The file that decides in the repository decides on disk. -/
theorem decides_of_holds (content : path ≠ "") (holds : fs.Holds path (directory entries))
    {name : ConfigName} {bytes : ByteArray} (decides : (toTree entries).Decides name bytes)
    : Locator.Decides fs [⟨path⟩] (⟨path⟩, name) bytes := by
  obtain ⟨⟨before, after, split, missing⟩, file⟩ := decides
  constructor
  · refine ⟨before.map fun name => (⟨path⟩, name), after.map fun name => (⟨path⟩, name), ?_, ?_⟩
    · rw [candidates_single, split, List.map_append, List.map_cons]
    · intro earlier member
      obtain ⟨other, known, rfl⟩ := List.mem_map.mp member
      rw [isFile_candidatePath content holds, missing other known]
      rfl
  · have named : (directory entries).file? name.fileName = some bytes :=
      (file?_toTree entries name.fileName).symm.trans file
    obtain ⟨executable, stands⟩ := file?_eq_some_iff.mp named
    rw [text_candidatePath content]
    exact holds.readBytes stands

end FileTree

open FileTree

/-- A directory and a repository that hold one tree agree. The names in the tree hold no backslash
and no end of a line, its files are texts, and its spec files are directly in the directory, which
is given by a path from the root without backslashes. The lookup on disk in this directory alone,
with the name of the project, ends as the lookup in the project does.
-/
theorem locate_agrees_with_package {fs : FileSystem} {path : String}
    {entries : List (FileName × FileTree)} {repository : Git.Repository} {reference : String}
    (place : String) (named : fs.Named)
    (root : FileSystem.isAbsolute path = true) (plainPath : '\\' ∉ path.toList)
    (plain : PlainNames (directory entries))
    (texts
      : ∀ way executable content,
          (directory entries).at? way = some (.file executable content)
          → (String.fromUTF8? content).isSome)
    (outside : SpecsOutside (directory entries))
    (holds : fs.Holds path (directory entries))
    (kept : repository.tree reference = .ok (toTree entries))
    : let project := repository.project place
      let locator : Locator :=
        { directories := [Path.ofString path], repoName := some project.name }
      Agree (locator.locate fs).outcome (project.package reference).outcome := by
  intro project locator
  have slash : path.toList.head? = some '/' := by simpa [FileSystem.isAbsolute] using root
  have content : path ≠ "" := by
    rintro rfl
    cases slash
  have order : (locator.searchOrder fs).outcome = .ok [⟨path⟩] := by
    rw [← Path.ofString_of_root slash plainPath]
    rfl
  rcases (toTree entries).misses_or_decides with misses | ⟨name, bytes, decides⟩
  · rw [Locator.outcome_locate_of_misses order (misses_of_holds content holds misses),
      Git.Repository.outcome_package_of_misses place kept misses]
    exact .notFound _
  · have file : (directory entries).file? name.fileName = some bytes :=
      (file?_toTree entries name.fileName).symm.trans decides.content
    obtain ⟨executable, stands⟩ := file?_eq_some_iff.mp file
    obtain ⟨text, decoded⟩ := Option.isSome_iff_exists.mp (texts _ _ _ stands)
    obtain ⟨spec, inside⟩ := SpecFile.exists_inDirectory?_iff.mpr holds.listed
    have found : SpecFile.find? fs [⟨path⟩] = .ok spec := SpecFile.find?_singleton.trans inside
    have same
        : spec.map (·.text)
          = (((toTree entries).walk.filterMap Git.Visit.path?).filter
              Pattern.specFile.accepts).head? :=
      SpecFile.Chosen.unique (chosen_of_holds named content holds plain inside)
        (chosen_listing plain outside)
    have hints
        : locator.hints spec name
          = project.hints name (((toTree entries).walk.filterMap Git.Visit.path?).filter
              Pattern.specFile.accepts).head? := by
      rw [Locator.hints, same]
      rfl
    rw [Locator.outcome_locate_of_decides order (decides_of_holds content holds decides) found,
      Git.Repository.outcome_package_of_listed place kept decides decoded (listing_toTree entries),
      hints]
    exact Hints.agree_ofContent _ _ _ _ decoded

-----------------------------------------------------------------------------------------
-- A tree in both places
-----------------------------------------------------------------------------------------

namespace Sample

/-- A document, a spec file, and a directory that is named like one. -/
def entries : List (FileName × FileTree) :=
  [(ConfigName.hiddenJson.fileName, .file false "\x7b\x7d".toUTF8),
    (FileName.secondSpec, .file false "".toUTF8), (FileName.firstSpec, .directory [])]

def source : FileName :=
  FileSystem.checkoutName

/-- The entries on disk, in a directory below the root. -/
def files : FileSystem :=
  ⟨(directory entries).placed [source.text], [], []⟩

def reference : String := "0123456789012345678901234567890123456789"

/-- The entries in a repository, at the identifier of their tree. -/
def repository : Git.Repository where
  database := {
    files := ⟨[], [], []⟩
    directory := []
    shared := []
    objects := [(reference.toList, .tree (toTree entries))]
    config := []
    withoutList := false
    now := 0 }
  workDirectory := none

/-- Bytes of a text stand for a text. -/
theorem isSome_fromUTF8?_toUTF8 (text : String)
    : (String.fromUTF8? text.toUTF8).isSome := by
  rw [Git.fromUTF8?_toUTF8]
  rfl

theorem tree_repository
    : repository.tree reference = .ok (toTree entries) :=
  Git.Repository.tree_holding (by decide) (toTree entries)

/-- Nothing stands below the entries themselves. -/
theorem mem_entries_of_at? {way : List FileName} {node : FileTree}
    (stands : (directory entries).at? way = some node)
    : way = [] ∧ node = directory entries ∨ ∃ name, way = [name] ∧ (name, node) ∈ entries := by
  cases way with
  | nil => exact Or.inl ⟨rfl, (Option.some.inj stands).symm⟩
  | cons name rest =>
      obtain ⟨tree, member, further⟩ := exists_of_at?_cons stands
      have flat : rest = [] := by
        cases rest with
        | nil => rfl
        | cons next _ =>
            simp only [entries, List.mem_cons, List.not_mem_nil, or_false, Prod.mk.injEq] at member
            rcases member with ⟨_, rfl⟩ | ⟨_, rfl⟩ | ⟨_, rfl⟩ <;> simp [at?] at further
      subst flat
      obtain rfl : tree = node := by simpa [at?] using further
      exact Or.inr ⟨name, rfl, member⟩

theorem find_files
    : files.find "/src" = .ok ([source.text], .directory) := by
  refine FileSystem.find_eq_ok_iff.mpr ⟨by decide, by decide, by decide, ?_⟩
  have steps : FileSystem.components "/src" = ["", source.text] := by decide
  have root : files.origin "/src" = [] := by decide
  have stands : files.entry? ([] ++ [source.text]) = some (directory entries).entry := rfl
  rw [steps, root, FileSystem.follow_empty, FileSystem.follow_name (by decide) stands,
    FileSystem.follow]
  rfl

/-- The entries on disk are those in the repository. -/
theorem holds_files
    : files.Holds "/src" (directory entries) := by
  have short
      : ∀ entry ∈ entries,
          (FileSystem.pathOf "/src" [entry.1]).utf8ByteSize < FileSystem.pathLimit
          ∧ entry.1.text.utf8ByteSize ≤ FileSystem.nameLimit := by
    decide
  refine (FileSystem.standsAt_placed (by decide) _ _).holds rfl find_files (by decide) ?_
  intro way node stands
  rcases mem_entries_of_at? stands with ⟨rfl, _⟩ | ⟨name, rfl, member⟩
  · decide
  · simpa using short _ member

end Sample

/-- Both agree on a tree with a directory that is named like a spec file. -/
theorem locate_agrees_with_package_of_sample
    : let project := Sample.repository.project ""
      let locator : Locator :=
        { directories := [Path.ofString "/src"], repoName := some project.name }
      Agree (locator.locate Sample.files).outcome (project.package Sample.reference).outcome := by
  have plain
      : ∀ entry ∈ Sample.entries,
          '\\' ∉ entry.1.text.toList ∧ '\n' ∉ entry.1.text.toList := by
    decide
  have texts
      : ∀ entry ∈ Sample.entries, ∀ executable content,
          entry.2 = .file executable content → (String.fromUTF8? content).isSome := by
    intro entry member executable content same
    simp only [Sample.entries, List.mem_cons, List.not_mem_nil, or_false] at member
    rcases member with rfl | rfl | rfl <;> cases same <;> exact Sample.isSome_fromUTF8?_toUTF8 _
  have proper : ∀ text ∈ [Sample.source.text], ∃ name : FileName, name.text = text := by
    intro text member
    exact ⟨Sample.source, (List.mem_singleton.mp member).symm⟩
  refine locate_agrees_with_package "" (FileSystem.named_placed proper _ _) (by decide)
    (by decide) ?_ ?_ ?_ Sample.holds_files Sample.tree_repository
  · intro way node stands name member
    rcases Sample.mem_entries_of_at? stands with ⟨rfl, _⟩ | ⟨other, rfl, known⟩
    · cases member
    · obtain rfl := List.mem_singleton.mp member
      exact plain _ known
  · intro way executable content stands
    rcases Sample.mem_entries_of_at? stands with ⟨_, same⟩ | ⟨name, _, known⟩
    · cases same
    · exact texts _ known executable content rfl
  · intro directories name executable content stands _
    rcases Sample.mem_entries_of_at? stands with ⟨empty, _⟩ | ⟨other, single, _⟩
    · simp at empty
    · have alone : directories = [] ∧ name = other := by
        simpa [List.append_eq_singleton_iff] using single
      exact alone.1

end Packaging
