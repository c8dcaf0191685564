import Mathlib.Data.String.Basic
import Mathlib.Order.Bounds.Basic
import Packaging.Lookup.SpecFile
import Packaging.Proofs.Files.Following
import Packaging.Proofs.Paths

/-! The spec file that is chosen, on disk and in a repository. Both choose the least name of a spec
file in the directory, the one by its characters and the other by its bytes.
-/

namespace Packaging

namespace SpecFile

-----------------------------------------------------------------------------------------
-- Names of spec files
-----------------------------------------------------------------------------------------

/-- The name of a spec file: something stands before the extension. -/
def IsName (text : String) : Prop :=
  ∃ front, front ≠ [] ∧ text.toList = front ++ ".spec".toList

/-- On disk a spec file is told by its extension. -/
theorem hasExtension_iff {name : String} (single : Path.IsSegment name)
    : (⟨name⟩ : Path).hasExtension "spec" = true ↔ IsName name := by
  have plain : '.' ∉ "spec".toList := by decide
  rw [Path.hasExtension, decide_eq_true_iff, Path.extension?_of_isSegment single,
    Path.extensionOf?_eq_some_iff, and_iff_right plain]
  rfl

/-- A path of a spec file: something that does not end a line stands before the extension. -/
def IsPath (path : String) : Prop :=
  ∃ front, front ≠ [] ∧ front.getLast? ≠ some '\n' ∧ path.toList = front ++ ".spec".toList

/-- In a repository it is told by the end of its path. -/
theorem accepts_iff_isPath {path : String}
    : Pattern.specFile.accepts path = true ↔ IsPath path := by
  rw [Pattern.accepts]
  constructor
  · intro accepted
    unfold Pattern.isReversedSpec at accepted
    split at accepted
    · next last rest reversed =>
      refine ⟨rest.reverse ++ [last], by simp, by simpa using accepted, ?_⟩
      rw [← List.reverse_inj, reversed]
      simp
    · cases accepted
  · rintro ⟨front, content, line, split⟩
    obtain ⟨before, last, rfl⟩ : ∃ before last, front = before ++ [last] :=
      ⟨_, _, (List.dropLast_append_getLast content).symm⟩
    have kept : last ≠ '\n' := by simpa using line
    rw [split]
    simpa [Pattern.isReversedSpec] using kept

/-- A path in which no line ends is that of a spec file just when it has the form of a name. -/
theorem accepts_iff {path : String} (line : '\n' ∉ path.toList)
    : Pattern.specFile.accepts path = true ↔ IsName path := by
  rw [accepts_iff_isPath]
  refine exists_congr fun front => and_congr_right fun content => and_iff_right_of_imp ?_
  intro split last
  apply line
  rw [split]
  exact List.mem_append_left _ (List.mem_of_getLast? last)

/-- Every path that is accepted ends with the extension. -/
theorem suffix_of_accepts {path : String} (accepted : Pattern.specFile.accepts path = true)
    : ".spec".toList <:+ path.toList := by
  obtain ⟨front, _, _, split⟩ := accepts_iff_isPath.mp accepted
  exact ⟨front, split.symm⟩

-----------------------------------------------------------------------------------------
-- The least name
-----------------------------------------------------------------------------------------

/-- What is chosen from a set of names: the least one, or nothing from no names. -/
def Chosen (names : Set String) : Option String → Prop
  | none => names = ∅
  | some name => IsLeast names name

theorem Chosen.unique {names : Set String} {first second : Option String}
    (chosen : Chosen names first) (other : Chosen names second)
    : first = second := by
  cases first with
  | none =>
      cases second with
      | none => rfl
      | some name => exact absurd other.1 (by rw [show names = ∅ from chosen]; simp)
  | some name =>
      cases second with
      | none => exact absurd chosen.1 (by rw [show names = ∅ from other]; simp)
      | some again => rw [IsLeast.unique chosen other]

/-- The first name of an ascending list that passes a test is the least of those that do. -/
theorem chosen_find? {test : String → Bool} {names : List String}
    (ascending : names.Pairwise (· ≤ ·))
    : Chosen {name | name ∈ names ∧ test name = true} (names.find? test) := by
  cases found : names.find? test with
  | none =>
      have none := List.find?_eq_none.mp found
      exact Set.eq_empty_of_forall_notMem fun name passed => none name passed.1 passed.2
  | some name =>
      obtain ⟨passed, before, after, rfl, failed⟩ := List.find?_eq_some_iff_append.mp found
      refine ⟨⟨by simp, passed⟩, ?_⟩
      rintro other ⟨member, passes⟩
      rcases List.mem_append.mp member with earlier | later
      · have fails := failed other earlier
        simp [passes] at fails
      · rcases List.mem_cons.mp later with rfl | later
        · exact le_refl _
        · exact List.rel_of_pairwise_cons (List.pairwise_append.mp ascending).2.1 later

/-- The first of strictly ascending names is the least of them. -/
theorem chosen_head? {names : List String} (ascending : names.Pairwise (· < ·))
    : Chosen {name | name ∈ names} names.head? := by
  cases names with
  | nil => exact Set.eq_empty_of_forall_notMem fun name member => List.not_mem_nil member
  | cons name rest =>
      refine ⟨List.mem_cons_self, ?_⟩
      intro other member
      rcases List.mem_cons.mp member with rfl | later
      · exact le_refl _
      · exact le_of_lt (List.rel_of_pairwise_cons ascending later)

-----------------------------------------------------------------------------------------
-- On disk
-----------------------------------------------------------------------------------------

variable {fs : FileSystem}

theorem ascending_fileNames {directory : Path} {names : List String}
    (listed : fs.fileNames directory = .ok names)
    : names.Pairwise (· ≤ ·) := by
  have listing := fs.listing_fileNames directory
  rw [listed] at listing
  cases listing with
  | missing => exact List.Pairwise.nil
  | shown =>
      have sorted := @List.pairwise_mergeSort String (fun first second => first ≤ second)
        (fun a b c => by simpa using le_trans) (fun a b => by simpa using le_total a b)
      simpa using sorted _

/-- A search in a directory ends with its listing, or is made among the names that this shows. -/
theorem inDirectory?_eq_ok_iff {directory : Path} {spec : Option Path}
    : inDirectory? fs directory = .ok spec
      ↔ ∃ names,
          fs.fileNames directory = .ok names
          ∧ spec = (names.map Path.ofString).find? (·.hasExtension "spec") := by
  unfold inDirectory?
  cases fs.fileNames directory with
  | error error => simp [bind, Except.bind]
  | ok names => simp [bind, Except.bind, pure, Except.pure, eq_comm]

theorem inDirectory?_eq_error_iff {directory : Path} {error : FileError}
    : inDirectory? fs directory = .error error ↔ fs.fileNames directory = .error error := by
  unfold inDirectory?
  cases fs.fileNames directory with
  | error error => simp [bind, Except.bind]
  | ok names => simp [bind, Except.bind, pure, Except.pure]

/-- Names that are their own paths can be tested as names. By induction over them. -/
theorem map_find?_ofString {names : List String} (test : Path → Bool)
    (own : ∀ name ∈ names, Path.ofString name = ⟨name⟩)
    : ((names.map Path.ofString).find? test).map (·.text)
      = names.find? fun name => test ⟨name⟩ := by
  induction names with
  | nil => rfl
  | cons name rest ih =>
      obtain ⟨first, others⟩ := List.forall_mem_cons.mp own
      rw [List.map_cons, List.find?_cons, List.find?_cons, first]
      cases test ⟨name⟩ with
      | true => rfl
      | false => exact ih others

/-- In a directory whose names hold no backslashes the least name of a spec file is chosen. -/
theorem chosen_inDirectory? (named : fs.Named) {directory : Path} (content : directory.text ≠ "")
    (plain
      : ∀ name : FileName,
          fs.isFile (FileSystem.pathBelow directory.text name.text) = true
          → '\\' ∉ name.text.toList)
    {spec : Option Path} (found : inDirectory? fs directory = .ok spec)
    : Chosen
        {text | IsName text ∧ ∃ name : FileName,
          name.text = text ∧ fs.isFile (FileSystem.pathBelow directory.text name.text) = true}
        (spec.map (·.text)) := by
  obtain ⟨shown, listed, rfl⟩ := inDirectory?_eq_ok_iff.mp found
  have single (text : String) (member : text ∈ shown) : Path.IsSegment text := by
    obtain ⟨name, rfl, file⟩ := (FileSystem.mem_fileNames_iff named content listed).mp member
    exact ⟨name.content, name.slash, plain name file⟩
  have names
      : {text | IsName text ∧ ∃ name : FileName,
          name.text = text ∧ fs.isFile (FileSystem.pathBelow directory.text name.text) = true}
        = {text | text ∈ shown ∧ (⟨text⟩ : Path).hasExtension "spec" = true} := by
    ext text
    simp only [Set.mem_ofPred_eq, ← FileSystem.mem_fileNames_iff named content listed]
    rw [and_comm]
    exact and_congr_right fun member => (hasExtension_iff (single text member)).symm
  rw [names, map_find?_ofString _ fun name member =>
    Path.ofString_of_isSegment (single name member)]
  exact chosen_find? (ascending_fileNames listed)

end SpecFile

-----------------------------------------------------------------------------------------
-- In a repository
-----------------------------------------------------------------------------------------

namespace FileTree

/-- Every file whose path has the extension of spec files is directly in the directory. -/
def SpecsOutside (tree : FileTree) : Prop :=
  ∀ directories name executable content,
    tree.at? (directories ++ [name]) = some (.file executable content)
    → ".spec".toList <:+ (name.pathIn directories).toList
    → directories = []

/-- The names of spec files directly in a directory. -/
def specNames (tree : FileTree) : Set String :=
  {text | SpecFile.IsName text ∧ ∃ name : FileName,
    name.text = text ∧ ∃ executable content, tree.at? [name] = some (.file executable content)}

variable {entries : List (FileName × FileTree)}

/-- The name of an entry if it is a spec file. -/
def specName? (entry : Git.Name × Git.Node) : Option String :=
  (Git.Visit.path? ⟨[], entry.1, entry.2⟩).filter Pattern.specFile.accepts

/-- The spec files of a walk are those among the entries themselves. -/
theorem filter_listing (outside : SpecsOutside (directory entries))
    : ((toTree entries).walk.filterMap Git.Visit.path?).filter Pattern.specFile.accepts
      = (toTree entries).filterMap specName? := by
  rw [List.filter_filterMap]
  refine Git.filterMap_walkEntries fun entry member visit below => ?_
  apply Option.filter_eq_none_iff.mpr
  intro path listed accepted
  have met := Git.mem_walkEntries_of_mem member below
  obtain ⟨directories, name, executable, content, stands, rfl, inside⟩ :=
    exists_file_of_path? met listed
  obtain rfl := outside directories name executable content stands
    (SpecFile.suffix_of_accepts accepted)
  -- What is met below an entry is in a directory, and no path of directories is empty.
  obtain ⟨way, _, path⟩ := Git.Node.exists_reaches below
  have empty : visit.directory = [] := by
    rw [inside]
    exact Git.bytes_eq_nil_iff.mpr rfl
  simp [path] at empty

theorem specName?_eq_some_iff {entry : Git.Name × Git.Node} {text : String}
    : specName? entry = some text
      ↔ entry.1 = Git.bytes text ∧ (∃ mode content, entry.2 = .blob mode content)
        ∧ Pattern.specFile.accepts text = true := by
  unfold specName? Git.Visit.path?
  rw [Option.filter_eq_some_iff]
  cases entry.2 with
  | blob mode content =>
      dsimp only
      rw [List.nil_append, Git.textOf?_eq_some_iff]
      simp
  | tree below => simp
  | submodule => simp

/-- Spec files of a repository are listed in ascending order. -/
theorem ascending_specNames (entries : List (FileName × FileTree))
    : ((toTree entries).filterMap specName?).Pairwise (· < ·) := by
  refine (stored_toTree entries).named.ascending.filterMap _ ?_
  intro first second less text chosen other also
  obtain ⟨named, ⟨mode, content, blob⟩, _⟩ := specName?_eq_some_iff.mp chosen
  obtain ⟨again, ⟨_, _, otherBlob⟩, _⟩ := specName?_eq_some_iff.mp also
  -- A file is ordered by its name alone.
  rw [Git.Tree.key, Git.Tree.key, blob, otherBlob] at less
  exact Git.bytes_lt_iff.mp (named ▸ again ▸ less)

/-- The names of spec files in a repository are those of the tree. -/
theorem mem_specNames_iff (plain : PlainNames (directory entries)) {text : String}
    : text ∈ (toTree entries).filterMap specName? ↔ text ∈ specNames (directory entries) := by
  rw [List.mem_filterMap]
  constructor
  · intro listed
    obtain ⟨entry, member, chosen⟩ := listed
    obtain ⟨name, tree, found, rfl⟩ := exists_of_mem_toTree member
    obtain ⟨named, ⟨mode, bytes, blob⟩, accepted⟩ := specName?_eq_some_iff.mp chosen
    obtain rfl : name.text = text := Git.bytes_injective named
    have stands : (directory entries).at? [name] = some tree := (at?_single _ _).trans found
    have line := (plain [name] tree stands name List.mem_cons_self).2
    cases tree with
    | file executable content =>
        exact ⟨(SpecFile.accepts_iff line).mp accepted, name, rfl, executable, content, stands⟩
    | directory below => simp [toNode] at blob
  · intro chosen
    obtain ⟨named, name, rfl, executable, content, stands⟩ := chosen
    have line := (plain [name] _ stands name List.mem_cons_self).2
    have kept : (toTree entries).lookup? (Git.bytes name.text) = _ := lookup?_toTree entries name
    rw [← at?_single, stands] at kept
    refine ⟨_, Git.Tree.mem_of_lookup? kept, specName?_eq_some_iff.mpr ⟨rfl, ?_, ?_⟩⟩
    · exact ⟨_, content, by rw [toNode]⟩
    · exact (SpecFile.accepts_iff line).mpr named

/-- In a repository the least name of a spec file is chosen, as long as there are none deeper. -/
theorem chosen_listing (plain : PlainNames (directory entries))
    (outside : SpecsOutside (directory entries))
    : SpecFile.Chosen (specNames (directory entries))
        (((toTree entries).walk.filterMap Git.Visit.path?).filter
          Pattern.specFile.accepts).head? := by
  have names
      : specNames (directory entries) = {text | text ∈ (toTree entries).filterMap specName?} := by
    ext text
    exact (mem_specNames_iff plain).symm
  rw [filter_listing outside, names]
  exact SpecFile.chosen_head? (ascending_specNames entries)

theorem not_isName_git
    : ¬ SpecFile.IsName FileName.git.text := by
  intro named
  obtain ⟨front, _, split⟩ := named
  have length := congrArg List.length split
  simp [FileName.git] at length

/-- On disk the least name is chosen in a directory that holds the tree. -/
theorem chosen_of_holds {fs : FileSystem} {tree : FileTree} (named : fs.Named) {path : String}
    (content : path ≠ "") (holds : fs.Holds path tree) (plain : tree.PlainNames)
    {spec : Option Path} (found : SpecFile.inDirectory? fs ⟨path⟩ = .ok spec)
    : SpecFile.Chosen tree.specNames (spec.map (·.text)) := by
  have noBackslash (name : FileName)
      (file : fs.isFile (FileSystem.pathBelow path name.text) = true)
      : '\\' ∉ name.text.toList := by
    by_cases git : name = FileName.git
    · rw [git]
      decide
    · obtain ⟨_, _, stands⟩ := (holds.isFile_iff git).mp file
      exact (plain [name] _ stands name List.mem_cons_self).1
  have names
      : tree.specNames
        = {text | SpecFile.IsName text ∧ ∃ name : FileName,
            name.text = text ∧ fs.isFile (FileSystem.pathBelow path name.text) = true} := by
    ext text
    refine and_congr_right fun spec => exists_congr fun name => and_congr_right fun same => ?_
    have other : name ≠ FileName.git := by
      rintro rfl
      exact not_isName_git (same ▸ spec)
    exact (holds.isFile_iff other).symm
  rw [names]
  exact SpecFile.chosen_inDirectory? named content noBackslash found

end FileTree

end Packaging
