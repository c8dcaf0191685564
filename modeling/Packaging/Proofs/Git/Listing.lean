import Mathlib.Data.Set.List
import Packaging.Git.Recording
import Packaging.Proofs.Git.Stored

/-! Paths of the files in a stored tree. A walk lists a path just when its names reach a file, and
lists the paths in the order of their bytes.
-/

namespace Packaging.Git

-----------------------------------------------------------------------------------------
-- Paths and their names
-----------------------------------------------------------------------------------------

namespace Tree

/-- The names of a path through directories are those of the directories and the last one. -/
theorem names_append {way : List Name} {name : Name} (plain : ∀ part ∈ way ++ [name], slash ∉ part)
    : names (directoryPath way ++ name) = way ++ [name] := by
  have piece {part : Name} (single : slash ∉ part) : Text.pieces (· = slash) part = [part] := by
    refine Text.pieces_of_forall fun byte member => decide_eq_false ?_
    rintro rfl
    exact single member
  unfold names
  induction way with
  | nil => exact piece (plain name (by simp))
  | cons first rest ih =>
      obtain ⟨own, others⟩ := List.forall_mem_cons.mp plain
      have split
          : directoryPath (first :: rest) ++ name
            = first ++ slash :: (directoryPath rest ++ name) := by
        simp [directoryPath]
      rw [split, Text.pieces_append (by simp), piece own, ih others]
      rfl

/-- The names of a path make the path again. By induction over its bytes. -/
theorem directoryPath_names (path : Name)
    : directoryPath (names path) = path ++ [slash] := by
  unfold names
  induction path with
  | nil => rfl
  | cons byte rest ih =>
      obtain ⟨first, others, split⟩ :=
        List.exists_cons_of_ne_nil (Text.pieces_ne_nil (· = slash) rest)
      by_cases separates : byte = slash
      · simpa [Text.pieces, separates, directoryPath] using ih
      · rw [split] at ih
        simpa [Text.pieces, separates, split, directoryPath] using ih

/-- The names of a text are its parts between slashes, as bytes. By induction over the text. -/
theorem names_bytes (path : String)
    : names (bytes path)
      = (Text.pieces (· = '/') path.toList).map fun part => part.flatMap String.utf8EncodeChar := by
  rw [names, bytes_eq_flatMap]
  induction path.toList with
  | nil => rfl
  | cons c rest ih =>
      rw [List.flatMap_cons]
      by_cases separates : c = '/'
      · have byte : String.utf8EncodeChar '/' = [slash] := by decide
        simp [separates, byte, Text.pieces, ih]
      · have plain : ∀ byte ∈ String.utf8EncodeChar c, decide (byte = slash) = false := by
          intro byte member
          refine decide_eq_false ?_
          rintro rfl
          exact separates (slash_mem_encode_iff.mp member)
        obtain ⟨first, others, split⟩ :=
          List.exists_cons_of_ne_nil (Text.pieces_ne_nil (· = '/') rest)
        rw [split, List.map_cons] at ih
        rw [Text.pieces_append_of_forall plain ih]
        simp [Text.pieces, separates, split]

theorem nil_mem_names_iff {path : String}
    : [] ∈ names (bytes path) ↔ [] ∈ Text.pieces (· = '/') path.toList := by
  rw [names_bytes, List.mem_map]
  constructor
  · rintro ⟨part, member, empty⟩
    cases part with
    | nil => exact member
    | cons c rest => simp [String.utf8EncodeChar_ne_nil] at empty
  · exact fun member => ⟨[], member, rfl⟩

-----------------------------------------------------------------------------------------
-- Files of a stored tree
-----------------------------------------------------------------------------------------

/-- The paths of the files of a tree, in the order of a walk. -/
def paths (tree : Tree) : List String :=
  tree.walk.filterMap Visit.path?

variable {tree : Tree}

theorem Stored.listing_eq (stored : tree.Stored)
    : Repository.listing tree.walk = .ok tree.paths := by
  refine Git.listing_eq fun visit met => ?_
  obtain ⟨way, reached, inside⟩ := exists_reaches_of_mem met
  have proper := stored.proper_of_reaches reached
  obtain ⟨directories, rfl⟩ : way ∈ Set.range (List.map bytes) := by
    rw [Set.range_list_map]
    intro name member
    obtain ⟨text, _, _, rfl⟩ := proper name (List.mem_append_left _ member)
    exact ⟨text, rfl⟩
  obtain ⟨name, _, _, named⟩ := proper visit.name List.mem_concat_self
  refine ⟨String.join (directories.map (· ++ "/")), name, ?_, named⟩
  rw [inside, List.nil_append, directoryPath_map_bytes]

theorem path?_eq_some_iff {visit : Visit} {path : String}
    : visit.path? = some path
      ↔ visit.directory ++ visit.name = bytes path
        ∧ ∃ mode content, visit.node = .blob mode content := by
  unfold Visit.path?
  cases visit.node with
  | blob mode content => simp [textOf?_eq_some_iff]
  | tree entries => simp
  | submodule => simp

/-- Files are listed in the order of their paths as bytes. -/
theorem Stored.ascending_paths (stored : tree.Stored)
    : tree.paths.Pairwise fun first second => bytes first < bytes second := by
  refine (stored.ascending_walkEntries []).filterMap _ ?_
  intro first second less path listed other also
  obtain ⟨left, mode, content, file⟩ := path?_eq_some_iff.mp listed
  obtain ⟨right, _, _, otherFile⟩ := path?_eq_some_iff.mp also
  rw [Visit.key, Visit.key, file, otherFile] at less
  rw [← left, ← right]
  exact less

/-- The paths that are listed are those whose names reach a file. -/
theorem Stored.mem_paths_iff (stored : tree.Stored) {path : String}
    : path ∈ tree.paths
      ↔ ∃ mode content, tree.Reaches (names (bytes path)) (.blob mode content) := by
  rw [paths, List.mem_filterMap]
  constructor
  · rintro ⟨visit, met, listed⟩
    obtain ⟨whole, mode, content, file⟩ := path?_eq_some_iff.mp listed
    obtain ⟨way, reached, inside⟩ := exists_reaches_of_mem met
    have plain : ∀ part ∈ way ++ [visit.name], slash ∉ part :=
      fun part member => (stored.proper_of_reaches reached part member).plain
    refine ⟨mode, content, ?_⟩
    rw [← whole, inside, List.nil_append, names_append plain, ← file]
    exact reached
  · rintro ⟨mode, content, reached⟩
    obtain ⟨way, name, split⟩ : ∃ way name, names (bytes path) = way ++ [name] :=
      ⟨_, _, (List.dropLast_append_getLast (Text.pieces_ne_nil _ _)).symm⟩
    rw [split] at reached
    have whole : directoryPath way ++ name ++ [slash] = bytes path ++ [slash] := by
      rw [← directoryPath_names (bytes path), split]
      simp [directoryPath]
    refine ⟨_, mem_walkEntries_of_reaches reached [], path?_eq_some_iff.mpr ?_⟩
    exact ⟨List.append_cancel_right whole, mode, content, rfl⟩

-----------------------------------------------------------------------------------------
-- Trees of commits
-----------------------------------------------------------------------------------------

/-- The names of a path are names of entries when no part of the path is empty. -/
theorem isEntryName_of_mem_names {path : String} (content : [] ∉ Text.pieces (· = '/') path.toList)
    {name : Name} (member : name ∈ names (bytes path))
    : IsEntryName name := by
  rw [names_bytes] at member
  obtain ⟨part, known, rfl⟩ := List.mem_map.mp member
  refine ⟨String.ofList part, ?_, ?_, ?_⟩
  · intro empty
    have none : part = [] := by simpa using congrArg String.toList empty
    exact content (none ▸ known)
  · intro slash
    have plain := Text.separates_of_mem_pieces known '/' (by simpa using slash)
    simp at plain
  · rw [bytes_eq_flatMap, String.toList_ofList]

end Tree

/-- A change at a path of proper names. -/
def Change.IsProper (change : Change) : Prop :=
  ∃ path : String, change.path = bytes path ∧ [] ∉ Text.pieces (· = '/') path.toList

/-- A change keeps a tree stored. -/
theorem Change.stored_apply {tree : Tree} (stored : tree.Stored) {change : Change}
    (proper : change.IsProper)
    : (change.apply tree).Stored := by
  obtain ⟨path, given, content⟩ := proper
  have names : ∀ name ∈ Tree.names change.path, Tree.IsEntryName name :=
    given ▸ fun name => Tree.isEntryName_of_mem_names content
  unfold apply
  split
  · exact stored.write _ _ names
  · exact stored.remove names

/-- However many changes a tree goes through, it stays stored. By induction over them. -/
theorem Change.stored_foldl_apply {tree : Tree} (stored : tree.Stored) {changes : List Change}
    (proper : ∀ change ∈ changes, change.IsProper)
    : (changes.foldl apply tree).Stored := by
  induction changes generalizing tree with
  | nil => exact stored
  | cons change rest ih =>
      obtain ⟨first, others⟩ := List.forall_mem_cons.mp proper
      exact ih (stored_apply stored first) others

end Packaging.Git
