import Packaging.Proofs.Lookup.SpecFile

/-! The file names that count as spec files. Which of the names that a directory shows count decides
what is found in it, and the first of several directories in which something is found, or which
cannot be listed, decides for all.
-/

namespace Packaging

-----------------------------------------------------------------------------------------
-- Names below a directory
-----------------------------------------------------------------------------------------

namespace Path

/-- A path with an extension has a content. -/
theorem text_ne_of_hasExtension {path : Path} {extension : String}
    (has : path.hasExtension extension = true)
    : path.text ≠ "" := by
  intro empty
  have nameless : path.fileName? = none := by
    rw [fileName?, empty]
    rfl
  simp [hasExtension, extension?, nameless] at has

/-- On a path with content, a name without backslashes stands directly below it. -/
theorem text_join_of_ne {base : Path} (content : base.text ≠ "") {name : String}
    (plain : '\\' ∉ name.toList)
    : (base.join name).text = FileSystem.pathBelow base.text name := by
  have same : String.ofList (slashed name.toList) = name := by
    rw [slashed_of_notMem plain, String.ofList_toList]
  unfold join FileSystem.pathBelow
  simp only [same, if_neg content]
  split <;> rfl

end Path

-----------------------------------------------------------------------------------------
-- Names that count
-----------------------------------------------------------------------------------------

namespace SpecFile

/-- Whether a file name counts as that of a spec file: whether its path has the extension.
Backslashes are read as slashes, and those at the end of the name are left out.
-/
def counts (name : String) : Bool :=
  (Path.ofString name).hasExtension "spec"

/-- Without backslashes the names that count are those of spec files. -/
theorem counts_iff {name : String} (single : Path.IsSegment name)
    : counts name = true ↔ IsName name := by
  rw [counts, Path.ofString_of_isSegment single, hasExtension_iff single]

/-- The name of a spec file also counts with a backslash behind it, which is read as a slash at the
end of its path.
-/
theorem counts_of_backslash {name : String} (single : Path.IsSegment name) (spec : IsName name)
    : counts (name ++ "\\") = true := by
  have kept : Path.withoutDot (name.toList ++ ['/']) = name.toList ++ ['/'] := by
    obtain ⟨front, started, ends⟩ := spec
    unfold Path.withoutDot
    split
    · next rest step =>
      -- A step in place would put a slash into the name itself.
      exfalso
      obtain ⟨c, more, rfl⟩ := List.exists_cons_of_ne_nil started
      have slash : '/' ∈ more ++ ".spec".toList := by
        rw [ends, List.cons_append, List.cons_append, List.cons.injEq] at step
        cases more with
        | nil => simp at step
        | cons d others =>
            obtain ⟨rfl, _⟩ := List.cons.inj step.2
            simp
      exact single.slash (ends ▸ List.mem_cons_of_mem c slash)
    · rfl
  have spelled : (Path.ofString (name ++ "\\")).text = String.ofList (name.toList ++ ['/']) := by
    have turned : Path.slashed (name ++ "\\").toList = name.toList ++ ['/'] := by
      rw [String.toList_append, Path.slashed, List.map_append, ← Path.slashed,
        Path.slashed_of_notMem single.backslash]
      rfl
    rw [Path.ofString, turned, kept]
  have same : (Path.ofString (name ++ "\\")).fileName? = (⟨name⟩ : Path).fileName? := by
    rw [Path.fileName?, Path.fileName?, spelled, String.toList_ofList]
    simp [Path.reversedName]
  have has := (hasExtension_iff single).mpr spec
  rw [Path.hasExtension, Path.extension?] at has
  rw [counts, Path.hasExtension, Path.extension?, same, has]

variable {fs other : FileSystem} {directory : Path} {directories : List Path}

-----------------------------------------------------------------------------------------
-- What is found
-----------------------------------------------------------------------------------------

/-- In a directory that is listed the first name that counts is taken. -/
theorem inDirectory?_of_listed {names : List String} (listed : fs.fileNames directory = .ok names)
    : inDirectory? fs directory = .ok ((names.find? counts).map Path.ofString) := by
  have test : (fun path : Path => path.hasExtension "spec") ∘ Path.ofString = counts := by
    funext name
    rw [Function.comp, counts]
  exact inDirectory?_eq_ok_iff.mpr ⟨names, listed, by rw [List.find?_map, test]⟩

/-- The search of a directory succeeds just when the directory is listed. -/
theorem exists_inDirectory?_iff
    : (∃ spec, inDirectory? fs directory = .ok spec) ↔ fs.Listed directory := by
  constructor
  · rintro ⟨spec, found⟩
    obtain ⟨names, listed, _⟩ := inDirectory?_eq_ok_iff.mp found
    exact ⟨names, listed⟩
  · rintro ⟨names, listed⟩
    exact ⟨_, inDirectory?_of_listed listed⟩

/-- Nothing is found in a directory just when it is listed and shows no name that counts. -/
theorem inDirectory?_eq_none_iff
    : inDirectory? fs directory = .ok none
      ↔ ∃ names, fs.fileNames directory = .ok names ∧ ∀ name ∈ names, counts name = false := by
  cases listed : fs.fileNames directory with
  | error error => simp [inDirectory?_eq_error_iff.mpr listed]
  | ok names => simp [inDirectory?_of_listed listed]

/-- Directories in which nothing is found can be left out. By induction over them. -/
theorem find?_append {before : List Path}
    (nothing : ∀ earlier ∈ before, inDirectory? fs earlier = .ok none) (after : List Path)
    : find? fs (before ++ after) = find? fs after := by
  induction before with
  | nil => rfl
  | cons directory rest ih =>
      obtain ⟨first, others⟩ := List.forall_mem_cons.mp nothing
      rw [List.cons_append, find?, first]
      exact ih others

/-- The first directory in which a file is found, or whose search fails, decides. -/
theorem find?_of_decides {result : Except FileError (Option Path)}
    (decides : inDirectory? fs directory = result) (ends : result ≠ .ok none) (after : List Path)
    : find? fs (directory :: after) = result := by
  rw [find?, decides]
  cases result with
  | error error => rfl
  | ok spec =>
      cases spec with
      | some path => rfl
      | none => exact absurd rfl ends

theorem find?_singleton
    : find? fs [directory] = inDirectory? fs directory := by
  by_cases nothing : inDirectory? fs directory = .ok none
  · rw [find?, nothing]
    rfl
  · exact find?_of_decides rfl nothing []

/-- Either nothing is found in any directory, or there is a first one that decides. By induction
over the directories.
-/
theorem nothing_or_decides (fs : FileSystem) (directories : List Path)
    : (∀ directory ∈ directories, inDirectory? fs directory = .ok none)
      ∨ ∃ before directory after,
          directories = before ++ directory :: after
          ∧ (∀ earlier ∈ before, inDirectory? fs earlier = .ok none)
          ∧ inDirectory? fs directory ≠ .ok none := by
  induction directories with
  | nil => exact .inl fun _ member => absurd member List.not_mem_nil
  | cons directory rest ih =>
      by_cases nothing : inDirectory? fs directory = .ok none
      · rcases ih with none | ⟨before, decider, after, rfl, earlier, ends⟩
        · exact .inl (List.forall_mem_cons.mpr ⟨nothing, none⟩)
        · exact .inr ⟨directory :: before, decider, after, rfl,
            List.forall_mem_cons.mpr ⟨nothing, earlier⟩, ends⟩
      · exact .inr ⟨[], directory, rest, rfl, nofun, nothing⟩

/-- No spec file is found just when none is found in any directory. -/
theorem find?_eq_none_iff
    : find? fs directories = .ok none
      ↔ ∀ directory ∈ directories, inDirectory? fs directory = .ok none := by
  constructor
  · intro missing
    rcases nothing_or_decides fs directories with
      nothing | ⟨before, directory, after, rfl, earlier, ends⟩
    · exact nothing
    · rw [find?_append earlier, find?_of_decides rfl ends] at missing
      exact absurd missing ends
  · intro nothing
    rw [← List.append_nil directories, find?_append nothing]
    rfl

/-- A search ends otherwise just when it does so in a directory, with nothing found in those before.
-/
theorem find?_eq_iff {result : Except FileError (Option Path)} (ends : result ≠ .ok none)
    : find? fs directories = result
      ↔ ∃ before directory after,
          directories = before ++ directory :: after
          ∧ (∀ earlier ∈ before, inDirectory? fs earlier = .ok none)
          ∧ inDirectory? fs directory = result := by
  constructor
  · rintro rfl
    rcases nothing_or_decides fs directories with
      nothing | ⟨before, directory, after, rfl, earlier, others⟩
    · exact absurd (find?_eq_none_iff.mpr nothing) ends
    · refine ⟨before, directory, after, rfl, earlier, ?_⟩
      rw [find?_append earlier, find?_of_decides rfl others]
  · rintro ⟨before, directory, after, rfl, earlier, decides⟩
    rw [find?_append earlier, find?_of_decides decides ends]

/-- A spec file that is found has the path of a name that counts. -/
theorem exists_of_find? {path : Path} (found : find? fs directories = .ok (some path))
    : ∃ name, counts name = true ∧ path = Path.ofString name := by
  obtain ⟨_, directory, _, _, _, inside⟩ := (find?_eq_iff (by simp)).mp found
  cases listed : fs.fileNames directory with
  | error error => simp [inDirectory?_eq_error_iff.mpr listed] at inside
  | ok names =>
      rw [inDirectory?_of_listed listed, Except.ok.injEq, Option.map_eq_some_iff] at inside
      obtain ⟨name, first, rfl⟩ := inside
      exact ⟨name, List.find?_some first, rfl⟩

theorem text_ne_of_find? {path : Path} (found : find? fs directories = .ok (some path))
    : path.text ≠ "" := by
  obtain ⟨name, has, rfl⟩ := exists_of_find? found
  rw [counts] at has
  exact Path.text_ne_of_hasExtension has

/-- A search fails at a directory that refuses to be listed. -/
theorem refused_of_find? {error : FileError} (failed : find? fs directories = .error error)
    : ∃ directory fault, error = .refused directory fault := by
  obtain ⟨_, directory, _, _, _, inside⟩ := (find?_eq_iff (by simp)).mp failed
  obtain ⟨_, fault, _, _, rfl⟩ :=
    FileSystem.fileNames_eq_error_iff.mp (inDirectory?_eq_error_iff.mp inside)
  exact ⟨directory, fault, rfl⟩

-----------------------------------------------------------------------------------------
-- What a search depends on
-----------------------------------------------------------------------------------------

/-- A directory is listed alike by two file systems: of the names that count they show the same, or
both fail for the same reason.
-/
inductive Alike (fs other : FileSystem) (directory : Path) : Prop
  | shown {names others : List String} (listed : fs.fileNames directory = .ok names)
      (again : other.fileNames directory = .ok others)
      (same : ∀ name, counts name = true → (name ∈ names ↔ name ∈ others))
  | refused {error : FileError} (failed : fs.fileNames directory = .error error)
      (again : other.fileNames directory = .error error)

/-- A directory that is listed alike has the same spec file. The least name that counts is taken,
whatever other names are shown.
-/
theorem inDirectory?_congr (alike : Alike fs other directory)
    : inDirectory? fs directory = inDirectory? other directory := by
  cases alike with
  | refused failed again =>
      rw [inDirectory?_eq_error_iff.mpr failed, inDirectory?_eq_error_iff.mpr again]
  | @shown names others listed again same =>
      have equal
          : {name | name ∈ names ∧ counts name = true}
            = {name | name ∈ others ∧ counts name = true} := by
        ext name
        simp only [Set.mem_ofPred_eq]
        exact and_congr_left (same name)
      have chosen : Chosen _ (names.find? counts) := chosen_find? (ascending_fileNames listed)
      have chosenAgain : Chosen _ (others.find? counts) := chosen_find? (ascending_fileNames again)
      rw [equal] at chosen
      rw [inDirectory?_of_listed listed, inDirectory?_of_listed again, chosen.unique chosenAgain]

/-- Directories that are listed alike have the same first spec file. By induction over them. -/
theorem find?_congr (alike : ∀ directory ∈ directories, Alike fs other directory)
    : find? fs directories = find? other directories := by
  induction directories with
  | nil => rfl
  | cons directory rest ih =>
      obtain ⟨first, others⟩ := List.forall_mem_cons.mp alike
      rw [find?, find?, inDirectory?_congr first, ih others]

end SpecFile

end Packaging
