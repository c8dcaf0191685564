import Packaging.Proofs.Files.Checkout
import Packaging.Proofs.Lookup.Directories
import Packaging.Proofs.Lookup.SpecNames

/-! What a lookup in directories depends on. The first candidate that is a file decides, and of all
other files only the names of spec files matter.
-/

namespace Packaging

namespace Locator

-----------------------------------------------------------------------------------------
-- The order of the candidates
-----------------------------------------------------------------------------------------

/-- What is before a candidate: all names in earlier directories, and earlier names in its own. By
induction over the directories.
-/
theorem exists_split_of_candidates {directories : List Path} {candidate : Path × ConfigName}
    {before after : List (Path × ConfigName)}
    (split : candidates directories = before ++ candidate :: after)
    : ∃ earlier later names others,
        directories = earlier ++ candidate.1 :: later
        ∧ ConfigName.all = names ++ candidate.2 :: others
        ∧ before = candidates earlier ++ names.map fun name => (candidate.1, name) := by
  induction directories generalizing before with
  | nil => simp [candidates] at split
  | cons directory rest ih =>
      rw [candidates, List.flatMap_cons, ← candidates, List.append_eq_append_iff] at split
      rcases split with ⟨further, rfl, below⟩ | ⟨left, here, below⟩
      · obtain ⟨earlier, later, names, others, rfl, all, rfl⟩ := ih below
        refine ⟨directory :: earlier, later, names, others, rfl, all, ?_⟩
        simp [candidates]
      · cases left with
        | nil =>
            have further : candidates rest = [] ++ candidate :: after := below.symm
            obtain ⟨earlier, later, names, others, rfl, all, none⟩ := ih further
            refine ⟨directory :: earlier, later, names, others, rfl, all, ?_⟩
            obtain ⟨noCandidate, noName⟩ := List.append_eq_nil_iff.mp none.symm
            rw [List.append_nil] at here
            rw [noName, ← here, candidates, List.flatMap_cons, ← candidates, noCandidate]
            simp
        | cons first more =>
            obtain ⟨rfl, rfl⟩ := List.cons.inj below
            obtain ⟨names, others, all, rfl, own⟩ := List.map_eq_append_iff.mp here
            obtain ⟨name, others, rfl, rfl, _⟩ := List.map_eq_cons_iff.mp own
            exact ⟨[], rest, names, others, rfl, all, rfl⟩

/-- Directories are missed just when in none of them any of the names is a file. -/
theorem misses_iff {fs : FileSystem} {directories : List Path}
    : Misses fs directories
      ↔ ∀ directory ∈ directories, ∀ name : ConfigName,
          fs.isFile (directory.join name.label).text = false := by
  constructor
  · intro misses directory member name
    have named : name ∈ ConfigName.all := by cases name <;> decide
    exact misses (directory, name)
      (List.mem_flatMap.mpr ⟨directory, member, List.mem_map_of_mem named⟩)
  · intro missing candidate member
    obtain ⟨directory, searched, inside⟩ := List.mem_flatMap.mp member
    obtain ⟨name, _, rfl⟩ := List.mem_map.mp inside
    exact missing directory searched name

-----------------------------------------------------------------------------------------
-- What decides
-----------------------------------------------------------------------------------------

/-- Two file systems list each of the directories alike: of the names that count as spec files, the
same are those of files, or neither file system lists the directory.
-/
def SameSpecs (fs other : FileSystem) (directories : List Path) : Prop :=
  ∀ directory ∈ directories, SpecFile.Alike fs other directory

variable {locator : Locator} {fs other : FileSystem} {directories : List Path}

/-- A lookup only depends on the content of the file that decides and on the spec files that the
directories show.
-/
theorem outcome_locate_congr (order : (locator.searchOrder fs).outcome = .ok directories)
    {candidate : Path × ConfigName} {content : ByteArray}
    (decides : Decides fs directories candidate content)
    (again : (locator.searchOrder other).outcome = .ok directories)
    (decidesAgain : Decides other directories candidate content)
    (same : SameSpecs fs other directories)
    : (locator.locate other).outcome = (locator.locate fs).outcome := by
  rw [outcome_locate_of_first order decides.first?_eq,
    outcome_locate_of_first again decidesAgain.first?_eq, load_candidatePath decides.content,
    load_candidatePath decidesAgain.content, SpecFile.find?_congr same]

/-- The candidate that decides is the first one that is a file: no earlier directory has any of the
files, and its own directory has none of an earlier name.
-/
theorem Leads.exists_split {candidate : Path × ConfigName}
    (first : Leads fs directories candidate)
    : ∃ earlier later names others,
        directories = earlier ++ candidate.1 :: later
        ∧ ConfigName.all = names ++ candidate.2 :: others
        ∧ (∀ directory ∈ earlier, ∀ name : ConfigName,
            fs.isFile (directory.join name.label).text = false)
        ∧ ∀ name ∈ names, fs.isFile (candidate.1.join name.label).text = false := by
  obtain ⟨before, after, split, missing⟩ := first
  obtain ⟨earlier, later, names, others, order, all, rfl⟩ := exists_split_of_candidates split
  refine ⟨earlier, later, names, others, order, all, misses_iff.mp ?_, ?_⟩
  · intro candidate member
    exact missing candidate (List.mem_append_left _ member)
  · intro name member
    exact missing (candidate.1, name)
      (List.mem_append_right _ (List.mem_map_of_mem member))

/-- The candidate that decides is the first one that is a file, in the first directory with any and
under the first name in it. Without one the lookup tells all directories that it searched. A
document that loads is resolved with the name of its file, the name of the repository and the first
spec file of the directories, and one that does not load, or a directory that cannot be listed, ends
the lookup. So where the candidate decides with the same content in another file system that shows
the same spec files, the lookup comes to the same there, whatever stands under later candidates.
Without backslashes the names that count as spec files are just those that end in `.spec`, but such
a name counts as well with a backslash behind it.
-/
theorem first_file_decides (order : (locator.searchOrder fs).outcome = .ok directories)
    : (Misses fs directories
        → (locator.locate fs).outcome = .error (.configNotFound directories))
      ∧ (¬ Misses fs directories
        → ∃ candidate,
            (∃ content, Decides fs directories candidate content)
            ∨ ∃ fault, Blocks fs directories candidate fault)
      ∧ (∀ candidate fault,
          Blocks fs directories candidate fault
          → (locator.locate fs).outcome
            = .error (.unparsable (.file (.refused (candidatePath candidate) fault))))
      ∧ (∀ candidate content,
          Decides fs directories candidate content
          → (∃ earlier later names others,
              directories = earlier ++ candidate.1 :: later
              ∧ ConfigName.all = names ++ candidate.2 :: others
              ∧ (∀ directory ∈ earlier, ∀ name : ConfigName,
                  fs.isFile (directory.join name.label).text = false)
              ∧ ∀ name ∈ names, fs.isFile (candidate.1.join name.label).text = false)
            ∧ (∀ document,
                fs.load (candidatePath candidate) = .ok document
                → (∀ spec,
                    SpecFile.find? fs directories = .ok spec
                    → (locator.locate fs).outcome
                      = (Hints.resolve
                          { configPath := some candidate.2.label
                            repoName := locator.repoName
                            specPath := spec.map (·.text) }
                          document).outcome)
                  ∧ ∀ error,
                      SpecFile.find? fs directories = .error error
                      → (locator.locate fs).outcome = .error (.file error))
            ∧ ∀ other,
                (locator.searchOrder other).outcome = .ok directories
                → Decides other directories candidate content
                → SameSpecs fs other directories
                → (locator.locate other).outcome = (locator.locate fs).outcome)
      ∧ ∀ name,
          Path.IsSegment name
          → (SpecFile.counts name = true ↔ SpecFile.IsName name)
            ∧ (SpecFile.IsName name → SpecFile.counts (name ++ "\\") = true) := by
  refine ⟨outcome_locate_of_misses order, ?_, fun _ _ => outcome_locate_of_blocks order, ?_,
    fun name single => ⟨SpecFile.counts_iff single, SpecFile.counts_of_backslash single⟩⟩
  · intro found
    exact (misses_or_leads fs directories).resolve_left found
  · intro candidate content decides
    refine ⟨decides.first.exists_split, fun document loaded => ⟨?_, ?_⟩, ?_⟩
    · intro spec found
      exact outcome_locate_of_loaded order decides.first?_eq loaded found
    · intro error failed
      exact outcome_locate_of_unlisted order decides.first?_eq loaded failed
    · intro other again decidesAgain same
      exact outcome_locate_congr order decides again decidesAgain same

end Locator

namespace TwoDocuments

def firstName : FileName :=
  ⟨".packit.yml", by decide, by decide, by decide, by decide⟩

def laterName : FileName :=
  ⟨"packit.json", by decide, by decide, by decide, by decide⟩

def specName : FileName :=
  FileName.secondSpec

/-- An empty document beside a spec file. -/
def alone : List (FileName × String) :=
  [(firstName, "\x7b\x7d"), (specName, "")]

/-- The same beside a document of a later name that is malformed. -/
def both : List (FileName × String) :=
  [(laterName, "\x7b"), (firstName, "\x7b\x7d"), (specName, "")]

/-- The document of the earlier name decides where no file has the first name of all. -/
theorem decides_checkout {files : List (FileName × String)}
    (held : files.lookup firstName = some "\x7b\x7d")
    (missing : ∀ file ∈ files, file.1.text ≠ ".packit.yaml")
    : Locator.Decides (.checkout files) [⟨"/src"⟩] (⟨"/src"⟩, .hiddenYml) "\x7b\x7d".toUTF8 := by
  refine { first := ⟨[(⟨"/src"⟩, .hiddenYaml)], _, rfl, ?_⟩, content := ?_ }
  · intro earlier member
    obtain rfl := List.mem_singleton.mp member
    let name : FileName := ⟨".packit.yaml", by decide, by decide, by decide, by decide⟩
    have nothing : files.lookup name = none := by
      rw [List.lookup_eq_none_iff]
      intro file member
      have other : name ≠ file.1 := fun same => missing file member (same ▸ rfl)
      simpa using other
    have absent
        : FileSystem.isFile (.checkout files) (FileSystem.pathBelow "/src" name.text) ≠ true := by
      rw [ne_eq, FileSystem.isFile_checkout_iff FileSystem.find_checkout_root, nothing]
      simp
    exact Bool.eq_false_iff.mpr absent
  · have read := FileSystem.readBytes_checkout FileSystem.find_checkout_root (by decide)
      (by decide) held
    exact read

theorem sameSpecs_checkout
    : Locator.SameSpecs (.checkout alone) (.checkout both) [⟨"/src"⟩] := by
  intro directory member
  obtain rfl := List.mem_singleton.mp member
  obtain ⟨names, listed⟩ : FileSystem.Listed (.checkout alone) ⟨"/src"⟩ :=
    FileSystem.listed_of_free rfl _
  obtain ⟨others, again⟩ : FileSystem.Listed (.checkout both) ⟨"/src"⟩ :=
    FileSystem.listed_of_free rfl _
  refine .shown listed again fun name spec => ?_
  rw [FileSystem.mem_fileNames_checkout_iff FileSystem.find_checkout_root (by decide) listed,
    FileSystem.mem_fileNames_checkout_iff FileSystem.find_checkout_root (by decide) again]
  constructor
  · rintro ⟨file, listed, rfl⟩
    exact ⟨file, List.mem_cons_of_mem _ listed, rfl⟩
  · rintro ⟨file, listed, rfl⟩
    rcases List.mem_cons.mp listed with rfl | listed
    · exact absurd spec (by decide)
    · exact ⟨file, listed, rfl⟩

end TwoDocuments

/-- A malformed document under a later name changes nothing. -/
theorem Locator.first_file_decides_before_malformed
    : let locator : Locator := { directories := [⟨"/src"⟩], repoName := some "foo" }
      (locator.locate (.checkout TwoDocuments.both)).outcome
      = (locator.locate (.checkout TwoDocuments.alone)).outcome := by
  intro locator
  have order : (locator.searchOrder (.checkout TwoDocuments.alone)).outcome = .ok [⟨"/src"⟩] := rfl
  have laws := (first_file_decides order).2.2.2.1 _ _
    (TwoDocuments.decides_checkout (by decide) (by decide))
  exact laws.2.2 (.checkout TwoDocuments.both) rfl
    (TwoDocuments.decides_checkout (by decide) (by decide)) TwoDocuments.sameSpecs_checkout

end Packaging
