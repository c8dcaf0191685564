import Mathlib.Logic.Function.Iterate
import Packaging.Package

/-! Files that are appended unless their source is already there. What is stored stays in front, and
a source that was missing is there once in the end.
-/

namespace Packaging

-----------------------------------------------------------------------------------------
-- One file
-----------------------------------------------------------------------------------------

namespace SyncedFiles

/-- The sources of the files, with repetitions. -/
def sources (synced : SyncedFiles) : List String :=
  synced.files.map SyncedFile.source

theorem hasSource_iff {synced : SyncedFiles} {source : String}
    : synced.hasSource source = true ↔ source ∈ synced.sources := by
  simp [hasSource, sources]

@[simp] theorem sources_push (synced : SyncedFiles) (file : SyncedFile)
    : (synced.push file).sources = synced.sources ++ [file.source] := by
  simp [push, sources]

/-- A file whose source is there is not appended. -/
theorem pushNew_of_mem {synced : SyncedFiles} {file : SyncedFile}
    (held : file.source ∈ synced.sources)
    : synced.pushNew file = synced := by
  rw [pushNew, if_pos (hasSource_iff.mpr held)]

/-- A file with a new source is appended. -/
theorem pushNew_of_notMem {synced : SyncedFiles} {file : SyncedFile}
    (fresh : file.source ∉ synced.sources)
    : synced.pushNew file = synced.push file := by
  rw [pushNew, if_neg (mt hasSource_iff.mp fresh)]

-----------------------------------------------------------------------------------------
-- Several files, one after the other
-----------------------------------------------------------------------------------------

/-- Appended files are some of those that are offered, in the same order. Each source that is
offered and was missing is appended once, and no other. By induction over the offered files.
-/
theorem exists_appended (synced : SyncedFiles) (offered : List SyncedFile)
    : ∃ appended : List SyncedFile,
        (offered.foldl pushNew synced).files = synced.files ++ appended
        ∧ appended.Sublist offered
        ∧ ∀ source,
            (appended.map SyncedFile.source).count source
            = if source ∈ offered.map SyncedFile.source ∧ source ∉ synced.sources then 1
              else 0 := by
  induction offered generalizing synced with
  | nil => exact ⟨[], by simp, .slnil, by simp⟩
  | cons file rest ih =>
      by_cases held : file.source ∈ synced.sources
      · obtain ⟨appended, files, some, counts⟩ := ih synced
        refine ⟨appended, ?_, some.cons file, fun source => ?_⟩
        · rw [List.foldl_cons, pushNew_of_mem held, files]
        · rw [counts]
          by_cases same : source = file.source
          · simp [same, held]
          · simp [same]
      · obtain ⟨appended, files, some, counts⟩ := ih (synced.push file)
        refine ⟨file :: appended, ?_, some.cons_cons file, fun source => ?_⟩
        · rw [List.foldl_cons, pushNew_of_notMem held, files]
          simp [push]
        · rw [List.map_cons, List.count_cons, counts]
          by_cases same : source = file.source
          · simp [same, held]
          · simp [same, Ne.symm same]

/-- Offered sources are there at least once in the end, and all others as often as before. -/
theorem count_sources_foldl_pushNew (synced : SyncedFiles) (offered : List SyncedFile)
    (source : String)
    : (offered.foldl pushNew synced).sources.count source
      = if source ∈ offered.map SyncedFile.source then max (synced.sources.count source) 1
        else synced.sources.count source := by
  obtain ⟨appended, files, _, counts⟩ := synced.exists_appended offered
  rw [sources, files, List.map_append, List.count_append, counts, ← sources]
  by_cases wanted : source ∈ offered.map SyncedFile.source
  · by_cases held : source ∈ synced.sources
    · have positive : 0 < synced.sources.count source := List.count_pos_iff.mpr held
      simp only [wanted, held, not_true_eq_false, and_false, if_false, if_true]
      omega
    · simp [wanted, held, List.count_eq_zero_of_not_mem held]
  · simp [wanted]

/-- Where all offered sources are there, nothing is appended. By induction over the files that are
offered.
-/
theorem foldl_pushNew_of_mem {synced : SyncedFiles} {offered : List SyncedFile}
    (held : ∀ file ∈ offered, file.source ∈ synced.sources)
    : offered.foldl pushNew synced = synced := by
  induction offered with
  | nil => rfl
  | cons file rest ih =>
      obtain ⟨first, others⟩ := List.forall_mem_cons.mp held
      rw [List.foldl_cons, pushNew_of_mem first, ih others]

end SyncedFiles

-----------------------------------------------------------------------------------------
-- All files of a package
-----------------------------------------------------------------------------------------

namespace Package

/-- The paths of the spec file and of the document, as far as the package has them. -/
def ownPaths (package : Package) : List String :=
  package.attributes.specfilePath.toList ++ (filled package.configPath).toList

/-- The package with other files to copy. -/
def storeFiles (package : Package) (files : SyncedFiles) : Package :=
  { package with attributes := { package.attributes with syncedFiles := files } }

@[simp] theorem ownPaths_storeFiles (package : Package) (files : SyncedFiles)
    : (package.storeFiles files).ownPaths = package.ownPaths :=
  rfl

/-- All files are those that are stored, with the own files of the package offered one after the
other.
-/
theorem allFiles_eq (package : Package)
    : package.allFiles
      = (package.ownPaths.map SyncedFile.ofPath).foldl SyncedFiles.pushNew
          package.attributes.syncedFiles := by
  unfold allFiles ownPaths
  cases package.attributes.specfilePath <;> cases filled package.configPath <;> rfl

theorem map_source_ofPath (paths : List String)
    : (paths.map SyncedFile.ofPath).map SyncedFile.source = paths := by
  rw [List.map_map]
  exact List.map_id paths

/-- All files are the stored ones, and after them the missing ones of the package's own. -/
theorem exists_allFiles (package : Package)
    : ∃ missing : List String,
        package.allFiles.files
          = package.attributes.syncedFiles.files ++ missing.map SyncedFile.ofPath
        ∧ missing.Sublist package.ownPaths
        ∧ ∀ path,
            missing.count path
            = if path ∈ package.ownPaths ∧ path ∉ package.attributes.syncedFiles.sources then 1
              else 0 := by
  obtain ⟨appended, files, some, counts⟩ :=
    package.attributes.syncedFiles.exists_appended (package.ownPaths.map SyncedFile.ofPath)
  obtain ⟨missing, sublist, rfl⟩ := List.sublist_map_iff.mp some
  rw [map_source_ofPath, map_source_ofPath] at counts
  exact ⟨missing, by rw [allFiles_eq, files], sublist, counts⟩

theorem count_sources_allFiles (package : Package) (source : String)
    : package.allFiles.sources.count source
      = if source ∈ package.ownPaths
        then max (package.attributes.syncedFiles.sources.count source) 1
        else package.attributes.syncedFiles.sources.count source := by
  rw [allFiles_eq, SyncedFiles.count_sources_foldl_pushNew, map_source_ofPath]

/-- The package's own paths are sources of all its files. -/
theorem mem_sources_allFiles {package : Package} {path : String} (own : path ∈ package.ownPaths)
    : path ∈ package.allFiles.sources := by
  apply List.count_pos_iff.mp
  rw [count_sources_allFiles, if_pos own]
  omega

/-- A package that stores all its files has no others. -/
theorem allFiles_storeFiles (package : Package)
    : (package.storeFiles package.allFiles).allFiles = package.allFiles := by
  rw [allFiles_eq (package.storeFiles package.allFiles), ownPaths_storeFiles]
  refine SyncedFiles.foldl_pushNew_of_mem fun file member => ?_
  obtain ⟨path, own, rfl⟩ := List.mem_map.mp member
  exact mem_sources_allFiles own

/-- All files of a package, whatever it stores and whatever its paths are. The stored ones stay in
front as they are, in order and with repetitions. Behind them are files that keep their path: the
spec file and then the document, where they are missing. So each of these is a source at least
once, and every source is there as often as it is stored otherwise. Storing all files, once or
again, changes none of them.
-/
theorem allFiles_counts (package : Package)
    : (∃ missing : List String,
        package.allFiles.files
          = package.attributes.syncedFiles.files ++ missing.map SyncedFile.ofPath
        ∧ missing.Sublist package.ownPaths)
      ∧ (∀ source,
        package.allFiles.sources.count source
        = if source ∈ package.ownPaths
          then max (package.attributes.syncedFiles.sources.count source) 1
          else package.attributes.syncedFiles.sources.count source)
      ∧ ∀ count : Nat,
        (Nat.iterate (fun stored : Package => stored.storeFiles stored.allFiles) count
          package).allFiles
        = package.allFiles := by
  refine ⟨?_, package.count_sources_allFiles, fun count => ?_⟩
  · obtain ⟨missing, files, sublist, _⟩ := package.exists_allFiles
    exact ⟨missing, files, sublist⟩
  · induction count with
    | zero => rfl
    | succ count ih => rw [Function.iterate_succ_apply', allFiles_storeFiles, ih]

end Package

end Packaging
