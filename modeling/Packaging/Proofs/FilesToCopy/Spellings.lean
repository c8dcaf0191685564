import Packaging.Proofs.FilesToCopy.Appending
import Packaging.Proofs.Lookup.Directories
import Packaging.Proofs.Lookup.InProject
import Packaging.Proofs.Lookup.SpecNames
import Packaging.Proofs.Resolution.FurtherHints

/-! Spellings of the paths of files to copy. A package records the paths that a document and the
hints give as they are, so a file that is given in two spellings is copied twice.
-/

namespace Packaging

open Declaration Value

-----------------------------------------------------------------------------------------
-- Files that are appended under another spelling
-----------------------------------------------------------------------------------------

namespace Package

/-- The sources of the files that are appended to the stored ones. -/
def appendedSources (package : Package) : List String :=
  package.allFiles.sources.drop package.attributes.syncedFiles.sources.length

/-- No appended file spells the same path as a stored source. -/
def OneSpelling (package : Package) : Prop :=
  ∀ path ∈ package.appendedSources, ∀ source ∈ package.attributes.syncedFiles.sources,
    Path.ofString path ≠ Path.ofString source

theorem mem_appendedSources_iff {package : Package} {path : String}
    : path ∈ package.appendedSources
      ↔ path ∈ package.ownPaths ∧ path ∉ package.attributes.syncedFiles.sources := by
  obtain ⟨missing, files, _, counts⟩ := package.exists_allFiles
  have sources : package.allFiles.sources = package.attributes.syncedFiles.sources ++ missing := by
    rw [SyncedFiles.sources, files, List.map_append, map_source_ofPath, SyncedFiles.sources]
  rw [appendedSources, sources, List.drop_left, ← List.count_pos_iff, counts]
  split
  · next held => simp [held]
  · next other => simp [other]

/-- Files are told once just when each own path is stored wherever another spelling of it is. -/
theorem oneSpelling_iff {package : Package}
    : package.OneSpelling
      ↔ ∀ path ∈ package.ownPaths, ∀ source ∈ package.attributes.syncedFiles.sources,
          Path.ofString path = Path.ofString source
          → path ∈ package.attributes.syncedFiles.sources := by
  simp only [OneSpelling, mem_appendedSources_iff]
  constructor
  · intro once path own source stored alike
    by_contra missing
    exact once path ⟨own, missing⟩ source stored alike
  · intro same path appended source stored alike
    exact appended.2 (same path appended.1 source stored alike)

/-- Among normal paths every file has one spelling. -/
theorem oneSpelling_of_isNormal {package : Package}
    (sources : ∀ source ∈ package.attributes.syncedFiles.sources, Path.IsNormal source)
    (own : ∀ path ∈ package.ownPaths, Path.IsNormal path)
    : package.OneSpelling := by
  refine oneSpelling_iff.mpr fun path member source stored alike => ?_
  have same := (own path member).eq_of_ofString_eq (sources source stored) alike
  exact same ▸ stored

end Package

-----------------------------------------------------------------------------------------
-- Where the paths come from
-----------------------------------------------------------------------------------------

/-- The text that stands under a key. -/
def Declaration.text? (key : String) (fields : Fields) : Option String :=
  match fields.find? key with
  | some (.text given) => some given
  | _ => none

/-- The paths of a package as the entries `fields` and the hints spell them. A source is one that
the document lists, and an own path is that of the document, or else the hint.
-/
structure Package.SpelledBy (package : Package) (hints : Hints) (fields : Fields) : Prop where
  sources
    : match present? (spelled? syncedFilesKey fields) with
      | none => package.attributes.syncedFiles = .empty
      | some value => SyncedFiles.decode value = .ok package.attributes.syncedFiles
  spec
    : package.attributes.specfilePath
      = (filled (text? "specfile_path" fields)).or (filled hints.specPath)
  config
    : filled package.configPath
      = (filled (text? "config_file_path" fields)).or (filled hints.configPath)

/-- The path of the document that a package has, as far as it has content. -/
theorem Hints.filled_of_documentPath {hints : Hints} {fields : Fields} {path : Option String}
    (told : documentPath (hints.inject fields) = .ok path)
    : filled path = (filled (text? "config_file_path" fields)).or (filled hints.configPath) := by
  have own : text? "config_file_path" fields = pathText? fields := rfl
  cases hinted : hints.configPath with
  | none =>
      rw [inject, hinted] at told
      rw [own, pathText?_of_documentPath told]
      simp [filled]
  | some hint =>
      rw [documentPath_inject_of_hint hinted, Except.ok.injEq] at told
      rw [own, ← told]
      cases given : filled (pathText? fields) with
      | none => simp
      | some text =>
          simp [filled, (filled_eq_some_iff.mp given).2]

/-- The path of the spec file that a package declares is the text that stands there. -/
theorem PackageDeclaration.Declares.specfilePath_eq {fields : Fields}
    {declared : PackageDeclaration} (declares : Declares fields declared)
    : declared.overrides.specfilePath = text? "specfile_path" fields := by
  have told := Attribute.told_iff.mp (declares.attributes .specfilePath)
  have entry : spelled? (Attribute.key .specfilePath) fields = fields.find? "specfile_path" :=
    spelled?_of_ne (by decide) (by decide) fields
  rw [entry] at told
  unfold text?
  cases found : fields.find? "specfile_path" with
  | none =>
      rw [found] at told
      exact told
  | some value =>
      rw [found] at told
      cases value with
      | null => exact told
      | text path =>
          obtain ⟨data, decoded, given⟩ := told
          obtain rfl : path = data := Except.ok.inj decoded
          exact given
      | _ =>
          obtain ⟨data, decoded, _⟩ := told
          cases decoded

/-- The files that a package declares are those that its entry decodes to. -/
theorem PackageDeclaration.Declares.syncedFiles_told {fields : Fields}
    {declared : PackageDeclaration} (declares : Declares fields declared)
    : match present? (spelled? syncedFilesKey fields) with
      | none => declared.overrides.syncedFiles = none
      | some value =>
          ∃ files,
            SyncedFiles.decode value = .ok files ∧ declared.overrides.syncedFiles = some files :=
  Attribute.told_iff.mp (declares.attributes .syncedFiles)

/-- A resolved package has its paths as the document and the hints spell them. -/
theorem Hints.spelledBy_of_resolve {hints : Hints} {fields : Fields} {package : Package}
    (ordered : (mapping fields).Ordered)
    (resolved : (hints.resolve (.mapping fields)).outcome = .ok package)
    : package.SpelledBy hints fields := by
  obtain ⟨declared, x, read, spec, _, path, attributes⟩ :=
    outcome_build_eq_ok_iff.mp (outcome_resolve_mapping_eq_ok_iff.mp resolved)
  have declares := (PackageDeclaration.outcome_eq_ok_iff_declares
    (hints.ascending_inject ordered.ascending)).mp read
  obtain ⟨specPath, known, rfl⟩ := fillSpec_eq_ok_iff.mp spec
  -- The hints change no attribute but the path of the spec file and the names.
  have files : package.attributes.syncedFiles = declared.overrides.syncedFiles.getD .empty := by
    rw [attributes]
    rfl
  have own : (Attributes.ofOverrides declared.overrides).specfilePath
      = text? "specfile_path" fields := by
    have given : (Attributes.ofOverrides declared.overrides).specfilePath
        = declared.overrides.specfilePath := Option.or_none
    rw [given, declares.specfilePath_eq, text?, text?, hints.find?_inject_of_ne (by decide)]
  constructor
  · have told := declares.syncedFiles_told
    have entry : spelled? syncedFilesKey (hints.inject fields) = spelled? syncedFilesKey fields :=
      hints.spelled?_inject .syncedFiles fields
    rw [entry] at told
    cases found : present? (spelled? syncedFilesKey fields) with
    | none =>
        rw [found] at told
        simp [files, told]
    | some value =>
        rw [found] at told
        obtain ⟨data, decoded, given⟩ := told
        simp [files, given, decoded]
  · rw [attributes, ← own, known]
    rfl
  · rw [path]
    exact filled_of_documentPath declares.path

-----------------------------------------------------------------------------------------
-- Paths that are normal already
-----------------------------------------------------------------------------------------

/-- All paths that a document gives are normal. -/
structure Declaration.NormalPaths (fields : Fields) : Prop where
  sources
    : ∀ value files,
        present? (spelled? syncedFilesKey fields) = some value
        → SyncedFiles.decode value = .ok files → ∀ source ∈ files.sources, Path.IsNormal source
  spec : ∀ path, text? "specfile_path" fields = some path → Path.IsNormal path
  config : ∀ path, text? "config_file_path" fields = some path → Path.IsNormal path

/-- All paths that the finder of a document knows are normal. -/
structure Hints.NormalPaths (hints : Hints) : Prop where
  config : ∀ path, hints.configPath = some path → Path.IsNormal path
  spec : ∀ path, hints.specPath = some path → Path.IsNormal path

/-- A lookup in directories knows nothing but normal paths. -/
theorem Locator.normalPaths_hints (locator : Locator) {fs : FileSystem} {directories : List Path}
    {spec : Option Path} (found : SpecFile.find? fs directories = .ok spec) (name : ConfigName)
    : (locator.hints spec name).NormalPaths := by
  constructor
  · intro path hinted
    obtain rfl := Option.some.inj hinted
    exact name.isSegment_label.isNormal
  · intro path hinted
    obtain ⟨taken, rfl, rfl⟩ := Option.map_eq_some_iff.mp hinted
    obtain ⟨text, _, rfl⟩ := SpecFile.exists_of_find? found
    exact Path.isNormal_text_ofString text

/-- A lookup in a project knows the path of a spec file as the project lists it. -/
theorem Project.normalPaths_hints_iff {project : Project} {name : ConfigName}
    {spec : Option String}
    : (project.hints name spec).NormalPaths ↔ ∀ path, spec = some path → Path.IsNormal path := by
  constructor
  · exact fun normal => normal.spec
  · intro normal
    refine ⟨?_, normal⟩
    intro path hinted
    obtain rfl := Option.some.inj hinted
    exact name.isSegment_label.isNormal

namespace Package.SpelledBy

variable {package : Package} {hints : Hints} {fields : Fields}

theorem isNormal_source (spelled : package.SpelledBy hints fields)
    (document : NormalPaths fields)
    : ∀ source ∈ package.attributes.syncedFiles.sources, Path.IsNormal source := by
  have sources := spelled.sources
  cases found : present? (spelled? syncedFilesKey fields) with
  | none =>
      rw [found] at sources
      simp [sources, SyncedFiles.empty, SyncedFiles.sources]
  | some value =>
      rw [found] at sources
      exact document.sources value _ found sources

theorem isNormal_ownPath (spelled : package.SpelledBy hints fields)
    (document : NormalPaths fields) (known : hints.NormalPaths)
    : ∀ path ∈ package.ownPaths, Path.IsNormal path := by
  have normal {given hint : Option String} {path : String}
      (one : ∀ path, given = some path → Path.IsNormal path)
      (other : ∀ path, hint = some path → Path.IsNormal path)
      (chosen : (filled given).or (filled hint) = some path)
      : Path.IsNormal path := by
    rcases Option.or_eq_some_iff.mp chosen with own | ⟨_, own⟩
    · exact one path (filled_eq_some_iff.mp own).1
    · exact other path (filled_eq_some_iff.mp own).1
  intro path member
  rw [ownPaths, spelled.spec, spelled.config, List.mem_append, Option.mem_toList,
    Option.mem_toList] at member
  rcases member with spec | config
  · exact normal document.spec known.spec spec
  · exact normal document.config known.config config

end Package.SpelledBy

/-- Which files of a resolved package are told once. It has its paths as the document and the hints
spell them. So each file has one spelling just when every own path is itself a stored source
wherever another spelling of it is one. That holds if all given paths are normal. The hints of a
lookup in directories always are, and of those in a project only the path of a spec file may not be.
-/
theorem Hints.oneSpelling_of_resolve {hints : Hints} {fields : Fields} {package : Package}
    (ordered : (mapping fields).Ordered)
    (resolved : (hints.resolve (.mapping fields)).outcome = .ok package)
    : package.SpelledBy hints fields
      ∧ (package.OneSpelling
        ↔ ∀ path ∈ package.ownPaths, ∀ source ∈ package.attributes.syncedFiles.sources,
            Path.ofString path = Path.ofString source
            → path ∈ package.attributes.syncedFiles.sources)
      ∧ (Declaration.NormalPaths fields → hints.NormalPaths → package.OneSpelling)
      ∧ (∀ locator fs directories spec name,
          SpecFile.find? fs directories = .ok spec
          → hints = Locator.hints locator spec name
          → Declaration.NormalPaths fields → package.OneSpelling)
      ∧ ∀ project name spec,
          hints = Project.hints project name spec
          → (∀ path, spec = some path → Path.IsNormal path)
          → Declaration.NormalPaths fields → package.OneSpelling := by
  have spelled := spelledBy_of_resolve ordered resolved
  have normal (document : Declaration.NormalPaths fields) (known : hints.NormalPaths)
      : package.OneSpelling :=
    Package.oneSpelling_of_isNormal (spelled.isNormal_source document)
      (spelled.isNormal_ownPath document known)
  refine ⟨spelled, Package.oneSpelling_iff, normal, ?_, ?_⟩
  · rintro locator fs directories spec name found rfl document
    exact normal document (locator.normalPaths_hints found name)
  · rintro project name spec rfl listed document
    exact normal document (Project.normalPaths_hints_iff.mpr listed)

/-- A spec file that is listed under another spelling is told twice, and one that is listed under
its own is told once.
-/
theorem Hints.oneSpelling_of_resolve_respelled
    : let fields (source : String) : Fields :=
        [("jobs", .list []), ("specfile_path", .text "foo.spec"),
          ("synced_files", .list [.text source])]
      let package (source : String) : Package :=
        { configPath := none
          attributes :=
            { specfilePath := some "foo.spec", syncedFiles := ⟨[.ofPath source]⟩ }
          jobs := [] }
      (∀ source ∈ ["foo.spec", "./foo.spec"],
        (mapping (fields source)).Ordered
        ∧ (resolve {} (.mapping (fields source))).outcome = .ok (package source))
      ∧ (package "foo.spec").OneSpelling ∧ ¬ (package "./foo.spec").OneSpelling := by
  intro fields package
  have resolved : ∀ source ∈ ["foo.spec", "./foo.spec"],
      (mapping (fields source)).Ordered
      ∧ (resolve {} (.mapping (fields source))).outcome = .ok (package source) := by
    decide
  obtain ⟨⟨ordered, same⟩, ⟨orderedAgain, other⟩, _⟩ := by
    simpa only [List.forall_mem_cons] using resolved
  refine ⟨resolved, ?_, ?_⟩
  · have once := (oneSpelling_of_resolve ordered same).2.1
    exact once.mpr (by decide)
  · have once := (oneSpelling_of_resolve orderedAgain other).2.1
    exact mt once.mp (by decide)

end Packaging
