import Packaging.Lookup.Directories
import Packaging.Proofs.Files.Following
import Packaging.Proofs.Paths
import Packaging.Proofs.Traced

/-! How a document is looked up in directories. The first candidate that is a file decides, and what
it comes to depends on its content and the hints alone, unless it cannot be opened or a directory
cannot be searched for a spec file.
-/

namespace Packaging

/-- What the content of a document's file comes to. The path only tells where it comes from. -/
def Hints.ofContent (hints : Hints) (format : Format) (path : Path) (content : ByteArray)
    : Except Error Package :=
  match String.fromUTF8? content with
  | none => .error (.unparsable (.file (.refused path .notText)))
  | some text =>
    match format.read? text with
    | none => .error (.unparsable (.file (.malformed format path)))
    | some document => (hints.resolve document).outcome

namespace Locator

/-- No name is a file in a directory of the search. -/
def Misses (fs : FileSystem) (directories : List Path) : Prop :=
  ∀ candidate ∈ candidates directories, fs.isFile (candidatePath candidate).text = false

/-- No candidate before the given one is a file. -/
def Leads (fs : FileSystem) (directories : List Path) (candidate : Path × ConfigName) : Prop :=
  ∃ before after,
    candidates directories = before ++ candidate :: after
    ∧ ∀ earlier ∈ before, fs.isFile (candidatePath earlier).text = false

/-- The file of a candidate has the given content, and no earlier candidate is a file. -/
structure Decides (fs : FileSystem) (directories : List Path) (candidate : Path × ConfigName)
    (content : ByteArray) : Prop where
  first : Leads fs directories candidate
  content : fs.readBytes (candidatePath candidate).text = .ok content

/-- A candidate is a file that cannot be opened, and no earlier candidate is a file. -/
structure Blocks (fs : FileSystem) (directories : List Path) (candidate : Path × ConfigName)
    (fault : FileFault) : Prop where
  first : Leads fs directories candidate
  refused
    : ∃ location content,
        fs.find (candidatePath candidate).text = .ok (location, .file content)
        ∧ fs.refusals.lookup location = some fault

/-- The hints for a document under a name, beside which a spec file may be found. -/
def hints (locator : Locator) (spec : Option Path) (name : ConfigName) : Hints where
  configPath := some name.label
  repoName := locator.repoName
  specPath := spec.map (·.text)

variable {locator : Locator} {fs : FileSystem} {directories : List Path}
  {candidate : Path × ConfigName}

-----------------------------------------------------------------------------------------
-- The candidate that is taken
-----------------------------------------------------------------------------------------

theorem first?_eq_none_iff
    : first? fs directories = none ↔ Misses fs directories := by
  simp [first?, Misses]

theorem first?_eq_some_iff
    : first? fs directories = some candidate
      ↔ fs.isFile (candidatePath candidate).text = true ∧ Leads fs directories candidate := by
  simp [first?, Leads, List.find?_eq_some_iff_append]

/-- Either no candidate is a file, or the first that is one has a content or cannot be opened. -/
theorem misses_or_leads (fs : FileSystem) (directories : List Path)
    : Misses fs directories
      ∨ ∃ candidate,
          (∃ content, Decides fs directories candidate content)
          ∨ ∃ fault, Blocks fs directories candidate fault := by
  cases found : first? fs directories with
  | none => exact .inl (first?_eq_none_iff.mp found)
  | some candidate =>
      obtain ⟨file, first⟩ := first?_eq_some_iff.mp found
      obtain ⟨location, content, stands⟩ := FileSystem.isFile_iff_find.mp file
      cases held : fs.refusals.lookup location with
      | none =>
          have read := FileSystem.readBytes_eq_ok_iff.mpr ⟨location, stands, held⟩
          exact .inr ⟨candidate, .inl ⟨content, first, read⟩⟩
      | some fault =>
          exact .inr ⟨candidate, .inr ⟨fault, first, location, content, stands, held⟩⟩

theorem Decides.first?_eq {content : ByteArray}
    (decides : Decides fs directories candidate content)
    : first? fs directories = some candidate := by
  obtain ⟨location, stands, _⟩ := FileSystem.readBytes_eq_ok_iff.mp decides.content
  exact first?_eq_some_iff.mpr
    ⟨FileSystem.isFile_iff_find.mpr ⟨location, content, stands⟩, decides.first⟩

theorem Blocks.first?_eq {fault : FileFault} (blocks : Blocks fs directories candidate fault)
    : first? fs directories = some candidate := by
  obtain ⟨location, content, stands, _⟩ := blocks.refused
  exact first?_eq_some_iff.mpr
    ⟨FileSystem.isFile_iff_find.mpr ⟨location, content, stands⟩, blocks.first⟩

-----------------------------------------------------------------------------------------
-- Loading
-----------------------------------------------------------------------------------------

/-- A candidate is loaded by reading its file in the format of its name. -/
theorem load_candidatePath_eq (fs : FileSystem) (candidate : Path × ConfigName)
    : fs.load (candidatePath candidate)
      = (fs.readText (candidatePath candidate)).bind
          (candidate.2.format.read (candidatePath candidate)) := by
  have format : Format.ofPath (candidatePath candidate) = .ok candidate.2.format :=
    candidate.2.ofPath_join_label candidate.1
  rw [FileSystem.load, format]
  rfl

/-- The name of a candidate decides its format, so its file is read. -/
theorem load_candidatePath {candidate : Path × ConfigName} {content : ByteArray}
    (read : fs.readBytes (candidatePath candidate).text = .ok content)
    : fs.load (candidatePath candidate)
      = match String.fromUTF8? content with
        | none => .error (.refused (candidatePath candidate) .notText)
        | some text => candidate.2.format.read (candidatePath candidate) text := by
  rw [load_candidatePath_eq, FileSystem.readText, read]
  dsimp only
  cases String.fromUTF8? content <;> rfl

theorem outcome_load_of_ok {path : Path} {document : Value} (loaded : fs.load path = .ok document)
    : (load fs path).outcome = .ok document := by
  unfold load
  rw [loaded]
  rfl

theorem outcome_load_of_error {path : Path} {cause : FileError}
    (failed : fs.load path = .error cause)
    : (load fs path).outcome = .error (.unparsable (.file cause)) := by
  unfold load
  rw [failed]
  rfl

-----------------------------------------------------------------------------------------
-- Ends of a lookup
-----------------------------------------------------------------------------------------

theorem outcome_locate_of_error {error : Error}
    (unordered : (locator.searchOrder fs).outcome = .error error)
    : (locator.locate fs).outcome = .error error := by
  rw [locate, Traced.bind_of_error _ unordered]

theorem outcome_locate_of_misses (order : (locator.searchOrder fs).outcome = .ok directories)
    (misses : Misses fs directories)
    : (locator.locate fs).outcome = .error (.configNotFound directories) := by
  rw [locate, Traced.bind_of_ok _ order]
  simp only [first?_eq_none_iff.mpr misses]
  rfl

/-- The first candidate that is a file is loaded, then the spec file is looked for, and with it the
document is resolved.
-/
theorem outcome_locate_of_first (order : (locator.searchOrder fs).outcome = .ok directories)
    (first : first? fs directories = some candidate)
    : (locator.locate fs).outcome
      = match fs.load (candidatePath candidate) with
        | .error cause => .error (.unparsable (.file cause))
        | .ok document =>
          match SpecFile.find? fs directories with
          | .error error => .error (.file error)
          | .ok spec => ((locator.hints spec candidate.2).resolve document).outcome := by
  rw [locate, Traced.bind_of_ok _ order]
  dsimp only
  rw [first]
  dsimp only
  cases loaded : fs.load (candidatePath candidate) with
  | error cause => rw [Traced.bind_of_error _ (outcome_load_of_error loaded)]
  | ok document =>
      rw [Traced.bind_of_ok _ (outcome_load_of_ok loaded)]
      dsimp only
      unfold specFile
      cases SpecFile.find? fs directories with
      | error error => rfl
      | ok spec => rfl

theorem outcome_locate_of_unloaded (order : (locator.searchOrder fs).outcome = .ok directories)
    (first : first? fs directories = some candidate) {cause : FileError}
    (failed : fs.load (candidatePath candidate) = .error cause)
    : (locator.locate fs).outcome = .error (.unparsable (.file cause)) := by
  rw [outcome_locate_of_first order first, failed]

/-- Where a directory cannot be searched for a spec file, the lookup ends whatever the document is.
-/
theorem outcome_locate_of_unlisted (order : (locator.searchOrder fs).outcome = .ok directories)
    (first : first? fs directories = some candidate) {document : Value}
    (loaded : fs.load (candidatePath candidate) = .ok document) {error : FileError}
    (failed : SpecFile.find? fs directories = .error error)
    : (locator.locate fs).outcome = .error (.file error) := by
  rw [outcome_locate_of_first order first, loaded, failed]

/-- A document that loads is resolved with the name under which it was found. -/
theorem outcome_locate_of_loaded (order : (locator.searchOrder fs).outcome = .ok directories)
    (first : first? fs directories = some candidate) {document : Value}
    (loaded : fs.load (candidatePath candidate) = .ok document) {spec : Option Path}
    (found : SpecFile.find? fs directories = .ok spec)
    : (locator.locate fs).outcome
      = ((locator.hints spec candidate.2).resolve document).outcome := by
  rw [outcome_locate_of_first order first, loaded, found]

/-- A file that cannot be opened is told as one that fails to parse. -/
theorem outcome_locate_of_blocks (order : (locator.searchOrder fs).outcome = .ok directories)
    {fault : FileFault} (blocks : Blocks fs directories candidate fault)
    : (locator.locate fs).outcome
      = .error (.unparsable (.file (.refused (candidatePath candidate) fault))) := by
  obtain ⟨location, content, stands, held⟩ := blocks.refused
  refine outcome_locate_of_unloaded order blocks.first?_eq ?_
  rw [load_candidatePath_eq, FileSystem.readText, FileSystem.readBytes_of_refused stands held]
  rfl

/-- The content of the file that decides is all that is read of a document, as long as the
directories can be searched for a spec file.
-/
theorem outcome_locate_of_decides (order : (locator.searchOrder fs).outcome = .ok directories)
    {content : ByteArray} (decides : Decides fs directories candidate content)
    {spec : Option Path} (found : SpecFile.find? fs directories = .ok spec)
    : (locator.locate fs).outcome
      = (locator.hints spec candidate.2).ofContent candidate.2.format (candidatePath candidate)
          content := by
  rw [outcome_locate_of_first order decides.first?_eq, load_candidatePath decides.content, found]
  unfold Hints.ofContent Format.read
  cases String.fromUTF8? content with
  | none => rfl
  | some text =>
      dsimp only
      cases candidate.2.format.read? text with
      | none => rfl
      | some document => rfl

/-- How a lookup ends: without an order or a file, at a file that does not load, at a directory that
cannot be searched for a spec file, or as the document is resolved.
-/
inductive Ending (locator : Locator) (fs : FileSystem) : Except Error Package → Prop
  | unordered {error : Error} (failed : (locator.searchOrder fs).outcome = .error error)
    : Ending locator fs (.error error)
  | missed {directories : List Path} (order : (locator.searchOrder fs).outcome = .ok directories)
      (misses : Misses fs directories)
    : Ending locator fs (.error (.configNotFound directories))
  | unloaded {directories : List Path} {candidate : Path × ConfigName} {cause : FileError}
      (order : (locator.searchOrder fs).outcome = .ok directories)
      (first : first? fs directories = some candidate)
      (failed : fs.load (candidatePath candidate) = .error cause)
    : Ending locator fs (.error (.unparsable (.file cause)))
  | unlisted {directories : List Path} {candidate : Path × ConfigName} {document : Value}
      {error : FileError} (order : (locator.searchOrder fs).outcome = .ok directories)
      (first : first? fs directories = some candidate)
      (loaded : fs.load (candidatePath candidate) = .ok document)
      (failed : SpecFile.find? fs directories = .error error)
    : Ending locator fs (.error (.file error))
  | resolved {directories : List Path} {candidate : Path × ConfigName} {document : Value}
      {spec : Option Path} (order : (locator.searchOrder fs).outcome = .ok directories)
      (first : first? fs directories = some candidate)
      (loaded : fs.load (candidatePath candidate) = .ok document)
      (found : SpecFile.find? fs directories = .ok spec)
    : Ending locator fs ((locator.hints spec candidate.2).resolve document).outcome

theorem ending_locate (locator : Locator) (fs : FileSystem)
    : locator.Ending fs (locator.locate fs).outcome := by
  cases order : (locator.searchOrder fs).outcome with
  | error error =>
      rw [outcome_locate_of_error order]
      exact .unordered order
  | ok directories =>
      cases first : first? fs directories with
      | none =>
          have misses := first?_eq_none_iff.mp first
          rw [outcome_locate_of_misses order misses]
          exact .missed order misses
      | some candidate =>
          cases loaded : fs.load (candidatePath candidate) with
          | error cause =>
              rw [outcome_locate_of_unloaded order first loaded]
              exact .unloaded order first loaded
          | ok document =>
              cases found : SpecFile.find? fs directories with
              | error error =>
                  rw [outcome_locate_of_unlisted order first loaded found]
                  exact .unlisted order first loaded found
              | ok spec =>
                  rw [outcome_locate_of_loaded order first loaded found]
                  exact .resolved order first loaded found

end Locator

end Packaging
