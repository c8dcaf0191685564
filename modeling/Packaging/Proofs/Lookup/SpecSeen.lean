import Packaging.Proofs.Files.Checkout
import Packaging.Proofs.Lookup.Malformed
import Packaging.Proofs.Lookup.SpecNames

/-! When a lookup in directories misses a spec file. A spec file in any searched directory is seen
beside the document, except that a directory with the empty path shows none.
-/

namespace Packaging

open Declaration Value

-----------------------------------------------------------------------------------------
-- Documents without a spec file
-----------------------------------------------------------------------------------------

namespace Hints

variable {hints : Hints}

/-- A hint with content gives what a document lacks. -/
theorem lacksSpec_iff {fields : Fields}
    : hints.LacksSpec fields ↔ LacksSpec {} fields ∧ filled hints.specPath = none := by
  simp [LacksSpec, filled_eq_none_iff]

/-- A resolution misses the spec file just when the package part is valid and nothing gives a path
for it.
-/
theorem missing_iff_lacksSpec {document : Value} (ordered : document.Ordered)
    : (hints.resolve document).outcome = .error .missingSpecFile
      ↔ ∃ fields,
          document = .mapping fields ∧ hints.ValidPackage fields ∧ hints.LacksSpec fields := by
  have ending := hints.ending_resolve ordered
  generalize (hints.resolve document).outcome = outcome at ending
  cases ending with
  | noMapping other => simp [other]
  | invalidPackage invalid => simp [invalid]
  | missingSpec valid lacks => simp [valid, lacks]
  | invalidJob valid knows => simp [knows]
  | resolved valid knows => simp [knows]

/-- A content misses the spec file just when the document in it does. -/
theorem ofContent_eq_missing_iff {format : Format} {path : Path} {content : ByteArray}
    : hints.ofContent format path content = .error .missingSpecFile
      ↔ ∃ text fields,
          String.fromUTF8? content = some text ∧ format.read? text = some (.mapping fields)
          ∧ hints.ValidPackage fields ∧ hints.LacksSpec fields := by
  unfold ofContent
  cases String.fromUTF8? content with
  | none => simp
  | some text =>
      dsimp only
      cases read : format.read? text with
      | none => simp [read]
      | some document =>
          dsimp only
          rw [missing_iff_lacksSpec (Format.ordered_read? read)]
          simp [read]

end Hints

-----------------------------------------------------------------------------------------
-- Lookups without a spec file
-----------------------------------------------------------------------------------------

namespace Locator

variable {locator : Locator} {fs : FileSystem} {directories : List Path}

/-- The hint for the spec file has a content just when a spec file is found. -/
theorem filled_specPath_eq_none_iff {spec : Option Path}
    (found : SpecFile.find? fs directories = .ok spec) (name : ConfigName)
    : filled (locator.hints spec name).specPath = none ↔ spec = none := by
  cases spec with
  | none => simp [hints, filled]
  | some path => simp [hints, filled, SpecFile.text_ne_of_find? found]

/-- A lookup misses the spec file just when the document that decides gives none and none is found
in the directories, which can all be searched.
-/
theorem missingSpecFile_iff (order : (locator.searchOrder fs).outcome = .ok directories)
    : (locator.locate fs).outcome = .error .missingSpecFile
      ↔ ∃ candidate content text fields,
          Decides fs directories candidate content
          ∧ String.fromUTF8? content = some text
          ∧ candidate.2.format.read? text = some (.mapping fields)
          ∧ (locator.hints none candidate.2).ValidPackage fields
          ∧ Hints.LacksSpec {} fields
          ∧ SpecFile.find? fs directories = .ok none := by
  constructor
  · intro missing
    rcases misses_or_leads fs directories with
      misses | ⟨candidate, ⟨content, decides⟩ | ⟨fault, blocks⟩⟩
    · rw [outcome_locate_of_misses order misses] at missing
      cases missing
    · cases found : SpecFile.find? fs directories with
      | error error =>
          rw [outcome_locate_of_first order decides.first?_eq, found] at missing
          split at missing <;> cases missing
      | ok spec =>
          rw [outcome_locate_of_decides order decides found, Hints.ofContent_eq_missing_iff]
            at missing
          obtain ⟨text, fields, decoded, read, valid, lacks⟩ := missing
          obtain ⟨own, hint⟩ := Hints.lacksSpec_iff.mp lacks
          obtain rfl := (filled_specPath_eq_none_iff found candidate.2).mp hint
          exact ⟨candidate, content, text, fields, decides, decoded, read, valid, own, rfl⟩
    · rw [outcome_locate_of_blocks order blocks] at missing
      cases missing
  · rintro ⟨candidate, content, text, fields, decides, decoded, read, valid, own, found⟩
    rw [outcome_locate_of_decides order decides found, Hints.ofContent_eq_missing_iff]
    exact ⟨text, fields, decoded, read, valid,
      Hints.lacksSpec_iff.mpr ⟨own, (filled_specPath_eq_none_iff found candidate.2).mpr rfl⟩⟩

/-- A spec file is shown by its directory, unless the path of the directory is empty. -/
theorem mem_fileNames_of_isName {directory : Path} (content : directory.text ≠ "")
    {names : List String} (listed : fs.fileNames directory = .ok names) {name : String}
    (single : Path.IsSegment name) (spec : SpecFile.IsName name)
    (file : fs.isFile (directory.join name).text = true)
    : name ∈ names := by
  obtain ⟨front, started, ends⟩ := spec
  have long : 5 < name.length := by
    have start : 0 < front.length := List.length_pos_iff.mpr started
    have own : name.length = front.length + 5 := by simp [← String.length_toList, ends]
    omega
  have noStep : name ≠ "." ∧ name ≠ ".." := by
    constructor <;>
      rintro rfl <;>
      exact absurd long (by decide)
  rw [Path.text_join_of_ne content single.backslash] at file
  have zero : '\x00' ∉ name.toList := by
    obtain ⟨_, _, found⟩ := FileSystem.isFile_iff_find.mp file
    have plain := (FileSystem.find_eq_ok_iff.mp found).1
    intro member
    refine plain ?_
    unfold FileSystem.pathBelow
    split <;> simp [String.toList_append, member]
  let fileName : FileName := ⟨name, single.content, noStep, single.slash, zero⟩
  have shown : fileName.text ∈ names :=
    FileSystem.mem_fileNames_of_isFile content listed file
  exact shown

/-- A spec file in a directory of the search is found, unless a directory cannot be searched. -/
theorem find?_ne_none_of_isName {directory : Path} (searched : directory ∈ directories)
    (content : directory.text ≠ "") {name : String} (single : Path.IsSegment name)
    (spec : SpecFile.IsName name) (file : fs.isFile (directory.join name).text = true)
    : SpecFile.find? fs directories ≠ .ok none := by
  intro nothing
  obtain ⟨names, listed, uncounted⟩ := SpecFile.inDirectory?_eq_none_iff.mp
    (SpecFile.find?_eq_none_iff.mp nothing directory searched)
  have not := uncounted name (mem_fileNames_of_isName content listed single spec file)
  rw [(SpecFile.counts_iff single).mpr spec] at not
  cases not

end Locator

-----------------------------------------------------------------------------------------
-- Directories with the empty path
-----------------------------------------------------------------------------------------

/-- A text is nothing but steps in place just when it is a repetition of one. By induction over the
steps that are left out.
-/
theorem Path.withoutDot_eq_nil_iff {text : List Char}
    : withoutDot text = [] ↔ ∃ count, text = (List.replicate count ['.', '/']).flatten := by
  constructor
  · intro empty
    fun_induction withoutDot text with
    | case1 rest ih =>
        obtain ⟨count, rfl⟩ := ih empty
        exact ⟨count + 1, rfl⟩
    | case2 text _ => exact ⟨0, empty⟩
  · rintro ⟨count, rfl⟩
    induction count with
    | zero => rfl
    | succ count ih => exact ih

/-- A directory has the empty path just when its spelling repeats `./`, with slashes of either sort.
-/
theorem Path.text_ofString_eq_empty_iff {argument : String}
    : (Path.ofString argument).text = ""
      ↔ ∃ count, Path.slashed argument.toList = (List.replicate count ['.', '/']).flatten := by
  rw [← Path.withoutDot_eq_nil_iff, ← String.toList_eq_nil_iff, Path.ofString,
    String.toList_ofList]

/-- A spec file directly in a searched directory is not missed, unless the path of the directory is
empty. The spec file is missing just when the document that decides is valid and names none, and all
directories with a path are listed and show no name that counts. So one beside the document is
missed in a directory that is spelled by repeating `./`: its path is empty, which leads to the
document but to no directory.
-/
theorem Locator.spec_file_seen {locator : Locator} {fs : FileSystem} {directories : List Path}
    (order : (locator.searchOrder fs).outcome = .ok directories)
    : (∀ directory ∈ directories,
        directory.text ≠ ""
        → ∀ name,
            Path.IsSegment name
            → SpecFile.IsName name
            → fs.isFile (directory.join name).text = true
            → (locator.locate fs).outcome ≠ .error .missingSpecFile)
      ∧ ((locator.locate fs).outcome = .error .missingSpecFile
        ↔ ∃ candidate content text fields,
            Decides fs directories candidate content
            ∧ String.fromUTF8? content = some text
            ∧ candidate.2.format.read? text = some (.mapping fields)
            ∧ (locator.hints none candidate.2).ValidPackage fields
            ∧ Hints.LacksSpec {} fields
            ∧ ∀ directory ∈ directories,
                directory.text ≠ ""
                → ∃ names,
                    fs.fileNames directory = .ok names
                    ∧ ∀ name ∈ names, SpecFile.counts name = false)
      ∧ ∀ argument,
          (Path.ofString argument).text = ""
          ↔ ∃ count, Path.slashed argument.toList = (List.replicate count ['.', '/']).flatten := by
  refine ⟨?_, ?_, fun argument => Path.text_ofString_eq_empty_iff⟩
  · intro directory searched content name single spec file missing
    obtain ⟨_, _, _, _, _, _, _, _, _, nothing⟩ := (missingSpecFile_iff order).mp missing
    exact find?_ne_none_of_isName searched content single spec file nothing
  · have shown
        : SpecFile.find? fs directories = .ok none
          ↔ ∀ directory ∈ directories,
              directory.text ≠ ""
              → ∃ names,
                  fs.fileNames directory = .ok names
                  ∧ ∀ name ∈ names, SpecFile.counts name = false := by
      simp only [SpecFile.find?_eq_none_iff, SpecFile.inDirectory?_eq_none_iff]
      refine forall₂_congr fun directory _ => ?_
      by_cases empty : directory.text = ""
      · simp [empty, FileSystem.fileNames_of_empty empty]
      · simp [empty]
    rw [missingSpecFile_iff order, shown]

namespace BareCheckout

def documentName : FileName :=
  ⟨".packit.yaml", by decide, by decide, by decide, by decide⟩

def specName : FileName :=
  FileName.firstSpec

/-- An empty document beside a spec file. -/
def files : FileSystem :=
  .checkout [(documentName, "\x7b\x7d"), (specName, "")]

/-- The document is found from the empty path. -/
theorem decides_files
    : Locator.Decides files [Path.ofString "./"] (Path.ofString "./", .hiddenYaml)
        "\x7b\x7d".toUTF8 := by
  have read : files.readBytes documentName.text = .ok "\x7b\x7d".toUTF8 :=
    FileSystem.readBytes_checkout_here (by decide) (by decide)
  exact { first := ⟨[], _, rfl, by simp⟩, content := read }

/-- An empty document is valid, whatever the hints are. -/
theorem validPackage_nil (hints : Hints)
    : hints.ValidPackage [] := by
  refine { single := ?_, jobs := ?_, path := ?_, attributes := ?_ }
  · simp [BothSpellings, Fields.find?]
  · simp [Fields.find?, present?]
  · simp [Fields.find?, present?]
  · simp [spelled?, Fields.find?, present?]

end BareCheckout

/-- A spec file beside the document is seen from the working directory `.` but not from `./`. -/
theorem Locator.spec_file_seen_here
    : let fs := BareCheckout.files
      let here : Locator := { directories := [Path.ofString "."] }
      let unnamed : Locator := { directories := [Path.ofString "./"] }
      fs.isFile ((Path.ofString ".").join "a.spec").text = true
      ∧ (here.locate fs).outcome ≠ .error .missingSpecFile
      ∧ (unnamed.locate fs).outcome = .error .missingSpecFile := by
  intro fs here unnamed
  have below : fs.isFile (FileSystem.pathBelow "." BareCheckout.specName.text) = true :=
    (FileSystem.isFile_checkout_iff FileSystem.find_checkout_here).mpr (by decide)
  have file : fs.isFile ((Path.ofString ".").join "a.spec").text = true := below
  have order : (here.searchOrder fs).outcome = .ok [Path.ofString "."] := rfl
  have orderUnnamed : (unnamed.searchOrder fs).outcome = .ok [Path.ofString "./"] := rfl
  refine ⟨file, ?_, ?_⟩
  · have seen := (spec_file_seen order).1
    refine seen _ (List.mem_singleton_self _) (by decide) "a.spec" ?_ ?_ file
    · exact ⟨by decide, by decide, by decide⟩
    · exact ⟨['a'], by decide, by decide⟩
  · refine (spec_file_seen orderUnnamed).2.1.mpr ?_
    refine ⟨_, _, "\x7b\x7d", [], BareCheckout.decides_files, ?_, ?_,
      BareCheckout.validPackage_nil _, ?_, ?_⟩
    · exact Git.fromUTF8?_toUTF8 _
    · decide +kernel
    · simp [Hints.LacksSpec, Fields.find?]
    · intro directory member content
      obtain rfl := List.mem_singleton.mp member
      exact absurd rfl content

end Packaging
