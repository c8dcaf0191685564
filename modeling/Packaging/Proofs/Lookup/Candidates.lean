import Packaging.Proofs.Lookup.Reports
import Packaging.Proofs.Lookup.SpecSeen

/-! Names of candidates. A name that is joined to a path stays the last component of it, so the name
alone decides the extension and the format, and no candidate of a lookup lacks a format.
-/

namespace Packaging

-----------------------------------------------------------------------------------------
-- Joined names
-----------------------------------------------------------------------------------------

namespace Path

/-- A name has no extension just when it has no dot, or none but the one at its front. -/
theorem extensionOf?_eq_none_iff {name : String}
    : extensionOf? name = none
      ↔ '.' ∉ name.toList ∨ ∃ rest, '.' ∉ rest ∧ name.toList = '.' :: rest := by
  rw [Option.eq_none_iff_forall_ne_some]
  constructor
  · intro none
    by_cases dotted : '.' ∈ name.toList
    · -- The last dot is the first one of the reversed name.
      obtain ⟨behind, before, reversed, plain⟩ :=
        List.eq_append_cons_of_mem (List.mem_reverse.mpr dotted)
      have split : name.toList = before.reverse ++ '.' :: behind.reverse := by
        rw [← List.reverse_inj, reversed]
        simp
      cases before with
      | nil => exact .inr ⟨behind.reverse, by simpa using plain, by simpa using split⟩
      | cons c more =>
          have found : extensionOf? name = some (String.ofList behind.reverse) :=
            extensionOf?_eq_some_iff.mpr
              ⟨by simpa using plain, (c :: more).reverse, by simp, by simpa using split⟩
          exact absurd found (none _)
    · exact .inl dotted
  · intro apart extension found
    obtain ⟨_, front, content, split⟩ := extensionOf?_eq_some_iff.mp found
    rcases apart with undotted | ⟨rest, plain, only⟩
    · exact undotted (by simp [split])
    · obtain ⟨c, more, rfl⟩ := List.exists_cons_of_ne_nil content
      obtain ⟨_, behind⟩ := List.cons.inj (only.symm.trans split)
      exact plain (by simp [behind])

/-- A name by itself has the extension that is told by the name. -/
theorem extension?_ofString {name : String} (single : IsSegment name)
    : (ofString name).extension? = extensionOf? name := by
  rw [ofString_of_isSegment single, extension?_of_isSegment single]

/-- A name has the same extension below every path as by itself. -/
theorem extension?_join_eq (base : Path) {segment : String} (single : IsSegment segment)
    : (base.join segment).extension? = (ofString segment).extension? := by
  rw [base.extension?_join single, extension?_ofString single]

end Path

namespace Format

/-- A name has the same format below every path as by itself. -/
theorem ofPath_join (base : Path) {segment : String} (single : Path.IsSegment segment)
    : ofPath (base.join segment) = ofPath (Path.ofString segment) := by
  unfold ofPath
  rw [base.extension?_join_eq single]

end Format

-----------------------------------------------------------------------------------------
-- Lookups
-----------------------------------------------------------------------------------------

/-- Behind the error is an extension without a format, be it wrapped. -/
inductive Error.LacksFormat : Error → Prop
  | file (extension : String) : LacksFormat (.file (.unsupportedFormat extension))
  | unparsable {cause : Error} (inside : cause.LacksFormat) : LacksFormat (.unparsable cause)

/-- A document that is refused is not told to lack a format. -/
theorem Hints.not_lacksFormat_of_resolve {hints : Hints} {document : Value} {error : Error}
    (failed : (hints.resolve document).outcome = .error error)
    : ¬ error.LacksFormat := by
  cases document with
  | mapping fields =>
      cases built : (hints.build (hints.inject fields)).outcome with
      | ok package =>
          rw [outcome_resolve_mapping_eq_ok_iff.mpr built] at failed
          cases failed
      | error cause =>
          rw [outcome_resolve_of_build_error built] at failed
          rcases error_of_build built with rfl | ⟨key, fault, rfl⟩
          · obtain rfl := Except.error.inj failed
            nofun
          · obtain rfl := Except.error.inj failed
            rintro (_ | ⟨⟨⟩⟩)
  | _ =>
      obtain rfl := Except.error.inj failed
      rintro (_ | ⟨⟨⟩⟩)

namespace Locator

/-- A candidate is refused or malformed if it does not load, and never lacks a format. -/
theorem load_candidatePath_ne (fs : FileSystem) (candidate : Path × ConfigName)
    (extension : String)
    : fs.load (candidatePath candidate) ≠ .error (.unsupportedFormat extension) := by
  rw [load_candidatePath_eq, FileSystem.readText]
  split
  · simp [Except.bind]
  · split
    · simp only [Except.bind, Format.read]
      split <;> simp
    · simp [Except.bind]

variable {locator : Locator} {fs : FileSystem} {error : Error}

/-- No end of a lookup tells of an extension without a format. -/
theorem not_lacksFormat_of_locate (failed : (locator.locate fs).outcome = .error error)
    : ¬ error.LacksFormat := by
  have ending := locator.ending_locate fs
  generalize (locator.locate fs).outcome = outcome at ending failed
  cases ending with
  | unordered unordered =>
      obtain rfl := Except.error.inj failed
      rw [error_of_searchOrder unordered]
      nofun
  | missed =>
      obtain rfl := Except.error.inj failed
      nofun
  | @unloaded _ candidate cause _ _ unloaded =>
      obtain rfl := Except.error.inj failed
      rintro (_ | ⟨⟨extension⟩⟩)
      exact load_candidatePath_ne fs candidate extension unloaded
  | unlisted _ _ _ unlisted =>
      obtain rfl := Except.error.inj failed
      obtain ⟨directory, fault, rfl⟩ := SpecFile.refused_of_find? unlisted
      nofun
  | resolved => exact Hints.not_lacksFormat_of_resolve failed

end Locator

/-- A name alone decides what is made of its file. Joined to any path, a name stays the last
component, and it has the extension and the format that it has by itself. Its extension is what
stands behind its last dot, and it has none without a dot or with none but one at its front. So a
candidate has the format of its name in every directory. It is loaded by reading its file in that
format, so it never lacks one, and no lookup fails for want of a format.
-/
theorem joined_name_decides
    : (∀ segment,
        Path.IsSegment segment
        → (∀ base : Path,
            (base.join segment).fileName? = some segment
            ∧ (base.join segment).extension? = (Path.ofString segment).extension?
            ∧ Format.ofPath (base.join segment) = Format.ofPath (Path.ofString segment))
          ∧ (∀ extension,
            (Path.ofString segment).extension? = some extension
            ↔ '.' ∉ extension.toList
              ∧ ∃ front, front ≠ [] ∧ segment.toList = front ++ '.' :: extension.toList)
          ∧ ((Path.ofString segment).extension? = none
            ↔ '.' ∉ segment.toList ∨ ∃ rest, '.' ∉ rest ∧ segment.toList = '.' :: rest))
      ∧ (∀ (fs : FileSystem) (candidate : Path × ConfigName),
        Format.ofPath (Locator.candidatePath candidate) = .ok candidate.2.format
        ∧ fs.load (Locator.candidatePath candidate)
          = (fs.readText (Locator.candidatePath candidate)).bind
              (candidate.2.format.read (Locator.candidatePath candidate))
        ∧ ∀ extension,
            fs.load (Locator.candidatePath candidate) ≠ .error (.unsupportedFormat extension))
      ∧ ∀ (locator : Locator) (fs : FileSystem) (error : Error),
          (locator.locate fs).outcome = .error error → ¬ error.LacksFormat := by
  refine ⟨fun segment single => ⟨fun base => ⟨?_, ?_, ?_⟩, fun extension => ?_, ?_⟩, ?_, ?_⟩
  · exact base.fileName?_join single
  · exact base.extension?_join_eq single
  · exact Format.ofPath_join base single
  · rw [Path.extension?_ofString single, Path.extensionOf?_eq_some_iff]
  · rw [Path.extension?_ofString single, Path.extensionOf?_eq_none_iff]
  · intro fs candidate
    exact ⟨candidate.2.ofPath_join_label candidate.1, Locator.load_candidatePath_eq fs candidate,
      Locator.load_candidatePath_ne fs candidate⟩
  · intro locator fs error
    exact Locator.not_lacksFormat_of_locate

namespace MalformedCheckout

/-- A document that is a list without an end. -/
def files : FileSystem :=
  .checkout [(BareCheckout.documentName, "[")]

theorem decides_files
    : Locator.Decides files [⟨"/src"⟩] (⟨"/src"⟩, .hiddenYaml) "[".toUTF8 := by
  have read
      : files.readBytes (FileSystem.pathBelow "/src" BareCheckout.documentName.text)
        = .ok "[".toUTF8 :=
    FileSystem.readBytes_checkout FileSystem.find_checkout_root (by decide) (by decide) (by decide)
  exact { first := ⟨[], _, rfl, by simp⟩, content := read }

theorem read?_content
    : Format.yaml.read? "[" = none := by
  decide +kernel

/-- The lookup ends with the document that is not YAML. -/
theorem outcome_locate
    : (({ directories := [⟨"/src"⟩] } : Locator).locate files).outcome
      = .error (.unparsable (.file (.malformed .yaml ⟨"/src/.packit.yaml"⟩))) := by
  have order
      : (({ directories := [⟨"/src"⟩] } : Locator).searchOrder files).outcome = .ok [⟨"/src"⟩] :=
    rfl
  have failed
      : files.load (Locator.candidatePath (⟨"/src"⟩, .hiddenYaml))
        = .error (.malformed .yaml ⟨"/src/.packit.yaml"⟩) := by
    rw [Locator.load_candidatePath decides_files.content, Git.fromUTF8?_toUTF8]
    dsimp only [ConfigName.format, Format.read]
    rw [read?_content]
    decide
  exact Locator.outcome_locate_of_unloaded order decides_files.first?_eq failed

end MalformedCheckout

/-- A name with several dots behind slashes, and a lookup that ends at a malformed document. -/
theorem joined_name_decides_malformed
    : Path.IsSegment "..a.tar.gz"
      ∧ ((⟨"b//"⟩ : Path).join "..a.tar.gz").extension? = some "gz"
      ∧ (({ directories := [⟨"/src"⟩] } : Locator).locate MalformedCheckout.files).outcome
        = .error (.unparsable (.file (.malformed .yaml ⟨"/src/.packit.yaml"⟩)))
      ∧ ¬ Error.LacksFormat
          (.unparsable (.file (.malformed .yaml ⟨"/src/.packit.yaml"⟩))) := by
  have single : Path.IsSegment "..a.tar.gz" := ⟨by decide, by decide, by decide⟩
  obtain ⟨names, _, lookups⟩ := joined_name_decides
  obtain ⟨bases, extensions, _⟩ := names _ single
  refine ⟨single, ?_, MalformedCheckout.outcome_locate,
    lookups _ _ _ MalformedCheckout.outcome_locate⟩
  obtain ⟨_, same, _⟩ := bases ⟨"b//"⟩
  have own : (Path.ofString "..a.tar.gz").extension? = some "gz" :=
    (extensions "gz").mpr ⟨by decide, "..a.tar".toList, by decide, by decide⟩
  exact same.trans own

end Packaging
