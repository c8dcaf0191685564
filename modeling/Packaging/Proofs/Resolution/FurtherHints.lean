import Packaging.Proofs.Resolution.Inheritance
import Packaging.Proofs.Resolution.Resolved

/-! Resolution of one document with further hints. A hint only fills what was left open, so it
never turns a success into a failure and never changes what the document gives.
-/

namespace Packaging

open Declaration Value

-----------------------------------------------------------------------------------------
-- What a further hint may change
-----------------------------------------------------------------------------------------

/-- Hints that carry all that `hints` carry, and maybe more. -/
structure Hints.Extends (more hints : Hints) : Prop where
  configPath : ∀ path, hints.configPath = some path → more.configPath = some path
  repoName : ∀ name, hints.repoName = some name → more.repoName = some name
  specPath : ∀ path, hints.specPath = some path → more.specPath = some path

/-- The attributes without the two names that a hint may fill in. -/
def Attributes.withoutNames (x : Attributes) : Attributes :=
  { x with projectName := none, downstreamName := none }

/-- How a job of the mapping `fields` looks after the attributes `inherited` of its package became
`next`. Just those names become others that the job does not give and that became others in its
package, and all else stays.
-/
structure Job.FilledTo (inherited next : Attributes) (fields : Fields) (job later : Job)
    : Prop where
  kept
    : later.type = job.type ∧ later.trigger = job.trigger ∧ later.metadata = job.metadata
      ∧ later.attributes.withoutNames = job.attributes.withoutNames
  projectName
    : later.attributes.projectName ≠ job.attributes.projectName
      ↔ jobValue? "upstream_package_name" fields = none
        ∧ next.projectName ≠ inherited.projectName
  downstreamName
    : later.attributes.downstreamName ≠ job.attributes.downstreamName
      ↔ jobValue? "downstream_package_name" fields = none
        ∧ next.downstreamName ≠ inherited.downstreamName

/-- How the package of the mapping `fields` looks with further hints. Its path and its two names
stay where they had a content, and all else stays. Each job is filled by itself.
-/
structure Package.FilledTo (fields : Fields) (package next : Package) : Prop where
  path : filled package.configPath ≠ none → next.configPath = package.configPath
  projectName
    : filled package.attributes.projectName ≠ none
      → next.attributes.projectName = package.attributes.projectName
  downstreamName
    : filled package.attributes.downstreamName ≠ none
      → next.attributes.downstreamName = package.attributes.downstreamName
  others : next.attributes.withoutNames = package.attributes.withoutNames
  count : next.jobs.length = package.jobs.length
  jobs
    : List.Forall₂
        (fun raw pair => ∃ entries,
          raw = .mapping entries
          ∧ Job.FilledTo package.attributes next.attributes entries pair.1 pair.2)
        (listedJobs fields) (package.jobs.zip next.jobs)

-----------------------------------------------------------------------------------------
-- Stages with further hints
-----------------------------------------------------------------------------------------

/-- The path of the document that stands in a mapping as a text. -/
def Declaration.pathText? (fields : Fields) : Option String :=
  match fields.find? "config_file_path" with
  | some (.text path) => some path
  | _ => none

/-- A path that is read is the text that stands there. -/
theorem Declaration.pathText?_of_documentPath {fields : Fields} {path : Option String}
    (told : documentPath fields = .ok path)
    : pathText? fields = path := by
  unfold pathText?
  rcases documentPath_eq_ok_iff.mp told with ⟨rfl, missing | null⟩ | ⟨text, found, rfl⟩
  · rw [missing]
  · rw [null]
  · rw [found]

namespace Hints

/-- A path that is given and not empty, or else the hint if there is one. -/
def fillPath (hints : Hints) (path : Option String) : Option String :=
  if (filled path).isSome then path else hints.configPath.or path

/-- With a hint the path of the document is a text with content, or else the hint. -/
theorem documentPath_inject_of_hint {hints : Hints} {hint : String}
    (hinted : hints.configPath = some hint) (fields : Fields)
    : documentPath (hints.inject fields)
      = .ok (some ((filled (pathText? fields)).getD hint)) := by
  rw [documentPath, find?_inject, hinted, pathText?]
  cases fields.find? "config_file_path" with
  | none => rfl
  | some value =>
      cases value with
      | text given => by_cases empty : given = "" <;> simp [filled, Option.filter_some, empty]
      | _ => rfl

variable {hints more : Hints}

/-- With further hints the path of the document is what it was, filled in once more. -/
theorem Extends.documentPath_inject (extended : more.Extends hints) {fields : Fields}
    {path : Option String} (told : documentPath (hints.inject fields) = .ok path)
    : documentPath (more.inject fields) = .ok (more.fillPath path) := by
  unfold fillPath
  cases first : hints.configPath with
  | some hint =>
      -- Both inject the same hint, so a path without content is the hint itself.
      have second := extended.configPath hint first
      rw [documentPath_inject_of_hint first, Except.ok.injEq] at told
      rw [documentPath_inject_of_hint second, second, ← told]
      cases given : filled (pathText? fields) with
      | none => simp
      | some text =>
          simp [filled, (filled_eq_some_iff.mp given).2]
  | none =>
      have own : documentPath fields = .ok path := by
        simpa [inject, first] using told
      have text := pathText?_of_documentPath own
      cases second : more.configPath with
      | none => simpa [inject, second] using own
      | some hint =>
          rw [documentPath_inject_of_hint second, text]
          cases given : filled path with
          | none => simp
          | some content => simp [(filled_eq_some_iff.mp given).1]

/-- With further hints the path of the spec file stays as it was. -/
theorem Extends.fillSpec (extended : more.Extends hints) {x y : Attributes}
    (known : hints.fillSpec x = .ok y)
    : more.fillSpec x = .ok y := by
  obtain ⟨path, found, rfl⟩ := fillSpec_eq_ok_iff.mp known
  refine fillSpec_eq_ok_iff.mpr ⟨path, ?_, rfl⟩
  rcases Option.or_eq_some_iff.mp found with own | ⟨missing, hint⟩
  · rw [own, Option.some_or]
  · have given : hints.specPath = some path := (filled_eq_some_iff.mp hint).1
    have same : more.specPath = hints.specPath := by rw [extended.specPath path given, given]
    rw [missing, Option.none_or, same, hint]

/-- With further hints a name is what it was, filled in once more. -/
theorem Extends.fillName (extended : more.Extends hints) (name : Option String)
    : more.fillName (hints.fillName name) = more.fillName name := by
  unfold Hints.fillName
  cases given : (filled name).isSome with
  | true => simp [given]
  | false =>
      cases first : hints.repoName with
      | none => simp [given]
      | some repo => simp [extended.repoName repo first]

theorem fillName_of_filled (hints : Hints) {name : Option String} (content : filled name ≠ none)
    : hints.fillName name = name := by
  rw [Hints.fillName, if_pos (Option.isSome_iff_ne_none.mpr content)]

theorem fillPath_of_filled (hints : Hints) {path : Option String} (content : filled path ≠ none)
    : hints.fillPath path = path := by
  rw [fillPath, if_pos (Option.isSome_iff_ne_none.mpr content)]

/-- With further hints a mapping declares the same, but for the path that is filled in. -/
theorem Extends.declares (extended : more.Extends hints) {fields : Fields}
    {declared : PackageDeclaration} (declares : declared.Declares (hints.inject fields))
    : PackageDeclaration.Declares (more.inject fields)
        { declared with configPath := more.fillPath declared.configPath } := by
  have kept (key : String) (other : key ≠ "config_file_path")
      : (more.inject fields).find? key = (hints.inject fields).find? key := by
    rw [find?_inject_of_ne _ other, find?_inject_of_ne _ other]
  refine {
    single := ?_
    jobs := ?_
    path := extended.documentPath_inject declares.path
    attributes := fun a => ?_
  }
  · rw [BothSpellings, kept _ (by decide), kept _ (by decide)]
    exact declares.single
  · rw [rawJobs, kept _ (by decide)]
    exact declares.jobs
  · have entry : spelled? a.key (more.inject fields) = spelled? a.key (hints.inject fields) := by
      rw [more.spelled?_inject, hints.spelled?_inject]
    exact (Attribute.parts.told_congr entry).mpr (declares.attributes a)

end Hints

-----------------------------------------------------------------------------------------
-- Jobs of a filled package
-----------------------------------------------------------------------------------------

namespace Job

/-- A name that a job gives hides that of the package, and otherwise becomes another one just when
the package's does.
-/
theorem ne_iff_of_overlay {inherited next : Attributes} {o : Overrides} {fields : Fields}
    {a : Attribute} (told : Attribute.parts.Told (fun key => jobField? key fields) o a)
    : a.value (next.overlay o) ≠ a.value (inherited.overlay o)
      ↔ jobValue? a.key fields = none ∧ a.value next ≠ a.value inherited := by
  have given := Attribute.told_iff.mp told
  rw [Attribute.value_overlay, Attribute.value_overlay]
  unfold jobValue?
  cases found : present? (jobField? a.key fields) with
  | none =>
      simp only [found] at given
      simp [given]
  | some value =>
      simp only [found] at given
      obtain ⟨data, _, told⟩ := given
      simp [told]

/-- Attributes that differ in the two names at most still do so under the same overrides. -/
theorem withoutNames_overlay {inherited next : Attributes} (o : Overrides)
    (same : next.withoutNames = inherited.withoutNames)
    : (next.overlay o).withoutNames = (inherited.overlay o).withoutNames := by
  have fields := same
  simp only [Attributes.withoutNames, Attributes.mk.injEq] at fields ⊢
  simp [Attributes.overlay, fields]

/-- A job that resolves for a package also does when the names of the package are filled in, and is
filled by itself.
-/
theorem exists_filledTo {inherited next : Attributes} {raw : Value} {job : Job}
    (ordered : raw.Ordered) (same : next.withoutNames = inherited.withoutNames)
    (resolved : (resolve inherited raw).outcome = .ok job)
    : ∃ later entries,
        (resolve next raw).outcome = .ok later
        ∧ raw = .mapping entries ∧ job.FilledTo inherited next entries later := by
  obtain ⟨declared, read, type, trigger, metadata, attributes⟩ :=
    outcome_resolve_eq_ok_iff.mp resolved
  obtain ⟨entries, rfl, _⟩ := inherits_of_outcome ordered resolved
  have declares := (JobDeclaration.outcome_eq_ok_iff_declares ordered.ascending).mp read
  have later : (resolve next (.mapping entries)).outcome
      = .ok ⟨declared.type, declared.trigger, declared.metadata,
          next.overlay declared.overrides⟩ :=
    outcome_resolve_eq_ok_iff.mpr ⟨declared, read, rfl, rfl, rfl, rfl⟩
  refine ⟨_, entries, later, rfl, ?_, ?_, ?_⟩
  · rw [attributes]
    exact ⟨type.symm, trigger.symm, metadata.symm, withoutNames_overlay _ same⟩
  · rw [attributes]
    exact ne_iff_of_overlay (declares.attributes .projectName)
  · rw [attributes]
    exact ne_iff_of_overlay (declares.attributes .downstreamName)

/-- Jobs that resolve for a package also do when its names are filled in. By induction over the
list.
-/
theorem exists_all_filledTo {inherited next : Attributes} {raws : List Value} {jobs : List Job}
    (ordered : ∀ raw ∈ raws, raw.Ordered) (same : next.withoutNames = inherited.withoutNames)
    (resolved
      : List.Forall₂ (fun raw job => (resolve inherited raw).outcome = .ok job) raws jobs)
    : ∃ later,
        List.Forall₂ (fun raw job => (resolve next raw).outcome = .ok job) raws later
        ∧ later.length = jobs.length
        ∧ List.Forall₂
            (fun raw pair => ∃ entries,
              raw = .mapping entries ∧ Job.FilledTo inherited next entries pair.1 pair.2)
            raws (jobs.zip later) := by
  induction resolved with
  | nil => exact ⟨[], .nil, rfl, .nil⟩
  | cons head _ ih =>
      obtain ⟨first, others⟩ := List.forall_mem_cons.mp ordered
      obtain ⟨job, entries, again, raw, filled⟩ := exists_filledTo first same head
      obtain ⟨rest, all, count, each⟩ := ih others
      exact ⟨job :: rest, .cons again all, by simp [count],
        .cons ⟨entries, raw, filled⟩ each⟩

end Job

/-- A document that resolves also does with further hints, and they only fill gaps. The path of the
document and each of the two names may become others where they were missing or empty, a job's name
just where the job gives none and the package's became another one, and all else stays.
-/
theorem Hints.filledTo_of_extends {hints more : Hints} {document : Value} {package : Package}
    (ordered : document.Ordered) (extended : more.Extends hints)
    (resolved : (hints.resolve document).outcome = .ok package)
    : ∃ fields next,
        document = .mapping fields ∧ (more.resolve document).outcome = .ok next
        ∧ package.FilledTo fields next := by
  obtain ⟨fields, rfl⟩ := exists_mapping_of_resolve resolved
  obtain ⟨declared, x, read, spec, jobs, path, attributes⟩ :=
    outcome_build_eq_ok_iff.mp (outcome_resolve_mapping_eq_ok_iff.mp resolved)
  have declares := (PackageDeclaration.outcome_eq_ok_iff_declares
    (hints.ascending_inject ordered.ascending)).mp read
  have readAgain := (PackageDeclaration.outcome_eq_ok_iff_declares
    (more.ascending_inject ordered.ascending)).mpr (extended.declares declares)
  have listed : declared.jobs.getD defaultJobs = listedJobs fields := by
    rw [← declares.listedJobs_eq, listedJobs, listedJobs, hints.find?_inject_of_ne (by decide)]
  -- The names are filled in once more, from what the first hints made of them.
  have names : more.fillNames x = more.fillNames package.attributes := by
    rw [attributes]
    simp [fillNames, extended.fillName]
  have others : (more.fillNames x).withoutNames = package.attributes.withoutNames := by
    rw [attributes]
    rfl
  rw [Job.outcome_resolveAll_eq_ok_iff, listed, ← attributes] at jobs
  obtain ⟨later, all, count, each⟩ :=
    Job.exists_all_filledTo (ordered_listedJobs ordered) others jobs
  refine ⟨fields, ⟨more.fillPath declared.configPath, more.fillNames x, later⟩, rfl, ?_, ?_⟩
  · refine outcome_resolve_mapping_eq_ok_iff.mpr (outcome_build_eq_ok_iff.mpr
      ⟨_, x, readAgain, extended.fillSpec spec, ?_, rfl, rfl⟩)
    rw [Job.outcome_resolveAll_eq_ok_iff]
    exact listed ▸ all
  · refine {
      path := fun content => ?_
      projectName := fun content => ?_
      downstreamName := fun content => ?_
      others := others
      count := count
      jobs := each
    }
    · rw [path] at content ⊢
      exact more.fillPath_of_filled content
    · rw [names]
      exact more.fillName_of_filled content
    · rw [names]
      exact more.fillName_of_filled content

/-- A document without names and with an empty path, and two jobs of which one gives an empty name.
The path and both names of the repository are further hints.
-/
theorem Hints.filledTo_of_extends_named
    : let first : Value := .mapping
        [("job", .text "tests"), ("trigger", .text "commit"), ("upstream_package_name", .text "")]
      let second : Value := .mapping [("job", .text "build"), ("trigger", .text "release")]
      let document : Value := .mapping
        [("config_file_path", .text ""), ("downstream_package_name", .text "bar"),
          ("jobs", .list [first, second])]
      let hints : Hints := { specPath := some "foo.spec" }
      let more : Hints := { hints with configPath := some ".packit.yaml", repoName := some "foo" }
      let attributes : Attributes :=
        { specfilePath := some "foo.spec", downstreamName := some "bar" }
      let package : Package :=
        { configPath := some ""
          attributes
          jobs :=
            [{ type := .tests
               trigger := .commit
               attributes := { attributes with projectName := some "" } },
              { type := .build, trigger := .release, attributes }] }
      document.Ordered ∧ more.Extends hints ∧ (hints.resolve document).outcome = .ok package
      ∧ ∃ fields next,
          document = .mapping fields ∧ (more.resolve document).outcome = .ok next
          ∧ package.FilledTo fields next := by
  intro first second document hints more attributes package
  have ordered : document.Ordered := by decide
  have extended : more.Extends hints := ⟨nofun, nofun, fun _ given => given⟩
  have resolved : (hints.resolve document).outcome = .ok package := by decide
  exact ⟨ordered, extended, resolved, filledTo_of_extends ordered extended resolved⟩

end Packaging
