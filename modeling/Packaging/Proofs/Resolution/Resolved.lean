import Packaging.Proofs.Attributes.RoundTrip
import Packaging.Proofs.Resolution.Stages

/-! What holds of every package that a document resolves to. The hints have nothing left to fill
in, and each job has whatever its package has.
-/

namespace Packaging

open Declaration

-----------------------------------------------------------------------------------------
-- Paths and names
-----------------------------------------------------------------------------------------

/-- The path of the document is a text, or null or nothing for none. -/
theorem Declaration.documentPath_eq_ok_iff {fields : Fields} {path : Option String}
    : documentPath fields = .ok path
      ↔ (path = none
          ∧ (fields.find? "config_file_path" = none
            ∨ fields.find? "config_file_path" = some .null))
        ∨ ∃ text, fields.find? "config_file_path" = some (.text text) ∧ path = some text := by
  unfold documentPath
  split
  · next missing => simp [missing, eq_comm]
  · next null => simp [null, eq_comm]
  · next text found => simp [found, eq_comm]
  · next value notNull notText found =>
    simp only [found, reduceCtorEq, Option.some.injEq, false_or, false_iff, not_or, not_and,
      not_exists]
    exact ⟨fun _ null => notNull null, fun text same => (notText text same).elim⟩

namespace Hints

/-- A name that is filled in has nothing left to fill in. -/
theorem fillName_fillName (hints : Hints) (name : Option String)
    : hints.fillName (hints.fillName name) = hints.fillName name := by
  unfold fillName
  cases given : (filled name).isSome with
  | true => simp [given]
  | false =>
      cases hints.repoName with
      | none => simp
      | some repo => simp

theorem fillNames_fillNames (hints : Hints) (x : Attributes)
    : hints.fillNames (hints.fillNames x) = hints.fillNames x := by
  simp [fillNames, fillName_fillName]

theorem fillNames_empty (x : Attributes)
    : fillNames {} x = x := by
  simp [fillNames, fillName]

end Hints

-----------------------------------------------------------------------------------------
-- Resolved packages
-----------------------------------------------------------------------------------------

/-- A package in which the hints have nothing left to fill in. Its attributes are settled, and each
of its jobs has settled attributes that lack nothing which the package has. No URL is derived yet.
-/
structure Package.Resolved (package : Package) (hints : Hints) : Prop where
  path
    : ∀ path, hints.configPath = some path
        → ∃ given, package.configPath = some given ∧ (given = "" → path = "")
  spec : (filled package.attributes.specfilePath).isSome
  names : hints.fillNames package.attributes = package.attributes
  settled : package.attributes.Settled
  fresh : package.attributes.derivedUrl = none
  jobs
    : ∀ job ∈ package.jobs,
        job.attributes.Settled ∧ job.attributes.Below package.attributes
        ∧ job.attributes.derivedUrl = none

/-- A resolved package has nothing to fill in without hints either. -/
theorem Package.Resolved.of_any {package : Package} {hints : Hints}
    (resolved : package.Resolved hints)
    : package.Resolved {} :=
  { resolved with
    path := fun _ impossible => by simp at impossible
    names := Hints.fillNames_empty _ }

/-- The attributes of resolved jobs are what overrides make of the inherited ones. -/
theorem Job.exists_overlay_of_resolveAll {inherited : Attributes} {raws : List Value}
    {jobs : List Job}
    (resolved
      : List.Forall₂ (fun raw job => (Job.resolve inherited raw).outcome = .ok job) raws jobs)
    : ∀ job ∈ jobs, ∃ o, job.attributes = inherited.overlay o := by
  induction resolved with
  | nil => simp
  | cons head _ ih =>
      obtain ⟨declared, _, _, _, _, attributes⟩ := outcome_resolve_eq_ok_iff.mp head
      exact List.forall_mem_cons.mpr ⟨⟨declared.overrides, attributes⟩, ih⟩

/-- The path that a package is given stays when it has a content, and otherwise is the hint. -/
theorem Hints.path_of_inject {hints : Hints} {fields renamed : Fields} {path : Option String}
    (rename : renameSynonym (hints.inject fields) = .ok renamed)
    (told : documentPath (renamed.erase "jobs") = .ok path)
    : ∀ hint, hints.configPath = some hint
        → ∃ given, path = some given ∧ (given = "" → hint = "") := by
  intro hint hinted
  have found : (renamed.erase "jobs").find? "config_file_path"
      = (hints.inject fields).find? "config_file_path" := by
    rw [Fields.find?_erase, if_neg (by decide), find?_of_renameSynonym rename,
      spelled?_of_ne (by decide) (by decide)]
  have text : ∃ given, (hints.inject fields).find? "config_file_path" = some (.text given)
      ∧ (given = "" → hint = "") := by
    rw [hints.find?_inject, hinted]
    cases fields.find? "config_file_path" with
    | none => exact ⟨hint, rfl, id⟩
    | some value =>
        cases value with
        | text own =>
            refine ⟨if own = "" then hint else own, rfl, ?_⟩
            intro empty
            by_cases ownEmpty : own = ""
            · simpa [ownEmpty] using empty
            · simp [ownEmpty] at empty
        | _ => exact ⟨hint, rfl, id⟩
  obtain ⟨given, injected, empty⟩ := text
  -- With a text in its place the path is neither missing nor null.
  rcases documentPath_eq_ok_iff.mp told with ⟨_, missing | null⟩ | ⟨other, text, rfl⟩
  · rw [found, injected] at missing
    simp at missing
  · rw [found, injected] at null
    simp at null
  · rw [found, injected] at text
    cases text
    exact ⟨given, rfl, empty⟩

/-- Every package that a document resolves to is resolved. Each stage of the resolution
establishes its part and keeps those before it.
-/
theorem Hints.resolved_of_resolve {hints : Hints} {document : Value} {package : Package}
    (resolved : (hints.resolve document).outcome = .ok package)
    : package.Resolved hints := by
  obtain ⟨fields, rfl⟩ := exists_mapping_of_resolve resolved
  obtain ⟨declared, x, read, spec, jobs, path, attributes⟩ :=
    outcome_build_eq_ok_iff.mp (outcome_resolve_mapping_eq_ok_iff.mp resolved)
  obtain ⟨renamed, rename, _, toldPath, _⟩ := PackageDeclaration.outcome_eq_ok_iff.mp read
  obtain ⟨specPath, known, rfl⟩ := fillSpec_eq_ok_iff.mp spec
  have settled : package.attributes.Settled := by
    obtain ⟨namespaceFilled, baseUrlFilled, commandFilled⟩ :=
      Attributes.settled_iff.mp (Attributes.settled_ofOverrides declared.overrides)
    -- Hints fill in none of the three that are never left empty.
    rw [attributes]
    exact Attributes.settled_iff.mpr ⟨namespaceFilled, baseUrlFilled, commandFilled⟩
  have content : specPath ≠ "" := by
    rcases Option.or_eq_some_iff.mp known with own | ⟨_, hint⟩
    · exact (filled_eq_some_iff.mp own).2
    · exact (filled_eq_some_iff.mp hint).2
  refine {
    path := ?_
    spec := ?_
    names := ?_
    settled := settled
    fresh := ?_
    jobs := ?_
  }
  · intro hint hinted
    rw [path]
    exact path_of_inject rename toldPath hint hinted
  · rw [attributes]
    simp [fillNames, filled, content]
  · rw [attributes, fillNames_fillNames]
  · rw [attributes]
    rfl
  · intro job member
    rw [← attributes] at jobs
    obtain ⟨o, overlaid⟩ :=
      Job.exists_overlay_of_resolveAll (Job.outcome_resolveAll_eq_ok_iff.mp jobs) job member
    rw [overlaid]
    exact ⟨settled.overlay o, Attributes.below_overlay _ o, rfl⟩

end Packaging
