import Packaging.Proofs.Resolution.Resolved

/-! What no resolved package is without. Its parts that have a built-in value are never empty, the
hints have filled the others where they could, and no job lost what its package has.
-/

namespace Packaging

/-- Attributes as a resolution leaves them: none of the three with a built-in value is empty, and
no URL is derived.
-/
structure Attributes.Ready (x : Attributes) : Prop where
  distGitNamespace : x.distGitNamespace ≠ ""
  distGitBaseUrl : x.distGitBaseUrl ≠ ""
  versionCommand : x.versionCommand ≠ []
  underived : x.isDerived = false

/-- A package that lacks nothing that the hints or a built-in value could give. Its spec file and,
with a hint for them, its names are known, and each of its jobs has every attribute that it has.
-/
structure Package.Complete (package : Package) (hints : Hints) : Prop where
  ready : package.attributes.Ready
  spec : ∃ path, package.attributes.specfilePath = some path ∧ path ≠ ""
  names
    : ∀ repo, hints.repoName = some repo
        → (∃ name, package.attributes.projectName = some name ∧ (repo ≠ "" → name ≠ ""))
          ∧ ∃ name, package.attributes.downstreamName = some name ∧ (repo ≠ "" → name ≠ "")
  readyJobs : ∀ job ∈ package.jobs, job.attributes.Ready
  keptByJobs
    : ∀ job ∈ package.jobs, ∀ a : Attribute,
        (a.value package.attributes).isSome → (a.value job.attributes).isSome
  specOfJobs : ∀ job ∈ package.jobs, job.attributes.specfilePath.isSome
  namesOfJobs
    : ∀ job ∈ package.jobs, hints.repoName.isSome
        → job.attributes.projectName.isSome ∧ job.attributes.downstreamName.isSome

/-- Settled attributes without a derived URL are ready. -/
theorem Attributes.Settled.ready {x : Attributes} (settled : x.Settled)
    (fresh : x.derivedUrl = none)
    : x.Ready := by
  obtain ⟨distGitNamespace, distGitBaseUrl, versionCommand⟩ := settled_iff.mp settled
  exact ⟨distGitNamespace, distGitBaseUrl, versionCommand, by rw [isDerived, fresh]; rfl⟩

/-- What the inherited attributes have is there in attributes that lack nothing of them. -/
theorem Attributes.Below.isSome {x inherited : Attributes} (below : x.Below inherited)
    {a : Attribute} (held : (a.value inherited).isSome)
    : (a.value x).isSome := by
  rw [Option.isSome_iff_ne_none] at held ⊢
  exact fun missing => held (below a missing)

/-- With the name of the repository no name is missing, and none is empty unless that name is. -/
theorem Hints.exists_fillName {hints : Hints} {repo : String}
    (told : hints.repoName = some repo) (name : Option String)
    : ∃ given, hints.fillName name = some given ∧ (repo ≠ "" → given ≠ "") := by
  unfold fillName
  cases own : filled name with
  | some given =>
      obtain ⟨same, content⟩ := filled_eq_some_iff.mp own
      exact ⟨given, by simp [same], fun _ => content⟩
  | none => exact ⟨repo, by simp [told], id⟩

/-- Every package that a document resolves to is complete, and so is each of its jobs: a job can
replace an attribute that its package has, but never unset it.
-/
theorem Hints.complete_of_resolve {hints : Hints} {document : Value} {package : Package}
    (resolved : (hints.resolve document).outcome = .ok package)
    : package.Complete hints := by
  have kept := resolved_of_resolve resolved
  obtain ⟨path, spec⟩ := Option.isSome_iff_exists.mp kept.spec
  obtain ⟨own, content⟩ := Option.filter_eq_some_iff.mp spec
  -- The names are those that the hints filled in, so filling them in again shows what they are.
  have filledIn : package.attributes.projectName = hints.fillName package.attributes.projectName
      ∧ package.attributes.downstreamName
        = hints.fillName package.attributes.downstreamName := by
    have again := kept.names
    exact ⟨congrArg Attributes.projectName again.symm,
      congrArg Attributes.downstreamName again.symm⟩
  have names (repo : String) (told : hints.repoName = some repo)
      : (∃ name, package.attributes.projectName = some name ∧ (repo ≠ "" → name ≠ ""))
        ∧ ∃ name, package.attributes.downstreamName = some name ∧ (repo ≠ "" → name ≠ "") := by
    rw [filledIn.1, filledIn.2]
    exact ⟨exists_fillName told _, exists_fillName told _⟩
  have inherited (job : Job) (member : job ∈ package.jobs) (a : Attribute)
      (held : (a.value package.attributes).isSome)
      : (a.value job.attributes).isSome :=
    (kept.jobs job member).2.1.isSome held
  refine {
    ready := kept.settled.ready kept.fresh
    spec := ⟨path, own, by simpa using content⟩
    names := names
    readyJobs := fun job member => (kept.jobs job member).1.ready (kept.jobs job member).2.2
    keptByJobs := inherited
    specOfJobs := ?_
    namesOfJobs := ?_
  }
  · intro job member
    exact inherited job member .specfilePath (by simp [Attribute.value, own])
  · intro job member told
    obtain ⟨repo, told⟩ := Option.isSome_iff_exists.mp told
    obtain ⟨⟨project, hasProject, _⟩, downstream, hasDownstream, _⟩ := names repo told
    exact ⟨inherited job member .projectName (by simp [Attribute.value, hasProject]),
      inherited job member .downstreamName (by simp [Attribute.value, hasDownstream])⟩

/-- A package with an empty namespace and an empty name, and a job with an empty command, an empty
path of its own and null for a name.
-/
theorem Hints.complete_of_resolve_emptied
    : let hints : Hints := { repoName := some "foo" }
      let raw : Value := .mapping
        [("current_version_command", .list []), ("job", .text "tests"),
          ("specfile_path", .text ""), ("trigger", .text "commit"),
          ("upstream_package_name", .null)]
      let document : Value := .mapping
        [("dist_git_namespace", .text ""), ("jobs", .list [raw]),
          ("specfile_path", .text "foo.spec"), ("upstream_package_name", .text "")]
      let attributes : Attributes :=
        { specfilePath := some "foo.spec", projectName := some "foo", downstreamName := some "foo" }
      let package : Package :=
        { configPath := none
          attributes
          jobs :=
            [{ type := .tests
               trigger := .commit
               attributes := { attributes with specfilePath := some "" } }] }
      (hints.resolve document).outcome = .ok package ∧ package.Complete hints := by
  intro hints raw document attributes package
  have resolved : (hints.resolve document).outcome = .ok package := by decide
  exact ⟨resolved, complete_of_resolve resolved⟩

end Packaging
