import Packaging.Proofs.Document.Ordered
import Packaging.Proofs.Resolution.Stages

/-! Where the attributes and settings of a resolved job come from. A job has what its own entry
gives, and the attributes of its package for the rest. Documents are taken as they are read, with
the entries of every mapping in ascending order.
-/

namespace Packaging

open Declaration Value

-----------------------------------------------------------------------------------------
-- Jobs and their entries
-----------------------------------------------------------------------------------------

namespace Declaration

/-- The jobs that a document lists: those of the default catalog where the key is absent, and none
under null.
-/
def listedJobs (fields : Fields) : List Value :=
  match fields.find? "jobs" with
  | none => defaultJobs
  | some (.list raws) => raws
  | some _ => []

/-- The value that a job gives for a key. An entry of null gives none, and hides one that is
nested.
-/
def jobValue? (key : String) (fields : Fields) : Option Value :=
  present? (jobField? key fields)

end Declaration

/-- How a job comes from the mapping `fields` and the attributes of its package. Its type, its
trigger and its settings are its own. An attribute is what the job gives for it, whole and settled,
and what the package has where the job gives nothing.
-/
structure Job.Inherits (inherited : Attributes) (fields : Fields) (job : Job) : Prop where
  type
    : ∃ name, jobField? "job" fields = some (.text name) ∧ JobType.ofLabel name = .ok job.type
  trigger
    : ∃ name,
        jobField? "trigger" fields = some (.text name)
        ∧ Trigger.ofLabel name = .ok job.trigger
  settings
    : ∀ s : Setting,
        match jobField? s.key fields with
        | none => s.value job.metadata = s.value {}
        | some value => s.decode value = .ok (s.value job.metadata)
  attributes
    : ∀ a : Attribute,
        match jobValue? a.key fields with
        | none => a.value job.attributes = a.value inherited
        | some value =>
            ∃ data,
              a.kind.decode value = .ok data
              ∧ a.value job.attributes = some (a.settle data)

/-- A job that is declared inherits from the package that it is laid over. -/
theorem Job.inherits_of_declares {inherited : Attributes} {fields : Fields} {job : Job}
    {declared : JobDeclaration} (declares : declared.Declares fields)
    (type : job.type = declared.type) (trigger : job.trigger = declared.trigger)
    (metadata : job.metadata = declared.metadata)
    (attributes : job.attributes = inherited.overlay declared.overrides)
    : job.Inherits inherited fields where
  type := type ▸ declares.type
  trigger := trigger ▸ declares.trigger
  settings := metadata ▸ declares.settings
  attributes a := by
    have told := Attribute.told_iff.mp (declares.attributes a)
    rw [attributes, Attribute.value_overlay]
    unfold jobValue?
    cases found : present? (jobField? a.key fields) with
    | none =>
        simp only [found] at told
        simp only [told, Option.map_none, Option.none_or]
    | some value =>
        simp only [found] at told
        obtain ⟨data, decoded, given⟩ := told
        exact ⟨data, decoded, by rw [given, Option.map_some, Option.some_or]⟩

/-- A job that resolves comes from a mapping, and inherits what this does not give. -/
theorem Job.inherits_of_outcome {inherited : Attributes} {raw : Value} {job : Job}
    (ordered : raw.Ordered) (resolved : (resolve inherited raw).outcome = .ok job)
    : ∃ fields, raw = .mapping fields ∧ job.Inherits inherited fields := by
  obtain ⟨declared, read, type, trigger, metadata, attributes⟩ :=
    outcome_resolve_eq_ok_iff.mp resolved
  cases raw with
  | mapping fields =>
      have declares := (JobDeclaration.outcome_eq_ok_iff_declares ordered.ascending).mp read
      exact ⟨fields, rfl, inherits_of_declares declares type trigger metadata attributes⟩
  | _ => simp [JobDeclaration.ofValue, throw, throwThe, MonadExceptOf.throw, Traced.fail] at read

-----------------------------------------------------------------------------------------
-- Other jobs for the same package
-----------------------------------------------------------------------------------------

theorem ordered_defaultJobs
    : ∀ raw ∈ defaultJobs, raw.Ordered := by
  decide

theorem Declaration.ordered_listedJobs {fields : Fields} (ordered : (mapping fields).Ordered)
    : ∀ raw ∈ listedJobs fields, raw.Ordered := by
  unfold listedJobs
  split
  · exact ordered_defaultJobs
  · next raws found =>
    exact ordered_list_iff.mp (ordered.of_find? found)
  · simp

/-- The jobs that are listed are those that are declared. -/
theorem PackageDeclaration.Declares.listedJobs_eq {fields : Fields}
    {declared : PackageDeclaration} (declares : Declares fields declared)
    : listedJobs fields = declared.jobs.getD defaultJobs := by
  have jobs := declares.jobs
  unfold rawJobs at jobs
  unfold listedJobs
  split at jobs
  · next missing =>
    rw [missing, ← Except.ok.inj jobs]
    rfl
  · next null =>
    rw [null, ← Except.ok.inj jobs]
    rfl
  · next raws found =>
    rw [found, ← Except.ok.inj jobs]
    rfl
  · simp at jobs

/-- The jobs that a mapping lists are those that it declares with the hints injected. -/
theorem Hints.listedJobs_of_inject {hints : Hints} {fields : Fields}
    {declared : PackageDeclaration} (ascending : fields.Ascending)
    (read : (PackageDeclaration.ofFields (hints.inject fields)).outcome = .ok declared)
    : listedJobs fields = declared.jobs.getD defaultJobs := by
  have declares := (PackageDeclaration.outcome_eq_ok_iff_declares
    (hints.ascending_inject ascending)).mp read
  rw [← declares.listedJobs_eq, listedJobs, listedJobs, hints.find?_inject_of_ne (by decide)]

/-- What is injected into a mapping does not depend on its jobs. -/
theorem Hints.find?_inject_of_same (hints : Hints) {left right : Fields}
    (same : ∀ key, key ≠ "jobs" → right.find? key = left.find? key) (key : String)
    (other : key ≠ "jobs")
    : (hints.inject right).find? key = (hints.inject left).find? key := by
  by_cases path : key = "config_file_path"
  · rw [path, hints.find?_inject, hints.find?_inject, same _ (by decide)]
  · rw [hints.find?_inject_of_ne path, hints.find?_inject_of_ne path, same key other]

/-- With another list of jobs a mapping declares the same, but for the jobs. -/
theorem PackageDeclaration.Declares.withJobs {left right : Fields}
    {declared : PackageDeclaration} {raws : List Value} (declares : Declares left declared)
    (same : ∀ key, key ≠ "jobs" → right.find? key = left.find? key)
    (jobs : right.find? "jobs" = some (.list raws))
    : Declares right { declared with jobs := some raws } where
  single := by
    rw [BothSpellings, same _ (by decide), same _ (by decide)]
    exact declares.single
  jobs := by rw [rawJobs, jobs]
  path := by
    rw [documentPath, same _ (by decide)]
    exact declares.path
  attributes a := by
    have entry : spelled? a.key right = spelled? a.key left := by
      have notJobs : a.key ≠ "jobs" := by cases a <;> decide
      rw [spelled?, spelled?, same _ notJobs, same _ (by decide), same _ (by decide)]
    exact (Attribute.parts.told_congr entry).mpr (declares.attributes a)

/-- With another list of jobs a package is resolved to the same path and the same attributes, and
its jobs inherit these. The rest of the document, which decides the attributes, is the same.
-/
theorem Hints.outcome_resolve_withJobs {hints : Hints} {fields : Fields} {package other : Package}
    (ascending : fields.Ascending)
    (resolved : (hints.resolve (.mapping fields)).outcome = .ok package) (raws : List Value)
    : (hints.resolve (.mapping (fields.insert "jobs" (.list raws)))).outcome = .ok other
      ↔ other.configPath = package.configPath ∧ other.attributes = package.attributes
        ∧ List.Forall₂ (fun raw job => (Job.resolve package.attributes raw).outcome = .ok job)
            raws other.jobs := by
  obtain ⟨declared, x, read, spec, _, path, attributes⟩ :=
    outcome_build_eq_ok_iff.mp (outcome_resolve_mapping_eq_ok_iff.mp resolved)
  have declares := (PackageDeclaration.outcome_eq_ok_iff_declares
    (hints.ascending_inject ascending)).mp read
  have found : (hints.inject (fields.insert "jobs" (.list raws))).find? "jobs"
      = some (.list raws) := by
    rw [hints.find?_inject_of_ne (by decide), Fields.find?_insert, if_pos rfl]
  have kept (key : String) (notJobs : key ≠ "jobs")
      : (fields.insert "jobs" (.list raws)).find? key = fields.find? key := by
    rw [Fields.find?_insert, if_neg notJobs]
  -- Declarations are read entry by entry, so only the list of jobs is another one.
  have readAgain := (PackageDeclaration.outcome_eq_ok_iff_declares
    (hints.ascending_inject (ascending.insert "jobs" (.list raws)))).mpr
      (declares.withJobs (hints.find?_inject_of_same kept) found)
  rw [outcome_resolve_mapping_eq_ok_iff, outcome_build_eq_ok_iff, path, attributes]
  constructor
  · intro built
    obtain ⟨declaredAgain, y, readOther, specOther, jobs, pathOther, attributesOther⟩ := built
    obtain rfl := Except.ok.inj (readOther.symm.trans readAgain)
    obtain rfl := Except.ok.inj (specOther.symm.trans spec)
    exact ⟨pathOther, attributesOther, Job.outcome_resolveAll_eq_ok_iff.mp jobs⟩
  · intro kept
    obtain ⟨pathOther, attributesOther, jobs⟩ := kept
    exact ⟨_, x, readAgain, spec, Job.outcome_resolveAll_eq_ok_iff.mpr jobs, pathOther,
      attributesOther⟩

/-- Where every item has at most one partner, replacing an item replaces its partner and keeps the
others. By induction over the list up to the replaced item.
-/
theorem forall₂_set_iff {α β : Type} {R : α → β → Prop}
    (functional : Relator.RightUnique R) {items : List α} {partners others : List β}
    (all : List.Forall₂ R items partners) {index : Nat} (inside : index < items.length) (a : α)
    : List.Forall₂ R (items.set index a) others ↔ ∃ b, R a b ∧ others = partners.set index b := by
  induction all generalizing index others with
  | nil => simp at inside
  | @cons item partner items partners head rest ih =>
      cases index with
      | zero =>
          have determined {more : List β} (same : List.Forall₂ R items more)
              : more = partners := by
            exact List.right_unique_forall₂' functional same rest
          simp only [List.set_cons_zero, List.forall₂_cons_left_iff]
          constructor
          · intro partnered
            obtain ⟨b, more, related, same, rfl⟩ := partnered
            exact ⟨b, related, by rw [determined same]⟩
          · intro replaced
            obtain ⟨b, related, rfl⟩ := replaced
            exact ⟨b, partners, related, rest, rfl⟩
      | succ index =>
          have below : index < items.length := by simpa using inside
          simp only [List.set_cons_succ, List.forall₂_cons_left_iff, ih below]
          constructor
          · intro partnered
            obtain ⟨first, more, related, ⟨b, chosen, rfl⟩, rfl⟩ := partnered
            exact ⟨b, chosen, by rw [functional related head]⟩
          · intro replaced
            obtain ⟨b, chosen, rfl⟩ := replaced
            exact ⟨partner, partners.set index b, head, ⟨b, chosen, rfl⟩, rfl⟩

-----------------------------------------------------------------------------------------
-- Inheritance
-----------------------------------------------------------------------------------------

/-- The jobs of a resolved package are those that its document lists, one by one and in order, and
each inherits from the package what its entry does not give. With another entry in the place of
one of them, the document resolves just when the new entry does by itself, and to the same package
but for this job.
-/
theorem Hints.inherits_of_resolve {hints : Hints} {fields : Fields} {package : Package}
    (ordered : (mapping fields).Ordered)
    (resolved : (hints.resolve (.mapping fields)).outcome = .ok package)
    : List.Forall₂
        (fun raw job => ∃ entries, raw = .mapping entries ∧ job.Inherits package.attributes entries)
        (listedJobs fields) package.jobs
      ∧ ∀ raws index raw other,
          fields.find? "jobs" = some (.list raws) → index < raws.length
          → ((hints.resolve
                (.mapping (fields.insert "jobs" (.list (raws.set index raw))))).outcome = .ok other
            ↔ ∃ job,
                (Job.resolve package.attributes raw).outcome = .ok job
                ∧ other = { package with jobs := package.jobs.set index job }) := by
  obtain ⟨declared, x, read, _, jobs, _, attributes⟩ :=
    outcome_build_eq_ok_iff.mp (outcome_resolve_mapping_eq_ok_iff.mp resolved)
  have declares := (PackageDeclaration.outcome_eq_ok_iff_declares
    (hints.ascending_inject ordered.ascending)).mp read
  have listed : listedJobs fields = declared.jobs.getD defaultJobs := by
    rw [← declares.listedJobs_eq, listedJobs, listedJobs, hints.find?_inject_of_ne (by decide)]
  rw [← attributes, Job.outcome_resolveAll_eq_ok_iff, ← listed] at jobs
  constructor
  · have both := (List.forall₂_and_left _ _).mpr ⟨ordered_listedJobs ordered, jobs⟩
    exact both.imp fun raw job ⟨orderedJob, resolvedJob⟩ =>
      Job.inherits_of_outcome orderedJob resolvedJob
  · intro raws index raw other found inside
    have all : List.Forall₂
        (fun raw job => (Job.resolve package.attributes raw).outcome = .ok job)
        raws package.jobs := by
      simpa [listedJobs, found] using jobs
    -- An entry resolves to one job only, so those beside the replaced one are as before.
    have functional : Relator.RightUnique fun (raw : Value) (job : Job) =>
        (Job.resolve package.attributes raw).outcome = .ok job :=
      fun _ _ _ left right => Except.ok.inj (left.symm.trans right)
    rw [outcome_resolve_withJobs ordered.ascending resolved,
      forall₂_set_iff functional all inside]
    obtain ⟨path, common, others⟩ := other
    simp only [Package.mk.injEq]
    constructor
    · intro replaced
      obtain ⟨rfl, rfl, job, resolvedJob, rfl⟩ := replaced
      exact ⟨job, resolvedJob, rfl, rfl, rfl⟩
    · intro resolves
      obtain ⟨job, resolvedJob, rfl, rfl, rfl⟩ := resolves
      exact ⟨rfl, rfl, job, resolvedJob, rfl⟩

/-- A job whose null hides a nested name, whose nested branch and empty namespace are its own, and
which inherits the name of the repository.
-/
theorem Hints.inherits_of_resolve_nested
    : let hints : Hints := { repoName := some "foo" }
      let raw : Value := .mapping
        [("dist_git_namespace", .text ""), ("files_to_sync", .list [.text "README"]),
          ("job", .text "tests"),
          ("metadata", .mapping
            [("timeout", .integer 60), ("upstream_package_name", .text "bar"),
              ("upstream_ref", .text "main")]),
          ("trigger", .text "commit"), ("upstream_package_name", .null)]
      let fields : Fields :=
        [("dist_git_namespace", .text "modules"), ("jobs", .list [raw]),
          ("specfile_path", .text "foo.spec")]
      let common : Attributes :=
        { specfilePath := some "foo.spec", distGitNamespace := "modules",
          projectName := some "foo", downstreamName := some "foo" }
      let job : Job :=
        { type := .tests
          trigger := .commit
          metadata := { timeout := 60 }
          attributes := { common with
            distGitNamespace := "rpms"
            syncedFiles := ⟨[.ofPath "README"]⟩
            projectRef := some "main" } }
      let package : Package := { configPath := none, attributes := common, jobs := [job] }
      (mapping fields).Ordered ∧ (hints.resolve (.mapping fields)).outcome = .ok package
      ∧ fields.find? "jobs" = some (.list [raw])
      ∧ ∃ entries, raw = .mapping entries ∧ job.Inherits common entries := by
  intro hints raw fields common job package
  have ordered : (mapping fields).Ordered := by decide
  have resolved : (hints.resolve (.mapping fields)).outcome = .ok package := by decide
  have inherits := (inherits_of_resolve ordered resolved).1
  rw [listedJobs, show fields.find? "jobs" = some (.list [raw]) from rfl] at inherits
  exact ⟨ordered, resolved, rfl, (List.forall₂_cons.mp inherits).1⟩

end Packaging
