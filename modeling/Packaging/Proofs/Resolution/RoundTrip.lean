import Packaging.Proofs.Jobs.Form
import Packaging.Proofs.Resolution.Resolved

/-! The canonical form of a resolved package resolves to the package again. What the form leaves
out is what reading it fills in, and every job writes what it inherited.
-/

namespace Packaging

open Declaration Value

-----------------------------------------------------------------------------------------
-- The canonical form of a package
-----------------------------------------------------------------------------------------

namespace Package

/-- All keys that the form of a package may have. -/
def formKeys : List String :=
  ["config_file_path"] ++ Overrides.keys ++ ["jobs"]

/-- The entries of a package stand under keys of a form, in the same order. -/
theorem keys_entries_sublist (package : Package)
    : (Fields.keys package.entries).Sublist formKeys := by
  have attributes := Fields.keys_ofTable_sublist Attribute.all Attribute.key
    fun a => (a.value package.attributes).map a.kind.encode
  rw [← Attribute.entries_eq] at attributes
  have path : (Fields.keys (Attributes.entry "config_file_path" .text package.configPath)).Sublist
      ["config_file_path"] := by
    cases package.configPath <;> simp [Attributes.entry, Fields.keys]
  have split : Fields.keys package.entries
      = Fields.keys (Attributes.entry "config_file_path" .text package.configPath)
        ++ Fields.keys package.attributes.entries ++ ["jobs"] := by
    simp [entries, Fields.keys]
  rw [split]
  exact (path.append attributes).append (List.Sublist.refl _)

theorem distinct_entries (package : Package)
    : (Fields.keys package.entries).Nodup :=
  package.keys_entries_sublist.nodup (by decide)

/-- The entries of the canonical form of a package. -/
def fields (package : Package) : Fields :=
  sortedFields package.entries

/-- The canonical form of a package is the mapping of its sorted entries. -/
theorem form_eq (package : Package)
    : package.form = .mapping package.fields :=
  rfl

theorem ascending_fields (package : Package)
    : package.fields.Ascending :=
  ascending_sortedFields _

theorem mem_formKeys_of_mem (package : Package) {key : String}
    (member : key ∈ package.fields.keys)
    : key ∈ formKeys :=
  package.keys_entries_sublist.subset
    (mem_keys_of_mem_sortedFields package.distinct_entries member)

/-- The form of a package has no other keys. -/
theorem find?_fields_of_unknown (package : Package) {key : String} (unknown : key ∉ formKeys)
    : package.fields.find? key = none :=
  Fields.find?_eq_none_iff.mpr fun member => unknown (package.mem_formKeys_of_mem member)

/-- An entry that may be left out is found when it is not. -/
theorem find?_entry {α : Type} (key : String) (encode : α → Value) (given : Option α)
    : Fields.find? key (Attributes.entry key encode given) = given.map encode := by
  cases given <;> simp [Attributes.entry, Fields.find?]

theorem find?_entry_of_ne {α : Type} {key name : String} (differs : key ≠ name)
    (encode : α → Value) (given : Option α)
    : Fields.find? name (Attributes.entry key encode given) = none := by
  cases given <;> simp [Attributes.entry, Fields.find?, differs]

theorem find?_fields_path (package : Package)
    : package.fields.find? "config_file_path" = package.configPath.map .text := by
  rw [fields, find?_sortedFields package.distinct_entries, entries, Fields.find?_append,
    Fields.find?_append, find?_entry, Job.find?_attributes_entries_of_unknown _ (by decide)]
  cases package.configPath <;> simp [Fields.find?, Value.sorted]

theorem find?_fields_jobs (package : Package)
    : package.fields.find? "jobs" = some (.list (package.jobs.map Job.form)) := by
  rw [fields, find?_sortedFields package.distinct_entries, entries, Fields.find?_append,
    Fields.find?_append, find?_entry_of_ne (by decide),
    Job.find?_attributes_entries_of_unknown _ (by decide)]
  simp [Fields.find?, Value.sorted, sortedItems_eq_map, Job.form, Function.comp_def]

/-- The form of a package has the attributes that it has. -/
theorem find?_fields_attribute (package : Package) (a : Attribute)
    : package.fields.find? a.key
      = (a.value package.attributes).map fun data => (a.kind.encode data).sorted := by
  have notPath : "config_file_path" ≠ a.key := by cases a <;> decide
  have notJobs : "jobs" ≠ a.key := by cases a <;> decide
  rw [fields, find?_sortedFields package.distinct_entries, entries, Fields.find?_append,
    Fields.find?_append, find?_entry_of_ne notPath, Job.find?_attributes_entries]
  simp [Fields.find?, notJobs, Function.comp_def]

/-- The form of a package declares its path, all its attributes and its jobs, silently. -/
theorem declaration_fields (package : Package)
    : PackageDeclaration.ofFields package.fields
      = ⟨[], .ok ⟨package.configPath, package.attributes.asOverrides,
          some (package.jobs.map Job.form)⟩⟩ := by
  have optionsAscending := (package.ascending_fields.erase "jobs").erase "config_file_path"
  have known : ∀ key ∈ (PackageDeclaration.options package.fields).keys,
      key ∈ Overrides.keys := by
    intro key member
    obtain ⟨inErased, notPath⟩ := Fields.mem_keys_erase member
    obtain ⟨inFields, notJobs⟩ := Fields.mem_keys_erase inErased
    have listed := package.mem_formKeys_of_mem inFields
    simpa [formKeys, notPath, notJobs] using listed
  refine PackageDeclaration.ofFields_of_known
    (renameSynonym_of_missing (package.find?_fields_of_unknown (by decide))) ?_ ?_ known ?_
  · rw [rawJobs, find?_fields_jobs]
  · rw [documentPath, Fields.find?_erase, if_neg (by decide), find?_fields_path]
    cases package.configPath <;> rfl
  · apply Attribute.record_of_written optionsAscending.distinct
    intro a
    have kept := PackageDeclaration.find?_options a package.fields
    exact kept.trans (package.find?_fields_attribute a)

end Package

-----------------------------------------------------------------------------------------
-- Resolving it again
-----------------------------------------------------------------------------------------

/-- Jobs that each resolve to themselves resolve together, silently. By induction over the jobs,
for any index of the first.
-/
theorem Job.resolveAll_forms {inherited : Attributes} {jobs : List Job} (index : Nat)
    (each : ∀ job ∈ jobs, Job.resolve inherited job.form = ⟨[], .ok job⟩)
    : Job.resolveAll inherited index (jobs.map Job.form) = ⟨[], .ok jobs⟩ := by
  induction jobs generalizing index with
  | nil => rfl
  | cons job rest ih =>
      obtain ⟨head, tail⟩ := List.forall_mem_cons.mp each
      have located : (Job.resolve inherited job.form).mapError
          (Error.within ("jobs[" ++ toString index ++ "]")) = ⟨[], .ok job⟩ := by
        rw [head]
        rfl
      rw [List.map_cons, Job.resolveAll, Traced.silent_bind located,
        Traced.silent_bind (ih (index + 1) tail)]
      rfl

namespace Package

/-- The path of a resolved package is already injected into its form. -/
theorem Resolved.inject_fields {package : Package} {hints : Hints}
    (resolved : package.Resolved hints)
    : hints.inject package.fields = package.fields := by
  unfold Hints.inject
  cases hinted : hints.configPath with
  | none => rfl
  | some hint =>
      obtain ⟨given, path, content⟩ := resolved.path hint hinted
      have found : package.fields.find? "config_file_path" = some (.text given) := by
        rw [package.find?_fields_path, path]
        rfl
      simp only [found]
      split
      · next empty =>
        refine package.ascending_fields.insert_of_find? ?_
        rw [found, empty, content empty]
      · rfl

/-- A resolved package is built again from its form, and nothing is reported. -/
theorem Resolved.build_fields {package : Package} {hints : Hints}
    (resolved : package.Resolved hints)
    : hints.build package.fields = ⟨[], .ok package⟩ := by
  have attributes : Attributes.ofOverrides package.attributes.asOverrides = package.attributes :=
    Attributes.overlay_asOverrides resolved.settled (Attributes.below_default _) resolved.fresh
  have spec : hints.fillSpec package.attributes = .ok package.attributes := by
    rw [Hints.fillSpec, if_pos resolved.spec]
  have each : ∀ job ∈ package.jobs,
      Job.resolve package.attributes job.form = ⟨[], .ok job⟩ := by
    intro job member
    obtain ⟨settled, below, fresh⟩ := resolved.jobs job member
    exact Job.resolve_form settled below fresh
  rw [Hints.build, Traced.silent_bind package.declaration_fields, attributes, spec,
    Traced.liftM_ok_bind, resolved.names, Option.getD_some,
    Traced.silent_bind (Job.resolveAll_forms 0 each)]
  rfl

/-- A resolved package resolves again from its form, and nothing is reported. -/
theorem Resolved.resolve_form {package : Package} {hints : Hints}
    (resolved : package.Resolved hints)
    : hints.resolve package.form = ⟨[], .ok package⟩ := by
  have built := resolved.build_fields
  have success : (hints.build package.fields).outcome = .ok package := by rw [built]
  rw [form_eq, Hints.resolve_mapping, resolved.inject_fields, Traced.tryCatch_of_ok _ success,
    built]

end Package

-----------------------------------------------------------------------------------------
-- Packages whose URLs were asked for
-----------------------------------------------------------------------------------------

/-- Two jobs have the same type, trigger, settings and attributes. A derived URL is none of them. -/
structure Job.Agrees (a b : Job) : Prop where
  type : a.type = b.type
  trigger : a.trigger = b.trigger
  metadata : a.metadata = b.metadata
  attributes : ∀ attr : Attribute, attr.value a.attributes = attr.value b.attributes

/-- Two packages have the same path, the same attributes and, one by one, agreeing jobs. -/
structure Package.Agrees (a b : Package) : Prop where
  path : a.configPath = b.configPath
  attributes : ∀ attr : Attribute, attr.value a.attributes = attr.value b.attributes
  jobs : List.Forall₂ Job.Agrees a.jobs b.jobs

/-- Attributes with the same data are written alike. -/
theorem Attribute.entries_congr {x y : Attributes}
    (same : ∀ a : Attribute, a.value x = a.value y)
    : x.entries = y.entries := by
  simp only [entries_eq, same]

/-- Asking for the URL does not change the data of any attribute. -/
theorem Attribute.value_deriveUrl (a : Attribute) (x : Attributes)
    : a.value x.deriveUrl = a.value x := by
  unfold Attributes.deriveUrl
  split
  · rfl
  · cases a <;> rfl

namespace Job

theorem Agrees.refl (job : Job)
    : job.Agrees job :=
  ⟨rfl, rfl, rfl, fun _ => rfl⟩

theorem Agrees.trans {a b c : Job} (first : a.Agrees b) (second : b.Agrees c)
    : a.Agrees c :=
  ⟨first.type.trans second.type, first.trigger.trans second.trigger,
    first.metadata.trans second.metadata,
    fun attr => (first.attributes attr).trans (second.attributes attr)⟩

theorem Agrees.entries_eq {a b : Job} (agrees : a.Agrees b)
    : a.entries = b.entries := by
  rw [entries, agrees.type, agrees.trigger, agrees.metadata,
    Attribute.entries_congr agrees.attributes]
  rfl

/-- Asking for the URL of one job of a list leaves agreeing jobs. By induction over the list. -/
theorem agrees_modify_deriveUrl (jobs : List Job) (index : Nat)
    : List.Forall₂ Agrees
        (jobs.modify index fun job => { job with attributes := job.attributes.deriveUrl })
        jobs := by
  induction jobs generalizing index with
  | nil => simp
  | cons job rest ih =>
      cases index with
      | zero =>
          refine .cons ⟨rfl, rfl, rfl, fun attr => attr.value_deriveUrl _⟩ ?_
          exact List.forall₂_same.mpr fun other _ => Agrees.refl other
      | succ index => exact .cons (Agrees.refl job) (ih index)

end Job

namespace Package

theorem Agrees.refl (package : Package)
    : package.Agrees package :=
  ⟨rfl, fun _ => rfl, List.forall₂_same.mpr fun job _ => Job.Agrees.refl job⟩

theorem Agrees.trans {a b c : Package} (first : a.Agrees b) (second : b.Agrees c)
    : a.Agrees c := by
  refine ⟨first.path.trans second.path,
    fun attr => (first.attributes attr).trans (second.attributes attr), ?_⟩
  have compose {xs ys zs : List Job} (left : List.Forall₂ Job.Agrees xs ys)
      (right : List.Forall₂ Job.Agrees ys zs)
      : List.Forall₂ Job.Agrees xs zs := by
    induction left generalizing zs with
    | nil => exact right
    | cons head _ ih =>
        cases right with
        | cons next rest => exact .cons (head.trans next) (ih rest)
  exact compose first.jobs second.jobs

/-- Agreeing packages have the same canonical form. -/
theorem Agrees.form_eq {a b : Package} (agrees : a.Agrees b)
    : a.form = b.form := by
  have jobs : (a.jobs.map fun job => Value.mapping job.entries)
      = b.jobs.map fun job => Value.mapping job.entries := by
    have each {xs ys : List Job} (all : List.Forall₂ Job.Agrees xs ys)
        : (xs.map fun job => Value.mapping job.entries)
          = ys.map fun job => Value.mapping job.entries := by
      induction all with
      | nil => rfl
      | cons head _ ih => rw [List.map_cons, List.map_cons, head.entries_eq, ih]
    exact each agrees.jobs
  rw [form, form, entries, entries, agrees.path, Attribute.entries_congr agrees.attributes, jobs]

/-- The package after its URL, or that of the job at an index, is asked for. -/
def askUrl (package : Package) (place : Option Nat) : Package :=
  package.changeAt Attributes.deriveUrl place

/-- Asking for a URL leaves an agreeing package. -/
theorem agrees_askUrl (package : Package) (place : Option Nat)
    : (package.askUrl place).Agrees package := by
  cases place with
  | none =>
      exact ⟨rfl, fun attr => attr.value_deriveUrl _,
        List.forall₂_same.mpr fun job _ => Job.Agrees.refl job⟩
  | some index => exact ⟨rfl, fun _ => rfl, Job.agrees_modify_deriveUrl _ _⟩

theorem effectiveUrl_askUrl (package : Package) (place : Option Nat)
    : (package.askUrl place).attributes.effectiveUrl = package.attributes.effectiveUrl := by
  cases place with
  | none => exact package.attributes.effectiveUrl_deriveUrl
  | some index => rfl

/-- Asking for any URLs in any order leaves an agreeing package with the same effective URL. -/
theorem agrees_foldl_askUrl (package : Package) (places : List (Option Nat))
    : (places.foldl askUrl package).Agrees package
      ∧ (places.foldl askUrl package).attributes.effectiveUrl
          = package.attributes.effectiveUrl := by
  induction places generalizing package with
  | nil => exact ⟨Agrees.refl package, rfl⟩
  | cons place rest ih =>
      obtain ⟨agrees, effective⟩ := ih (package.askUrl place)
      exact ⟨agrees.trans (package.agrees_askUrl place),
        effective.trans (package.effectiveUrl_askUrl place)⟩

end Package

/-- Writing a resolved package and resolving its canonical form again, without hints or with those
of the first time, gives back the package and reports nothing. It does not matter which of its
URLs were asked for before it was written.
-/
theorem Hints.resolve_form_of_resolved {hints : Hints} {document : Value} {package : Package}
    (resolved : (hints.resolve document).outcome = .ok package) (places : List (Option Nat))
    : let asked := places.foldl Package.askUrl package
      ∀ again : Hints,
        again = {} ∨ again = hints
        → ∃ result,
            again.resolve asked.form = ⟨[], .ok result⟩
            ∧ result.Agrees asked ∧ result.same asked ∧ result.form = asked.form := by
  obtain ⟨agrees, effective⟩ := package.agrees_foldl_askUrl places
  have reversed : package.Agrees (places.foldl Package.askUrl package) :=
    { path := agrees.path.symm
      attributes := fun attr => (agrees.attributes attr).symm
      jobs := agrees.jobs.flip.imp fun _ _ job =>
        ⟨job.type.symm, job.trigger.symm, job.metadata.symm,
          fun attr => (job.attributes attr).symm⟩ }
  intro asked again which
  have invariant : package.Resolved again := by
    rcases which with rfl | rfl
    · exact (resolved_of_resolve resolved).of_any
    · exact resolved_of_resolve resolved
  -- Asking changes nothing that is written, so the form is that of the package itself.
  refine ⟨package, ?_, reversed, ?_, reversed.form_eq⟩
  · rw [← reversed.form_eq]
    exact invariant.resolve_form
  · simp [Package.same, Package.formWithoutUrl, effective, reversed.form_eq, asked]

/-- A package without a name in the document, and a job with an empty namespace and files of its
own. The URL of the package and that of its job are asked for before the package is written.
-/
theorem Hints.resolve_form_of_named_package
    : let hints : Hints := { repoName := some "foo" }
      let document : Value := .mapping
        [("dist_git_namespace", .text "modules"),
          ("jobs", .list [.mapping
            [("actions", .mapping [("pre-sync", .text "make")]), ("dist_git_namespace", .text ""),
              ("files_to_sync", .list [.text "README"]), ("job", .text "tests"),
              ("metadata", .mapping [("timeout", .integer 60)]), ("trigger", .text "commit")]]),
          ("specfile_path", .text "foo.spec")]
      let attributes : Attributes :=
        { specfilePath := some "foo.spec", distGitNamespace := "modules",
          projectName := some "foo", downstreamName := some "foo" }
      let package : Package :=
        { configPath := none
          attributes
          jobs := [{
            type := .tests
            trigger := .commit
            metadata := { timeout := 60 }
            attributes := { attributes with
              distGitNamespace := "rpms"
              syncedFiles := ⟨[.ofPath "README"]⟩
              actions := Actions.empty.assign .preSync (some (.single "make")) } }] }
      let asked := [none, some 0].foldl Package.askUrl package
      (hints.resolve document).outcome = .ok package
      ∧ ∃ result,
          hints.resolve asked.form = ⟨[], .ok result⟩
          ∧ result.Agrees asked ∧ result.same asked ∧ result.form = asked.form := by
  intro hints document attributes package asked
  have resolved : (hints.resolve document).outcome = .ok package := by decide
  exact ⟨resolved, resolve_form_of_resolved resolved _ hints (Or.inr rfl)⟩

end Packaging
