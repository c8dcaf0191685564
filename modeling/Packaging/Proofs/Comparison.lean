import Packaging.Proofs.DownstreamUrl
import Packaging.Proofs.Resolution.RoundTrip

/-! Comparison by canonical forms. A form leaves nothing out that another value could have in its
place, so equal forms mean equal data, whatever URLs were derived.
-/

namespace Packaging

open Value

-----------------------------------------------------------------------------------------
-- What is compared
-----------------------------------------------------------------------------------------

/-- The attributes as if no URL had been derived from them. -/
def Attributes.plain (x : Attributes) : Attributes :=
  { x with derivedUrl := none }

namespace Job

/-- The job as if no URL had been derived from its attributes. -/
def plain (job : Job) : Job :=
  { job with attributes := job.attributes.plain }

/-- The job after its URL is asked for. -/
def askUrl (job : Job) : Job :=
  { job with attributes := job.attributes.askUrl.2 }

end Job

/-- The package without an explicit URL. -/
def Package.withoutUrl (package : Package) : Package :=
  { package with attributes := { package.attributes with downstreamUrl := none } }

/-- Attributes hold the same data when no URL is derived from them. -/
theorem Attribute.value_plain (a : Attribute) (x : Attributes)
    : a.value x.plain = a.value x := by
  cases a <;> rfl

/-- Attributes without their derived URLs are the same just when all data is. -/
theorem Attributes.plain_eq_iff {x y : Attributes}
    : x.plain = y.plain ↔ ∀ a : Attribute, a.value x = a.value y := by
  constructor
  · intro same a
    rw [← a.value_plain x, same, a.value_plain y]
  · intro same
    refine Attribute.attributes_ext (fun a => ?_) rfl
    rw [a.value_plain x, same a, a.value_plain y]

/-- Jobs without their derived URLs are the same just when they agree. -/
theorem Job.plain_eq_iff {a b : Job}
    : a.plain = b.plain ↔ a.Agrees b := by
  simp only [plain, mk.injEq, Attributes.plain_eq_iff]
  constructor
  · intro same
    obtain ⟨type, trigger, metadata, attributes⟩ := same
    exact ⟨type, trigger, metadata, attributes⟩
  · intro agrees
    exact ⟨agrees.type, agrees.trigger, agrees.metadata, agrees.attributes⟩

/-- Jobs agree one by one just when without their derived URLs they are the same. By induction
over both lists.
-/
theorem Job.map_plain_eq_iff {as bs : List Job}
    : as.map plain = bs.map plain ↔ List.Forall₂ Agrees as bs := by
  rw [← List.forall₂_eq_eq_eq, List.forall₂_map_left_iff, List.forall₂_map_right_iff]
  simp only [plain_eq_iff]

-----------------------------------------------------------------------------------------
-- Forms that are equal
-----------------------------------------------------------------------------------------

/-- Data that is written alike is the same, since reading gives it back. -/
theorem DataKind.encode_injective {kind : DataKind} {data other : kind.Data}
    (same : (kind.encode data).sorted = (kind.encode other).sorted)
    : data = other := by
  have read := kind.decode_sorted_encode data
  rw [same, kind.decode_sorted_encode other] at read
  exact (Except.ok.inj read).symm

/-- Settings that are written alike are the same. One that is left out has its default. -/
theorem Setting.encode?_injective {s : Setting} {data other : s.Data}
    (same : (s.encode? data).map sorted = (s.encode? other).map sorted)
    : data = other := by
  cases left : s.encode? data with
  | none =>
      have right : s.encode? other = none := by simpa [left] using same.symm
      rw [eq_default_of_encode? left, eq_default_of_encode? right]
  | some value =>
      obtain ⟨content, right, sortedAlike⟩ :
          ∃ content, s.encode? other = some content ∧ content.sorted = value.sorted := by
        simpa [left, Option.map_eq_some_iff] using same.symm
      have read := decode_of_encode? left
      rw [← sortedAlike, decode_of_encode? right] at read
      exact (Except.ok.inj read).symm

namespace Attribute

/-- An attribute that is found alike in two forms has the same data, or none in both. -/
theorem value_eq_of_find? {a : Attribute} {x y : Attributes}
    (same : ((a.value x).map fun data => (a.kind.encode data).sorted)
      = (a.value y).map fun data => (a.kind.encode data).sorted)
    : a.value x = a.value y :=
  Option.map_injective (fun _ _ => DataKind.encode_injective) same

end Attribute

namespace Attributes

theorem distinct_entries (x : Attributes)
    : (Fields.keys x.entries).Nodup := by
  rw [Attribute.entries_eq]
  exact (Fields.keys_ofTable_sublist _ _ _).nodup (by decide)

/-- The form of attributes has those that have data. -/
theorem find?_sortedFields_entries (x : Attributes) (a : Attribute)
    : (sortedFields x.entries).find? a.key
      = (a.value x).map fun data => (a.kind.encode data).sorted := by
  rw [find?_sortedFields x.distinct_entries, Job.find?_attributes_entries, Option.map_map]
  rfl

/-- Attributes have the same form just when all their data is the same. -/
theorem form_eq_iff {x y : Attributes}
    : x.form = y.form ↔ x.plain = y.plain := by
  rw [plain_eq_iff]
  constructor
  · intro same a
    have fields : sortedFields x.entries = sortedFields y.entries := mapping.inj same
    apply Attribute.value_eq_of_find?
    rw [← find?_sortedFields_entries, fields, find?_sortedFields_entries]
  · intro same
    rw [form, Attribute.entries_congr same, form]

end Attributes

namespace Job

/-- Jobs have the same form just when they agree in their type, trigger, settings and attributes. -/
theorem form_eq_iff {a b : Job}
    : a.form = b.form ↔ a.plain = b.plain := by
  rw [plain_eq_iff]
  constructor
  · intro same
    have fields : a.fields = b.fields := mapping.inj same
    have type : a.type.label = b.type.label := by
      have found := a.find?_fields_job
      rw [fields, b.find?_fields_job] at found
      simpa using found.symm
    have trigger : a.trigger.label = b.trigger.label := by
      have found := a.find?_fields_trigger
      rw [fields, b.find?_fields_trigger] at found
      simpa using found.symm
    refine ⟨?_, ?_, Setting.metadata_ext fun s => Setting.encode?_injective ?_,
      fun attr => Attribute.value_eq_of_find? ?_⟩
    · have read := ofLabel_type a.type
      rw [type, ofLabel_type] at read
      exact (Except.ok.inj read).symm
    · have read := ofLabel_trigger a.trigger
      rw [trigger, ofLabel_trigger] at read
      exact (Except.ok.inj read).symm
    · rw [← a.find?_fields_setting, fields, b.find?_fields_setting]
    · rw [← a.find?_fields_attribute, fields, b.find?_fields_attribute]
  · intro agrees
    rw [form, agrees.entries_eq, form]

/-- Lists of jobs have the same forms just when the jobs agree one by one. -/
theorem map_form_eq_iff {as bs : List Job}
    : as.map form = bs.map form ↔ as.map plain = bs.map plain := by
  rw [map_plain_eq_iff, ← List.forall₂_eq_eq_eq, List.forall₂_map_left_iff,
    List.forall₂_map_right_iff]
  simp only [form_eq_iff, plain_eq_iff]

end Job

namespace Package

/-- Packages have the same form just when their paths, their attributes and their jobs are the
same, derived URLs aside.
-/
theorem form_eq_iff {a b : Package}
    : a.form = b.form
      ↔ a.configPath = b.configPath ∧ a.attributes.plain = b.attributes.plain
        ∧ a.jobs.map Job.plain = b.jobs.map Job.plain := by
  constructor
  · intro same
    have fields : a.fields = b.fields := mapping.inj same
    refine ⟨?_, Attributes.plain_eq_iff.mpr fun attr => Attribute.value_eq_of_find? ?_, ?_⟩
    · apply Option.map_injective (fun _ _ => text.inj)
      rw [← a.find?_fields_path, fields, b.find?_fields_path]
    · rw [← a.find?_fields_attribute, fields, b.find?_fields_attribute]
    · have found := a.find?_fields_jobs
      rw [fields, b.find?_fields_jobs] at found
      exact Job.map_form_eq_iff.mp (by simpa using found.symm)
  · intro same
    obtain ⟨path, attributes, jobs⟩ := same
    exact Agrees.form_eq ⟨path, Attributes.plain_eq_iff.mp attributes,
      Job.map_plain_eq_iff.mp jobs⟩

/-- To leave the explicit URL out of the form is to write the package without it. -/
theorem formWithoutUrl_eq (package : Package)
    : package.formWithoutUrl = package.withoutUrl.form := by
  have ascending : (Fields.erase "downstream_project_url" package.fields).Ascending :=
    package.ascending_fields.erase _
  suffices same
      : Fields.erase "downstream_project_url" package.fields = package.withoutUrl.fields by
    exact congrArg mapping same
  refine ascending.ext package.withoutUrl.ascending_fields fun key => ?_
  rw [Fields.find?_erase]
  by_cases known : key ∈ formKeys
  · -- Every key of a form is that of the path, of an attribute or of the jobs.
    rcases List.mem_append.mp known with front | jobs
    · rcases List.mem_append.mp front with path | known
      · obtain rfl := List.mem_singleton.mp path
        rw [if_neg (by decide), find?_fields_path, find?_fields_path]
        rfl
      · obtain ⟨a, rfl⟩ := Attribute.parts.exists_of_mem_keys known
        show (if a.key = Attribute.downstreamUrl.key then none else package.fields.find? a.key)
          = package.withoutUrl.fields.find? a.key
        rw [find?_fields_attribute, find?_fields_attribute]
        by_cases url : a = .downstreamUrl
        · subst url
          rfl
        · rw [if_neg fun same => url (Attribute.key_injective _ _ same)]
          cases a <;> first | rfl | exact absurd rfl url
    · obtain rfl := List.mem_singleton.mp jobs
      rw [if_neg (by decide), find?_fields_jobs, find?_fields_jobs]
      rfl
  · rw [package.withoutUrl.find?_fields_of_unknown known, package.find?_fields_of_unknown known,
      ite_self]

end Package

-----------------------------------------------------------------------------------------
-- Comparison
-----------------------------------------------------------------------------------------

theorem Attributes.same_iff {x y : Attributes}
    : x.same y ↔ x.plain = y.plain := by
  simp [same, form_eq_iff]

theorem Job.same_iff {a b : Job}
    : a.same b ↔ a.plain = b.plain := by
  simp [same, form_eq_iff]

/-- Packages are the same just when their effective URLs are, and all else except for the explicit
URL.
-/
theorem Package.same_iff {a b : Package}
    : a.same b
      ↔ a.configPath = b.configPath
        ∧ { a.attributes.plain with downstreamUrl := none }
          = { b.attributes.plain with downstreamUrl := none }
        ∧ a.jobs.map Job.plain = b.jobs.map Job.plain
        ∧ a.attributes.effectiveUrl = b.attributes.effectiveUrl := by
  simp only [same, Bool.and_eq_true, decide_eq_true_eq, formWithoutUrl_eq, form_eq_iff]
  constructor
  · intro same
    obtain ⟨url, path, attributes, jobs⟩ := same
    exact ⟨path, attributes, jobs, url⟩
  · intro same
    obtain ⟨path, attributes, jobs, url⟩ := same
    exact ⟨url, path, attributes, jobs⟩

/-- Asking for the URL of attributes changes none of their data, so none is written otherwise. -/
theorem Attributes.form_askUrl (x : Attributes)
    : x.askUrl.2.form = x.form := by
  rw [askUrl_eq]
  exact form_eq_iff.mpr (plain_eq_iff.mpr fun a => a.value_deriveUrl x)

theorem Job.form_askUrl (job : Job)
    : job.askUrl.form = job.form := by
  have attributes := Attributes.form_eq_iff.mp job.attributes.form_askUrl
  apply form_eq_iff.mpr
  rw [plain, askUrl, attributes, plain]

namespace Package

/-- Asking for any URLs of two packages does not change whether they are the same. -/
theorem same_foldl_askUrl (a b : Package) (left right : List (Option Nat))
    : (left.foldl askUrl a).same (right.foldl askUrl b) = a.same b := by
  have asked (package : Package) (places : List (Option Nat))
      : (places.foldl askUrl package).attributes.effectiveUrl = package.attributes.effectiveUrl
        ∧ (places.foldl askUrl package).formWithoutUrl = package.formWithoutUrl := by
    obtain ⟨agrees, effective⟩ := package.agrees_foldl_askUrl places
    exact ⟨effective, by rw [formWithoutUrl, agrees.form_eq, formWithoutUrl]⟩
  simp only [same, asked]

/-- Packages that are the same answer alike: they have the same package URL, return the same
downstream URL and copy the same files.
-/
theorem answers_of_same {a b : Package} (alike : a.same b)
    : a.attributes.packageUrl = b.attributes.packageUrl
      ∧ a.attributes.askUrl.1 = b.attributes.askUrl.1 ∧ a.allFiles = b.allFiles := by
  obtain ⟨path, attributes, _, url⟩ := same_iff.mp alike
  -- None of the answers but the downstream URL depends on one that is explicit or derived.
  have packageUrl (package : Package)
      : package.attributes.packageUrl
        = { package.attributes.plain with downstreamUrl := none : Attributes }.packageUrl :=
    rfl
  have allFiles (package : Package)
      : package.allFiles
        = allFiles
          { package with attributes := { package.attributes.plain with downstreamUrl := none } } :=
    rfl
  refine ⟨?_, ?_, ?_⟩
  · rw [packageUrl a, attributes, ← packageUrl b]
  · simp only [Attributes.askUrl_eq, Attributes.effectiveUrl_deriveUrl, url]
  · rw [allFiles a, attributes, path]
    exact (allFiles b).symm

theorem equivalence_same
    : Equivalence fun a b : Package => a.same b := by
  simp only [same_iff]
  constructor
  · exact fun _ => ⟨rfl, rfl, rfl, rfl⟩
  · exact fun ⟨path, attributes, jobs, url⟩ => ⟨path.symm, attributes.symm, jobs.symm, url.symm⟩
  · intro a b c first second
    obtain ⟨path, attributes, jobs, url⟩ := first
    obtain ⟨nextPath, nextAttributes, nextJobs, nextUrl⟩ := second
    exact ⟨path.trans nextPath, attributes.trans nextAttributes, jobs.trans nextJobs,
      url.trans nextUrl⟩

end Package

/-- Comparison by canonical forms is exact. Attributes and jobs are the same just when all their
data is, derived URLs aside, and packages just when their effective URLs are the same and all else
but the explicit URL. Each is an equivalence that asking for URLs does not change, and packages
that are the same answer alike.
-/
theorem comparison_exact
    : (∀ x y : Attributes, x.same y ↔ x.plain = y.plain)
      ∧ (∀ a b : Job, a.same b ↔ a.plain = b.plain)
      ∧ (∀ a b : Package,
        a.same b
          ↔ a.configPath = b.configPath
            ∧ { a.attributes.plain with downstreamUrl := none }
              = { b.attributes.plain with downstreamUrl := none }
            ∧ a.jobs.map Job.plain = b.jobs.map Job.plain
            ∧ a.attributes.effectiveUrl = b.attributes.effectiveUrl)
      ∧ Equivalence (fun x y : Attributes => x.same y)
      ∧ Equivalence (fun a b : Job => a.same b)
      ∧ Equivalence (fun a b : Package => a.same b)
      ∧ (∀ x y : Attributes, x.askUrl.2.same y = x.same y ∧ x.same y.askUrl.2 = x.same y)
      ∧ (∀ a b : Job, a.askUrl.same b = a.same b ∧ a.same b.askUrl = a.same b)
      ∧ (∀ (a b : Package) (left right : List (Option Nat)),
        (left.foldl Package.askUrl a).same (right.foldl Package.askUrl b) = a.same b)
      ∧ ∀ a b : Package, a.same b
        → a.attributes.packageUrl = b.attributes.packageUrl
          ∧ a.attributes.askUrl.1 = b.attributes.askUrl.1 ∧ a.allFiles = b.allFiles := by
  refine ⟨fun _ _ => Attributes.same_iff, fun _ _ => Job.same_iff, fun _ _ => Package.same_iff,
    ?_, ?_, Package.equivalence_same, ?_, ?_, Package.same_foldl_askUrl,
    fun _ _ => Package.answers_of_same⟩
  · simp only [Attributes.same_iff]
    exact InvImage.equivalence _ Attributes.plain eq_equivalence
  · simp only [Job.same_iff]
    exact InvImage.equivalence _ Job.plain eq_equivalence
  · intro x y
    simp only [Attributes.same, Attributes.form_askUrl, and_self]
  · intro a b
    simp only [Job.same, Job.form_askUrl, and_self]

end Packaging
