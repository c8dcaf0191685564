import Packaging.Proofs.Status.Pages
import Packaging.Status.Report

/-! The report as its single inquiries. It fails with the first inquiry that fails, apart from the
one for releases, and otherwise shows what each of them gives when it is made alone.
-/

namespace Packaging.Status

variable {status other : Status} {services : Services}

-----------------------------------------------------------------------------------------
-- Versions
-----------------------------------------------------------------------------------------

/-- The version of a branch, where the query for it gives one. -/
def Services.version? (services : Services) (branch : String) : Option String :=
  match services.specVersion branch with
  | .ok version => version
  | .error _ => none

theorem version?_eq_some_iff {branch version : String}
    : services.version? branch = some version
      ↔ services.specVersion branch = .ok (some version) := by
  unfold Services.version?
  cases services.specVersion branch <;> simp

/-- The known versions with that of one more branch, where it has one. -/
def withVersion (services : Services) (known : TextMap) (branch : String) : TextMap :=
  match services.version? branch with
  | some version => known.insert branch version
  | none => known

/-- The query for a branch is asked and cannot fail the inquiry. -/
theorem addVersion_eq (services : Services) (known : TextMap) (branch : String)
    : addVersion services known branch
      = ⟨[.asked (.specVersion branch)], .ok (withVersion services known branch)⟩ := by
  have asked
      : ((ask (.specVersion branch) (services.specVersion branch)).attempt
          : Inquiry (Except QueryError (Option String)))
        = ⟨[.asked (.specVersion branch)], .ok (services.specVersion branch)⟩ :=
    rfl
  rw [addVersion, asked, Traced.bind_of_ok _ rfl, withVersion, Services.version?]
  cases services.specVersion branch with
  | error error => rfl
  | ok version => cases version <;> rfl

/-- Every branch is asked about in turn. By induction over the branches. -/
theorem foldlM_addVersion (services : Services) (known : TextMap) (branches : List String)
    : branches.foldlM (addVersion services) known
      = ⟨branches.map fun branch => .asked (.specVersion branch),
          .ok (branches.foldl (withVersion services) known)⟩ := by
  induction branches generalizing known with
  | nil => rfl
  | cons branch rest ih =>
      rw [List.foldlM_cons, addVersion_eq, Traced.bind_of_ok _ rfl, ih]
      rfl

theorem getElem?_withVersion (services : Services) (known : TextMap) (branch asked : String)
    : (withVersion services known branch)[asked]?
      = (if branch = asked then services.version? asked else none).or known[asked]? := by
  unfold withVersion
  by_cases same : branch = asked
  · subst same
    cases services.version? branch <;> simp
  · cases services.version? branch <;> simp [Std.TreeMap.getElem?_insert, same]

/-- The branches that are listed have their versions, before what was known. By induction over the
branches.
-/
theorem getElem?_foldl_withVersion (services : Services) (known : TextMap)
    (branches : List String) (asked : String)
    : (branches.foldl (withVersion services) known)[asked]?
      = (if asked ∈ branches then services.version? asked else none).or known[asked]? := by
  induction branches generalizing known with
  | nil => simp
  | cons branch rest ih =>
      rw [List.foldl_cons, ih, getElem?_withVersion, ← Option.or_assoc]
      by_cases here : branch = asked
      · by_cases later : asked ∈ rest <;> simp [later, here]
      · simp [here, Ne.symm here]

/-- What the inquiry for versions gives: the listed branches whose queries give versions. -/
theorem versions_of_branches {branches : List String}
    (listed : status.services.branches = .ok branches)
    : ∃ known : TextMap,
        status.versions
          = ⟨.asked .branches :: branches.map fun branch => .asked (.specVersion branch), .ok known⟩
        ∧ ∀ branch : String,
            known[branch]?
              = if branch ∈ branches then status.services.version? branch else none := by
  refine ⟨branches.foldl (withVersion status.services) ∅, ?_, ?_⟩
  · rw [versions, ask_bind_of_ok listed, foldlM_addVersion]
  · intro branch
    rw [getElem?_foldl_withVersion, Std.TreeMap.getElem?_emptyc, Option.or_none]

/-- Branches that both list and answer alike have the same versions, whatever the others do. -/
theorem versions_congr {branches more : List String}
    (listed : status.services.branches = .ok branches)
    (otherListed : other.services.branches = .ok more)
    : ∃ known again : TextMap,
        status.versions.outcome = .ok known
        ∧ other.versions.outcome = .ok again
        ∧ (∀ branch : String,
            (branch ∈ branches ↔ branch ∈ more)
            → status.services.specVersion branch = other.services.specVersion branch
            → known[branch]? = again[branch]?)
        ∧ (branches.Perm more
          → status.services.specVersion = other.services.specVersion
          → known.encode = again.encode) := by
  obtain ⟨known, first, versions⟩ := versions_of_branches listed
  obtain ⟨again, second, others⟩ := versions_of_branches otherListed
  have alike (branch : String) (both : branch ∈ branches ↔ branch ∈ more)
      (same : status.services.specVersion branch = other.services.specVersion branch)
      : known[branch]? = again[branch]? := by
    simp only [versions, others, Services.version?, both, same]
  refine ⟨known, again, by rw [first], by rw [second], alike, ?_⟩
  intro reordered same
  have equal : known.Equiv again :=
    .of_forall_constGet?_eq fun branch => alike branch reordered.mem_iff (congrFun same branch)
  rw [TextMap.encode, TextMap.encode, equal.toList_eq]

-----------------------------------------------------------------------------------------
-- Releases
-----------------------------------------------------------------------------------------

/-- The releases of which an inquiry gives the first ones. -/
def Services.knownReleases (services : Services) : List Release :=
  match services.releases with
  | some (.ok releases) => releases
  | _ => []

/-- The inquiry for releases never fails. -/
theorem outcome_releases (status : Status) (count : Nat)
    : (status.releases count).outcome = .ok (status.services.knownReleases.take count) := by
  rw [releases, Services.knownReleases]
  cases status.services.releases with
  | none => simp [Traced.note, Traced.bind_of_ok]
  | some answer =>
    cases answer with
    | ok releases => rfl
    | error error => simp [ask, Traced.attempt, Traced.bind_of_ok]

-----------------------------------------------------------------------------------------
-- The report
-----------------------------------------------------------------------------------------

/-- The inquiries that a report cannot do without, in the order in which they are made. -/
def needed (status : Status) : List (Inquiry Unit) :=
  [(status.pullRequests usualPullRequests).void, status.versions.void, status.builds.void,
    (status.updates usualUpdates).void, (status.coprBuilds usualCoprBuilds).void]

/-- Without its value the report is its inquiries, one after another. -/
theorem void_report (status : Status)
    : status.report.void
      = Traced.inTurn (needed status ++ [(status.releases usualReleases).void]) := by
  refine Traced.void_bind _ fun requests => Traced.void_bind _ fun versions =>
    Traced.void_bind _ fun builds => Traced.void_bind _ fun updates =>
    Traced.void_bind _ fun coprBuilds => Traced.void_bind _ fun releases => rfl

/-- A report shows what each inquiry gives alone. -/
theorem outcome_report_eq_ok_iff {report : Report}
    : status.report.outcome = .ok report
      ↔ (status.pullRequests usualPullRequests).outcome = .ok report.pullRequests
        ∧ status.versions.outcome = .ok report.versions
        ∧ status.builds.outcome = .ok report.builds
        ∧ (status.updates usualUpdates).outcome = .ok report.updates
        ∧ (status.coprBuilds usualCoprBuilds).outcome = .ok report.coprBuilds
        ∧ (status.releases usualReleases).outcome = .ok report.releases := by
  simp only [Status.report, Traced.outcome_bind_eq_ok, Traced.outcome_pure, Except.ok.injEq]
  constructor
  · rintro ⟨requests, first, versions, second, builds, third, updates, fourth, coprBuilds, fifth,
      releases, sixth, rfl⟩
    exact ⟨first, second, third, fourth, fifth, sixth⟩
  · rintro ⟨first, second, third, fourth, fifth, sixth⟩
    exact ⟨_, first, _, second, _, third, _, fourth, _, fifth, _, sixth, rfl⟩

/-- There is a report just when every inquiry that it needs succeeds. -/
theorem exists_report_iff
    : (∃ report, status.report.outcome = .ok report)
      ↔ ∀ part ∈ needed status, part.outcome = .ok () := by
  simp only [needed, List.forall_mem_cons, List.not_mem_nil, Traced.outcome_void_eq_ok,
    outcome_report_eq_ok_iff, outcome_releases]
  constructor
  · rintro ⟨report, first, second, third, fourth, fifth, _⟩
    exact ⟨⟨_, first⟩, ⟨_, second⟩, ⟨_, third⟩, ⟨_, fourth⟩, ⟨_, fifth⟩, nofun⟩
  · rintro ⟨⟨requests, first⟩, ⟨versions, second⟩, ⟨builds, third⟩, ⟨updates, fourth⟩,
      ⟨coprBuilds, fifth⟩, _⟩
    exact ⟨⟨requests, versions, _, builds, updates, coprBuilds⟩, first, second, third, fourth,
      fifth, rfl⟩

/-- The first inquiry that fails ends the report, with its error and without any later query. -/
theorem report_of_error {before after : List (Inquiry Unit)} {part : Inquiry Unit}
    {error : QueryError} (split : needed status = before ++ part :: after)
    (passed : ∀ earlier ∈ before, earlier.outcome = .ok ()) (failed : part.outcome = .error error)
    : status.report = ⟨(before ++ [part]).flatMap Traced.trace, .error error⟩ := by
  have run := void_report status
  rw [split, List.append_assoc, List.cons_append, Traced.inTurn_of_error passed failed] at run
  have trace : status.report.void.trace = (before ++ [part]).flatMap Traced.trace := by rw [run]
  have outcome := Traced.outcome_void_eq_error.mp (congrArg Traced.outcome run)
  show (⟨status.report.void.trace, status.report.outcome⟩ : Inquiry Report) = _
  rw [trace, outcome]

/-- The report puts the single inquiries together. There is one just when all inquiries but that for
releases succeed, and it shows what each inquiry gives alone. Otherwise its error is that of the
first inquiry that fails, and nothing is asked after that. The versions are those of the listed
branches whose queries give one; a branch has the same version wherever it is listed and answers
alike, and reordered branches are written the same. The releases are the first ones, none where
their service fails or is missing, and they never fail.
-/
theorem report_of_inquiries (status : Status)
    : let parts : List (Inquiry Unit) :=
        [(status.pullRequests 5).void, status.versions.void, status.builds.void,
          (status.updates 3).void, (status.coprBuilds 5).void]
      ((∃ report, status.report.outcome = .ok report) ↔ ∀ part ∈ parts, part.outcome = .ok ())
      ∧ (∀ report,
          status.report.outcome = .ok report
          → (status.pullRequests 5).outcome = .ok report.pullRequests
            ∧ status.versions.outcome = .ok report.versions
            ∧ status.builds.outcome = .ok report.builds
            ∧ (status.updates 3).outcome = .ok report.updates
            ∧ (status.coprBuilds 5).outcome = .ok report.coprBuilds
            ∧ (status.releases 5).outcome = .ok report.releases)
      ∧ (∀ error,
          status.report.outcome = .error error
          → ∃ before part after,
              parts = before ++ part :: after
              ∧ (∀ earlier ∈ before, earlier.outcome = .ok ())
              ∧ part.outcome = .error error
              ∧ status.report.trace = (before ++ [part]).flatMap Traced.trace)
      ∧ (∀ branches,
          status.services.branches = .ok branches
          → ∃ known : TextMap,
              status.versions.outcome = .ok known
              ∧ ∀ branch version : String,
                  known[branch]? = some version
                  ↔ branch ∈ branches
                    ∧ status.services.specVersion branch = .ok (some version))
      ∧ (∀ (other : Status) branches more,
          status.services.branches = .ok branches
          → other.services.branches = .ok more
          → ∃ known again : TextMap,
              status.versions.outcome = .ok known
              ∧ other.versions.outcome = .ok again
              ∧ (∀ branch : String,
                  (branch ∈ branches ↔ branch ∈ more)
                  → status.services.specVersion branch = other.services.specVersion branch
                  → known[branch]? = again[branch]?)
              ∧ (branches.Perm more
                → status.services.specVersion = other.services.specVersion
                → known.encode = again.encode))
      ∧ ∀ count, ∃ releases,
          (status.releases count).outcome = .ok releases
          ∧ (∀ all, status.services.releases = some (.ok all) → releases = all.take count)
          ∧ ((status.services.releases = none
              ∨ ∃ error, status.services.releases = some (.error error))
            → releases = []) := by
  intro parts
  refine ⟨exists_report_iff, fun report => outcome_report_eq_ok_iff.mp, ?_, ?_,
    fun other branches more => versions_congr, ?_⟩
  · intro error failed
    rcases Traced.succeed_or_first_fails parts with
      all | ⟨before, part, after, cause, split, passed, failing⟩
    · obtain ⟨report, made⟩ := exists_report_iff.mpr all
      rw [failed] at made
      cases made
    · have ended := report_of_error split passed failing
      rw [ended] at failed ⊢
      obtain rfl := Except.error.inj failed
      exact ⟨before, part, after, split, passed, failing, rfl⟩
  · intro branches listed
    obtain ⟨known, made, versions⟩ := versions_of_branches listed
    refine ⟨known, by rw [made], fun branch version => ?_⟩
    rw [versions branch, ← version?_eq_some_iff]
    simp
  · intro count
    refine ⟨_, outcome_releases status count, ?_, ?_⟩
    · intro all given
      rw [Services.knownReleases, given]
    · rintro (missing | ⟨error, failed⟩)
      · simp [Services.knownReleases, missing]
      · simp [Services.knownReleases, failed]

/-- A report of services without releases and with branches of which one fails and one has no known
version, and the same when the builds and the updates cannot be had.
-/
theorem report_of_inquiries_failing
    : let request (id : Nat) : PullRequest := ⟨id, "Update", "here"⟩
      let whole : Services := {
        pullRequests := .ok ([1, 2, 3, 4, 5, 6].map request)
        branches := .ok ["rawhide", "f39", "epel9"]
        specVersion := fun branch =>
          if branch = "rawhide" then .ok (some "0.6.0")
          else if branch = "f39" then .error (.failed "checkout failed" "no such branch")
          else .ok none
        releases := some (.error (.failed "release query failed" "rate limited"))
        completedBuilds := fun _ _ => .ok [⟨"ogr-0.6.0-1.fc40", .epoch⟩]
        updates := fun _ _ => .ok ⟨[⟨"ogr", 1, "testing", "f40"⟩], 1⟩
        coprBuilds := fun _ => .ok [] }
      let broken : Services := {
        whole with
        completedBuilds := fun _ _ => .error (.failed "koji" "down")
        updates := fun _ _ => .error (.failed "bodhi" "down") }
      let known (services : Services) : Status := ⟨{ downstreamName := some "ogr" }, services⟩
      (∃ report,
        (known whole).report.outcome = .ok report
        ∧ report.pullRequests = [1, 2, 3, 4, 5].map request
        ∧ report.versions["rawhide"]? = some "0.6.0"
        ∧ report.versions["f39"]? = none
        ∧ report.releases = [])
      ∧ (known broken).report.outcome = .error (.failed "koji" "down") := by
  intro request whole broken known
  have listed (services : Services) (same : services.branches = whole.branches)
      : (known services).versions.void.outcome = .ok () := by
    obtain ⟨versions, made, _⟩ := @versions_of_branches (known services) _ same
    exact Traced.outcome_void_eq_ok.mpr ⟨versions, by rw [made]⟩
  have paged : ((known whole).updates 3).void.outcome = .ok () := by
    have walks := @walks_of_constant_total whole "ogr"
      (fun _ => ⟨[⟨"ogr", 1, "testing", "f40"⟩], 1⟩) 1 (fun _ => rfl) (fun _ => rfl)
    rw [updates, Traced.silent_bind (packageName_of_named rfl (by decide)), Traced.bind_pure,
      walks.pagesFrom_one]
    rfl
  constructor
  · obtain ⟨made, shows, _, versions, _, released⟩ := report_of_inquiries (known whole)
    obtain ⟨report, success⟩ := made.mpr (by
      simp only [List.forall_mem_cons, List.not_mem_nil, false_implies, implies_true, and_true]
      exact ⟨rfl, listed whole rfl, rfl, paged, rfl⟩)
    obtain ⟨requests, first, _, _, _, last⟩ := shows report success
    obtain ⟨found, again, each⟩ := versions _ rfl
    obtain rfl : found = report.versions := Except.ok.inj (again.symm.trans first)
    obtain ⟨releases, answered, _, none⟩ := released 5
    refine ⟨report, success, (Except.ok.inj requests).symm, ?_, ?_, ?_⟩
    · exact (each _ _).mpr ⟨by decide, rfl⟩
    · refine Option.eq_none_iff_forall_ne_some.mpr fun version shown => ?_
      have answer := ((each _ _).mp shown).2
      simp [known, whole] at answer
    · rw [Except.ok.inj (last.symm.trans answered)]
      exact none (.inr ⟨_, rfl⟩)
  · obtain ⟨made, _, fails, _⟩ := report_of_inquiries (known broken)
    cases ended : (known broken).report.outcome with
    | ok report => cases made.mp ⟨report, ended⟩ (known broken).builds.void (by simp)
    | error error =>
        obtain ⟨before, part, after, split, passed, failed, _⟩ := fails error ended
        have koji : (known broken).builds.void.outcome = .error (.failed "koji" "down") := rfl
        -- The failing part is the third one: the two before it succeed, and it fails itself.
        match before, split with
        | [], split =>
            obtain ⟨rfl, _⟩ := List.cons.inj split
            cases failed
        | [_], split =>
            obtain ⟨_, rfl, _⟩ : _ ∧ _ = part ∧ _ := by simpa using split
            cases (listed broken rfl).symm.trans failed
        | [_, _], split =>
            obtain ⟨_, _, rfl, _⟩ : _ ∧ _ ∧ _ = part ∧ _ := by simpa using split
            exact congrArg Except.error (Except.error.inj (failed.symm.trans koji))
        | _ :: _ :: third :: _, split =>
            obtain ⟨_, _, rfl, _⟩ : _ ∧ _ ∧ _ = third ∧ _ := by simpa using split
            cases koji.symm.trans (passed _ (by simp))

end Packaging.Status
