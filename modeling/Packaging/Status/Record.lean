import Packaging.Document.Value
import Packaging.Timestamp

/-! Records that the services of a package keep: pull requests, releases, builds and updates. Each
record is written as a mapping with its keys in ascending order.
-/

namespace Packaging.Status

/-- A pull request against the repository of a package. -/
structure PullRequest where
  id : Nat
  title : String
  url : String
deriving DecidableEq

/-- The pull request as it is written. -/
def PullRequest.encode (request : PullRequest) : Value :=
  .mapping [("id", .integer request.id), ("title", .text request.title), ("url", .text request.url)]

structure Release where
  tag : String
  url : String
  created : Option Timestamp
deriving DecidableEq

def Release.encode (release : Release) : Value :=
  .mapping [
    ("created_at", (release.created.map fun point => Value.text point.text).getD .null),
    ("tag_name", .text release.tag), ("url", .text release.url)]

/-- A completed build, known by its name, version and release in one text. -/
structure Build where
  nvr : String
  completed : Timestamp
deriving DecidableEq

def Build.encode (build : Build) : Value :=
  .mapping [("completed_at", .text build.completed.text), ("nvr", .text build.nvr)]

/-- The characters after the last dot, if there is a dot. -/
def afterLastDot : List Char → Option (List Char)
  | [] => none
  | c :: rest =>
    match afterLastDot rest with
    | some found => some found
    | none => if c = '.' then some rest else none

/-- A text has nothing after its last dot exactly when it has no dot. -/
theorem afterLastDot_eq_none_iff (text : List Char)
    : afterLastDot text = none ↔ '.' ∉ text := by
  induction text with
  | nil => simp [afterLastDot]
  | cons c rest ih =>
    unfold afterLastDot
    cases h : afterLastDot rest with
    | some found =>
      have : '.' ∈ rest := Decidable.byContradiction fun missing => by
        simp [ih.2 missing] at h
      simp [this]
    | none =>
      have : '.' ∉ rest := ih.1 h
      by_cases dot : c = '.' <;> simp [dot, this, eq_comm]

/-- What follows the last dot is a rest without dots that stands behind a dot. -/
theorem afterLastDot_eq_some_iff (text rest : List Char)
    : afterLastDot text = some rest ↔ ∃ front, text = front ++ '.' :: rest ∧ '.' ∉ rest := by
  induction text with
  | nil => simp [afterLastDot]
  | cons c tail ih =>
    unfold afterLastDot
    cases h : afterLastDot tail with
    | some found =>
      simp only [h, Option.some.injEq] at ih ⊢
      rw [ih]
      constructor
      · rintro ⟨front, rfl, free⟩
        exact ⟨c :: front, rfl, free⟩
      · rintro ⟨front, split, free⟩
        cases front with
        | nil =>
          obtain ⟨-, rfl⟩ := List.cons.inj split
          simp [(afterLastDot_eq_none_iff tail).2 free] at h
        | cons first front =>
          obtain ⟨-, rfl⟩ := List.cons.inj split
          exact ⟨front, rfl, free⟩
    | none =>
      have free : '.' ∉ tail := (afterLastDot_eq_none_iff tail).1 h
      constructor
      · intro found
        by_cases dot : c = '.'
        · simp only [dot, if_true, Option.some.injEq] at found
          exact ⟨[], by simp [dot, found], found ▸ free⟩
        · simp [dot] at found
      · rintro ⟨front, split, -⟩
        cases front with
        | nil =>
          obtain ⟨rfl, rfl⟩ := List.cons.inj split
          simp
        | cons first front =>
          obtain ⟨-, rfl⟩ := List.cons.inj split
          simp at free

/-- The tag of the distribution that a build is for: what follows the last dot of its text. -/
def Build.distTag (build : Build) : Option String :=
  (afterLastDot build.nvr.toList).map String.ofList

/-- An update of a package, with the branch of the release that it is for. -/
structure Update where
  title : String
  karma : Int
  state : String
  branch : String
deriving DecidableEq

/-- Whether an update has reached the stable repository. -/
def Update.isStable (update : Update) : Bool :=
  update.state = "stable"

/-- The update as it is written, with its branch. -/
def Update.encode (update : Update) : Value :=
  .mapping [
    ("branch", .text update.branch), ("karma", .integer update.karma),
    ("status", .text update.state), ("title", .text update.title)]

/-- A page of updates, with the number of pages that there are. -/
structure UpdatePage where
  updates : List Update
  pages : UInt32
deriving DecidableEq

/-- An update as a report shows it. -/
structure UpdateSummary where
  title : String
  karma : Int
  state : String
deriving DecidableEq

/-- What a report shows of an update. -/
def Update.summary (update : Update) : UpdateSummary :=
  ⟨update.title, update.karma, update.state⟩

def UpdateSummary.encode (summary : UpdateSummary) : Value :=
  .mapping [
    ("karma", .integer summary.karma), ("status", .text summary.state),
    ("title", .text summary.title)]

/-- A build of the packaged project for some chroots. -/
structure CoprBuild where
  id : Nat
  project : String
  chroots : List String
  state : String
deriving DecidableEq

def CoprBuild.encode (build : CoprBuild) : Value :=
  .mapping [
    ("chroots", .list (build.chroots.map .text)), ("id", .integer build.id),
    ("project", .text build.project), ("state", .text build.state)]

end Packaging.Status
