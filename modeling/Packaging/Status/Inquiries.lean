import Packaging.Attributes.Basic
import Packaging.Status.Service
import Std.Data.TreeMap

/-! The single inquiries about the state of a package. Those about builds and updates name the
package by its downstream name.
-/

namespace Packaging

/-- A package with the services that know about it. -/
structure Status where
  attributes : Attributes
  services : Status.Services

namespace Status

/-- Texts under texts, in the order of the keys. -/
abbrev TextMap := Std.TreeMap String String

/-- The downstream name, without which builds and updates cannot be asked for. -/
def packageName (status : Status) : Inquiry String :=
  match filled status.attributes.downstreamName with
  | some name => pure name
  | none => throw (.incomplete "downstream_package_name is not set")

def pullRequests (status : Status) (count : Nat) : Inquiry (List PullRequest) := do
  let requests ← ask .pullRequests status.services.pullRequests
  return requests.take count

/-- The known versions with that of one more branch. A branch without a version, or with one that
cannot be had, adds nothing.
-/
def addVersion (services : Services) (known : TextMap) (branch : String) : Inquiry TextMap := do
  match ← (ask (.specVersion branch) (services.specVersion branch)).attempt with
  | .ok (some version) => return known.insert branch version
  | _ => return known

/-- The version of the package on each branch that has one. -/
def versions (status : Status) : Inquiry TextMap := do
  let branches ← ask .branches status.services.branches
  branches.foldlM (addVersion status.services) ∅

/-- The first `count` releases. Without a service, or where it fails, there are none. -/
def releases (status : Status) (count : Nat) : Inquiry (List Release) := do
  match status.services.releases with
  | none =>
    Traced.note (.reported .noReleases)
    return []
  | some answer =>
    match ← (ask .releases answer).attempt with
    | .ok releases => return releases.take count
    | .error _ => return []

/-- How many days back builds are asked for. -/
def buildWindow : Nat := 365

/-- The latest builds with one more build, which counts only if its tag has none yet. -/
def addBuild (latest : TextMap) (build : Build) : TextMap :=
  match build.distTag with
  | some tag => latest.insertIfNew tag build.nvr
  | none => latest

/-- One more build gives its tag a value only where there was none. -/
theorem getElem?_addBuild (latest : TextMap) (build : Build) (tag : String)
    : (addBuild latest build)[tag]?
      = latest[tag]?.or (if build.distTag = some tag then some build.nvr else none) := by
  unfold addBuild
  cases h : build.distTag with
  | none => simp
  | some own =>
    simp only [Std.TreeMap.getElem?_insertIfNew, Std.compare_eq_iff_eq, Option.some.injEq]
    by_cases same : own = tag
    · subst same
      by_cases known : own ∈ latest <;> simp [known]
    · simp [same]

/-- The first build of each tag, in a list that has the newest builds first. -/
def latestBuilds (builds : List Build) : TextMap :=
  builds.foldl addBuild ∅

/-- What later builds add stands behind what earlier ones gave, by induction over the builds. -/
theorem getElem?_foldl_addBuild (latest : TextMap) (builds : List Build) (tag : String)
    : (builds.foldl addBuild latest)[tag]?
      = latest[tag]?.or ((builds.find? (·.distTag = some tag)).map (·.nvr)) := by
  induction builds generalizing latest with
  | nil => simp
  | cons build rest ih =>
    rw [List.foldl_cons, ih, getElem?_addBuild, List.find?_cons]
    by_cases same : build.distTag = some tag
    · simp [same]
    · simp [same]

/-- Each tag has the text of the first build with that tag. -/
theorem getElem?_latestBuilds (builds : List Build) (tag : String)
    : (latestBuilds builds)[tag]? = (builds.find? (·.distTag = some tag)).map (·.nvr) := by
  simp [latestBuilds, getElem?_foldl_addBuild]

/-- The latest completed build of each tag. -/
def builds (status : Status) : Inquiry TextMap := do
  let package ← status.packageName
  let completed ← ask (.completedBuilds package buildWindow)
    (status.services.completedBuilds package buildWindow)
  return latestBuilds completed

/-- The updates of a page and of the pages after it. A page is the last one when no greater number
is within the total that it reports. The counter has the width of that total, and a walk that would
count past it fails.
-/
def pagesFrom (services : Services) (package : String) (page : UInt32)
    : Inquiry (List Update) := do
  let answer ← ask (.updates package page) (services.updates package page)
  if _ : page.toNat + 1 < UInt32.size then
    if page + 1 ≤ answer.pages then
      let later ← pagesFrom services package (page + 1)
      return answer.updates ++ later
    else return answer.updates
  else throw .tooManyPages
termination_by UInt32.size - page.toNat
decreasing_by
  have : (page + 1).toNat = page.toNat + 1 := by
    rw [UInt32.toNat_add]
    exact Nat.mod_eq_of_lt (by simpa using ‹page.toNat + 1 < UInt32.size›)
  omega

/-- The first `count` updates without those that are stable where `seen` or an earlier update
already gives their branch a stable one.
-/
def choose (seen : List String) : (count : Nat) → List Update → List UpdateSummary
  | 0, _ => []
  | _, [] => []
  | count + 1, update :: rest =>
    if update.isStable then
      if update.branch ∈ seen then choose seen (count + 1) rest
      else update.summary :: choose (update.branch :: seen) count rest
    else update.summary :: choose seen count rest

/-- The first `count` updates, with at most one stable update for a branch. -/
def updates (status : Status) (count : Nat) : Inquiry (List UpdateSummary) := do
  let package ← status.packageName
  let all ← pagesFrom status.services package 1
  return choose [] count all

/-- The latest `count` builds of the packaged project, as the service cuts them. -/
def coprBuilds (status : Status) (count : Nat) : Inquiry (List CoprBuild) :=
  ask (.coprBuilds count) (status.services.coprBuilds count)

end Status

end Packaging
