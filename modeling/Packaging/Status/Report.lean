import Packaging.Status.Inquiries

/-! The report of a package: every inquiry with the usual counts. An inquiry that fails ends the
report, except the one for releases, which cannot fail.
-/

namespace Packaging.Status

/-- Everything that is known about the state of a package. -/
structure Report where
  pullRequests : List PullRequest
  versions : TextMap
  releases : List Release
  builds : TextMap
  updates : List UpdateSummary
  coprBuilds : List CoprBuild

/-- How many pull requests a report shows. -/
def usualPullRequests : Nat := 5

/-- How many releases a report shows. -/
def usualReleases : Nat := 5

/-- How many updates a report shows. -/
def usualUpdates : Nat := 3

/-- How many builds of the project a report asks for. -/
def usualCoprBuilds : Nat := 5

/-- Ask every service in turn, for releases last. -/
def report (status : Status) : Inquiry Report := do
  let pullRequests ← status.pullRequests usualPullRequests
  let versions ← status.versions
  let builds ← status.builds
  let updates ← status.updates usualUpdates
  let coprBuilds ← status.coprBuilds usualCoprBuilds
  let releases ← status.releases usualReleases
  return ⟨pullRequests, versions, releases, builds, updates, coprBuilds⟩

/-- A map as it is written, its keys in ascending order. -/
def TextMap.encode (map : TextMap) : Value :=
  .mapping (map.toList.map fun (key, content) => (key, .text content))

def Report.encode (report : Report) : Value :=
  .mapping [
    ("copr_builds", .list (report.coprBuilds.map CoprBuild.encode)),
    ("dist_git_versions", report.versions.encode),
    ("downstream_prs", .list (report.pullRequests.map PullRequest.encode)),
    ("koji_builds", report.builds.encode),
    ("updates", .list (report.updates.map UpdateSummary.encode)),
    ("upstream_releases", .list (report.releases.map Release.encode))]

end Packaging.Status
