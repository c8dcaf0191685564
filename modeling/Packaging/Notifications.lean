import Packaging.Document.Decoding

/-! What a package's maintainers want to hear about. A missing setting is its default, and null
is no setting.
-/

namespace Packaging

/-- Comments on pull requests. -/
structure PullRequestNotifications where
  successfulBuild : Bool := true
deriving DecidableEq

structure Notifications where
  pullRequest : PullRequestNotifications := {}
deriving DecidableEq

namespace PullRequestNotifications

def reader : RecordReader PullRequestNotifications where
  kind := .pullRequestNotifications
  start := {}
  fields :=
    [.of "successful_build" Decoder.boolean fun given settings =>
      { settings with successfulBuild := given }]

def decode : Decoder PullRequestNotifications :=
  reader.decode

def encode (settings : PullRequestNotifications) : Value :=
  .mapping [("successful_build", .boolean settings.successfulBuild)]

end PullRequestNotifications

namespace Notifications

def reader : RecordReader Notifications where
  kind := .notifications
  start := {}
  fields :=
    [.of "pull_request" PullRequestNotifications.decode fun given settings =>
      { settings with pullRequest := given }]

def decode : Decoder Notifications :=
  reader.decode

def encode (settings : Notifications) : Value :=
  .mapping [("pull_request", settings.pullRequest.encode)]

end Notifications

end Packaging
