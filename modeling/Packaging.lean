import Packaging.Attributes.Assignment
import Packaging.Git.Recording
import Packaging.Lookup.Directories
import Packaging.Lookup.InProject
import Packaging.Status.Report
import Packaging.Proofs.Traced
import Packaging.Proofs.Document.Records
import Packaging.Proofs.Document.Ordered
import Packaging.Proofs.Document.Reading
import Packaging.Proofs.Attributes.Views
import Packaging.Proofs.Attributes.Encoding
import Packaging.Proofs.Attributes.RoundTrip
import Packaging.Proofs.Jobs.Settings
import Packaging.Proofs.Declarations.Entries
import Packaging.Proofs.Declarations.Stages
import Packaging.Proofs.Jobs.Form
import Packaging.Proofs.Resolution.Stages
import Packaging.Proofs.Resolution.Resolved
import Packaging.Proofs.Resolution.RoundTrip
import Packaging.Proofs.Resolution.Inheritance
import Packaging.Proofs.Resolution.Failures
import Packaging.Proofs.DownstreamUrl
import Packaging.Proofs.Comparison
import Packaging.Proofs.Resolution.FurtherHints
import Packaging.Proofs.Paths
import Packaging.Proofs.Git.Bytes
import Packaging.Proofs.Lookup.Directories
import Packaging.Proofs.Lookup.InProject
import Packaging.Proofs.Lookup.Malformed
import Packaging.Proofs.Git.Trees
import Packaging.Proofs.Files.Following
import Packaging.Proofs.Lookup.SpecFile
import Packaging.Proofs.Lookup.Agreement
import Packaging.Proofs.Files.Standing
import Packaging.Proofs.Git.Identifiers
import Packaging.Proofs.Lookup.SpecNames
import Packaging.Proofs.Resolution.Complete
import Packaging.Proofs.Lookup.Priority
import Packaging.Proofs.Lookup.SpecSeen
import Packaging.Proofs.Declarations.Recognized
import Packaging.Proofs.Declarations.Leftovers
import Packaging.Proofs.Resolution.AlikeJobs
import Packaging.Proofs.Resolution.UnknownKeys
import Packaging.Proofs.WrittenData
import Packaging.Proofs.Attributes.Layers
import Packaging.Proofs.FilesToCopy.Appending
import Packaging.Proofs.FilesToCopy.Spellings
import Packaging.Proofs.Declarations.NestedSettings
import Packaging.Proofs.Declarations.Synonyms
import Packaging.Proofs.Resolution.Respelled
import Packaging.Proofs.Status.Pages
import Packaging.Proofs.Status.Updates
import Packaging.Proofs.Status.Builds
import Packaging.Proofs.Status.Report
import Packaging.Proofs.Lookup.Reports
import Packaging.Proofs.Git.Stored
import Packaging.Proofs.Git.Listing
import Packaging.Proofs.Lookup.FilesAtReference
import Packaging.Proofs.Lookup.FirstSpec
import Packaging.Proofs.Lookup.SearchOrder
import Packaging.Proofs.Git.RemoteUrls
import Packaging.Proofs.JoinedPaths
import Packaging.Proofs.Passing
import Packaging.Proofs.FilesToCopy.Offering
import Packaging.Proofs.Lookup.Candidates
