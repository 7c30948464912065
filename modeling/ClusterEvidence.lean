import ClusterEvidence.CommandLine
import ClusterEvidence.Digest.Fnv
import ClusterEvidence.Json.Reader
import ClusterEvidence.Json.Writer
import ClusterEvidence.Main
import ClusterEvidence.Proofs.Anonymizer.Lists
import ClusterEvidence.Proofs.Anonymizer.Vocabulary
import ClusterEvidence.Proofs.Anonymizer.Words
import ClusterEvidence.Proofs.Batch.Canonical
import ClusterEvidence.Proofs.Config.Hash
import ClusterEvidence.Proofs.Config.NestedIncludes
import ClusterEvidence.Proofs.Config.Settings
import ClusterEvidence.Proofs.Digest.Fnv
import ClusterEvidence.Proofs.Gather.Containment
import ClusterEvidence.Proofs.Gather.Filing
import ClusterEvidence.Proofs.Gather.Noninterference
import ClusterEvidence.Proofs.Gather.Queries
import ClusterEvidence.Proofs.Gather.Reopening
import ClusterEvidence.Proofs.Gather.VersionHistory
import ClusterEvidence.Proofs.Json.Writer
import ClusterEvidence.Proofs.Resource.Defaults
import ClusterEvidence.Proofs.Resource.Redaction
import ClusterEvidence.Proofs.Resource.Unread
import ClusterEvidence.Proofs.Run.Confinement
import ClusterEvidence.Proofs.Run.FailedOpen
import ClusterEvidence.Proofs.Run.Interruption
import ClusterEvidence.Proofs.Run.Lifecycle
import ClusterEvidence.Proofs.Run.Lines
import ClusterEvidence.Proofs.Run.Report
import ClusterEvidence.Proofs.Run.Resumption
import ClusterEvidence.Proofs.Run.Times
import ClusterEvidence.Proofs.Status
