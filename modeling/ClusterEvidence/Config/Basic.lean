import ClusterEvidence.Status

/-!
# Configuration

`Config` holds the effective settings of a run; its defaults are the settings of an
empty configuration. `Config.problem?` is the first setting that a run could not work
with, and `Config.validate` the status that says so.
-/

namespace ClusterEvidence

/-- The words that may be shown unless a configuration names others. -/
def defaultWords : List Bytes :=
  List.map Bytes.ofString
    ["api", "apps", "cluster", "com", "console", "default",
     "etcd", "http", "https", "internal", "io", "kubernetes",
     "local", "localhost", "master", "net", "oauth", "openshift",
     "org", "proxy", "registry", "router", "svc", "www",
     "amazonaws", "azure", "compute", "ec2", "gcp", "ingress",
     "worker", "node", "insights", "redhat", "cloud", "update"]

/-- The vocabulary of anonymization : words that may be shown as they are, and parts of
label and annotation keys whose values may. -/
structure Vocabulary where
  allowedWords : List Bytes := defaultWords
  trustedKeyDomains : List Bytes := ["openshift.io/", "k8s.io/", "kubernetes.io/"]
deriving DecidableEq

/-- What is gathered : the names of the singleton resources, and whether operators in
good health are recorded too. -/
structure GatherOptions where
  clusterVersionName : Bytes := "version"
  singletonName : Bytes := "cluster"
  recordHealthyOperators : Bool := false
deriving DecidableEq

/-- Where the cluster's manifests come from. -/
structure SourceOptions where
  type : Bytes := "snapshot_dir"
  snapshotPath : Bytes := []
deriving DecidableEq

/-- Where runs are written, and how many of them are kept; zero keeps all. -/
structure OutputOptions where
  outDir : Bytes := "/var/lib/insights-operator"
  keepLast : Int32 := 10
deriving DecidableEq

/-- The settings of a run. -/
structure Config where
  reportNamespace : Bytes := "insights-operator"
  logLevel : Bytes := "info"
  vocabulary : Vocabulary := {}
  gather : GatherOptions := {}
  source : SourceOptions := {}
  output : OutputOptions := {}
deriving DecidableEq

namespace Config

/-- The names a configuration may give as log level. -/
def isKnownLogLevel (s : Bytes) : Bool :=
  decide (s ∈ (["trace", "debug", "info", "warn", "error", "off"] : List Bytes))

/-- A setting that a run could not work with. -/
inductive Problem
  | emptyReportNamespace
  | unknownLogLevel
  | emptyClusterVersionName
  | emptySingletonName
  | unknownSourceType
  | emptySnapshotPath
  | emptyOutDir
  | negativeKeepLast
deriving DecidableEq

/-- The rule that a setting breaks. -/
def Problem.message : Problem → Bytes
  | emptyReportNamespace => "report_namespace must not be empty"
  | unknownLogLevel => "log.level must be one of trace|debug|info|warn|error|off"
  | emptyClusterVersionName => "gather.cluster_version_name must not be empty"
  | emptySingletonName => "gather.singleton_name must not be empty"
  | unknownSourceType => "source.type must be 'snapshot_dir'"
  | emptySnapshotPath => "source.snapshot_dir.path must not be empty"
  | emptyOutDir => "output.out_dir must not be empty"
  | negativeKeepLast => "output.keep_last must be >= 0"

/-- The first problem, in the order of the sections. -/
def problem? (c : Config) : Option Problem :=
  if c.reportNamespace = [] then some .emptyReportNamespace
  else if !isKnownLogLevel c.logLevel then some .unknownLogLevel
  else if c.gather.clusterVersionName = [] then some .emptyClusterVersionName
  else if c.gather.singletonName = [] then some .emptySingletonName
  else if c.source.type ≠ "snapshot_dir" then some .unknownSourceType
  else if c.source.snapshotPath = [] then some .emptySnapshotPath
  else if c.output.outDir = [] then some .emptyOutDir
  else if c.output.keepLast < 0 then some .negativeKeepLast
  else none

/-- OK, or the first problem. -/
def validate (c : Config) : Status :=
  match c.problem? with
  | none => .ok
  | some p => ⟨.invalidArgument, p.message⟩

end Config

end ClusterEvidence
