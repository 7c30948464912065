import ClusterEvidence.Config.Basic
import ClusterEvidence.Yaml.Overlay
import ClusterEvidence.Yaml.Reader

/-!
# Configurations from documents

`Config.ofYaml` takes the settings out of a document and checks them. A setting that is
there must have the right shape, a section that is not a map is not read, and what the
document does not mention keeps its default. `Config.parse` reads the document from a
text. `Config.LoadError` lists what can be wrong with a configuration, the files it is
layered from included.
-/

namespace ClusterEvidence

namespace Config

/-- Why there is no configuration. -/
inductive LoadError
  | malformed
  | rootNotMap
  | notList (key : Bytes)
  | badValue
  | problem (p : Problem)
  | missingFile (file : Bytes)
  | malformedFile (file : Bytes)
  | includeCycle (file : Bytes)
  | includesNotList (file : Bytes)
  | includesNotPaths (file : Bytes)
  | unmergeable (start : Bytes)
deriving DecidableEq

namespace LoadError

/-- The kind of failure. -/
def code : LoadError → Code
  | malformed | badValue | malformedFile _ | unmergeable _ => .parseError
  | missingFile _ => .notFound
  | _ => .invalidArgument

/-- What is wrong. -/
def message : LoadError → Bytes
  | malformed => "YAML parse error: <syntax error>"
  | rootNotMap => "config root must be a YAML map"
  | notList k => k ++ " must be a YAML sequence"
  | badValue => "invalid config value: " ++ Yaml.Mismatch.badConversion.message
  | problem p => p.message
  | missingFile f => "config file missing: " ++ f
  | malformedFile f => f ++ ": <syntax error>"
  | includeCycle f => "include cycle through " ++ f
  | includesNotList f => "includes in " ++ f ++ " must be a YAML sequence"
  | includesNotPaths f => "includes in " ++ f ++ " must list file paths"
  | unmergeable f => "cannot merge " ++ f ++ ": " ++ Yaml.Mismatch.badConversion.message

/-- The status that reports the failure. -/
def status (e : LoadError) : Status := ⟨e.code, e.message⟩

end LoadError

/-! ## Settings -/

variable {α : Type}

/-- A setting of a section, its default where the section does not mention it. -/
def setting (conv : Yaml → Yaml.Decoded α) (k : Bytes) (default : α) (d : Yaml) :
    Except LoadError α :=
  match d.get? k with
  | none => .ok default
  | some v => (conv v).mapError fun _ => .badValue

/-- A list of strings in a section, its default where the section does not mention it. -/
def listSetting (k : Bytes) (default : List Bytes) (d : Yaml) : Except LoadError (List Bytes) :=
  match d.get? k with
  | none => .ok default
  | some (.seq l) => (l.mapM Yaml.toText).mapError fun _ => .badValue
  | some _ => .error (.notList k)

/-- A section that is a map; otherwise nothing is read. -/
def sectionOf (k : Bytes) (d : Yaml) : Option Yaml := (d.get? k).filter Yaml.isMap

/-- Read a section, or keep its defaults where it is not a map. -/
def readSection (k : Bytes) (default : α) (read : Yaml → Except LoadError α) (d : Yaml) :
    Except LoadError α :=
  match sectionOf k d with
  | none => .ok default
  | some s => read s

/-- The log level, in small letters. -/
def readLogLevel (default : Bytes) (d : Yaml) : Except LoadError Bytes := do
  let level ← setting Yaml.toText "level" default d
  pure (Bytes.lower level)

/-- The words and key domains that may be shown. -/
def readVocabulary (default : Vocabulary) (d : Yaml) : Except LoadError Vocabulary := do
  let allowedWords ← listSetting "allowed_words" default.allowedWords d
  let trustedKeyDomains ← listSetting "trusted_key_domains" default.trustedKeyDomains d
  pure { allowedWords, trustedKeyDomains }

/-- What is gathered. -/
def readGather (default : GatherOptions) (d : Yaml) : Except LoadError GatherOptions := do
  let clusterVersionName ← setting Yaml.toText "cluster_version_name" default.clusterVersionName d
  let singletonName ← setting Yaml.toText "singleton_name" default.singletonName d
  let recordHealthyOperators ←
    setting Yaml.toBool "record_healthy_operators" default.recordHealthyOperators d
  pure { clusterVersionName, singletonName, recordHealthyOperators }

/-- Where it is read from; the type is in small letters. -/
def readSource (default : SourceOptions) (d : Yaml) : Except LoadError SourceOptions := do
  let type ← setting Yaml.toText "type" default.type d
  let snapshotPath ←
    readSection "snapshot_dir" default.snapshotPath (setting Yaml.toText "path" default.snapshotPath) d
  pure { type := Bytes.lower type, snapshotPath }

/-- Where it is written. -/
def readOutput (default : OutputOptions) (d : Yaml) : Except LoadError OutputOptions := do
  let outDir ← setting Yaml.toText "out_dir" default.outDir d
  let keepLast ← setting Yaml.toInt32 "keep_last" default.keepLast d
  pure { outDir, keepLast }

/-! ## Configurations -/

/-- The settings of a map, before they are checked. -/
def ofMap (d : Yaml) : Except LoadError Config := do
  let base : Config := {}
  let reportNamespace ← setting Yaml.toText "report_namespace" base.reportNamespace d
  let logLevel ← readSection "log" base.logLevel (readLogLevel base.logLevel) d
  let vocabulary ← readSection "anonymize" base.vocabulary (readVocabulary base.vocabulary) d
  let gather ← readSection "gather" base.gather (readGather base.gather) d
  let source ← readSection "source" base.source (readSource base.source) d
  let output ← readSection "output" base.output (readOutput base.output) d
  pure { reportNamespace, logLevel, vocabulary, gather, source, output }

/-- Settings that a run can work with. -/
def checked (c : Config) : Except LoadError Config :=
  match c.problem? with
  | none => .ok c
  | some p => .error (.problem p)

/-- The configuration of a document; an empty one means all defaults. -/
def ofYaml (d : Yaml) : Except LoadError Config :=
  match d with
  | .map l => ofMap (.map l) >>= checked
  | .null => checked {}
  | _ => .error .rootNotMap

/-- The configuration of a text. -/
def parse [Yaml.Reader] (s : Bytes) : Except LoadError Config :=
  match Yaml.Reader.document? s with
  | none => .error .malformed
  | some d => ofYaml d

end Config

end ClusterEvidence
