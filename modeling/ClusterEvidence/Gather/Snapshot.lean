import ClusterEvidence.Files.Tree
import ClusterEvidence.Gather.Source
import ClusterEvidence.Resource.Decode
import ClusterEvidence.Surroundings
import ClusterEvidence.Yaml.Reader

/-!
# Snapshots

A `Snapshot` is a source that answers from the manifests below a directory. Opening it
reads the manifest files in the order of their paths and indexes every document by its
kind; a document of a kind that ends in `List` stands for its items (`indexed`). A
manifest is decoded when it is asked for, so a malformed one spoils only the answers it
belongs to.
-/

namespace ClusterEvidence

/-! ## Indexing -/

/-- What becomes of a document : it is kept under its kind, or skipped because it has
none. -/
inductive Indexed
  | kept (kind : Bytes) (doc : Yaml)
  | skipped

namespace Indexed

/-- The kind and the document, if it is kept. -/
def document? : Indexed → Option (Bytes × Yaml)
  | kept k d => some (k, d)
  | skipped => none

/-- The kind of a document of many. -/
def listKind : Bytes := "List"

/-- A document of this kind stands for its items. -/
def isList (kind : Bytes) : Bool := Bytes.endsWith listKind kind

/-- The kind that items without one have in a document of many : none in a plain list,
and in a typed one the kind it is named for. -/
def itemKind (kind : Bytes) : Option Bytes :=
  if kind = listKind then none else some (kind.take (kind.length - listKind.length))

/-- The kind of a document with these entries, which may be given from outside, and the
document with that kind. -/
def withKind (given : Option Bytes) (entries : List (Yaml × Yaml)) : Bytes × Yaml :=
  let own := kindOf (.map entries)
  match given with
  | some k => if own.isEmpty then (k, Yaml.set "kind" (.scalar k) (.map entries)) else (own, .map entries)
  | none => (own, .map entries)

mutual

/-- The documents that a document stands for. -/
def ofYaml (given : Option Bytes) : Yaml → List Indexed
  | .map entries =>
    let (kind, doc) := withKind given entries
    if kind.isEmpty then [skipped]
    else if isList kind then ofListEntries (itemKind kind) entries
    else [kept kind doc]
  | _ => [skipped]

/-- The documents in the items of a list, which stand under the first key `items`. -/
def ofListEntries (given : Option Bytes) : List (Yaml × Yaml) → List Indexed
  | [] => []
  | (key, .seq items) :: rest =>
    if Yaml.keyIs "items" key then ofItems given items else ofListEntries given rest
  | (key, _) :: rest =>
    if Yaml.keyIs "items" key then [] else ofListEntries given rest

/-- The documents in a sequence of items. -/
def ofItems (given : Option Bytes) : List Yaml → List Indexed
  | [] => []
  | d :: ds => ofYaml given d ++ ofItems given ds

end

end Indexed

/-- What the documents of a file stand for, null documents left out. -/
def indexed (docs : List Yaml) : List Indexed :=
  (docs.filter fun d => !d.isNull).flatMap (Indexed.ofYaml none)

/-! ## Snapshots -/

/-- The manifests below a directory, once it is open. `documents` are kept in the order
they were read in, each with its kind. -/
structure Snapshot where
  path : Bytes
  isOpen : Bool := false
  documents : List (Bytes × Yaml) := []

namespace Snapshot

/-- The name of this kind of source. -/
def sourceName : Bytes := "snapshot_dir"

/-- Why a snapshot cannot be opened. -/
inductive OpenError
  | emptyPath
  | notFound (path : Bytes)
  | notDirectory (path : Bytes)
  | malformed (file : Bytes)
deriving DecidableEq

/-- The status that reports the failure. -/
def OpenError.status : OpenError → Status
  | emptyPath => ⟨.invalidArgument, "SnapshotDirSource: path is empty"⟩
  | notFound p => ⟨.notFound, "SnapshotDirSource: directory not found: " ++ p⟩
  | notDirectory p => ⟨.invalidArgument, "SnapshotDirSource: path is not a directory: " ++ p⟩
  | malformed f => ⟨.parseError, "SnapshotDirSource: YAML parse error in " ++ f ++ ": <syntax error>"⟩

/-- Forget all manifests. -/
def close (s : Snapshot) : Snapshot := { s with isOpen := false, documents := [] }

/-- A file that holds manifests, by the ending of its name. -/
def isManifest (file : Bytes) : Bool :=
  let e := Path.ending (Path.fileName file)
  e == ".yaml" || e == ".yml" || e == ".json"

/-- The manifest files below a directory with their contents, in the order of their
paths. The directory and those below it are taken to be listed to the end. -/
def manifestFiles (t : FileTree) (path : Bytes) : List (Bytes × Bytes) :=
  match t.resolve path with
  | .error _ => []
  | .ok l =>
    let files := (t.filesBelow l).map fun f => (Path.join path (Bytes.join [Path.slash] f.1), f.2)
    (files.filter fun f => isManifest f.1).mergeSort fun a b => decide (a.1 ≤ b.1)

variable {σ : Type} (env : Surroundings σ)

/-- Log the documents that are skipped. -/
def noteSkipped : List Indexed → StateM σ Unit
  | [] => pure ()
  | .skipped :: rest => do
    env.note .debug "SnapshotDirSource: skipping document without kind"
    noteSkipped rest
  | .kept _ _ :: rest => noteSkipped rest

section Reading

variable [Yaml.Reader]

/-- Read files one after the other, up to the first that is malformed. -/
def readFiles : List (Bytes × Bytes) → Snapshot → StateM σ (Option OpenError × Snapshot)
  | [], s => pure (none, s)
  | (file, content) :: rest, s =>
    match Yaml.Reader.documents? content with
    | none => pure (some (.malformed file), s)
    | some docs => do
      let found := indexed docs
      noteSkipped env found
      readFiles rest { s with documents := s.documents ++ found.filterMap Indexed.document? }

/-- Read all manifests below a directory. -/
def readAll (t : FileTree) (s : Snapshot) : StateM σ (Status × Snapshot) := do
  let files := manifestFiles t s.path
  match ← readFiles env files s with
  | (some e, s) => pure (e.status, s)
  | (none, s) =>
    env.note .info ("Loaded " ++ Bytes.digits s.documents.length ++ " manifests from "
      ++ Bytes.digits files.length ++ " files in " ++ s.path)
    pure (.ok, { s with isOpen := true })

/-- Open the snapshot as it is now. -/
def openDir (t : FileTree) (s : Snapshot) : StateM σ (Status × Snapshot) :=
  if s.path.isEmpty then pure (OpenError.emptyPath.status, s)
  else match t.stat s.path with
    | .error _ => pure ((OpenError.notFound s.path).status, s.close)
    | .ok (.file _) => pure ((OpenError.notDirectory s.path).status, s.close)
    | .ok .directory => readAll env t s.close

end Reading

/-! ## Queries -/

/-- What a query of a snapshot that is not open answers. -/
def notOpened : Status := ⟨.invalidArgument, "SnapshotDirSource: not opened"⟩

/-- The documents of a kind, in order. -/
def ofKind (s : Snapshot) (k : Kind) : List Yaml :=
  (s.documents.filter fun d => d.1 == k.name).map Prod.snd

/-- The resources of a kind among the documents that are chosen. -/
def list (s : Snapshot) (k : Kind) (chosen : Yaml → Bool) : Fetched (List k.Object) :=
  if !s.isOpen then .error notOpened
  else (((s.ofKind k).filter chosen).mapM (decode k)).mapError
    (Status.annotate ("SnapshotDirSource: listing " ++ k.name))

/-- The resource of a kind with a name. -/
def get (s : Snapshot) (k : Kind) (name : Bytes) : Fetched k.Object :=
  if !s.isOpen then .error notOpened
  else match (s.ofKind k).find? fun d => metadataText "name" d == name with
    | some d => decode k d
    | none => .error ⟨.notFound, k.name ++ " \"" ++ name ++ "\" not found"⟩

/-- The pods of a namespace. -/
def pods (s : Snapshot) (ns : Bytes) : Fetched (List Pod) :=
  if ns.isEmpty then .error ⟨.invalidArgument, "namespace is empty"⟩
  else s.list .pod fun d => metadataText "namespace" d == ns

/-- A snapshot as a source. -/
def source (s : Snapshot) : Source σ where
  operators := pure (s.list .clusterOperator fun _ => true)
  nodes := pure (s.list .node fun _ => true)
  pods := fun ns => pure (s.pods ns)
  get := fun k name => pure (s.get k name)

end Snapshot

end ClusterEvidence
