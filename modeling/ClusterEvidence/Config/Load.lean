import ClusterEvidence.Config.Decode
import ClusterEvidence.Files.Tree
import ClusterEvidence.Yaml.Reader

/-!
# Layered configuration files

A configuration file may list other files under `includes`. They are resolved depth
first, relative to the directory of the file that names them : a later include lies over
an earlier one, and the file's own settings lie over all of them. A file that is being
resolved already cannot be included again, however its path is spelled, so there are
never more files in the chain than there are files; `resolve` gets one step more than
that. `Config.load` is the configuration of the file it starts from. Whichever
`Yaml.Reader` is given reads the files.
-/

namespace ClusterEvidence

namespace Config

/-- The document in a file. A file that is there is taken to be readable. -/
def readDocument [Yaml.Reader] (t : FileTree) (file : Bytes) : Except LoadError Yaml :=
  match t.readFile? file with
  | none => .error (.missingFile file)
  | some s =>
    match Yaml.Reader.document? s with
    | none => .error (.malformedFile file)
    | some d => .ok d

/-- An included file as seen from the file that names it. -/
def includedPath (file entry : Bytes) : Bytes := Path.join (Path.parent file) entry

/-- A document laid over another one. `start` is the file that everything is loaded from. -/
def merge (start : Bytes) (below d : Yaml) : Except LoadError Yaml :=
  (Yaml.overlay below d).mapError fun _ => .unmergeable start

/-- The included documents laid over `below`, in order. `fetch` gives the document of a
file. -/
def layer (fetch : Bytes → Except LoadError Yaml) (start file : Bytes) (below : Yaml) :
    List Yaml → Except LoadError Yaml
  | [] => .ok below
  | .scalar entry :: rest => do
    let d ← fetch (includedPath file entry)
    let below ← merge start below d
    layer fetch start file below rest
  | _ :: _ => .error (.includesNotPaths file)

variable [Yaml.Reader]

/-- The document of a file with everything it includes. `chain` holds the files that are
being resolved, and `deeper` resolves the included ones on a longer chain. -/
def resolveVia (t : FileTree) (start : Bytes)
    (deeper : List Location → Bytes → Except LoadError Yaml) (chain : List Location)
    (file : Bytes) : Except LoadError Yaml := do
  let key := t.canonical? file
  if key.any chain.contains then throw (.includeCycle file)
  let own ← readDocument t file
  match own.get? "includes" with
  | none => pure own
  | some (.seq entries) =>
    let below ← layer (deeper (key.toList ++ chain)) start file .null entries
    merge start below (own.erase "includes")
  | some _ => throw (.includesNotList file)

/-- The document of a file, included files being resolved so many levels deep. -/
def resolve (t : FileTree) (start : Bytes) : Nat → List Location → Bytes → Except LoadError Yaml
  | 0 => fun _ file => .error (.includeCycle file)
  | n + 1 => resolveVia t start (resolve t start n)

/-- The configuration that starts from a file. -/
def load (t : FileTree) (start : Bytes) : Except LoadError Config :=
  resolve t start (t.fileCount + 1) [] start >>= ofYaml

end Config

end ClusterEvidence
