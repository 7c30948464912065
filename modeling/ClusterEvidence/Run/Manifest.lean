import ClusterEvidence.Digest.Fnv
import ClusterEvidence.Files.Tree
import ClusterEvidence.Json.Basic
import ClusterEvidence.Run.Recorder

/-!
# The manifest of a run

The manifest has one JSON object on each line : `Manifest.header` for the run, then one
`Manifest.recordLine` for each record that was written. An open `Manifest` buffers what
is written to it; the buffer goes to the file when it is full and when it is flushed, and
that is taken not to fail.
-/

namespace ClusterEvidence

/-- A manifest that is open for writing : where it stands, how much of it is in the file
and what waits to get there. -/
structure Manifest where
  location : Location
  written : Nat := 0
  buffer : Bytes := []
deriving DecidableEq

namespace Manifest

/-! ## Lines -/

/-- The first line, which identifies the run. -/
def header (run : RunInfo) : Json :=
  .obj
    [Json.field "type" "run_started",
     Json.fieldNumber "t_wall_ns" run.startedAt.toInt,
     Json.field "config_path" run.configPath,
     Json.field "config_hash" run.configHash]

/-- The line of a record whose content is in its file. A record without a fingerprint
gets the one of its content. -/
def recordLine (name : Bytes) (captured : Nanoseconds) (fingerprint bytes : Bytes) : Json :=
  .obj
    [Json.field "type" "record",
     Json.field "name" name,
     Json.fieldNumber "captured_ns" captured.toInt,
     Json.field "fingerprint" (if fingerprint.isEmpty then Fnv.fingerprint bytes else fingerprint),
     Json.fieldNumber "bytes" bytes.length]

/-! ## Writing -/

/-- As many bytes can wait. -/
def capacity : Nat := 8191

/-- Everything that waits goes to the file. -/
def flush (m : Manifest) (t : FileTree) : Manifest × FileTree :=
  if m.buffer.isEmpty then (m, t)
  else
    ({ m with written := m.written + m.buffer.length, buffer := [] },
     t.writeAt m.location m.written m.buffer)

/-- A piece of text waits, or goes to the file together with what waits when there is no
room for it. -/
def write (s : Bytes) (m : Manifest) (t : FileTree) : Manifest × FileTree :=
  let m' := { m with buffer := m.buffer ++ s }
  if capacity ≤ m'.buffer.length then m'.flush t else (m', t)

/-- A line of the manifest. -/
def writeLine (j : Json) (m : Manifest) (t : FileTree) : Manifest × FileTree :=
  let (m, t) := m.write j.render t
  m.write [0x0a] t

end Manifest

end ClusterEvidence
