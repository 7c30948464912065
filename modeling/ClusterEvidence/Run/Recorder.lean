import ClusterEvidence.Batch.Record

/-!
# Recorders of runs

A `Recorder σ ε` takes the records of a run. It is opened for a run, given records,
flushed and closed, and may be opened again for another run.
-/

namespace ClusterEvidence

/-- What identifies a run. -/
structure RunInfo where
  outDir : Bytes
  configPath : Bytes
  configHash : Bytes
  startedAt : Nanoseconds

/-- Where the records of a run go. `location` says where that is, for the log. -/
structure Recorder (σ ε : Type) where
  openRun : RunInfo → StateM σ Status
  record : Record ε → StateM σ Status
  flush : StateM σ Status
  close : StateM σ Unit
  location : StateM σ Bytes

end ClusterEvidence
