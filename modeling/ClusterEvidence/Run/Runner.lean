import ClusterEvidence.Config.Hash
import ClusterEvidence.Gather.Gatherer
import ClusterEvidence.Run.Recorder

/-!
# Runs

A `Runner` owns a run from its start to its end : `Runner.start` opens the recorder,
`Runner.runOnce` gathers one batch into it and flushes it, and `Runner.stop` closes it.
Nothing is gathered before a start that succeeded. An interrupt while gathering is passed
on as it is, and nothing is flushed then; a failed flush is reported together with the
errors of the batch.
-/

namespace ClusterEvidence

/-- A run with its settings, and what it remembers between batches. -/
structure Runner where
  config : Config
  configPath : Bytes
  started : Bool := false
  startedAt : Nanoseconds := 0
  cache : VersionCache := {}

namespace Runner

variable {σ ε : Type} (env : Surroundings σ) (rec : Recorder σ ε)

/-- The hash that identifies the settings. -/
def configHash (r : Runner) : Bytes := r.config.hash

/-- What the run gathers and how it is shown. -/
def gatherer (r : Runner) : Gatherer where
  anonymizer := some (Anonymizer.ofVocabulary r.config.vocabulary)
  options := r.config.gather

/-- Open the recorder for a new run. -/
def start (r : Runner) : StateM σ (Status × Runner) := do
  let startedAt ← env.stopwatch
  let r := { r with startedAt }
  let now ← env.wallClock
  let st ← rec.openRun
    { outDir := r.config.output.outDir
      configPath := r.configPath
      configHash := r.configHash
      startedAt := now }
  if st.isOk then
    let place ← rec.location
    env.note .info ("Starting gather run into " ++ place ++ " (config " ++ r.configPath
      ++ " hash " ++ r.configHash ++ ")")
    pure (.ok, { r with started := true })
  else pure (st, r)

/-- What a run that was not started answers. -/
def notStarted : Status := ⟨.invalidArgument, "GatherRunner::run_once called before start"⟩

/-- The status of a batch whose records could not all be flushed. -/
def flushFailed (gathered flushed : Status) : Status :=
  if gathered.isOk then flushed
  else ⟨.gatherFailed, gathered.message ++ ", " ++ flushed.message⟩

/-- Flush what was gathered; the status of both. -/
def finish (r : Runner) (gathered : Status) : StateM σ Status := do
  let flushed ← rec.flush
  let now ← env.stopwatch
  if flushed.isOk then
    let elapsed := (now - r.startedAt) / 1000000
    env.note .info ("Gather run finished in " ++ Bytes.decimal elapsed.toInt ++ "ms")
    pure gathered
  else
    env.note .error ("Unable to flush records: " ++ flushed.message)
    pure (flushFailed gathered flushed)

/-- Gather one batch. -/
def runOnce (src : Source σ) (r : Runner) : StateM σ (Status × Runner) := do
  if !r.started then return (notStarted, r)
  let s ← get
  let (gathered, cache, s) := r.gatherer.gather env src rec.record r.config.reportNamespace (r.cache, s)
  set s
  let r := { r with cache }
  if gathered.isCancelled then
    env.note .warning "Gather run cancelled; report not recorded"
    return (gathered, r)
  if !gathered.isOk then
    env.note .warning ("Gather completed with errors: " ++ gathered.message)
  let st ← finish env rec r gathered
  return (st, r)

/-- Close the recorder. -/
def stop (r : Runner) : StateM σ Runner := do
  rec.close
  pure { r with started := false }

end Runner

end ClusterEvidence
