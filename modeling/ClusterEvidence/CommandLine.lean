import ClusterEvidence.Config.Load
import ClusterEvidence.Gather.Snapshot
import ClusterEvidence.Run.Directory
import ClusterEvidence.Run.Runner
import ClusterEvidence.Yaml.Subset

/-!
# The command line

`CommandLine.run` is one call of the program : it reads its arguments, loads the
configuration, opens the snapshot, runs one batch into a run directory and closes that.
Its `Result` has the exit code, what was printed, the log, and the files as they are
afterwards. It does so on the files of a `FileTree` and in a `Session`, which keeps the
log and the cancellation flag; `Session.interrupts` says with which messages an interrupt
arrives. Documents are read with the reader of `Yaml.Subset`.
-/

namespace ClusterEvidence

/-! ## Sessions -/

/-- The log of a process, its cancellation flag, its clock, and the messages with which an
interrupt arrives. -/
structure Session where
  logger : Logger := {}
  cancelled : Bool := false
  now : Nanoseconds := 0
  interrupts : Bytes → Bool := fun _ => false

namespace Session

/-- Log a message. An interrupt that comes with it raises the cancellation flag, whether or
not the message is kept. -/
def note (l : Level) (text : Bytes) (s : Session) : Session :=
  { s with
    logger := s.logger.write l text
    cancelled := s.cancelled || s.interrupts text }

/-- What a batch sees of a session. -/
def surroundings : Surroundings Session where
  cancelled := do
    let s ← get
    pure s.cancelled
  note := fun l text => modify (note l text)
  wallClock := do
    let s ← get
    pure s.now
  stopwatch := do
    let s ← get
    pure s.now

end Session

namespace CommandLine

/-! ## Arguments -/

/-- What the arguments ask for. -/
structure Arguments where
  configPath : Bytes := []
  help : Bool := false
deriving DecidableEq

/-- Read the arguments in order. The path of the last `--config` counts, and anything else
asks for help. -/
def parseArguments (a : Arguments) : List Bytes → Arguments
  | [] => a
  | [_] => { a with help := true }
  | x :: y :: rest =>
    if x = "--config" then parseArguments { a with configPath := y } rest
    else { a with help := true }

/-- How to call the program. -/
def usage : Bytes := "ig_gather\n  --config <path>   gather configuration (YAML)\n"

/-! ## Results -/

/-- What a call of the program leaves behind. -/
structure Result where
  exit : Nat
  stdout : Bytes := []
  stderr : Bytes := []
  log : List LogLine := []
  tree : FileTree

/-- The state of a run : its directory and the session. -/
abbrev State := RunDirectory Session × Session

/-- What a batch sees of the state of a run. -/
def surroundings : Surroundings State := Session.surroundings.beside (RunDirectory Session)

/-- The recorder of the run. -/
def recorder : Recorder State Session := RunDirectory.recorder Session.surroundings

/-- How the end of a batch is reported : the exit code, and a message for the log. -/
def report (st : Status) : Nat × Option (Level × Bytes) :=
  if st.isCancelled then (130, some (.warning, "Interrupted: " ++ st.message))
  else if !st.isOk then (1, some (.error, "Gather failed: " ++ st.describe))
  else (0, none)

/-- Run a batch that was started and stop it, however it ends. -/
def runStarted (src : Source State) (r : Runner) : StateM State (Nat × Bytes) := do
  let (st, r) ← r.runOnce surroundings recorder src
  let (exit, message) := report st
  if let some (l, text) := message then
    surroundings.note l text
  let place ← recorder.location
  let _ ← r.stop recorder
  pure (exit, if exit = 0 then place ++ "\n" else [])

/-- Start a run, run one batch and stop. -/
def runBatch (src : Source State) (r : Runner) : StateM State (Nat × Bytes) := do
  let (st, r) ← r.start surroundings recorder
  if st.isOk then runStarted src r
  else
    surroundings.note .error ("Unable to start: " ++ st.describe)
    pure (2, [])

/-- Run with a configuration that was loaded. -/
def runConfigured (configPath : Bytes) (c : Config) (t : FileTree) (s : Session) : Result :=
  let (st, logger) := s.logger.setLevel c.logLevel
  if !st.isOk then { exit := 1, stderr := st.message ++ "\n", tree := t }
  else
    let s := { s with logger := logger }
    let snapshot : Snapshot := { path := c.source.snapshotPath }
    let ((st, snapshot), s) := (snapshot.openDir Session.surroundings t).run s
    if !st.isOk then
      let s := s.note .error ("Unable to open source: " ++ st.describe)
      { exit := 2, log := s.logger.lines, tree := t }
    else
      let d : RunDirectory Session := { keepLast := c.output.keepLast.toNatClampNeg, tree := t }
      let ((exit, stdout), (d, s)) :=
        (runBatch snapshot.source { config := c, configPath := configPath }).run (d, s)
      { exit := exit, stdout := stdout, log := s.logger.lines, tree := d.tree }

/-- One call of the program. -/
def run (args : List Bytes) (t : FileTree) (s : Session) : Result :=
  let a := parseArguments {} args
  if a.help then { exit := 0, stdout := usage, tree := t }
  else if a.configPath.isEmpty then { exit := 2, stdout := usage, tree := t }
  else match Config.load t a.configPath with
    | .error e => { exit := 1, stderr := "config error: " ++ e.status.describe ++ "\n", tree := t }
    | .ok c => runConfigured a.configPath c t s

end CommandLine

end ClusterEvidence
