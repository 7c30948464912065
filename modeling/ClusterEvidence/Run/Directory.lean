import ClusterEvidence.Run.Manifest
import ClusterEvidence.Run.Prune

/-!
# Run directories

A `RunDirectory` records runs as directories. `openRun` makes the directory of a new run,
prunes old ones and starts the manifest; `record` takes a record into the queue, unless
its name is unsafe or was taken before; `flush` writes the queue, one file and one line
of the manifest for each record; `close` ends the run and forgets what was not written.

A record that cannot be written does not stop the others. The cancellation flag is looked
at before each record and once at the end : a flush that finds it raised leaves the rest
in the queue and ends as interrupted work.
-/

namespace ClusterEvidence

/-- A record in the queue; unlike a `Record` it has a content. -/
structure Queued (ε : Type) where
  name : Bytes
  captured : Nanoseconds
  fingerprint : Bytes
  content : Content ε

/-- A recorder of runs with the files it can see. It is open while it has a manifest.
`keepLast` run directories are kept, all of them for zero. -/
structure RunDirectory (ε : Type) where
  keepLast : Nat := 10
  tree : FileTree := {}
  runDir : Bytes := []
  manifestPath : Bytes := []
  manifest : Option Manifest := none
  pending : List (Queued ε) := []
  names : List Bytes := []

namespace RunDirectory

variable {ε : Type}

/-- A run is open. -/
def isOpen (d : RunDirectory ε) : Bool := d.manifest.isSome

/-! ## The manifest -/

/-- A line of the manifest of the open run. -/
def writeLine (j : Json) (d : RunDirectory ε) : RunDirectory ε :=
  match d.manifest with
  | none => d
  | some m =>
    let (m, t) := m.writeLine j d.tree
    { d with manifest := some m, tree := t }

/-- Everything written to the manifest goes to its file. -/
def flushManifest (d : RunDirectory ε) : RunDirectory ε :=
  match d.manifest with
  | none => d
  | some m =>
    let (m, t) := m.flush d.tree
    { d with manifest := some m, tree := t }

/-! ## Closing and opening -/

/-- End the run. -/
def close (env : Surroundings ε) (d : RunDirectory ε) : StateM ε (RunDirectory ε) := do
  if !d.pending.isEmpty then
    env.note .warning ("Closing " ++ d.runDir ++ " with " ++ Bytes.digits d.pending.length
      ++ " unflushed records")
  pure { d.flushManifest with manifest := none, pending := [], names := [] }

/-- The output directory without the runs that are too many. Of those that could not be
removed, the paths and why. -/
def pruning (outDir : Bytes) (d : RunDirectory ε) : FileTree × List (Bytes × FsError) :=
  if d.keepLast = 0 then (d.tree, [])
  else match d.tree.resolve outDir with
    | .ok l => prune d.keepLast outDir (d.tree.listing l) d.tree
    | .error _ => (d.tree, [])

/-- The files after runs that are too many have been removed. -/
def pruned (outDir : Bytes) (d : RunDirectory ε) : FileTree := (d.pruning outDir).1

/-- Start a run in a fresh state. -/
def begin (run : RunInfo) (d : RunDirectory ε) : Status × RunDirectory ε :=
  let runDir := Path.join run.outDir (RunName.ofTime run.startedAt)
  let d := { d with runDir, manifestPath := Path.join runDir "manifest.jsonl" }
  match d.tree.createDirectories runDir with
  | (t, some e) =>
    (⟨.ioError, "failed creating run dir '" ++ runDir ++ "': " ++ e.message⟩, { d with tree := t })
  | (t, none) =>
    let d := { d with tree := t }
    let d := { d with tree := d.pruned run.outDir }
    match d.tree.writeFile d.manifestPath [] with
    | none => (⟨.ioError, "failed opening '" ++ d.manifestPath ++ "'"⟩, d)
    | some (t, l) =>
      (.ok, writeLine (Manifest.header run) { d with tree := t, manifest := some { location := l } })

/-- The messages about runs that cannot be removed when a run is started. -/
def unprunable (run : RunInfo) (d : RunDirectory ε) : List Bytes :=
  match d.tree.createDirectories (Path.join run.outDir (RunName.ofTime run.startedAt)) with
  | (_, some _) => []
  | (t, none) =>
    let failures := ({ d with tree := t }.pruning run.outDir).2
    failures.map fun f => "Unable to prune " ++ f.1 ++ ": " ++ f.2.message

/-- Log warnings. -/
def warn (env : Surroundings ε) : List Bytes → StateM ε Unit
  | [] => pure ()
  | text :: rest => do
    env.note .warning text
    warn env rest

/-- End the run that may be open and start another. -/
def openRun (env : Surroundings ε) (run : RunInfo) (d : RunDirectory ε) :
    StateM ε (Status × RunDirectory ε) := fun e =>
  let closed := d.close env e
  (closed.1.begin run, (warn env (closed.1.unprunable run) closed.2).2)

/-! ## Recording -/

/-- Why a record is refused. -/
inductive Refusal
  | notOpen
  | noContent
  | unsafeName (name : Bytes)
  | duplicate
deriving DecidableEq

/-- What is wrong with the record. -/
def Refusal.message : Refusal → Bytes
  | notOpen => "DirRecorder::record called while not open"
  | noContent => "record has no content"
  | unsafeName n => "invalid record name '" ++ n ++ "'"
  | duplicate => "record already exists"

/-- The queued form of a record that is accepted, or why it is refused. -/
def accept (r : Record ε) (d : RunDirectory ε) : Except Refusal (Queued ε) :=
  if !d.isOpen then .error .notOpen
  else match r.item with
    | none => .error .noContent
    | some c =>
      if !RecordName.isSafe r.name then .error (.unsafeName r.name)
      else if d.names.contains r.name then .error .duplicate
      else .ok { name := r.name, captured := r.captured, fingerprint := r.fingerprint, content := c }

/-- Take a record into the queue, or refuse it. -/
def record (r : Record ε) (d : RunDirectory ε) : Status × RunDirectory ε :=
  match d.accept r with
  | .error e => (⟨.invalidArgument, e.message⟩, d)
  | .ok q => (.ok, { d with pending := d.pending ++ [q], names := r.name :: d.names })

/-! ## Flushing -/

/-- The path of the file of a record. -/
def filePath (d : RunDirectory ε) (q : Queued ε) : Bytes :=
  Path.join d.runDir (RecordName.fileName q.name q.content.ext)

/-- Write the bytes of a record to its file, and its line to the manifest. The file may not be
opened; once it is, both are taken to be written to the end. -/
def store (q : Queued ε) (bytes : Bytes) (d : RunDirectory ε) : Status × RunDirectory ε :=
  let path := d.filePath q
  let above := Path.parent path
  match d.tree.createDirectories above with
  | (t, some e) =>
    (⟨.ioError, "failed creating '" ++ above ++ "': " ++ e.message⟩, { d with tree := t })
  | (t, none) => match t.writeFile path bytes with
    | none => (⟨.ioError, "failed opening '" ++ path ++ "'"⟩, { d with tree := t })
    | some (t, _) =>
      (.ok, writeLine (Manifest.recordLine q.name q.captured q.fingerprint bytes) { d with tree := t })

/-- Write a record. -/
def writeRecord (q : Queued ε) (d : RunDirectory ε) : StateM ε (Status × RunDirectory ε) := do
  match ← q.content.marshal with
  | .error st => pure (st, d)
  | .ok bytes => pure (d.store q bytes)

/-- How far a flush came : the records that were tried, each with the status of its
writing, and the records that were not. -/
structure Flushed (ε : Type) where
  tried : List (Queued ε × Status) := []
  left : List (Queued ε) := []

/-- The message about a record that could not be written. -/
def unwritten (q : Queued ε) (why : Status) : Bytes :=
  "unable to write " ++ q.name ++ ": " ++ why.message

/-- The messages about the records that were tried and could not be written. -/
def Flushed.errors (f : Flushed ε) : List Bytes :=
  (f.tried.filter fun x => !x.2.isOk).map fun x => unwritten x.1 x.2

/-- Write the records in order until the cancellation flag is found raised. -/
def flushQueue (env : Surroundings ε) :
    List (Queued ε) → RunDirectory ε → StateM ε (Flushed ε × RunDirectory ε)
  | [], d => pure ({}, d)
  | q :: qs, d => do
    if ← env.cancelled then
      pure ({ left := q :: qs }, d)
    else
      let (st, d) ← d.writeRecord q
      let (f, d) ← flushQueue env qs d
      pure ({ f with tried := (q, st) :: f.tried }, d)

/-- Write the queue. -/
def flush (env : Surroundings ε) (d : RunDirectory ε) : StateM ε (Status × RunDirectory ε) := do
  if !d.isOpen then return (.ok, d)
  let (f, d) ← flushQueue env d.pending d
  let d := { d.flushManifest with pending := f.left }
  env.note .debug ("Flushed " ++ Bytes.digits f.tried.length ++ " records to " ++ d.runDir ++ " ("
    ++ Bytes.digits f.left.length ++ " pending)")
  if ← env.cancelled then return (.interrupted, d)
  if f.errors.isEmpty then return (.ok, d)
  return (⟨.ioError, Bytes.join ", " f.errors⟩, d)

/-! ## As a recorder -/

/-- Do something with a run directory that is the first half of a state. -/
def onFst {α : Type} (act : RunDirectory ε → StateM ε (α × RunDirectory ε)) :
    StateM (RunDirectory ε × ε) α := fun (d, e) =>
  let ((a, d), e) := act d e
  (a, (d, e))

/-- A run directory as the recorder of a run. -/
def recorder (env : Surroundings ε) : Recorder (RunDirectory ε × ε) ε where
  openRun := fun run => onFst fun d => d.openRun env run
  record := fun r => onFst fun d => pure (d.record r)
  flush := onFst fun d => d.flush env
  close := onFst fun d => do
    let d ← d.close env
    pure ((), d)
  location := onFst fun d => pure (d.runDir, d)

end RunDirectory

end ClusterEvidence
