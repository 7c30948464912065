import ClusterEvidence.Batch.Record

/-!
# Batches

A batch runs its routines in order and hands their records to a recorder. Neither an
error of a routine nor a refused record stops it; the cancellation flag is looked at
after each routine, and a batch that finds it raised ends with the bare status of
interrupted work and leaves no report. Otherwise `collect` records the report of all
routines under `<namespace>/gathers`, and the batch has failed if there was any error :
its status joins the distinct messages in order (`verdict`).
-/

namespace ClusterEvidence

variable {σ ε : Type}

/-- What a routine produced. Records and errors may come together. -/
structure Outcome (ε : Type) where
  records : List (Record ε) := []
  errors : List Status := []

/-- One unit of collection that fails by itself. -/
structure Routine (σ ε : Type) where
  name : Bytes
  run : StateM σ (Outcome ε)

/-- The status of a batch with these error messages. -/
def verdict (errors : List Bytes) : Status :=
  if errors.isEmpty then .ok
  else ⟨.gatherFailed, Bytes.join ", " (Bytes.dropRepeats (Bytes.sorted errors))⟩

/-- Hand the records to the recorder in order; the messages about refused ones. -/
def forward (record : Record ε → StateM σ Status) : List (Record ε) → StateM σ (List Bytes)
  | [] => pure []
  | r :: rs => do
    let st ← record r
    let refused ← forward record rs
    pure (if st.isOk then refused else ("unable to record " ++ r.name ++ ": " ++ st.message) :: refused)

/-- The entries of the report so far and the messages of all errors. -/
structure Progress where
  entries : List ReportEntry := []
  errors : List Bytes := []

/-- Run a routine : its outcome and its entry in the report. -/
def runRoutine (env : Surroundings σ) (r : Routine σ ε) : StateM σ (Outcome ε × ReportEntry) := do
  env.note .trace ("Gathering " ++ r.name)
  let before ← env.stopwatch
  let out ← r.run
  let after ← env.stopwatch
  let elapsed := truncateToMs (after - before)
  env.note .debug ("Gather " ++ r.name ++ " took " ++ Bytes.decimal (elapsed / 1000000).toInt
    ++ "ms to process " ++ Bytes.digits out.records.length ++ " records")
  pure (out,
    { name := r.name
      elapsed := elapsed
      records := Int32.ofNat out.records.length
      errors := out.errors.map Status.message })

/-- Run the routines in order until the cancellation flag is found raised. -/
def runRoutines (env : Surroundings σ) (record : Record ε → StateM σ Status) :
    List (Routine σ ε) → StateM σ (Fetched Progress)
  | [] => pure (.ok {})
  | r :: rs => do
    let (out, entry) ← runRoutine env r
    let refused ← forward record out.records
    if ← env.cancelled then
      pure (.error .interrupted)
    else
      let rest ← runRoutines env record rs
      pure (rest.map fun p =>
        { entries := entry :: p.entries
          errors := entry.errors ++ refused ++ p.errors })

/-- Run a batch. -/
def collect (env : Surroundings σ) (record : Record ε → StateM σ Status) (reportNamespace : Bytes)
    (routines : List (Routine σ ε)) : StateM σ Status := do
  match ← runRoutines env record routines with
  | .error st => pure st
  | .ok p =>
    let report ← Record.now env (reportNamespace ++ "/gathers") (.report p.entries)
    let st ← record report
    pure (verdict (p.errors
      ++ if st.isOk then [] else ["unable to record io status reports: " ++ st.message]))

end ClusterEvidence
