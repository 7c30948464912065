import ClusterEvidence.Proofs.Agreement
import ClusterEvidence.Run.Directory

/-!
# What a flush does

A flush takes records from the front of the queue : those it tried, followed by those it
left, are the queue it found (`flushQueue_split`). It only adds to the files and to the
manifest (`SameRun`), and whatever each writing of a record carries over, the flush carries
over (`flushQueue_induct`). Its status is the one of its attempt, or that of interrupted
work (`flush_status`).
-/

namespace ClusterEvidence

namespace RunDirectory

variable {ε : Type} {env : Surroundings ε} {d d' d'' : RunDirectory ε}

/-! ## What writing leaves alone -/

/-- The same run with the same queue; files and manifest may differ. -/
structure SameRun (d d' : RunDirectory ε) : Prop where
  runDir : d'.runDir = d.runDir
  manifestPath : d'.manifestPath = d.manifestPath
  isOpen : d'.isOpen = d.isOpen
  pending : d'.pending = d.pending
  names : d'.names = d.names

namespace SameRun

theorem refl (d : RunDirectory ε) : SameRun d d := ⟨rfl, rfl, rfl, rfl, rfl⟩

theorem trans (h : SameRun d d') (h' : SameRun d' d'') : SameRun d d'' where
  runDir := h'.runDir.trans h.runDir
  manifestPath := h'.manifestPath.trans h.manifestPath
  isOpen := h'.isOpen.trans h.isOpen
  pending := h'.pending.trans h.pending
  names := h'.names.trans h.names

/-- Other files. -/
theorem tree (d : RunDirectory ε) (t : FileTree) : SameRun d { d with tree := t } :=
  ⟨rfl, rfl, rfl, rfl, rfl⟩

/-- In one run the file of a record stays where it is. -/
theorem filePath (h : SameRun d d') (q : Queued ε) : d'.filePath q = d.filePath q :=
  congrArg (fun p => Path.join p (RecordName.fileName q.name q.content.ext)) h.runDir

end SameRun

theorem sameRun_writeLine (j : Json) (d : RunDirectory ε) : SameRun d (d.writeLine j) := by
  unfold writeLine
  split
  · exact .refl d
  · next m hm => exact ⟨rfl, rfl, by simp [isOpen, hm], rfl, rfl⟩

theorem sameRun_flushManifest (d : RunDirectory ε) : SameRun d d.flushManifest := by
  unfold flushManifest
  split
  · exact .refl d
  · next m hm => exact ⟨rfl, rfl, by simp [isOpen, hm], rfl, rfl⟩

theorem sameRun_store (q : Queued ε) (bytes : Bytes) (d : RunDirectory ε) :
    SameRun d (d.store q bytes).2 := by
  unfold store
  dsimp only
  split
  · exact .tree d _
  · split
    · exact .tree d _
    · exact (SameRun.tree d _).trans (sameRun_writeLine _ _)

/-- Writing a record : it has bytes, which are stored, or nothing happens. -/
theorem writeRecord_run (q : Queued ε) (d : RunDirectory ε) (e : ε) :
    (d.writeRecord q e).1 =
      match (q.content.marshal e).1 with
      | .error st => (st, d)
      | .ok bytes => d.store q bytes := by
  obtain ⟨⟨r, e'⟩, h⟩ : ∃ x, q.content.marshal e = x := ⟨_, rfl⟩
  simp only [writeRecord, bind, StateT.bind, h]
  cases r with
  | error st => rfl
  | ok bytes => rfl

/-- Writing a record leaves all that belongs to the run. -/
theorem sameRun_writeRecord (q : Queued ε) (d : RunDirectory ε) (e : ε) :
    SameRun d (d.writeRecord q e).1.2 := by
  rw [writeRecord_run]
  split
  · exact .refl d
  · exact sameRun_store q _ d

/-! ## The records one by one -/

/-- The flag is looked at before each record, and the rest of the queue is left if it is raised. -/
theorem flushQueue_cons (q : Queued ε) (qs : List (Queued ε)) (d : RunDirectory ε) (e : ε) :
    flushQueue env (q :: qs) d e =
      let c := env.cancelled e
      if c.1 then (({ left := q :: qs }, d), c.2)
      else
        let w := d.writeRecord q c.2
        let r := flushQueue env qs w.1.2 w.2
        (({ r.1.1 with tried := (q, w.1.1) :: r.1.1.tried }, r.1.2), r.2) := by
  show (if (env.cancelled e).1 then _ else _ : StateM ε _) _ = _
  dsimp only
  split
  · rfl
  · rfl

variable (env) in
/-- What was tried, followed by what was left, is the queue. -/
theorem flushQueue_split (qs : List (Queued ε)) (d : RunDirectory ε) (e : ε) :
    (flushQueue env qs d e).1.1.tried.map Prod.fst ++ (flushQueue env qs d e).1.1.left = qs := by
  induction qs generalizing d e with
  | nil => rfl
  | cons q qs ih =>
    rw [flushQueue_cons]
    dsimp only
    split
    · rfl
    · rw [List.map_cons, List.cons_append, ih]

variable (env) in
/-- What holds of the directory and the records tried so far, and carries over to one more
record, holds after all that were tried. -/
theorem flushQueue_induct {P : RunDirectory ε → List (Queued ε × Status) → Prop}
    (qs : List (Queued ε)) (done : List (Queued ε × Status))
    (step : ∀ q ∈ qs, ∀ d done e, P d done →
      P (d.writeRecord q e).1.2 (done ++ [(q, (d.writeRecord q e).1.1)]))
    {d : RunDirectory ε} (h : P d done) (e : ε) :
    P (flushQueue env qs d e).1.2 (done ++ (flushQueue env qs d e).1.1.tried) := by
  induction qs generalizing d done e with
  | nil =>
    rw [show flushQueue env [] d e = (({}, d), e) from rfl, List.append_nil]
    exact h
  | cons q qs ih =>
    rw [List.forall_mem_cons] at step
    rw [flushQueue_cons]
    dsimp only
    split
    · rw [List.append_nil]
      exact h
    · have hrest := ih _ step.2 (step.1 d done (env.cancelled e).2 h)
        (d.writeRecord q (env.cancelled e).2).2
      rwa [List.append_assoc, List.singleton_append] at hrest

variable (env) in
/-- Writing a queue leaves all that belongs to the run. -/
theorem sameRun_flushQueue (qs : List (Queued ε)) (d : RunDirectory ε) (e : ε) :
    SameRun d (flushQueue env qs d e).1.2 :=
  flushQueue_induct env (P := fun d' _ => SameRun d d') qs []
    (fun q _ d' _ e' h => h.trans (sameRun_writeRecord q d' e')) (.refl d) e

theorem writeRecord_snd (q : Queued ε) (d : RunDirectory ε) (e : ε) :
    (d.writeRecord q e).2 = (q.content.marshal e).2 := by
  obtain ⟨⟨r, e'⟩, h⟩ : ∃ x, q.content.marshal e = x := ⟨_, rfl⟩
  simp only [writeRecord, bind, StateT.bind, h]
  cases r with
  | error st => rfl
  | ok bytes => rfl

/-- While the flag is not raised, no record is left. -/
theorem flushQueue_left {I : ε → Prop}
    (hlowered : Keeps I (fun raised => raised = false) env.cancelled)
    {qs : List (Queued ε)} (hqs : ∀ q ∈ qs, Keeps I (fun _ => True) q.content.marshal)
    (d : RunDirectory ε) {e : ε} (he : I e) : (flushQueue env qs d e).1.1.left = [] := by
  induction qs generalizing d e with
  | nil => rfl
  | cons q qs ih =>
    rw [List.forall_mem_cons] at hqs
    obtain ⟨hlow, he'⟩ := hlowered e he
    have hkept := (hqs.1 _ he').2
    rw [← writeRecord_snd q d] at hkept
    rw [flushQueue_cons]
    simp only [hlow, Bool.false_eq_true, if_false]
    exact ih hqs.2 _ hkept

/-! ## The flush -/

/-- How far a flush comes. A recorder that is not open tries nothing. -/
def attempt (env : Surroundings ε) (d : RunDirectory ε) (e : ε) : Flushed ε :=
  if d.isOpen then (flushQueue env d.pending d e).1.1 else { left := d.pending }

/-- The status of a flush that is not interrupted. -/
def Flushed.status (f : Flushed ε) : Status :=
  if f.errors.isEmpty then .ok else ⟨.ioError, Bytes.join ", " f.errors⟩

/-- Failures of records are no interrupt. -/
theorem Flushed.status_isCancelled (f : Flushed ε) : f.status.isCancelled = false := by
  unfold Flushed.status
  split
  · rfl
  · rfl

variable (env) in
/-- The queue is cut in what was tried and what is left. -/
theorem attempt_split (d : RunDirectory ε) (e : ε) :
    (d.attempt env e).tried.map Prod.fst ++ (d.attempt env e).left = d.pending := by
  unfold attempt
  split
  · exact flushQueue_split env d.pending d e
  · rfl

/-- Flushing does nothing without a run. -/
theorem flush_closed (h : d.isOpen = false) (e : ε) : d.flush env e = ((.ok, d), e) := by
  show (if !d.isOpen then _ else _ : StateM ε _) e = _
  rw [h]
  rfl

/-- A flush of an open run : the records are tried, the manifest goes to its file, what is
left stays in the queue, and the flag is looked at once more. -/
theorem flush_open (h : d.isOpen = true) (e : ε) :
    d.flush env e =
      let r := flushQueue env d.pending d e
      let c := env.cancelled (env.note .debug ("Flushed " ++ Bytes.digits r.1.1.tried.length
        ++ " records to " ++ r.1.2.flushManifest.runDir ++ " (" ++ Bytes.digits r.1.1.left.length
        ++ " pending)") r.2).2
      ((if c.1 then .interrupted else r.1.1.status,
        { r.1.2.flushManifest with pending := r.1.1.left }), c.2) := by
  show (if !d.isOpen then _ else _ : StateM ε _) e = _
  rw [h]
  show (if (env.cancelled _).1 then _ else _ : StateM ε _) _ = _
  dsimp only
  split
  · rfl
  · unfold Flushed.status
    show (if _ then _ else _ : StateM ε _) _ = _
    split
    · rfl
    · rfl

variable (env) in
/-- What a flush tried, and the run directory that it leaves. -/
theorem attempt_open (h : d.isOpen = true) (e : ε) :
    d.attempt env e = (flushQueue env d.pending d e).1.1 ∧
      (d.flush env e).1.2 = { (flushQueue env d.pending d e).1.2.flushManifest with
        pending := (flushQueue env d.pending d e).1.1.left } := by
  rw [attempt, if_pos h, flush_open h]
  exact ⟨rfl, rfl⟩

/-- A flush adds nothing to the queue. -/
theorem mem_pending_of_flush {e : ε} {q : Queued ε} (hq : q ∈ (d.flush env e).1.2.pending) :
    q ∈ d.pending := by
  cases h : d.isOpen with
  | false =>
    rw [flush_closed h] at hq
    exact hq
  | true =>
    rw [(attempt_open env h e).2] at hq
    rw [← flushQueue_split env d.pending d e]
    exact List.mem_append_right _ hq

variable (env) in
/-- Interrupted work, or what the attempt came to. -/
theorem flush_status (d : RunDirectory ε) (e : ε) :
    (d.flush env e).1.1 = .interrupted ∨ (d.flush env e).1.1 = (d.attempt env e).status := by
  cases h : d.isOpen with
  | false =>
    rw [flush_closed h, attempt, h]
    exact .inr rfl
  | true =>
    rw [flush_open h, attempt, h]
    dsimp only
    split
    · exact .inl rfl
    · exact .inr rfl

/-- A flush that succeeds has written every record that it tried. -/
theorem tried_of_flush_ok {e : ε} (h : (d.flush env e).1.1.isOk = true) :
    ∀ x ∈ (d.attempt env e).tried, x.2.isOk = true := by
  intro x hx
  rcases flush_status env d e with hstatus | hstatus
  · rw [hstatus] at h
    exact absurd h Bool.false_ne_true
  · rw [hstatus, Flushed.status] at h
    split at h
    · next hempty =>
      rw [List.isEmpty_iff, Flushed.errors, List.map_eq_nil_iff, List.filter_eq_nil_iff] at hempty
      simpa using hempty x hx
    · exact absurd h Bool.false_ne_true

end RunDirectory

end ClusterEvidence
