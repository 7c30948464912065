import ClusterEvidence.Run.Runner

/-!
# Starts and batches that succeed

A run whose start succeeds has opened its recorder and is started (`Runner.start_ok`). A
batch that succeeds was gathered and flushed (`Runner.runOnce_ok`) : neither a failed flush
nor failed routines are passed over. Otherwise only clocks and messages come between.
-/

namespace ClusterEvidence

/-- A cluster with nothing in it. -/
def emptyCluster {σ : Type} : Source σ where
  operators := pure (.ok [])
  nodes := pure (.ok [])
  pods := fun _ => pure (.ok [])
  get := fun _ name => pure (.error ⟨.notFound, name⟩)

namespace Runner

variable {σ ε : Type} {env : Surroundings σ} {rec : Recorder σ ε} {r : Runner} {src : Source σ}
  {s : σ}

/-- The recorder is opened, and what follows is a matter of whether it could be. -/
theorem start_run (r : Runner) (s : σ) :
    let a := env.stopwatch s
    let b := env.wallClock a.2
    let o := rec.openRun ⟨r.config.output.outDir, r.configPath, r.configHash, b.1⟩ b.2
    r.start env rec s = (if o.1.isOk then (do
      let place ← rec.location
      env.note .info ("Starting gather run into " ++ place ++ " (config " ++ r.configPath
        ++ " hash " ++ r.configHash ++ ")")
      pure (.ok, { r with startedAt := a.1, started := true }) : StateM σ (Status × Runner))
    else pure (o.1, { r with startedAt := a.1 })) o.2 :=
  rfl

/-- What a start that succeeded has done. -/
theorem start_ok (h : (r.start env rec s).1.1.isOk = true) :
    let a := env.stopwatch s
    let b := env.wallClock a.2
    let o := rec.openRun ⟨r.config.output.outDir, r.configPath, r.configHash, b.1⟩ b.2
    o.1.isOk = true ∧ (r.start env rec s).1.2 = { r with startedAt := a.1, started := true } ∧
      ∃ text, (r.start env rec s).2 = (env.note .info text (rec.location o.2).2).2 := by
  intro a b o
  rw [start_run] at h ⊢
  cases ho : o.1.isOk with
  | true =>
    rw [if_pos rfl]
    exact ⟨rfl, rfl, _, rfl⟩
  | false =>
    rw [if_neg (ne_true_of_eq_false ho)] at h
    exact absurd (ho.symm.trans h) Bool.false_ne_true

/-- A start that fails leaves the run started or not, as it was. -/
theorem started_start (r : Runner) (s : σ) :
    (r.start env rec s).1.2.started = ((r.start env rec s).1.1.isOk || r.started) := by
  rw [start_run]
  split
  · rfl
  · next ho =>
    rw [Bool.not_eq_true] at ho
    exact (congrArg (· || r.started) ho).symm

/-- The records are flushed, and what follows is a matter of whether they could be. -/
theorem finish_run (r : Runner) (gathered : Status) (s : σ) :
    let f := rec.flush s
    finish env rec r gathered s = (if f.1.isOk then (do
      env.note .info ("Gather run finished in " ++
        Bytes.decimal (((env.stopwatch f.2).1 - r.startedAt) / 1000000).toInt ++ "ms")
      pure gathered : StateM σ Status)
    else do
      env.note .error ("Unable to flush records: " ++ f.1.message)
      pure (flushFailed gathered f.1)) (env.stopwatch f.2).2 :=
  rfl

/-- A batch and its flush that succeed together succeed each. -/
theorem finish_ok (r : Runner) (gathered : Status)
    (h : (finish env rec r gathered s).1.isOk = true) :
    let f := rec.flush s
    gathered.isOk = true ∧ f.1.isOk = true ∧ ∃ text, (finish env rec r gathered s).2 =
      (env.note .info text (env.stopwatch f.2).2).2 := by
  intro f
  rw [finish_run] at h ⊢
  cases hf : f.1.isOk with
  | true =>
    rw [hf, if_pos rfl] at h
    rw [if_pos rfl]
    exact ⟨h, rfl, _, rfl⟩
  | false =>
    rw [hf, if_neg (by simp)] at h
    change (flushFailed gathered f.1).isOk = true at h
    unfold flushFailed at h
    split at h
    · exact absurd (hf.symm.trans h) Bool.false_ne_true
    · exact absurd h Bool.false_ne_true

variable (env) in
/-- The state in which the flush starts. Errors of the routines are logged before. -/
def beforeFlush (gathered : Status) (s : σ) : σ :=
  if gathered.isOk then s
  else (env.note .warning ("Gather completed with errors: " ++ gathered.message) s).2

/-- A run that was started gathers, and unless that was interrupted goes on to flush. -/
theorem runOnce_started (h : r.started = true) (s : σ) :
    let x := r.gatherer.gather env src rec.record r.config.reportNamespace (r.cache, s)
    let r' := { r with cache := x.2.1 }
    let y := finish env rec r' x.1 (beforeFlush env x.1 x.2.2)
    r.runOnce env rec src s =
      if x.1.isCancelled then
        ((x.1, r'), (env.note .warning "Gather run cancelled; report not recorded" x.2.2).2)
      else ((y.1, r'), y.2) := by
  intro x r' y
  have hrun : r.runOnce env rec src s =
      (if x.1.isCancelled then (do
        env.note .warning "Gather run cancelled; report not recorded"
        return (x.1, r') : StateM σ (Status × Runner))
      else do
        if !x.1.isOk then
          env.note .warning ("Gather completed with errors: " ++ x.1.message)
        let st ← finish env rec r' x.1
        return (st, r')) x.2.2 := by
    simp only [runOnce, r']
    rw [h]
    rfl
  rw [hrun]
  simp only [y, beforeFlush]
  cases x.1.isCancelled with
  | true => rfl
  | false =>
    cases x.1.isOk with
    | true => rfl
    | false => rfl

/-- A run that was not started does not gather. -/
theorem runOnce_unstarted (h : r.started = false) (s : σ) :
    r.runOnce env rec src s = ((notStarted, r), s) := by
  unfold runOnce
  rw [h]
  rfl

/-- Gathering leaves the run started or not, as it was. -/
theorem started_runOnce (r : Runner) (s : σ) :
    (r.runOnce env rec src s).1.2.started = r.started := by
  cases h : r.started with
  | false => rw [runOnce_unstarted h, h]
  | true =>
    rw [runOnce_started h]
    split
    · exact h
    · exact h

/-- What a batch that succeeded has done : it was started, its routines and its flush have
succeeded, and nothing follows but a message. -/
theorem runOnce_ok (h : (r.runOnce env rec src s).1.1.isOk = true) :
    let x := r.gatherer.gather env src rec.record r.config.reportNamespace (r.cache, s)
    x.1.isOk = true ∧ (rec.flush x.2.2).1.isOk = true ∧
      ∃ text, (r.runOnce env rec src s).2 =
        (env.note .info text (env.stopwatch (rec.flush x.2.2).2).2).2 := by
  intro x
  cases hstarted : r.started with
  | false =>
    rw [runOnce_unstarted hstarted] at h
    exact absurd h Bool.false_ne_true
  | true =>
    rw [runOnce_started hstarted] at h ⊢
    cases hcancelled : x.1.isCancelled with
    | true =>
      rw [hcancelled, if_pos rfl] at h
      have hcode : x.1.code = .cancelled := by simpa [Status.isCancelled] using hcancelled
      change x.1.isOk = true at h
      rw [Status.isOk, hcode] at h
      exact absurd h (by decide)
    | false =>
      rw [hcancelled, if_neg (by simp)] at h
      rw [if_neg (by simp)]
      obtain ⟨hok, hend⟩ := finish_ok { r with cache := x.2.1 } x.1 h
      rw [beforeFlush, if_pos hok] at hend ⊢
      exact ⟨hok, hend⟩

end Runner

end ClusterEvidence
