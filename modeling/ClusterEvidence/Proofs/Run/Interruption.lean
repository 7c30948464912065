import ClusterEvidence.CommandLine
import ClusterEvidence.Proofs.Batch.Course
import ClusterEvidence.Proofs.Run.Flush
import ClusterEvidence.Proofs.Run.Runner

/-!
# Interrupted runs

A batch can be interrupted while it gathers, and while it is flushed. Either way the run should
end with the bare status of interrupted work, and the program with the exit code for that.

It does when the gathering was interrupted, and when all went well before the flush was
(`Runner.runOnce_interrupted`). But a flush that is interrupted after routines have failed is
taken for one failure more : the run ends as a failed one, and the interrupt is a few words in
its message (`CommandLine.errors_mask_interrupt`).
-/

namespace ClusterEvidence

variable {σ ε : Type}

/-- The recorder tells of an interrupt by the bare status of interrupted work. -/
def Recorder.EndsBare (rec : Recorder σ ε) : Prop :=
  ∀ s, (rec.flush s).1.isCancelled = true → (rec.flush s).1 = .interrupted

/-- A flush that ends as interrupted work found the flag raised at its end. -/
theorem RunDirectory.recorder_endsBare (env : Surroundings ε) :
    (RunDirectory.recorder env).EndsBare := by
  rintro ⟨d, e⟩ h
  change (d.flush env e).1.1.isCancelled = true at h
  show (d.flush env e).1.1 = .interrupted
  rcases flush_status env d e with hstatus | hstatus
  · exact hstatus
  · rw [hstatus, Flushed.status_isCancelled] at h
    exact absurd h Bool.false_ne_true

namespace CommandLine

/-! ## Exit codes -/

/-- The exit code tells an interrupt from a failure. -/
theorem report_fst (st : Status) :
    (report st).1 = if st.isCancelled then 130 else if st.isOk then 0 else 1 := by
  unfold report
  cases st.isCancelled with
  | true => rfl
  | false =>
    cases st.isOk with
    | true => rfl
    | false => rfl

/-- The exit code of a program is that of its batch. -/
theorem runStarted_exit (src : Source State) (r : Runner) (s : State) :
    (runStarted src r s).1.1 = (report (r.runOnce surroundings recorder src s).1.1).1 := by
  obtain ⟨⟨⟨st, r'⟩, s'⟩, hran⟩ : ∃ x, r.runOnce surroundings recorder src s = x := ⟨_, rfl⟩
  obtain ⟨⟨exit, message⟩, hreport⟩ : ∃ x, report st = x := ⟨_, rfl⟩
  simp only [runStarted, bind, StateT.bind, hran, hreport]
  cases message with
  | none => rfl
  | some message => rfl

end CommandLine

/-! ## Runs -/

namespace Runner

variable {env : Surroundings σ} {rec : Recorder σ ε} {r : Runner} {src : Source σ} {s : σ}

/-- A flush that fails makes the status of the batch that of a failure. -/
theorem finish_status (r : Runner) (gathered : Status) (s : σ) :
    (finish env rec r gathered s).1 =
      if (rec.flush s).1.isOk then gathered else flushFailed gathered (rec.flush s).1 := by
  rw [finish_run]
  cases (rec.flush s).1.isOk with
  | true => rfl
  | false => rfl

/-- The status of a run : that of the gathering, unless there was a flush and it failed. -/
theorem runOnce_status (h : r.started = true) (s : σ) :
    let x := r.gatherer.gather env src rec.record r.config.reportNamespace (r.cache, s)
    let f := rec.flush (beforeFlush env x.1 x.2.2)
    (r.runOnce env rec src s).1.1 =
      if x.1.isCancelled then x.1 else if f.1.isOk then x.1 else flushFailed x.1 f.1 := by
  intro x f
  rw [runOnce_started h]
  cases hcancelled : x.1.isCancelled with
  | true => rfl
  | false =>
    rw [if_neg (by simp), if_neg (by simp)]
    exact finish_status _ _ _

/-- How a run ends in which the gathering or the flush was interrupted. With the status of
that, and the exit code 130, if it was the gathering, or if the gathering had no errors; as a
failed run, and with the exit code 1, if it was the flush and routines had failed before. -/
theorem runOnce_interrupted (env : Surroundings σ) (rec : Recorder σ ε) (src : Source σ)
    {r : Runner} (h : r.started = true) (s : σ) :
    let x := r.gatherer.gather env src rec.record r.config.reportNamespace (r.cache, s)
    let f := rec.flush (beforeFlush env x.1 x.2.2)
    let ended := if x.1.isCancelled then x.1 else f.1
    let st := (r.runOnce env rec src s).1.1
    ended.isCancelled = true →
      (rec.EndsBare → ended = .interrupted) ∧
        (x.1.isCancelled = true ∨ x.1.isOk = true →
          st = ended ∧ (CommandLine.report st).1 = 130) ∧
        (x.1.isCancelled = false → x.1.isOk = false →
          st.code = .gatherFailed ∧ (CommandLine.report st).1 = 1) := by
  intro x f ended st hended
  have hst : st = if x.1.isCancelled then x.1 else if f.1.isOk then x.1 else flushFailed x.1 f.1 :=
    runOnce_status h s
  cases hcancelled : x.1.isCancelled with
  | true =>
    have heq : ended = x.1 := if_pos hcancelled
    rw [heq] at hended ⊢
    rw [hcancelled, if_pos rfl] at hst
    refine ⟨fun _ => collect_eq_interrupted hended, fun _ => ⟨hst, ?_⟩, by simp⟩
    rw [CommandLine.report_fst, hst, hended, if_pos rfl]
  | false =>
    have heq : ended = f.1 := if_neg (by simp [hcancelled])
    rw [heq] at hended ⊢
    have hfail : f.1.isOk = false := by
      have hcode : f.1.code = .cancelled := by simpa [Status.isCancelled] using hended
      simp [Status.isOk, hcode]
    rw [hcancelled, if_neg (by simp), hfail, if_neg (by simp), flushFailed] at hst
    refine ⟨fun hbare => hbare _ hended, fun hok => ?_, fun _ hok => ?_⟩
    · rw [if_pos (by simpa using hok)] at hst
      exact ⟨hst, by rw [CommandLine.report_fst, hst, hended, if_pos rfl]⟩
    · rw [hok, if_neg (by simp)] at hst
      rw [CommandLine.report_fst, hst]
      exact ⟨rfl, rfl⟩

end Runner

namespace CommandLine

/-- The interrupt arrives as the flush ends, and nothing went wrong before. -/
theorem interrupted_by_flush :
    let s : Session := { interrupts := fun text => (Bytes.ofString "Flushed").isPrefixOf text }
    let started := Runner.start surroundings recorder
      { config := { output := { outDir := "out" } }, configPath := "cfg.yaml" } ({}, s)
    let r := started.1.2
    let x := r.gatherer.gather surroundings emptyCluster recorder.record r.config.reportNamespace
      (r.cache, started.2)
    let f := recorder.flush (Runner.beforeFlush surroundings x.1 x.2.2)
    let st := (r.runOnce surroundings recorder emptyCluster started.2).1.1
    r.started = true ∧ x.1 = .ok ∧ f.1.isCancelled = true ∧
      f.1 = .interrupted ∧ st = .interrupted ∧ (report st).1 = 130 := by
  intro s started r x f st
  have hstarted : r.started = true := by decide +kernel
  have hx : x.1 = .ok := by decide +kernel
  have hf : f.1.isCancelled = true := by decide +kernel
  have hended : (if x.1.isCancelled then x.1 else f.1) = f.1 := by
    rw [hx]
    rfl
  have hcancelled : (if x.1.isCancelled then x.1 else f.1).isCancelled = true := by
    rw [hended]
    exact hf
  obtain ⟨hbare, hkept, -⟩ :=
    Runner.runOnce_interrupted surroundings recorder emptyCluster hstarted started.2 hcancelled
  have hinterrupted : f.1 = .interrupted :=
    hended.symm.trans (hbare (RunDirectory.recorder_endsBare Session.surroundings))
  obtain ⟨hst, hexit⟩ := hkept (.inr (by rw [hx]; rfl))
  exact ⟨hstarted, hx, hf, hinterrupted, hst.trans (hended.trans hinterrupted), hexit⟩

/-- A cluster whose nodes cannot be listed. -/
def hiddenNodes : Source State :=
  { emptyCluster with nodes := pure (.error ⟨.internal, "boom"⟩) }

/-- The interrupt arrives as the flush starts, and the program exits as if there had been none :
the nodes could not be listed before. -/
theorem errors_mask_interrupt :
    let s : Session :=
      { interrupts := fun text => (Bytes.ofString "Gather completed with errors").isPrefixOf text }
    let started := Runner.start surroundings recorder
      { config := { output := { outDir := "out" } }, configPath := "cfg.yaml" } ({}, s)
    let r := started.1.2
    let x := r.gatherer.gather surroundings hiddenNodes recorder.record r.config.reportNamespace
      (r.cache, started.2)
    let f := recorder.flush (Runner.beforeFlush surroundings x.1 x.2.2)
    let ran := r.runOnce surroundings recorder hiddenNodes started.2
    r.started = true ∧ f.1 = .interrupted ∧ ran.1.1 ≠ .interrupted ∧
      (runStarted hiddenNodes r started.2).1.1 = 1 := by
  intro s started r x f ran
  have hcode : ran.1.1.code = .gatherFailed := by decide +kernel
  refine ⟨by decide +kernel, by decide +kernel, fun heq => ?_, ?_⟩
  · rw [heq] at hcode
    cases hcode
  · rw [runStarted_exit, report_fst]
    simp [ran, Status.isCancelled, Status.isOk, hcode]

end CommandLine

end ClusterEvidence
