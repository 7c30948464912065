import ClusterEvidence.Proofs.Batch.Handovers
import ClusterEvidence.Proofs.Bytes

/-!
# The course of a batch

The routines of a batch have their `turns` one after the other : each runs in the state that
the one before left, its records are handed over, and the flag is looked at. Which of them
have their turn is a matter of the looks alone, and what comes behind them too
(`collect_course`). Up to the first turn that is followed by a raised flag, the batch is these
turns and nothing else, and its status is the bare one of interrupted work. If there is none,
all routines have their turns, the report is handed over with an entry for each of them, and
the status is OK if no routine had an error and no record was refused. What such a batch comes to
in full is `collect_of_lowered`.
-/

namespace ClusterEvidence

variable {σ ε : Type} {env : Surroundings σ} {record : Record ε → StateM σ Status}

/-! ## Verdicts -/

/-- A batch is fine just if there are no messages. -/
theorem verdict_eq_ok_iff {errors : List Bytes} : verdict errors = .ok ↔ errors = [] := by
  constructor
  · intro h
    exact verdict_isOk (by rw [h]; rfl)
  · rintro rfl
    rfl

theorem verdict_code {errors : List Bytes} (h : verdict errors ≠ .ok) :
    (verdict errors).code = .gatherFailed := by
  have hsome : errors.isEmpty = false := by
    simpa [verdict_eq_ok_iff] using h
  simp [verdict, hsome]

/-- A routine adds no message if it had no error and all its records were taken. -/
theorem Ran.messages_eq_nil_iff (x : Ran ε) :
    x.messages = [] ↔ x.outcome.errors = [] ∧ ∀ h ∈ x.handed, h.2.isOk = true := by
  simp [Ran.messages, refusals_eq_nil_iff]

/-- The entry gives the number of records as it is, if a signed number of 32 bits can. -/
theorem Ran.Reports.records_toInt {x : Ran ε} {e : ReportEntry} (h : x.Reports e)
    (hfits : x.outcome.records.length < 2147483648) : e.records.toInt = x.outcome.records.length := by
  rw [h.2.1, Int32.toInt_ofNat_of_lt hfits]

/-- Where there are messages, the distinct ones are told in order. -/
theorem verdict_of_mem {errors : List Bytes} {error : Bytes} (h : error ∈ errors) :
    ∃ messages, verdict errors = ⟨.gatherFailed, Bytes.join ", " messages⟩ ∧
      messages.Pairwise (· < ·) ∧ ∀ m, m ∈ messages ↔ m ∈ errors := by
  have hsome : errors.isEmpty = false := List.isEmpty_eq_false_iff.2 (List.ne_nil_of_mem h)
  refine ⟨Bytes.dropRepeats (Bytes.sorted errors), ?_, Bytes.dropRepeats_sorted errors⟩
  simp [verdict, hsome]

theorem verdict_isCancelled (errors : List Bytes) : (verdict errors).isCancelled = false := by
  cases errors with
  | nil => rfl
  | cons error errors => rfl

/-- A batch that ends as interrupted work does so with the bare status. -/
theorem collect_eq_interrupted {ns : Bytes} {xs : List (Routine σ ε)} {s : σ}
    (h : (collect env record ns xs s).1.isCancelled = true) :
    (collect env record ns xs s).1 = .interrupted := by
  have hended := ended_batchTrace env record ns xs s
  generalize batchTrace env record ns xs s = log at hended
  generalize (collect env record ns xs s).1 = st at h hended
  cases hended with
  | interrupted => rfl
  | reported => simp [verdict_isCancelled] at h

/-! ## Turns -/

variable (env record) in
theorem turns_name (xs : List (Routine σ ε)) (s : σ) :
    (turns env record xs s).map Ran.name = xs.map Routine.name := by
  induction xs generalizing s with
  | nil => rfl
  | cons x xs ih => simp [turns, Routine.turn, ih]

/-- The state in which a routine of this name runs when its turn starts in `s`. -/
def Surroundings.ready (env : Surroundings σ) (name : Bytes) (s : σ) : σ :=
  (env.stopwatch (env.note .trace ("Gathering " ++ name) s).2).2

variable (env record) in
/-- The state that the turns of the routines leave. -/
def turnsEnd : List (Routine σ ε) → σ → σ
  | [], s => s
  | x :: xs, s => turnsEnd xs (x.turn env record s).2

variable (env record) in
theorem turnsEnd_append (xs ys : List (Routine σ ε)) (s : σ) :
    turnsEnd env record (xs ++ ys) s = turnsEnd env record ys (turnsEnd env record xs s) := by
  induction xs generalizing s with
  | nil => rfl
  | cons x xs ih => exact ih _

/-- Where no turn was interrupted, the routines leave the state after all turns. -/
theorem runRoutines_end {xs : List (Routine σ ε)} {s : σ}
    (h : ∀ x ∈ turns env record xs s, x.raised = false) :
    (runRoutines env record xs s).2 = turnsEnd env record xs s := by
  induction xs generalizing s with
  | nil => rfl
  | cons x xs ih =>
    rw [turns, List.forall_mem_cons] at h
    obtain ⟨hlow, hrest⟩ := h
    rw [turnsEnd, ← ih hrest]
    simp only [Routine.turn] at hlow
    simp only [runRoutines_cons, forward_eq, hlow, Bool.false_eq_true, if_false]
    rfl

/-- The records of the turns are handed over in order, each once. -/
theorem handovers_turns (done : List (Ran ε)) :
    (BatchEvent.handovers (done.flatMap Ran.events)).map Prod.fst =
      done.flatMap fun x => x.outcome.records := by
  simp only [handovers_flatMap_events, List.map_flatMap, Ran.handed_fst]

/-- Where a flag was found raised, the routines do not get through. -/
theorem Went.of_raised {names : List Bytes} {r : Fetched Progress} {done : List (Ran ε)}
    (h : Went names r done) (hraised : ∃ x ∈ done, x.raised = true) : r = .error .interrupted := by
  cases h with
  | interrupted => rfl
  | through _ _ _ lowered =>
    obtain ⟨x, hx, hraised⟩ := hraised
    simp [lowered x hx] at hraised

/-- The turns up to the first that is followed by a raised flag have it among them. -/
theorem exists_raised_of_findIdx? {l : List (Ran ε)} {k : Nat}
    (hk : l.findIdx? Ran.raised = some k) : ∃ x ∈ l.take (k + 1), x.raised = true := by
  obtain ⟨hlt, hraised, -⟩ := List.findIdx?_eq_some_iff_getElem.1 hk
  exact ⟨l[k], List.mem_take_iff_getElem.2 ⟨k, by omega, rfl⟩, hraised⟩

/-- Where no flag was found raised, all routines have run, and the progress is theirs. -/
theorem Went.of_lowered {names : List Bytes} {r : Fetched Progress} {done : List (Ran ε)}
    (h : Went names r done) (hlowered : ∀ x ∈ done, x.raised = false) :
    ∃ p : Progress, r = .ok p ∧ p.errors = done.flatMap Ran.messages ∧
      List.Forall₂ Ran.Reports done p.entries := by
  cases h with
  | interrupted done last _ _ raised =>
    have := hlowered last (by simp)
    simp [raised] at this
  | through _ p _ _ errors reports => exact ⟨p, rfl, errors, reports⟩

/-- A batch that never finds the flag raised is the turns of its routines and the report, and its
status is the verdict on all messages. -/
theorem collect_of_lowered (ns : Bytes) {xs : List (Routine σ ε)} {s : σ}
    (h : ∀ x ∈ turns env record xs s, x.raised = false) :
    let all := turns env record xs s
    let t := env.wallClock (turnsEnd env record xs s)
    ∃ entries, List.Forall₂ Ran.Reports all entries ∧
      let report : Record ε := ⟨ns ++ "/gathers", t.1, [], some (.report entries)⟩
      let a := record report t.2
      batchTrace env record ns xs s = all.flatMap Ran.events ++ [.handed report a.1] ∧
        collect env record ns xs s =
          (verdict (all.flatMap Ran.messages ++ if a.1.isOk then []
            else ["unable to record io status reports: " ++ a.1.message]), a.2) := by
  intro all t
  obtain ⟨hwent, htraced⟩ := runRoutines_traced env record xs [] s
  have hdone : upToRaised (turns env record xs s) = all := by
    simp only [upToRaised, List.findIdx?_eq_none_iff.2 h, all]
  have hend := runRoutines_end h
  rw [hdone] at hwent htraced
  obtain ⟨p, hp, herrors, hreports⟩ := hwent.of_lowered h
  have hrun : runRoutines env record xs s = (.ok p, turnsEnd env record xs s) := Prod.ext hp hend
  rw [hrun] at htraced
  refine ⟨p.entries, hreports, ?_, ?_⟩
  · rw [batchTrace, collectTraced, collect_of_ok htraced]
    simp only [wallClock_traced, recordTraced_run, List.nil_append, t]
  · rw [collect_of_ok hrun, herrors]

/-- A batch that does not end as interrupted work never finds the flag raised. -/
theorem lowered_of_not_interrupted {ns : Bytes} {xs : List (Routine σ ε)} {s : σ}
    (h : (collect env record ns xs s).1.isCancelled = false) :
    ∀ x ∈ turns env record xs s, x.raised = false := by
  cases hk : (turns env record xs s).findIdx? Ran.raised with
  | none => exact List.findIdx?_eq_none_iff.1 hk
  | some k =>
    obtain ⟨hwent, -⟩ := runRoutines_traced env record xs [] s
    obtain ⟨⟨r, s₁⟩, hr⟩ : ∃ r, runRoutines env record xs s = r := ⟨_, rfl⟩
    have hdone : upToRaised (turns env record xs s) = (turns env record xs s).take (k + 1) := by
      simp only [upToRaised, hk]
    rw [hdone, hr] at hwent
    obtain rfl : r = .error .interrupted := hwent.of_raised (exists_raised_of_findIdx? hk)
    rw [collect_of_error hr] at h
    cases h

/-- A batch that never finds the flag raised does not end as interrupted work. -/
theorem not_interrupted_of_lowered {ns : Bytes} {xs : List (Routine σ ε)} {s : σ}
    (h : ∀ x ∈ turns env record xs s, x.raised = false) :
    (collect env record ns xs s).1.isCancelled = false := by
  obtain ⟨entries, -, -, hrun⟩ := collect_of_lowered ns h
  rw [hrun, verdict_isCancelled]

variable (env record) in
/-- What a batch does and how it ends, for any routines, any recorder and any looks at the
flag. -/
theorem collect_course (ns : Bytes) (xs : List (Routine σ ε)) (s : σ) :
    let all := turns env record xs s
    let log := batchTrace env record ns xs s
    let st := (collect env record ns xs s).1
    all.map Ran.name = xs.map Routine.name ∧
      match all.findIdx? Ran.raised with
      | some k =>
        log = (all.take (k + 1)).flatMap Ran.events ∧
          (BatchEvent.handovers log).map Prod.fst =
            ((all.take (k + 1)).flatMap fun x => x.outcome.records) ∧
          st = .interrupted
      | none =>
        ∃ (report : Record ε) (entries : List ReportEntry) (answer : Status),
          log = all.flatMap Ran.events ++ [.handed report answer] ∧
          (BatchEvent.handovers log).map Prod.fst =
            (all.flatMap fun x => x.outcome.records) ++ [report] ∧
          report.name = ns ++ "/gathers" ∧ report.item = some (.report entries) ∧
          List.Forall₂ (fun x e => x.Reports e ∧ (x.outcome.records.length < 2147483648 →
            e.records.toInt = x.outcome.records.length)) all entries ∧
          (st = .ok ↔ (∀ x ∈ all, x.outcome.errors = [] ∧ ∀ h ∈ x.handed, h.2.isOk = true) ∧
            answer.isOk = true) ∧
          (st ≠ .ok → st.code = .gatherFailed) := by
  intro all log st
  refine ⟨turns_name env record xs s, ?_⟩
  cases hk : all.findIdx? Ran.raised with
  | some k =>
    obtain ⟨hwent, htraced⟩ := runRoutines_traced env record xs [] s
    change Went _ _ (upToRaised all) at hwent
    change _ = (_, ([] ++ (upToRaised all).flatMap Ran.events, _)) at htraced
    obtain ⟨⟨r, s₁⟩, hr⟩ : ∃ r, runRoutines env record xs s = r := ⟨_, rfl⟩
    rw [hr] at hwent htraced
    have hdone : upToRaised all = all.take (k + 1) := by simp only [upToRaised, hk]
    rw [hdone] at hwent htraced
    obtain rfl : r = .error .interrupted := hwent.of_raised (exists_raised_of_findIdx? hk)
    have hlog : log = (all.take (k + 1)).flatMap Ran.events := by
      show (collectTraced env record ns xs ([], s)).2.1 = _
      rw [collectTraced, collect_of_error htraced]
      rfl
    refine ⟨hlog, by rw [hlog, handovers_turns], ?_⟩
    show (collect env record ns xs s).1 = _
    rw [collect_of_error hr]
  | none =>
    obtain ⟨entries, hreports, hlog, hrun⟩ :=
      collect_of_lowered ns (List.findIdx?_eq_none_iff.1 hk)
    refine ⟨_, entries, _, hlog, ?_, rfl, rfl, ?_, ?_, fun hne => ?_⟩
    · rw [show log = _ from hlog, BatchEvent.handovers_append, List.map_append, handovers_turns]
      rfl
    · exact hreports.imp fun x e h => ⟨h, h.records_toInt⟩
    · show (collect env record ns xs s).1 = _ ↔ _
      rw [hrun, verdict_eq_ok_iff, List.append_eq_nil_iff, List.flatMap_eq_nil_iff]
      simp only [Ran.messages_eq_nil_iff]
      simp [all]
    · change (collect env record ns xs s).1 ≠ _ at hne
      show (collect env record ns xs s).1.code = _
      rw [hrun] at hne ⊢
      exact verdict_code hne

end ClusterEvidence
