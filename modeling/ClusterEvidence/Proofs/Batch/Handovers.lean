import ClusterEvidence.Proofs.Agreement
import ClusterEvidence.Proofs.Batch.Trace

/-!
# The handovers of a batch

A batch changes its state through its routines, its surroundings and its recorder only.
What holds of the handovers so far and of the state, is kept by routines and surroundings,
and carries over to one more record, holds at the end of the batch
(`collect_handovers`).

If a batch succeeds, its routines have run, its records and its report have been handed
over, and each of them has been taken (`batchTrace_of_ok`).
-/

namespace ClusterEvidence

variable {σ ε : Type} {env : Surroundings σ} {record : Record ε → StateM σ Status}
  {I : σ → Prop} {P : Record ε → Prop}

/-! ## What a batch keeps -/

theorem Record.now_keeps (henv : env.Steady I) (name : Bytes) {c : Content ε}
    (h : ∀ t, P { name := name, captured := t, item := some c }) :
    Keeps I P (Record.now env name c) :=
  henv.wallClock.bind fun t _ => .pure (h t)

/-- A routine keeps what its own steps keep, clocks and messages apart. -/
theorem runRoutine_keeps (henv : env.Steady I) {x : Routine σ ε}
    (hx : Keeps I (fun out => ∀ r ∈ out.records, P r) x.run) :
    Keeps I (fun out => ∀ r ∈ out.1.records, P r) (runRoutine env x) := by
  refine (henv.note _ _).bind fun _ _ => henv.stopwatch.bind fun _ _ => ?_
  refine hx.bind fun out hout => henv.stopwatch.bind fun _ _ => ?_
  exact (henv.note _ _).bind fun _ _ => .pure hout

theorem forward_keeps (hrec : ∀ r, P r → Keeps I (fun _ => True) (record r))
    {rs : List (Record ε)} (hrs : ∀ r ∈ rs, P r) :
    Keeps I (fun _ => True) (forward record rs) := by
  induction rs with
  | nil => exact .pure trivial
  | cons r rs ih =>
    rw [List.forall_mem_cons] at hrs
    exact (hrec r hrs.1).bind fun _ _ => (ih hrs.2).bind fun _ _ => .pure trivial

theorem runRoutines_keeps (henv : env.Steady I)
    (hrec : ∀ r, P r → Keeps I (fun _ => True) (record r)) {xs : List (Routine σ ε)}
    (hxs : ∀ x ∈ xs, Keeps I (fun out => ∀ r ∈ out.records, P r) x.run) :
    Keeps I (fun _ => True) (runRoutines env record xs) := by
  induction xs with
  | nil => exact .pure trivial
  | cons x xs ih =>
    rw [List.forall_mem_cons] at hxs
    refine (runRoutine_keeps henv hxs.1).bind fun ⟨out, e⟩ hout => ?_
    refine (forward_keeps hrec hout).bind fun _ _ => henv.cancelled.bind fun raised _ => ?_
    cases raised with
    | true => exact .pure trivial
    | false => exact (ih hxs.2).bind fun _ _ => .pure trivial

/-- A batch keeps what its routines and the recorder keep, for the report as well. -/
theorem collect_keeps (henv : env.Steady I)
    (hrec : ∀ r, P r → Keeps I (fun _ => True) (record r)) {ns : Bytes}
    (hreport : ∀ t entries, P ⟨ns ++ "/gathers", t, [], some (.report entries)⟩)
    {xs : List (Routine σ ε)}
    (hxs : ∀ x ∈ xs, Keeps I (fun out => ∀ r ∈ out.records, P r) x.run) :
    Keeps I (fun _ => True) (collect env record ns xs) := by
  refine (runRoutines_keeps henv hrec hxs).bind fun r _ => ?_
  cases r with
  | error st => exact .pure trivial
  | ok p =>
    refine (Record.now_keeps henv _ (fun t => hreport t p.entries)).bind fun r hr => ?_
    exact (hrec r hr).bind fun _ _ => .pure trivial

/-- What holds of the handovers so far and of the state, and carries over from one record
to the next, holds after the batch. -/
theorem collect_handovers {J : List (Record ε × Status) → σ → Prop} (henv : ∀ h, env.Steady (J h))
    (hrec : ∀ r h s, P r → J h s → J (h ++ [(r, (record r s).1)]) (record r s).2) {ns : Bytes}
    (hreport : ∀ t entries, P ⟨ns ++ "/gathers", t, [], some (.report entries)⟩)
    {xs : List (Routine σ ε)}
    (hxs : ∀ x ∈ xs, ∀ h, Keeps (J h) (fun out => ∀ r ∈ out.records, P r) x.run) {s : σ}
    (hs : J [] s) :
    J (BatchEvent.handovers (batchTrace env record ns xs s)) (collect env record ns xs s).2 := by
  have henv' : (env.traced ε).Steady fun x => J (BatchEvent.handovers x.1) x.2 :=
    { Surroundings.Steady.beside (J := fun x => J (BatchEvent.handovers x.1) x.2)
        fun log => henv (BatchEvent.handovers log) with
      cancelled := fun ⟨log, s⟩ hs => by
        obtain ⟨-, hs'⟩ := (henv (BatchEvent.handovers log)).cancelled s hs
        refine ⟨trivial, ?_⟩
        show J (BatchEvent.handovers (log ++ [.looked _])) _
        rwa [BatchEvent.handovers_append, show BatchEvent.handovers [.looked _] = [] from rfl,
          List.append_nil] }
  have hrec' : ∀ r, P r → Keeps (fun x => J (BatchEvent.handovers x.1) x.2) (fun _ => True)
      (recordTraced record r) := by
    rintro r hr ⟨log, s⟩ hs
    refine ⟨trivial, ?_⟩
    show J (BatchEvent.handovers (log ++ [.handed r _])) _
    rw [BatchEvent.handovers_append]
    exact hrec r _ s hr hs
  have hxs' : ∀ x ∈ xs.map Routine.traced, Keeps (fun x => J (BatchEvent.handovers x.1) x.2)
      (fun out => ∀ r ∈ out.records, P r) x.run := by
    rw [List.forall_mem_map]
    rintro x hx ⟨log, s⟩ hs
    obtain ⟨hout, hs'⟩ := hxs x hx (BatchEvent.handovers log) s hs
    refine ⟨hout, ?_⟩
    show J (BatchEvent.handovers (log ++ [.ran x.name _])) _
    rwa [BatchEvent.handovers_append, show BatchEvent.handovers [.ran x.name _] = [] from rfl,
      List.append_nil]
  have hend := (collect_keeps henv' hrec' hreport hxs' ([], s) hs).2
  have heq := collectTraced_eq env record ns xs s
  rw [collectTraced] at heq
  rwa [heq] at hend

/-! ## Batches that succeed -/

/-- There is no message about refused records if all were taken. -/
theorem refusals_eq_nil_iff {h : List (Record ε × Status)} :
    refusals h = [] ↔ ∀ x ∈ h, x.2.isOk = true := by
  rw [refusals, List.map_eq_nil_iff, List.filter_eq_nil_iff]
  simp

theorem verdict_isOk {errors : List Bytes} (h : (verdict errors).isOk = true) : errors = [] := by
  unfold verdict at h
  split at h
  · next hempty => exact List.isEmpty_iff.1 hempty
  · exact absurd h Bool.false_ne_true

/-- The events of a turn hold what was handed over in it. -/
theorem handovers_events (x : Ran ε) : BatchEvent.handovers x.events = x.handed := by
  rw [Ran.events, BatchEvent.handovers_append,
    ← List.singleton_append, BatchEvent.handovers_append, BatchEvent.handovers_map_handed]
  exact List.append_nil _

theorem handovers_flatMap_events (done : List (Ran ε)) :
    BatchEvent.handovers (done.flatMap Ran.events) = done.flatMap Ran.handed := by
  induction done with
  | nil => rfl
  | cons x done ih =>
    rw [List.flatMap_cons, BatchEvent.handovers_append, handovers_events, ih, List.flatMap_cons]

variable (env record) in
/-- A batch that succeeded has run all routines and handed over what they produced and the
report, and every record has been taken. -/
theorem batchTrace_of_ok {ns : Bytes} {xs : List (Routine σ ε)} {s : σ}
    (h : (collect env record ns xs s).1.isOk = true) :
    ∃ (done : List (Ran ε)) (report : Record ε) (entries : List ReportEntry) (answer : Status),
      batchTrace env record ns xs s = done.flatMap Ran.events ++ [.handed report answer] ∧
      done.map Ran.name = xs.map Routine.name ∧
      report.name = ns ++ "/gathers" ∧ report.item = some (.report entries) ∧
      (BatchEvent.handovers (batchTrace env record ns xs s)).map Prod.fst =
        (done.flatMap fun x => x.outcome.records) ++ [report] ∧
      ∀ x ∈ BatchEvent.handovers (batchTrace env record ns xs s), x.2.isOk = true := by
  have hended := ended_batchTrace env record ns xs s
  generalize batchTrace env record ns xs s = log at hended ⊢
  generalize (collect env record ns xs s).1 = st at h hended
  cases hended with
  | interrupted => exact absurd h Bool.false_ne_true
  | reported done time entries answer all_ran lowered reports =>
    have herrors := verdict_isOk h
    rw [List.append_eq_nil_iff, List.flatMap_eq_nil_iff] at herrors
    obtain ⟨hmessages, hanswer⟩ := herrors
    refine ⟨done, ⟨ns ++ "/gathers", time, [], some (.report entries)⟩, entries, answer, rfl,
      all_ran, rfl, rfl, ?_, ?_⟩
    · rw [BatchEvent.handovers_append, handovers_flatMap_events, List.map_append, List.map_flatMap]
      simp only [Ran.handed_fst]
      rfl
    · rw [BatchEvent.handovers_append, handovers_flatMap_events]
      intro x hx
      rcases List.mem_append.1 hx with hx | hx
      · obtain ⟨y, hy, hx⟩ := List.mem_flatMap.1 hx
        exact refusals_eq_nil_iff.1 (List.append_eq_nil_iff.1 (hmessages y hy)).2 x hx
      · obtain rfl := List.mem_singleton.1 hx
        split at hanswer
        · next hok => exact hok
        · cases hanswer

end ClusterEvidence
