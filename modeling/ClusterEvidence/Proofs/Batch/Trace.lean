import ClusterEvidence.Batch.Collect
import Mathlib.Data.List.Forall2

/-!
# The trace of a batch

A batch leaves no list of what it did. `collectTraced` is the same batch in a state that
has a list beside it : every routine adds what it produced, every call of the recorder the
record and the answer, every look at the cancellation flag what was seen. The list changes
nothing : status and state are those of `collect` (`collectTraced_eq`).

What a routine adds is its outcome, then its records in order, each handed over once, then
one look at the flag (`Ran.events`). The routines have their `turns` in order, up to the first
that is followed by a raised flag (`runRoutines_traced`). A batch ends in one of two ways
(`Ended`) : a look found the flag raised, and the last events are those of the routine before
it; or the events of all routines are followed by the report, and the status is the verdict
on all messages. `ended_batchTrace` says that there is no other way.
-/

namespace ClusterEvidence

variable {σ ε : Type}

/-- What happens in a batch : a routine runs, a record is handed to the recorder, or the
cancellation flag is looked at. -/
inductive BatchEvent (ε : Type)
  | ran (name : Bytes) (out : Outcome ε)
  | handed (r : Record ε) (answer : Status)
  | looked (raised : Bool)

namespace BatchEvent

/-- The records that were handed to the recorder, in order, each with the answer. -/
def handovers (l : List (BatchEvent ε)) : List (Record ε × Status) :=
  l.filterMap fun
    | handed r st => some (r, st)
    | _ => none

@[simp] theorem handovers_append (l l' : List (BatchEvent ε)) :
    handovers (l ++ l') = handovers l ++ handovers l' := by
  simp [handovers]

theorem handovers_map_handed (h : List (Record ε × Status)) :
    handovers (h.map fun x => handed x.1 x.2) = h := by
  simp [handovers, List.filterMap_map]

end BatchEvent

/-! ## Batches with a list beside them -/

/-- The routine, which adds what it produced to the list. -/
def Routine.traced (x : Routine σ ε) : Routine (List (BatchEvent ε) × σ) ε where
  name := x.name
  run := fun (log, s) =>
    let (out, s) := x.run s
    (out, (log ++ [.ran x.name out], s))

/-- The recorder, which adds each record and its answer to the list. -/
def recordTraced (record : Record ε → StateM σ Status) (r : Record ε) :
    StateM (List (BatchEvent ε) × σ) Status := fun (log, s) =>
  let (st, s) := record r s
  (st, (log ++ [.handed r st], s))

/-- The surroundings, where each look at the cancellation flag is added to the list. -/
def Surroundings.traced (ε : Type) (env : Surroundings σ) :
    Surroundings (List (BatchEvent ε) × σ) :=
  { env.beside (List (BatchEvent ε)) with
    cancelled := fun (log, s) =>
      let (b, s) := env.cancelled s
      (b, (log ++ [.looked b], s)) }

/-- The batch in a state with a list beside it. -/
def collectTraced (env : Surroundings σ) (record : Record ε → StateM σ Status) (ns : Bytes)
    (routines : List (Routine σ ε)) : StateM (List (BatchEvent ε) × σ) Status :=
  collect (env.traced ε) (recordTraced record) ns (routines.map Routine.traced)

/-- What happens in a batch that starts in the state `s`. -/
def batchTrace (env : Surroundings σ) (record : Record ε → StateM σ Status) (ns : Bytes)
    (routines : List (Routine σ ε)) (s : σ) : List (BatchEvent ε) :=
  (collectTraced env record ns routines ([], s)).2.1

/-! ## What a routine adds -/

/-- A routine that ran, with the answers to its records and the look at the flag that
follows them. -/
structure Ran (ε : Type) where
  name : Bytes
  outcome : Outcome ε
  handed : List (Record ε × Status)
  raised : Bool
  handed_fst : handed.map Prod.fst = outcome.records

namespace Ran

/-- The outcome, the records in order, and the look at the flag. -/
def events (x : Ran ε) : List (BatchEvent ε) :=
  .ran x.name x.outcome :: (x.handed.map fun h => .handed h.1 h.2) ++ [.looked x.raised]

end Ran

/-- The messages about the records that were refused. -/
def refusals (h : List (Record ε × Status)) : List Bytes :=
  (h.filter fun x => !x.2.isOk).map fun x =>
    "unable to record " ++ x.1.name ++ ": " ++ x.2.message

/-- The messages of the routine's errors, then those about its refused records. -/
def Ran.messages (x : Ran ε) : List Bytes :=
  x.outcome.errors.map Status.message ++ refusals x.handed

/-- The entry says of the routine what the report has to say, its time apart. -/
def Ran.Reports (x : Ran ε) (e : ReportEntry) : Prop :=
  e.name = x.name ∧ e.records = Int32.ofNat x.outcome.records.length ∧
    e.errors = x.outcome.errors.map Status.message

variable {env : Surroundings σ} {record : Record ε → StateM σ Status}

/-- A routine runs the same when it is logged, and its outcome is added to the log. -/
theorem runRoutine_traced (x : Routine σ ε) (log : List (BatchEvent ε)) (s : σ) :
    runRoutine (env.traced ε) x.traced (log, s) =
      ((runRoutine env x s).1,
        (log ++ [.ran x.name (runRoutine env x s).1.1], (runRoutine env x s).2)) :=
  rfl

variable (env) in
theorem runRoutine_entry (x : Routine σ ε) (s : σ) :
    let r := (runRoutine env x s).1
    r.2.name = x.name ∧ r.2.records = Int32.ofNat r.1.records.length ∧
      r.2.errors = r.1.errors.map Status.message :=
  ⟨rfl, rfl, rfl⟩

theorem recordTraced_run (r : Record ε) (log : List (BatchEvent ε)) (s : σ) :
    recordTraced record r (log, s) =
      ((record r s).1, (log ++ [.handed r (record r s).1], (record r s).2)) :=
  rfl

theorem forward_cons (r : Record ε) (rs : List (Record ε)) (s : σ) :
    forward record (r :: rs) s =
      let rest := forward record rs (record r s).2
      (if (record r s).1.isOk then rest.1
        else ("unable to record " ++ r.name ++ ": " ++ (record r s).1.message) :: rest.1, rest.2) :=
  rfl

theorem refusals_cons (r : Record ε) (st : Status) (h : List (Record ε × Status)) :
    refusals ((r, st) :: h) =
      if st.isOk then refusals h
      else ("unable to record " ++ r.name ++ ": " ++ st.message) :: refusals h := by
  cases hst : st.isOk <;> simp [refusals, hst]

variable (record) in
/-- Hand records over in order, and keep each with its answer. -/
def handAll : List (Record ε) → σ → List (Record ε × Status) × σ
  | [], s => ([], s)
  | r :: rs, s =>
    let a := record r s
    let rest := handAll rs a.2
    ((r, a.1) :: rest.1, rest.2)

variable (record) in
/-- Every record is handed over once, in order, whatever the answers are. -/
theorem handAll_fst (rs : List (Record ε)) (s : σ) : (handAll record rs s).1.map Prod.fst = rs := by
  induction rs generalizing s with
  | nil => rfl
  | cons r rs ih => simp [handAll, ih]

variable (record) in
/-- Handing over records tells of those that were refused. -/
theorem forward_eq (rs : List (Record ε)) (s : σ) :
    forward record rs s = (refusals (handAll record rs s).1, (handAll record rs s).2) := by
  induction rs generalizing s with
  | nil => rfl
  | cons r rs ih => simp only [forward_cons, handAll, refusals_cons, ih]

variable (record) in
theorem handAll_traced (rs : List (Record ε)) (log : List (BatchEvent ε)) (s : σ) :
    handAll (recordTraced record) rs (log, s) =
      let h := handAll record rs s
      (h.1, (log ++ h.1.map fun x => .handed x.1 x.2, h.2)) := by
  induction rs generalizing log s with
  | nil => simp [handAll]
  | cons r rs ih => simp [handAll, recordTraced_run, ih]

/-! ## The turns of the routines -/

variable (env record) in
/-- The turn of a routine : it runs, its records are handed over, and the flag is looked at. -/
def Routine.turn (x : Routine σ ε) (s : σ) : Ran ε × σ :=
  let r := runRoutine env x s
  let h := handAll record r.1.1.records r.2
  let c := env.cancelled h.2
  (⟨x.name, r.1.1, h.1, c.1, handAll_fst record _ _⟩, c.2)

variable (env record) in
/-- The turns that the routines would have one after the other, whatever is found of the flag. -/
def turns : List (Routine σ ε) → σ → List (Ran ε)
  | [], _ => []
  | x :: xs, s =>
    let t := x.turn env record s
    t.1 :: turns xs t.2

/-- The turns up to the first that is followed by a raised flag, or all if none is. -/
def upToRaised (l : List (Ran ε)) : List (Ran ε) :=
  match l.findIdx? Ran.raised with
  | some k => l.take (k + 1)
  | none => l

theorem upToRaised_cons (x : Ran ε) (l : List (Ran ε)) :
    upToRaised (x :: l) = if x.raised then [x] else x :: upToRaised l := by
  cases hx : x.raised with
  | true => simp [upToRaised, List.findIdx?_cons, hx]
  | false =>
    cases hl : l.findIdx? Ran.raised with
    | none => simp [upToRaised, List.findIdx?_cons, hx, hl]
    | some k => simp [upToRaised, List.findIdx?_cons, hx, hl]

/-! ## What a batch adds -/

/-- One routine runs and its records are handed over, and the others follow unless the flag is
raised. -/
theorem runRoutines_cons (x : Routine σ ε) (xs : List (Routine σ ε)) (s : σ) :
    runRoutines env record (x :: xs) s =
      let r := runRoutine env x s
      let f := forward record r.1.1.records r.2
      let c := env.cancelled f.2
      if c.1 then (.error .interrupted, c.2)
      else
        let rest := runRoutines env record xs c.2
        (rest.1.map fun p =>
          { entries := r.1.2 :: p.entries, errors := r.1.2.errors ++ f.1 ++ p.errors },
          rest.2) := by
  show (if (env.cancelled (forward record (runRoutine env x s).1.1.records
    (runRoutine env x s).2).2).1 then _ else _ : StateM σ _) _ = _
  dsimp only
  split
  · rfl
  · rfl

/-- How the routines of a batch come to an end : one of them is followed by a look that finds
the flag raised, or all have run and the progress is what they add up to. -/
inductive Went (names : List Bytes) : Fetched Progress → List (Ran ε) → Prop
  | interrupted (done : List (Ran ε)) (last : Ran ε)
      (started : (done ++ [last]).map Ran.name <+: names)
      (lowered : ∀ x ∈ done, x.raised = false) (raised : last.raised = true) :
      Went names (.error .interrupted) (done ++ [last])
  | through (done : List (Ran ε)) (p : Progress) (all_ran : done.map Ran.name = names)
      (lowered : ∀ x ∈ done, x.raised = false) (errors : p.errors = done.flatMap Ran.messages)
      (reports : List.Forall₂ Ran.Reports done p.entries) : Went names (.ok p) done

/-- A routine that ran before the others, and was not interrupted. -/
theorem Went.cons {x : Ran ε} {e : ReportEntry} {names : List Bytes} {r : Fetched Progress}
    {done : List (Ran ε)} (h : Went names r done) (hx : x.raised = false) (he : x.Reports e) :
    Went (x.name :: names)
      (r.map fun p => { entries := e :: p.entries, errors := x.messages ++ p.errors })
      (x :: done) := by
  cases h with
  | interrupted done last started lowered raised =>
    refine .interrupted (x :: done) last ?_ (List.forall_mem_cons.2 ⟨hx, lowered⟩) raised
    exact (List.prefix_cons_inj x.name).2 started
  | through done p all_ran lowered errors reports =>
    refine .through (x :: done) _ (by rw [List.map_cons, all_ran])
      (List.forall_mem_cons.2 ⟨hx, lowered⟩) ?_ (.cons he reports)
    simp only [errors, List.flatMap_cons]

variable (env record) in
/-- The list beside the routines changes nothing. They have their turns up to the first that is
followed by a raised flag, and come to an end in one of two ways. -/
theorem runRoutines_traced (xs : List (Routine σ ε)) (log : List (BatchEvent ε)) (s : σ) :
    let done := upToRaised (turns env record xs s)
    Went (xs.map Routine.name) (runRoutines env record xs s).1 done ∧
      runRoutines (env.traced ε) (recordTraced record) (xs.map Routine.traced) (log, s) =
        ((runRoutines env record xs s).1,
          (log ++ done.flatMap Ran.events, (runRoutines env record xs s).2)) := by
  induction xs generalizing log s with
  | nil =>
    refine ⟨.through [] {} rfl (by simp) rfl .nil, ?_⟩
    show _ = (_, (log ++ [], _))
    rw [List.append_nil]
    rfl
  | cons x xs ih =>
    obtain ⟨⟨⟨out, entry⟩, s₁⟩, hr⟩ : ∃ r, runRoutine env x s = r := ⟨_, rfl⟩
    obtain ⟨⟨h, s₂⟩, hh⟩ : ∃ h, handAll record out.records s₁ = h := ⟨_, rfl⟩
    obtain ⟨⟨raised, s₃⟩, hc⟩ : ∃ c, env.cancelled s₂ = c := ⟨_, rfl⟩
    have hfst : h.map Prod.fst = out.records := by
      have := handAll_fst record out.records s₁
      rwa [hh] at this
    let b : Ran ε := ⟨x.name, out, h, raised, hfst⟩
    have hturn : x.turn env record s = (b, s₃) := by
      simp only [Routine.turn, hr, hh, hc, b]
    have hlook : ∀ l, (env.traced ε).cancelled (l, s₂) = (raised, (l ++ [.looked raised], s₃)) := by
      intro l
      simp only [Surroundings.traced, hc]
    have hentry : b.Reports entry := by
      have := runRoutine_entry env x s
      rwa [hr] at this
    have hlog : log ++ [.ran x.name out] ++ h.map (fun x => .handed x.1 x.2) ++ [.looked raised] =
        log ++ b.events := by
      simp [Ran.events, b]
    obtain ⟨hwent, hrest⟩ := ih (log ++ b.events) s₃
    simp only [List.map_cons, runRoutines_cons, runRoutine_traced, hr, forward_eq, handAll_traced,
      hh, hc, hlook, hlog, hrest, turns, hturn, upToRaised_cons]
    cases raised with
    | true => exact ⟨.interrupted [] b (by simp [b]) (by simp) rfl, by simp [b]⟩
    | false =>
      refine ⟨?_, by simp [b]⟩
      simpa [Ran.messages, b, hentry.2.2] using hwent.cons (x := b) rfl hentry

/-- How a batch ends, by what happened in it : interrupted after a routine, or with the
report of all routines. -/
inductive Ended (ns : Bytes) (names : List Bytes) : List (BatchEvent ε) → Status → Prop
  | interrupted (done : List (Ran ε)) (last : Ran ε)
      (started : (done ++ [last]).map Ran.name <+: names)
      (lowered : ∀ x ∈ done, x.raised = false) (raised : last.raised = true) :
      Ended ns names ((done ++ [last]).flatMap Ran.events) .interrupted
  | reported (done : List (Ran ε)) (time : Nanoseconds) (entries : List ReportEntry)
      (answer : Status)
      (all_ran : done.map Ran.name = names) (lowered : ∀ x ∈ done, x.raised = false)
      (reports : List.Forall₂ Ran.Reports done entries) :
      Ended ns names
        (done.flatMap Ran.events ++
          [.handed ⟨ns ++ "/gathers", time, [], some (.report entries)⟩ answer])
        (verdict (done.flatMap Ran.messages ++
          if answer.isOk then []
          else ["unable to record io status reports: " ++ answer.message]))

theorem wallClock_traced (log : List (BatchEvent ε)) (s : σ) :
    (env.traced ε).wallClock (log, s) = ((env.wallClock s).1, (log, (env.wallClock s).2)) :=
  rfl

/-- A batch whose routines were interrupted ends with their status. -/
theorem collect_of_error {ns : Bytes} {xs : List (Routine σ ε)} {s s₁ : σ} {st : Status}
    (h : runRoutines env record xs s = (.error st, s₁)) :
    collect env record ns xs s = (st, s₁) := by
  unfold collect
  show StateT.bind (runRoutines env record xs) _ s = _
  unfold StateT.bind
  rw [h]
  rfl

theorem collect_of_ok {ns : Bytes} {xs : List (Routine σ ε)} {s s₁ : σ} {p : Progress}
    (h : runRoutines env record xs s = (.ok p, s₁)) :
    collect env record ns xs s =
      let t := env.wallClock s₁
      let st := record ⟨ns ++ "/gathers", t.1, [], some (.report p.entries)⟩ t.2
      (verdict (p.errors ++ if st.1.isOk then []
        else ["unable to record io status reports: " ++ st.1.message]), st.2) := by
  unfold collect
  show StateT.bind (runRoutines env record xs) _ s = _
  unfold StateT.bind
  rw [h]
  rfl

variable (env record) in
/-- A batch ends in one of the two ways, and the list beside it changes nothing. -/
theorem collectTraced_ended (ns : Bytes) (xs : List (Routine σ ε)) (log : List (BatchEvent ε))
    (s : σ) :
    ∃ events : List (BatchEvent ε),
      Ended ns (xs.map Routine.name) events (collect env record ns xs s).1 ∧
        collectTraced env record ns xs (log, s) =
          ((collect env record ns xs s).1, (log ++ events, (collect env record ns xs s).2)) := by
  obtain ⟨hwent, hrun⟩ := runRoutines_traced env record xs log s
  generalize upToRaised (turns env record xs s) = done at hwent hrun
  obtain ⟨⟨r, s₁⟩, hr⟩ : ∃ r, runRoutines env record xs s = r := ⟨_, rfl⟩
  rw [hr] at hwent hrun
  cases hwent with
  | interrupted done last started lowered raised =>
    refine ⟨(done ++ [last]).flatMap Ran.events, ?_, ?_⟩
    · rw [collect_of_error hr]
      exact .interrupted done last started lowered raised
    · rw [collectTraced, collect_of_error hrun, collect_of_error hr]
  | through done p all_ran lowered errors reports =>
    obtain ⟨⟨time, s₂⟩, ht⟩ : ∃ t, env.wallClock s₁ = t := ⟨_, rfl⟩
    let report : Record ε := ⟨ns ++ "/gathers", time, [], some (.report p.entries)⟩
    refine ⟨done.flatMap Ran.events ++ [.handed report (record report s₂).1], ?_, ?_⟩
    · rw [collect_of_ok hr]
      simp only [ht, errors]
      exact .reported done time p.entries _ all_ran lowered reports
    · rw [collectTraced, collect_of_ok hrun, collect_of_ok hr]
      simp only [wallClock_traced, ht, recordTraced_run, List.append_assoc, report]

variable (env record) in
/-- The list beside a batch changes nothing in its status and its state. -/
theorem collectTraced_eq (ns : Bytes) (xs : List (Routine σ ε)) (s : σ) :
    collectTraced env record ns xs ([], s) =
      ((collect env record ns xs s).1,
        (batchTrace env record ns xs s, (collect env record ns xs s).2)) := by
  obtain ⟨events, -, h⟩ := collectTraced_ended env record ns xs [] s
  rw [batchTrace, h]

variable (env record) in
/-- Every batch ends in one of the two ways. -/
theorem ended_batchTrace (ns : Bytes) (xs : List (Routine σ ε)) (s : σ) :
    Ended ns (xs.map Routine.name) (batchTrace env record ns xs s)
      (collect env record ns xs s).1 := by
  obtain ⟨events, hended, h⟩ := collectTraced_ended env record ns xs [] s
  rwa [batchTrace, h]

end ClusterEvidence
