import ClusterEvidence.Proofs.Agreement
import ClusterEvidence.Proofs.Batch.Trace

/-!
# Batches that look alike

What can be seen of a record is its name, its fingerprint, its extension and its bytes
(`Record.shown`). Times are left out : the clocks of two runs need not be related, and
`Content.untimed` takes the durations out of a report.

Two batches are run, each with surroundings, routines and a recorder of its own. If
routine by routine the outcomes look alike, and the recorders give the same answer to
records of which they can see the same, the batches end with the same status
(`collect_agree`) and hand over records of which the same can be seen
(`collectTraced_agree`). The states of the runs are related by any `R` that routines,
records, looks at the flag and messages keep.
-/

namespace ClusterEvidence

variable {σ τ ε : Type}

/-! ## What can be seen of a record -/

/-- The entry without the time its routine took. -/
def ReportEntry.untimed (e : ReportEntry) : ReportEntry := { e with elapsed := 0 }

/-- The content; a report does not tell how long its routines took. -/
def Content.untimed : Content ε → Content ε
  | .report l => .report (l.map ReportEntry.untimed)
  | c => c

/-- The extension and the marshalled bytes, times apart. -/
def Content.shown (c : Content ε) : Bytes × StateM ε (Fetched Bytes) := (c.ext, c.untimed.marshal)

/-- What can be seen of a record, times apart. -/
structure Shown (ε : Type) where
  name : Bytes
  fingerprint : Bytes
  content : Option (Bytes × StateM ε (Fetched Bytes))

/-- What can be seen of a record, times apart. -/
def Record.shown (r : Record ε) : Shown ε := ⟨r.name, r.fingerprint, r.item.map Content.shown⟩

/-- What can be seen of the records that were handed over, and the answers to them. -/
def shownHandovers (log : List (BatchEvent ε)) : List (Shown ε × Status) :=
  (BatchEvent.handovers log).map fun x => (x.1.shown, x.2)

@[simp] theorem shownHandovers_ran (log : List (BatchEvent ε)) (n : Bytes) (out : Outcome ε) :
    shownHandovers (log ++ [.ran n out]) = shownHandovers log := by
  simp [shownHandovers, BatchEvent.handovers]

@[simp] theorem shownHandovers_looked (log : List (BatchEvent ε)) (raised : Bool) :
    shownHandovers (log ++ [.looked raised]) = shownHandovers log := by
  simp [shownHandovers, BatchEvent.handovers]

@[simp] theorem shownHandovers_handed (log : List (BatchEvent ε)) (r : Record ε) (st : Status) :
    shownHandovers (log ++ [.handed r st]) = shownHandovers log ++ [(r.shown, st)] := by
  simp [shownHandovers, BatchEvent.handovers]

/-! ## Runs that look alike -/

/-- The flag is seen in the same position at the same looks. The clocks may differ, and
what is logged has no effect. -/
structure Surroundings.Alike (R : σ → τ → Prop) (env : Surroundings σ) (env' : Surroundings τ) :
    Prop where
  cancelled : Agree R Eq env.cancelled env'.cancelled
  note : ∀ l text text', Agree R (fun _ _ => True) (env.note l text) (env'.note l text')
  wallClock : Agree R (fun _ _ => True) env.wallClock env'.wallClock
  stopwatch : Agree R (fun _ _ => True) env.stopwatch env'.stopwatch

/-- The same status, or values that are related. -/
inductive Fetched.Alike {α β : Type} (Q : α → β → Prop) : Fetched α → Fetched β → Prop
  | ok {a : α} {b : β} (h : Q a b) : Fetched.Alike Q (.ok a) (.ok b)
  | error (st : Status) : Fetched.Alike Q (.error st) (.error st)

/-- Records of which the same can be seen, and the same errors. -/
def Outcome.Alike (out out' : Outcome ε) : Prop :=
  List.Forall₂ (fun r r' => r.shown = r'.shown) out.records out'.records ∧ out.errors = out'.errors

/-- Routines of one name with outcomes that look alike. -/
structure Routine.Alike (R : σ → τ → Prop) (x : Routine σ ε) (x' : Routine τ ε) : Prop where
  name : x.name = x'.name
  run : Agree R Outcome.Alike x.run x'.run

variable {R : σ → τ → Prop} {env : Surroundings σ} {env' : Surroundings τ}

/-! ## Batches -/

/-- Records that are shown alike have one name. -/
theorem Record.name_of_shown {r r' : Record ε} (h : r.shown = r'.shown) : r.name = r'.name :=
  congrArg Shown.name h

/-- Records of one name and of contents of which the same can be seen. -/
theorem Record.now_agree (henv : env.Alike R env') (name : Bytes) {c c' : Content ε}
    (hc : c.shown = c'.shown) :
    Agree R (fun r r' => r.shown = r'.shown) (Record.now env name c) (Record.now env' name c') := by
  refine henv.wallClock.bind fun t t' _ => Agree.pure ?_
  simp only [Record.shown, Option.map_some, hc]

/-- Routines that are alike run alike, but for the time they take. -/
theorem runRoutine_agree (henv : env.Alike R env') {x : Routine σ ε} {x' : Routine τ ε}
    (hx : x.Alike R x') :
    Agree R (fun r r' => r.1.Alike r'.1 ∧ r.2.untimed = r'.2.untimed) (runRoutine env x)
      (runRoutine env' x') := by
  refine (henv.note _ _ _).bind fun _ _ _ => henv.stopwatch.bind fun _ _ _ => ?_
  refine hx.run.bind fun out out' hout => henv.stopwatch.bind fun _ _ _ => ?_
  refine (henv.note _ _ _).bind fun _ _ _ => Agree.pure ⟨hout, ?_⟩
  simp only [ReportEntry.untimed, hx.name, hout.1.length_eq, hout.2]

variable {record : Record ε → StateM σ Status} {record' : Record ε → StateM τ Status}

theorem forward_agree (hrec : ∀ r r', r.shown = r'.shown → Agree R Eq (record r) (record' r'))
    {rs rs' : List (Record ε)} (h : List.Forall₂ (fun r r' => r.shown = r'.shown) rs rs') :
    Agree R Eq (forward record rs) (forward record' rs') := by
  induction h with
  | nil => exact Agree.pure rfl
  | cons hr _ ih =>
    refine (hrec _ _ hr).bind_eq fun st => ih.bind_eq fun refused => Agree.pure ?_
    rw [Record.name_of_shown hr]

/-- The same entries but for times, and the same messages. -/
def Progress.Alike (p p' : Progress) : Prop :=
  p.entries.map ReportEntry.untimed = p'.entries.map ReportEntry.untimed ∧ p.errors = p'.errors

theorem runRoutines_agree (henv : env.Alike R env')
    (hrec : ∀ r r', r.shown = r'.shown → Agree R Eq (record r) (record' r'))
    {xs : List (Routine σ ε)} {xs' : List (Routine τ ε)}
    (hxs : List.Forall₂ (Routine.Alike R) xs xs') :
    Agree R (Fetched.Alike Progress.Alike) (runRoutines env record xs)
      (runRoutines env' record' xs') := by
  induction hxs with
  | nil => exact Agree.pure (.ok ⟨rfl, rfl⟩)
  | cons hx _ ih =>
    refine (runRoutine_agree henv hx).bind fun ⟨out, e⟩ ⟨out', e'⟩ ⟨hout, he⟩ => ?_
    refine (forward_agree hrec hout.1).bind_eq fun refused => ?_
    refine henv.cancelled.bind_eq fun raised => ?_
    cases raised with
    | true => exact Agree.pure (.error _)
    | false =>
      refine ih.bind fun r r' hr => Agree.pure ?_
      cases hr with
      | error st => exact .error st
      | ok hp =>
        have herrors : e.errors = e'.errors := (congrArg ReportEntry.errors he :)
        refine .ok ⟨?_, ?_⟩
        · simp only [List.map_cons, he, hp.1]
        · simp only [herrors, hp.2]

/-- Batches whose parts look alike end with the same status. -/
theorem collect_agree (henv : env.Alike R env')
    (hrec : ∀ r r', r.shown = r'.shown → Agree R Eq (record r) (record' r')) (ns : Bytes)
    {xs : List (Routine σ ε)} {xs' : List (Routine τ ε)}
    (hxs : List.Forall₂ (Routine.Alike R) xs xs') :
    Agree R Eq (collect env record ns xs) (collect env' record' ns xs') := by
  refine (runRoutines_agree henv hrec hxs).bind fun r r' hr => ?_
  cases hr with
  | error st => exact Agree.pure rfl
  | ok hp =>
    refine (Record.now_agree henv _ ?_).bind fun _ _ hreport => (hrec _ _ hreport).bind_eq fun st =>
      Agree.pure ?_
    · simp only [Content.shown, Content.untimed, hp.1, Content.ext]
    · rw [hp.2]

/-! ## Batches with a list beside them -/

/-- States that are related, beside lists that show the same handovers. -/
def TraceAlike (R : σ → τ → Prop) (x : List (BatchEvent ε) × σ) (y : List (BatchEvent ε) × τ) :
    Prop :=
  shownHandovers x.1 = shownHandovers y.1 ∧ R x.2 y.2

/-- Surroundings look alike beside anything that the runs keep related. -/
theorem Surroundings.Alike.beside (henv : env.Alike R env') {κ μ : Type} (K : κ → μ → Prop) :
    (env.beside κ).Alike (fun x y => K x.1 y.1 ∧ R x.2 y.2) (env'.beside μ) where
  cancelled := henv.cancelled.onSnd
  note l text text' := (henv.note l text text').onSnd
  wallClock := henv.wallClock.onSnd
  stopwatch := henv.stopwatch.onSnd

/-- Surroundings that are alike stay so when their calls are logged. -/
theorem Surroundings.Alike.traced (henv : env.Alike R env') :
    (env.traced ε).Alike (TraceAlike R) (env'.traced ε) :=
  { henv.beside fun log log' => shownHandovers log = shownHandovers log' with
    cancelled := by
      rintro ⟨log, s⟩ ⟨log', t⟩ ⟨hlog, hr⟩
      obtain ⟨hraised, hr'⟩ := henv.cancelled s t hr
      refine ⟨hraised, ?_, hr'⟩
      show shownHandovers (log ++ [.looked _]) = shownHandovers (log' ++ [.looked _])
      rw [shownHandovers_looked, shownHandovers_looked]
      exact hlog }

theorem Routine.Alike.traced {x : Routine σ ε} {x' : Routine τ ε} (hx : x.Alike R x') :
    x.traced.Alike (TraceAlike R) x'.traced where
  name := hx.name
  run := by
    rintro ⟨log, s⟩ ⟨log', t⟩ ⟨hlog, hr⟩
    obtain ⟨hout, hr'⟩ := hx.run s t hr
    refine ⟨hout, ?_, hr'⟩
    show shownHandovers (log ++ [.ran _ _]) = shownHandovers (log' ++ [.ran _ _])
    rw [shownHandovers_ran, shownHandovers_ran]
    exact hlog

theorem recordTraced_agree
    (hrec : ∀ r r', r.shown = r'.shown → Agree R Eq (record r) (record' r')) {r r' : Record ε}
    (hshown : r.shown = r'.shown) :
    Agree (TraceAlike R) Eq (recordTraced record r) (recordTraced record' r') := by
  rintro ⟨log, s⟩ ⟨log', t⟩ ⟨hlog, hr⟩
  obtain ⟨hanswer, hr'⟩ := hrec r r' hshown s t hr
  refine ⟨hanswer, ?_, hr'⟩
  show shownHandovers (log ++ [.handed r _]) = shownHandovers (log' ++ [.handed r' _])
  rw [shownHandovers_handed, shownHandovers_handed, hshown, hanswer]
  exact congrArg (· ++ _) hlog

/-- Batches whose parts look alike hand over records of which the same can be seen. -/
theorem collectTraced_agree (henv : env.Alike R env')
    (hrec : ∀ r r', r.shown = r'.shown → Agree R Eq (record r) (record' r')) (ns : Bytes)
    {xs : List (Routine σ ε)} {xs' : List (Routine τ ε)}
    (hxs : List.Forall₂ (Routine.Alike R) xs xs') :
    Agree (TraceAlike R) Eq (collectTraced env record ns xs)
      (collectTraced env' record' ns xs') := by
  refine collect_agree henv.traced (fun r r' h => recordTraced_agree hrec h) ns ?_
  rw [List.forall₂_map_left_iff, List.forall₂_map_right_iff]
  exact hxs.imp fun x x' hx => hx.traced

end ClusterEvidence
