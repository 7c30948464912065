import ClusterEvidence.Proofs.Batch.Course
import ClusterEvidence.Proofs.Run.Completeness
import ClusterEvidence.Proofs.Run.Interruption

/-!
# Reports of valid configurations

The report of a batch is recorded under the namespace of the configuration, as `gathers` in it.
Validation asks of a namespace that it is not empty (`Config.Valid`), and a recorder asks of a name
that all its parts are safe. So a namespace with an empty part, or one of dots, is valid, and
every batch with it gathers to its end and then fails, since the name of its report is refused
(`CommandLine.slashed_namespace_fails`).

A recorder that is open when a batch starts is open all along, and the names that it knows are
those from before and those that it took in the batch, so it answers every record as such a
recorder does (`answered_batch`). That is so for whatever runs beside the recorder, and for what
is gathered from any source (`recordsInto_gather`). The last of these records is the report
(`report_answered`). Hence the report of a valid configuration is taken, unless a record of its
name was taken before, just if the parts of the namespace are safe (`report_accepted_iff`).
-/

namespace ClusterEvidence

open Surroundings (onSnd)

variable {σ ε : Type}

namespace RunDirectory

/-! ## Batches into a run directory -/

/-- The records of the batch go to the run directory that `view` shows of its state, and nothing
else in the batch touches that. -/
structure RecordsInto (view : σ → RunDirectory ε) (env : Surroundings σ)
    (record : Record ε → StateM σ Status) (xs : List (Routine σ ε)) : Prop where
  record : ∀ r s, ((record r s).1, view (record r s).2) = (view s).record r
  env : ∀ d, env.Steady fun s => view s = d
  routines : ∀ x ∈ xs, ∀ d, Keeps (fun s => view s = d) (fun _ => True) x.run

/-- Every batch that is gathered from a source goes to the run directory beside it. -/
theorem recordsInto_gather (g : Gatherer) (env : Surroundings ε) (src : Source ε) :
    RecordsInto (fun s : VersionCache × (RunDirectory ε × ε) => s.2.1)
      ((env.beside (RunDirectory ε)).beside VersionCache) (fun r => onSnd ((recorder env).record r))
      (g.routines (env.beside (RunDirectory ε)) (src.beside (RunDirectory ε))) := by
  have henv : ∀ d, (env.beside (RunDirectory ε)).Steady fun s => s.1 = d :=
    fun d => .fst (· = d) env
  have hsrc : ∀ d, (src.beside (RunDirectory ε)).Gives (fun _ _ => True) fun s => s.1 = d := fun d =>
    ⟨fun _ h => ⟨fun _ _ _ _ => trivial, h⟩, fun _ h => ⟨fun _ _ _ _ => trivial, h⟩,
      fun _ _ h => ⟨fun _ _ _ _ => trivial, h⟩, fun _ _ _ h => ⟨trivial, h⟩⟩
  exact ⟨fun _ _ => rfl, fun d => .beside fun _ => henv d, fun x hx d =>
    (Gatherer.routines_make Gatherer.makes_any (henv d) (hsrc d) x hx).mono fun _ _ => trivial⟩

/-- Each record got the answer of an open run directory that knows these names, and those that
were taken before the record. -/
def Answered (known : List Bytes) (h : List (Record ε × Status)) : Prop :=
  ∀ before r st after, h = before ++ (r, st) :: after → ∃ d : RunDirectory ε,
    d.isOpen = true ∧ (∀ n, n ∈ d.names ↔ n ∈ known ∨ n ∈ (taken before).map Record.name) ∧
      st = (d.record r).1

/-- An open run directory while a batch goes into it that has handed over these records. -/
structure Receiving (known : List Bytes) (h : List (Record ε × Status)) (d : RunDirectory ε) :
    Prop where
  isOpen : d.isOpen = true
  names : ∀ n, n ∈ d.names ↔ n ∈ known ∨ n ∈ (taken h).map Record.name
  answered : Answered known h

variable {d : RunDirectory ε} {known : List Bytes} {h : List (Record ε × Status)}

theorem Receiving.start (hopen : d.isOpen = true) : Receiving d.names [] d where
  isOpen := hopen
  names n := by simp [taken]
  answered := by
    intro before r st after heq
    simp at heq

theorem isOpen_record (r : Record ε) : (d.record r).2.isOpen = d.isOpen := by
  cases hr : d.accept r with
  | error why => rw [record_of_error hr]
  | ok q =>
    rw [record_of_ok hr]
    rfl

/-- A name is known if it was before, or a record of it was just taken. -/
theorem mem_names_record (r : Record ε) (n : Bytes) :
    n ∈ (d.record r).2.names ↔ n ∈ d.names ∨ ((d.record r).1.isOk = true ∧ n = r.name) := by
  cases hr : d.accept r with
  | error why =>
    rw [record_of_error hr]
    exact ⟨.inl, fun hn => hn.resolve_right fun hok => absurd hok.1 Bool.false_ne_true⟩
  | ok q =>
    rw [record_of_ok hr]
    show n ∈ r.name :: d.names ↔ _ ∨ (true = true ∧ _)
    rw [List.mem_cons, or_comm, eq_self_iff_true, true_and]

/-- Handing over one more record. -/
theorem Receiving.record (hd : Receiving known h d) (r : Record ε) :
    Receiving known (h ++ [(r, (d.record r).1)]) (d.record r).2 where
  isOpen := (isOpen_record r).trans hd.isOpen
  names n := by
    rw [mem_names_record, hd.names, taken_concat, List.map_append, List.mem_append, or_assoc]
    cases (d.record r).1.isOk with
    | true => simp
    | false => simp
  answered := by
    intro before r' st after heq
    rcases List.eq_nil_or_concat after with rfl | ⟨after, x, rfl⟩
    · obtain ⟨rfl, hlast⟩ := List.append_inj' heq rfl
      obtain ⟨rfl, rfl⟩ := Prod.mk.inj (List.singleton_inj.1 hlast)
      exact ⟨d, hd.isOpen, hd.names, rfl⟩
    · rw [List.concat_eq_append, ← List.cons_append, ← List.append_assoc] at heq
      exact hd.answered before r' st after (List.append_inj' heq rfl).1

section

variable {view : σ → RunDirectory ε} {env : Surroundings σ} {record : Record ε → StateM σ Status}
  {xs : List (Routine σ ε)}

/-- What leaves the run directory as it is keeps all that holds of it. -/
theorem keeps_view {α : Type} {Q : α → Prop} {x : StateM σ α}
    (hx : ∀ d, Keeps (fun s => view s = d) Q x) (Φ : RunDirectory ε → Prop) :
    Keeps (fun s => Φ (view s)) Q x := by
  intro s hs
  obtain ⟨hq, hview⟩ := hx (view s) s rfl
  refine ⟨hq, ?_⟩
  show Φ (view (x s).2)
  rw [hview]
  exact hs

/-- A batch into an open run directory leaves it open, with the names that it took, and each
record got the answer of such a run directory. -/
theorem answered_batch (hbatch : RecordsInto view env record xs) (ns : Bytes) {s : σ}
    (hopen : (view s).isOpen = true) :
    Receiving (view s).names (BatchEvent.handovers (batchTrace env record ns xs s))
      (view (collect env record ns xs s).2) := by
  refine collect_handovers (P := fun _ => True)
    (J := fun h s' => Receiving (view s).names h (view s')) (fun h => ?_) (fun r h s' _ hs' => ?_)
    (fun _ _ => trivial) (fun x hx h => ?_) (.start hopen)
  · exact ⟨keeps_view (fun d => (hbatch.env d).cancelled) _,
      fun l text => keeps_view (fun d => (hbatch.env d).note l text) _,
      keeps_view (fun d => (hbatch.env d).wallClock) _,
      keeps_view (fun d => (hbatch.env d).stopwatch) _⟩
  · have hrecord := hs'.record r
    rwa [← hbatch.record r s'] at hrecord
  · exact (keeps_view (hbatch.routines x hx) _).mono fun _ _ _ _ => trivial

end

/-! ## Reports -/

/-- A name with an unsafe part is refused with a message that gives it. -/
theorem record_misnamed {r : Record ε} {c : Content ε} (hopen : d.isOpen = true)
    (hitem : r.item = some c) (hname : RecordName.isSafe r.name = false) :
    (d.record r).1 = ⟨.invalidArgument, "invalid record name '" ++ r.name ++ "'"⟩ := by
  have hrefused : d.accept r = .error (.unsafeName r.name) := by
    simp [accept, hopen, hitem, hname]
  rw [record_of_error hrefused]
  rfl

end RunDirectory

/-- The name of a report is safe if its namespace is. -/
theorem RecordName.isSafe_report_iff (ns : Bytes) :
    isSafe (ns ++ "/gathers") = true ↔ ∀ p ∈ Path.parts ns, SafePart p := by
  rw [isSafe_iff]
  have hlast : Path.slash ∉ ("gathers" : Bytes) := by decide
  refine (RunDirectory.safe_below_last hlast).trans ?_
  exact and_iff_left ((isSafePart_iff _).1 (by decide))

/-- What validation asks of a configuration : the level of the log and the kind of the source are
known, no name, path or namespace is empty, and the number of runs to keep is not negative. -/
structure Config.Valid (c : Config) : Prop where
  reportNamespace : c.reportNamespace ≠ []
  logLevel : isKnownLogLevel c.logLevel = true
  clusterVersionName : c.gather.clusterVersionName ≠ []
  singletonName : c.gather.singletonName ≠ []
  sourceType : c.source.type = Snapshot.sourceName
  snapshotPath : c.source.snapshotPath ≠ []
  outDir : c.output.outDir ≠ []
  keepLast : 0 ≤ c.output.keepLast

theorem Config.problem?_eq_none_iff {c : Config} : c.problem? = none ↔ c.Valid := by
  simp only [problem?, ite_eq_iff, reduceCtorEq, and_false, false_or, and_true, Bool.not_eq_true',
    Bool.not_eq_false, ne_eq, not_not, Int32.not_lt]
  constructor
  · rintro ⟨hreport, hlevel, hversion, hsingleton, htype, hpath, hout, hkeep⟩
    exact ⟨hreport, hlevel, hversion, hsingleton, htype, hpath, hout, hkeep⟩
  · exact fun h => ⟨h.reportNamespace, h.logLevel, h.clusterVersionName, h.singletonName,
      h.sourceType, h.snapshotPath, h.outDir, h.keepLast⟩

/-- Validation accepts what it should. -/
theorem Config.validate_eq_ok_iff {c : Config} : c.validate = .ok ↔ c.Valid := by
  rw [← problem?_eq_none_iff, validate]
  cases c.problem? with
  | none => exact iff_of_true rfl rfl
  | some p => exact iff_of_false (by cases p <;> decide) (by simp)

namespace RunDirectory

variable {view : σ → RunDirectory ε} {env : Surroundings σ} {record : Record ε → StateM σ Status}
  {xs : List (Routine σ ε)}

/-- The report of a batch that was not interrupted is handed over last, to an open run directory
that knows the names from before the batch and those that were taken in it. If it is refused,
the status says so. -/
theorem report_answered (hbatch : RecordsInto view env record xs) (ns : Bytes) {s : σ}
    (hopen : (view s).isOpen = true) (h : (collect env record ns xs s).1.isCancelled = false) :
    ∃ (before : List (Record ε × Status)) (report : Record ε) (entries : List ReportEntry)
        (messages : List Bytes) (d : RunDirectory ε),
      BatchEvent.handovers (batchTrace env record ns xs s) =
        before ++ [(report, (d.record report).1)] ∧
      report.name = ns ++ "/gathers" ∧ report.item = some (.report entries) ∧
      d.isOpen = true ∧
      (∀ n, n ∈ d.names ↔ n ∈ (view s).names ∨ n ∈ (taken before).map Record.name) ∧
      (collect env record ns xs s).1 = verdict (messages ++
        if (d.record report).1.isOk then []
        else ["unable to record io status reports: " ++ (d.record report).1.message]) := by
  obtain ⟨entries, -, htrace, hrun⟩ := collect_of_lowered ns (lowered_of_not_interrupted h)
  have hlog := (congrArg BatchEvent.handovers htrace).trans (BatchEvent.handovers_append _ _)
  have hreceiving := answered_batch hbatch ns hopen
  rw [hlog] at hreceiving
  obtain ⟨d, hdopen, hnames, hanswer⟩ := hreceiving.answered _ _ _ [] rfl
  rw [hanswer] at hlog hrun
  exact ⟨_, _, entries, _, d, hlog, rfl, rfl, hdopen, hnames, congrArg Prod.fst hrun⟩

/-- What comes of the report of a valid configuration. Its name is safe if no part of the
namespace is empty or dots, so without slashes only dots can be at fault. An open run directory
that has taken no record of that name takes it then, and only then, at the end of every batch
that was not interrupted. Otherwise the batch has failed, and says so. -/
theorem report_accepted_iff {c : Config} (hvalid : c.validate = .ok)
    (hbatch : RecordsInto view env record xs) {s : σ} (hopen : (view s).isOpen = true) :
    let name := c.reportNamespace ++ "/gathers"
    let st := (collect env record c.reportNamespace xs s).1
    let log := BatchEvent.handovers (batchTrace env record c.reportNamespace xs s)
    (RecordName.isSafe name = true ↔
      ∀ p ∈ Path.parts c.reportNamespace, p ≠ [] ∧ p ≠ ("." : Bytes) ∧ p ≠ (".." : Bytes)) ∧
    (Path.slash ∉ c.reportNamespace → (RecordName.isSafe name = true ↔
      c.reportNamespace ≠ ("." : Bytes) ∧ c.reportNamespace ≠ (".." : Bytes))) ∧
    (st.isCancelled = false → ∃ before report entries answer,
      log = before ++ [(report, answer)] ∧ report.name = name ∧
      report.item = some (.report entries) ∧
      (name ∉ (view s).names → name ∉ (taken before).map Record.name →
        (answer.isOk = true ↔ RecordName.isSafe name = true)) ∧
      (RecordName.isSafe name = false → ∃ messages,
        st = ⟨.gatherFailed, Bytes.join ", " messages⟩ ∧
          "unable to record io status reports: " ++ ("invalid record name '" ++ name ++ "'") ∈
            messages)) := by
  intro name st log
  have hname : RecordName.isSafe name = true ↔ ∀ p ∈ Path.parts c.reportNamespace,
      RecordName.SafePart p := RecordName.isSafe_report_iff c.reportNamespace
  refine ⟨hname, fun hslash => ?_, fun huncancelled => ?_⟩
  · rw [hname, Path.parts, Bytes.pieces_of_notMem hslash, List.forall_mem_singleton]
    exact and_iff_right (Config.validate_eq_ok_iff.1 hvalid).reportNamespace
  · obtain ⟨before, report, entries, messages, d, hlog, hreport, hitem, hdopen, hnames, hst⟩ :=
      report_answered hbatch c.reportNamespace hopen huncancelled
    refine ⟨before, report, entries, _, hlog, hreport, hitem, fun hbefore hin => ?_,
      fun hunsafe => ?_⟩
    · have hfresh : name ∉ d.names := by
        rw [hnames, not_or]
        exact ⟨hbefore, hin⟩
      rw [record_ok_iff, hreport, hitem, ← RecordName.isSafe_iff]
      exact ⟨fun hok => hok.2.2.1, fun hsafe => ⟨hdopen, rfl, hsafe, hfresh⟩⟩
    · rw [record_misnamed hdopen hitem (hreport ▸ hunsafe), if_neg (by simp [Status.isOk]),
        hreport] at hst
      obtain ⟨told, hverdict, -, hmem⟩ :=
        verdict_of_mem (List.mem_append_right messages (List.mem_singleton_self _))
      exact ⟨told, hst.trans hverdict,
        (hmem _).2 (List.mem_append_right messages (List.mem_singleton_self _))⟩

/-- The report on the small cluster is taken : its namespace has one part, which is safe. -/
theorem report_accepted_small :
    let c : Config := { source := { snapshotPath := "snap" }, output := { outDir := "out" } }
    let started := Runner.start (quiet.beside (RunDirectory Unit)) (recorder quiet)
      { config := c, configPath := "cfg.yaml" } ({}, ())
    let log := started.1.2.gatherer.trace (quiet.beside (RunDirectory Unit)) (smallCluster.beside _)
      (recorder quiet).record c.reportNamespace ({}, started.2)
    c.validate = .ok ∧ started.2.1.isOpen = true ∧ ∃ before report answer,
      BatchEvent.handovers log = before ++ [(report, answer)] ∧
        report.name = c.reportNamespace ++ "/gathers" ∧ answer.isOk = true := by
  intro c started log
  have hvalid : c.validate = .ok := by decide +kernel
  have hopen : started.2.1.isOpen = true := by decide +kernel
  obtain ⟨-, hdots, hreport⟩ := report_accepted_iff hvalid
    (recordsInto_gather started.1.2.gatherer quiet smallCluster) (s := ({}, started.2)) hopen
  obtain ⟨before, report, -, answer, hlog, hname, -, htaken, -⟩ := hreport (by decide +kernel)
  have hbefore : before = (BatchEvent.handovers log).dropLast := by
    rw [show BatchEvent.handovers log = _ from hlog, List.dropLast_concat]
  refine ⟨hvalid, hopen, before, report, answer, hlog, hname, (htaken (by decide +kernel) ?_).2 ?_⟩
  · rw [hbefore]
    decide +kernel
  · exact (hdots (by decide)).2 ⟨by decide, by decide⟩

end RunDirectory

/-- A namespace with a slash at its end is valid, and with it a batch fails even where there is
nothing to gather, since its report is refused. -/
theorem CommandLine.slashed_namespace_fails :
    let c : Config :=
      { reportNamespace := "insights-operator/", source := { snapshotPath := "snap" },
        output := { outDir := "out" } }
    let started := Runner.start surroundings recorder { config := c, configPath := "cfg.yaml" }
      ({}, {})
    c.validate = .ok ∧ RecordName.isSafe (c.reportNamespace ++ "/gathers") = false ∧
      started.2.1.isOpen = true ∧ started.2.1.names = [] ∧
      (started.1.2.gatherer.gather surroundings emptyCluster recorder.record c.reportNamespace
        ({}, started.2)).1 = ⟨.gatherFailed, "unable to record io status reports: " ++
          "invalid record name 'insights-operator//gathers'"⟩ := by
  decide +kernel

end ClusterEvidence
