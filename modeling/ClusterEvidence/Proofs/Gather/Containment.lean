import ClusterEvidence.Proofs.Gather.Findings
import ClusterEvidence.Proofs.Run.Journal
import Mathlib.Data.List.Basic
import Mathlib.Data.List.Nodup

/-!
# Failures stay inside their routine

Ten queries of a batch are made by a routine for itself (`Query`). If some of their answers are
replaced by failures (`Answers.Broken`), the routines behind these queries find nothing, and the
others find what they found before (`findings_broken`). What fails is an error, unless it says
that something does not exist (`findings_errors`). So the batch records what it would have recorded
without these routines, in the same order, and its status tells the messages of all errors
(`gather_contained`). Pods are no part of this : that they cannot be listed is no error.

The identifier of the cluster depends on the query of the cluster version, as long as nothing is
cached.
-/

namespace ClusterEvidence

open Surroundings (onSnd)

variable {σ τ ε : Type}

/-! ## Queries that fail -/

/-- A query that a routine makes for itself. -/
inductive Query
  | operators
  | nodes
  | resource (k : Kind)
deriving DecidableEq

/-- The queries that the routines of a batch make for themselves, in order. -/
def Query.all : List Query :=
  .operators :: .nodes :: .resource .clusterVersion :: Kind.singletons.map .resource

/-- The routines of a batch in order, each with the query that its records depend on. -/
def Query.behind : List (Bytes × Query) :=
  ("cluster_operators", .operators) :: ("nodes", .nodes) ::
    ("cluster_version", .resource .clusterVersion) :: ("cluster_id", .resource .clusterVersion) ::
    Kind.singletons.map fun k => (k.routine, .resource k)

/-- The query behind the routine is among those that are made to fail. -/
def affected (broken : Query → Option Status) (routine : Bytes) : Bool :=
  Query.behind.any fun e => e.1 == routine && (broken e.2).isSome

/-- Why there is no value. -/
def Fetched.failure? {α : Type} : Fetched α → Option Status
  | .ok _ => none
  | .error st => some st

/-- The answer, or the failure in its place. -/
def Fetched.broken {α : Type} (failure : Option Status) (r : Fetched α) : Fetched α :=
  match failure with
  | some st => .error st
  | none => r

/-- A failure that is put in the place of an answer comes before one that was there. -/
theorem Fetched.failure?_broken {α : Type} (failure : Option Status) (r : Fetched α) :
    (r.broken failure).failure? = failure.or r.failure? := by
  cases failure with
  | none => rfl
  | some st => rfl

/-- The failure of a query, if it failed. -/
def Answers.failure? (A : Answers) : Query → Option Status
  | .operators => A.operators.failure?
  | .nodes => A.nodes.failure?
  | .resource k => (A.get k).failure?

/-- The second answers are the first, but for failures in the place of some. No pods are listed
if operators cannot be. -/
structure Answers.Broken (broken : Query → Option Status) (A A' : Answers) : Prop where
  operators : A'.operators = A.operators.broken (broken .operators)
  nodes : A'.nodes = A.nodes.broken (broken .nodes)
  get : ∀ k ∈ Kind.clusterVersion :: Kind.singletons,
    A'.get k = (A.get k).broken (broken (.resource k))
  pods : broken .operators = none → A'.pods = A.pods

variable {A A' : Answers} {broken : Query → Option Status}

/-- A query that is broken fails with what broke it, and any other as it would have. -/
theorem Answers.Broken.failure?_eq (h : A.Broken broken A') {q : Query} (hq : q ∈ Query.all) :
    A'.failure? q = (broken q).or (A.failure? q) := by
  cases q with
  | operators => exact (congrArg Fetched.failure? h.operators).trans (Fetched.failure?_broken _ _)
  | nodes => exact (congrArg Fetched.failure? h.nodes).trans (Fetched.failure?_broken _ _)
  | resource k =>
    have hk : k ∈ Kind.clusterVersion :: Kind.singletons := by
      simpa [Query.all] using hq
    exact (congrArg Fetched.failure? (h.get k hk)).trans (Fetched.failure?_broken _ _)

/-- Whenever they are asked, the second source answers as the first, but for failures in the place
of some answers. -/
structure Source.Broken (broken : Query → Option Status) (src : Source σ) (src' : Source τ) :
    Prop where
  operators : ∀ s t, (src'.operators t).1 = (src.operators s).1.broken (broken .operators)
  nodes : ∀ s t, (src'.nodes t).1 = (src.nodes s).1.broken (broken .nodes)
  pods : ∀ ns s t, (src'.pods ns t).1 = (src.pods ns s).1
  get : ∀ k name s t,
    (src'.get k name t).1 = (src.get k name s).1.broken (broken (.resource k))

namespace Gatherer

variable {g : Gatherer}

/-! ## Batches whose sources differ in failures -/

section Heard

variable {env : Surroundings σ} {env' : Surroundings τ} {src : Source σ} {src' : Source τ}

/-- What is recorded of pods is a matter of the answers alone. -/
theorem podAnswers_eq (h : ∀ ns s t, (src'.pods ns t).1 = (src.pods ns s).1)
    (l : List (Bytes × Bytes)) (s : σ) (t : τ) (asked : Bytes) :
    g.podAnswers env' src' ε l t asked = g.podAnswers env src ε l s asked := by
  induction l generalizing s t with
  | nil => rfl
  | cons x l ih => rw [podAnswers, podAnswers, h x.1 s t, ih]

/-- Batches that ask such sources get such answers, in whatever states they start. -/
theorem heard_broken (h : src.Broken broken src') (record : Record ε → StateM σ Status)
    (record' : Record ε → StateM τ Status) (x : VersionCache × σ) (y : VersionCache × τ) :
    (g.heard env src record x).Broken broken (g.heard env' src' record' y) where
  operators := h.operators _ _
  nodes := h.nodes _ _
  get k _ := h.get k _ _ _
  pods hnone := by
    funext asked
    have hoperators (s : σ) (t : τ) : (src'.operators t).1 = (src.operators s).1 := by
      rw [h.operators s t, hnone, Fetched.broken]
    simp only [heard, heardPods]
    rw [hoperators (g.asking env src record x "cluster_operators")]
    cases (src.operators (g.asking env src record x "cluster_operators")).1 with
    | error st => rfl
    | ok l => exact podAnswers_eq h.pods _ _ _ _

end Heard

/-! ## Findings -/

/-- A failure is an error, unless nothing was found. -/
theorem found_errors {α : Type} (r : Fetched α) (records : α → List (Record ε)) :
    (found r records).errors = r.failure?.toList.filter fun st => !st.isNotFound := by
  cases r with
  | ok a => rfl
  | error st =>
    show (failed st : Outcome ε).errors = List.filter _ [st]
    unfold failed
    split
    · next h => simp [h]
    · next h => simp [h]

/-- The errors are the failures of the ten queries, without those that say that something does
not exist. -/
theorem findings_errors (g : Gatherer) (A : Answers) (c : VersionCache) :
    ((g.findings (ε := ε) A c).flatMap fun x => x.2.errors) =
      (Query.all.filterMap A.failure?).filter fun st => !st.isNotFound := by
  rw [List.filterMap_eq_flatMap_toList, List.filter_flatMap]
  simp only [findings, resourceFindings, Query.all, List.flatMap_cons, List.flatMap_map,
    found_errors, Answers.failure?, List.nil_append]

/-- A broken answer leaves no records. -/
theorem found_broken {α : Type} (failure : Option Status) (r : Fetched α)
    (records : α → List (Record ε)) :
    (found (r.broken failure) records).records =
      if failure.isSome then [] else (found r records).records := by
  cases failure with
  | none => rfl
  | some st => exact failed_records st

theorem idFindings_broken (failure : Option Status) (r : Fetched ClusterVersion) :
    idFindings (ε := ε) (VersionedCache.observed (r.broken failure) {}) =
      if failure.isSome then [] else idFindings (VersionedCache.observed r {}) := by
  cases failure with
  | none => rfl
  | some st => rfl

/-- A routine is affected just when the query behind it fails. -/
theorem affected_eq {name : Bytes} {q : Query} (h : (name, q) ∈ Query.behind) :
    affected broken name = (broken q).isSome := by
  have hnames : (Query.behind.map Prod.fst).Nodup := by decide
  rw [Bool.eq_iff_iff, affected, List.any_eq_true]
  constructor
  · rintro ⟨e, he, hsame⟩
    rw [Bool.and_eq_true, beq_iff_eq] at hsame
    obtain rfl := List.inj_on_of_nodup_map hnames he h hsame.1
    exact hsame.2
  · exact fun hfails => ⟨(name, q), h, by simp [hfails]⟩

/-- Where queries fail, their routines find nothing, and the others find the same. -/
theorem findings_broken (hA : A.Broken broken A') :
    (g.findings (ε := ε) A' {}).map (fun x => (x.1, x.2.records)) =
      (g.findings A {}).map fun x => (x.1, if affected broken x.1 then [] else x.2.records) := by
  have hresource : ∀ k ∈ Kind.clusterVersion :: Kind.singletons,
      (g.resourceFindings (ε := ε) A' k).records =
        if affected broken k.routine then [] else (g.resourceFindings A k).records := by
    intro k hk
    have hbehind : (k.routine, Query.resource k) ∈ Query.behind := by
      rcases List.mem_cons.1 hk with rfl | hk
      · decide
      · simp only [Query.behind, List.mem_cons]
        exact .inr (.inr (.inr (.inr (List.mem_map_of_mem hk))))
    rw [resourceFindings, hA.get k hk, found_broken, affected_eq hbehind]
    rfl
  have hoperators : (found A'.operators fun l =>
        g.operatorFindings (ε := ε) l ++ g.evidence A' l).records =
      if affected broken "cluster_operators" then []
      else (found A.operators fun l => g.operatorFindings l ++ g.evidence A l).records := by
    rw [hA.operators, found_broken, affected_eq (q := .operators) (by decide)]
    cases h : broken .operators with
    | some st => rfl
    | none =>
      unfold evidence
      rw [hA.pods h]
  have hnodes : (found A'.nodes (g.nodeFindings (ε := ε))).records =
      if affected broken "nodes" then [] else (found A.nodes g.nodeFindings).records := by
    rw [hA.nodes, found_broken, affected_eq (q := .nodes) (by decide)]
  have hid : idFindings (ε := ε) (VersionedCache.observed (A'.get .clusterVersion) {}) =
      if affected broken "cluster_id" then []
      else idFindings (VersionedCache.observed (A.get .clusterVersion) {}) := by
    rw [hA.get _ List.mem_cons_self, idFindings_broken,
      affected_eq (q := .resource .clusterVersion) (by decide)]
  simp only [findings, List.map_cons, List.map_map, List.cons.injEq, Prod.mk.injEq]
  exact ⟨⟨trivial, hoperators⟩, ⟨trivial, hnodes⟩, ⟨trivial, hresource _ List.mem_cons_self⟩,
    ⟨trivial, hid⟩, List.map_congr_left fun k hk =>
      Prod.ext rfl (hresource k (List.mem_cons_of_mem _ hk))⟩

/-! ## Batches -/

theorem flatMap_filter {α β : Type} (p : α → Bool) (f : α → List β) (l : List α) :
    (l.filter p).flatMap f = l.flatMap fun x => if p x then f x else [] := by
  induction l with
  | nil => rfl
  | cons x l ih =>
    rw [List.filter_cons, List.flatMap_cons, ← ih]
    split
    · rfl
    · rfl

variable {b : Batch σ ε} {b' : Batch τ ε}

/-- The turns of the second batch have the records that those of the first have, without the
affected routines. -/
theorem turns_broken (hbroken : (b.answers g {}).Broken broken (b'.answers g {})) :
    ((b'.turns g {}).flatMap fun x => x.outcome.records).map Record.undated =
      (((b.turns g {}).filter fun x => !affected broken x.name).flatMap
        fun x => x.outcome.records).map Record.undated := by
  have hfindings := congrArg (List.flatMap Prod.snd) (findings_broken (g := g) (ε := ε) hbroken)
  have hturns := g.turns_findings b.env b.src b.record ({}, b.state)
  rw [List.flatMap_map, List.flatMap_map] at hfindings
  rw [Batch.turns, g.turns_records b'.env b'.src b'.record ({}, b'.state)]
  refine hfindings.trans ?_
  rw [Batch.answers, ← hturns, List.flatMap_map, flatMap_filter, List.map_flatMap]
  refine List.flatMap_congr fun x _ => ?_
  show (if affected broken x.name then [] else x.outcome.records.map Record.undated) = _
  cases affected broken x.name
  · rfl
  · rfl

/-- Two batches that were not interrupted start without a cached version, and some of the ten
queries get a failure for an answer in the second. It records what the routines of the first record
that are not affected, in the same order, and then a report of all eleven; if its records are
taken, its status is OK if all failures say that something does not exist, and else tells the
distinct messages of those that do not, in order. -/
theorem gather_contained (g : Gatherer) {b : Batch σ ε} {b' : Batch τ ε}
    (hlowered : ∀ x ∈ b.turns g {}, x.raised = false)
    (hlowered' : ∀ x ∈ b'.turns g {}, x.raised = false)
    (htaken : ∀ y ∈ b'.handed g {}, y.2.isOk = true)
    (hbroken : (b.answers g {}).Broken broken (b'.answers g {})) :
    let failures := Query.all.filterMap fun q => (broken q).or ((b.answers g {}).failure? q)
    let st := (b'.run g {}).1
    (∃ report, (b.handed g {}).map Prod.fst =
      ((b.turns g {}).flatMap fun x => x.outcome.records) ++ [report]) ∧
    (∃ entries, ((b'.handed g {}).map Prod.fst).map Record.undated =
        (((b.turns g {}).filter fun x => !affected broken x.name).flatMap
          fun x => x.outcome.records).map Record.undated ++
        [{ name := b'.reportNamespace ++ "/gathers", item := some (.report entries) }] ∧
      entries.length = 11) ∧
    ((∀ f ∈ failures, f.isNotFound = true) → st = .ok) ∧
    ((∃ f ∈ failures, f.isNotFound = false) → ∃ messages,
      st = ⟨.gatherFailed, Bytes.join ", " messages⟩ ∧ messages.Pairwise (· < ·) ∧
        ∀ m, m ∈ messages ↔ ∃ f ∈ failures, f.isNotFound = false ∧ f.message = m) := by
  intro failures st
  have hrun : (b.run g {}).1.isCancelled = false := not_interrupted_of_lowered hlowered
  have hrun' : st.isCancelled = false := not_interrupted_of_lowered hlowered'
  have hfailures : Query.all.filterMap (b'.answers g {}).failure? = failures :=
    List.filterMap_congr fun q hq => hbroken.failure?_eq hq
  have hverdict : st = verdict ((failures.filter fun f => !f.isNotFound).map Status.message) := by
    rw [← hfailures, ← findings_errors g]
    exact g.gather_verdict b'.env b'.src hrun' htaken
  refine ⟨?_, ?_, fun hall => ?_, fun hsome => ?_⟩
  · obtain ⟨report, -, hhanded, -⟩ := g.gather_handovers b.env b.src hrun
    exact ⟨report, hhanded⟩
  · obtain ⟨report, entries, hhanded, hreport, hlength, -⟩ :=
      g.gather_handovers b'.env b'.src hrun'
    refine ⟨entries, ?_, hlength⟩
    rw [← turns_broken hbroken, ← hreport, Batch.handed, hhanded, List.map_append]
    rfl
  · rw [hverdict, verdict_eq_ok_iff, List.map_eq_nil_iff, List.filter_eq_nil_iff]
    simpa using hall
  · obtain ⟨f, hf, hfound⟩ := hsome
    have hmem : ∀ m, m ∈ (failures.filter fun f => !f.isNotFound).map Status.message ↔
        ∃ f ∈ failures, f.isNotFound = false ∧ f.message = m := by
      simp [and_assoc]
    obtain ⟨messages, hst, hsorted, hmessages⟩ :=
      verdict_of_mem ((hmem f.message).2 ⟨f, hf, hfound, rfl⟩)
    exact ⟨messages, hverdict.trans hst, hsorted, fun m => (hmessages m).trans (hmem m)⟩

/-! ## A cluster that is hard to reach -/

/-- An operator that fails and mentions a namespace. -/
def failingOperator : ClusterOperator where
  metadata := { name := "dns" }
  conditions := [{ type := "Degraded", status := "True" }]
  relatedObjects := [{ resource := "namespaces", name := "dns" }]

/-- A node that is not ready. -/
def unreadyWorker : Node where
  metadata := { name := "worker" }
  conditions := [{ type := "Ready", status := "False" }]

/-- A batch that asks about this operator and this node, a version with an identifier, and pods
and a proxy that cannot be read, or gets these failures for an answer. Nothing else exists. -/
def faultyBatch (broken : Query → Option Status) : Batch Unit Unit where
  env := RunDirectory.quiet
  src :=
    { operators := pure (Fetched.broken (broken .operators) (.ok [failingOperator]))
      nodes := pure (Fetched.broken (broken .nodes) (.ok [unreadyWorker]))
      pods := fun _ => pure (.error ⟨.ioError, "no pods"⟩)
      get := fun k name => pure (Fetched.broken (broken (.resource k)) (match k with
        | .clusterVersion => .ok { metadata := { name := name }, clusterId := "0b5f" }
        | .proxy => .error ⟨.ioError, "timeout"⟩
        | _ => .error ⟨.notFound, name⟩)) }
  record := fun _ => pure .ok
  reportNamespace := "evidence"
  state := ()

/-- The nodes cannot be listed and the version is gone : of four records, that of the operator is
left, and two errors are told. -/
theorem faultyBatch_contained :
    let g : Gatherer := ⟨none, {}⟩
    let broken : Query → Option Status
      | .nodes => some ⟨.ioError, "refused"⟩
      | .resource .clusterVersion => some ⟨.notFound, "gone"⟩
      | _ => none
    let b := faultyBatch fun _ => none
    let b' := faultyBatch broken
    ((b.turns g {}).flatMap fun x => x.outcome.records).map Record.name =
        (["config/clusteroperator/dns", "config/node/worker", "config/version", "config/id"] :
          List Bytes) ∧
      (∃ entries, ((b'.handed g {}).map Prod.fst).map Record.undated =
          (((b.turns g {}).filter fun x => !affected broken x.name).flatMap
            fun x => x.outcome.records).map Record.undated ++
          [{ name := "evidence/gathers", item := some (.report entries) }] ∧
        entries.length = 11) ∧
      ∃ messages, (b'.run g {}).1 = ⟨.gatherFailed, Bytes.join ", " messages⟩ ∧
        messages.Pairwise (· < ·) ∧ ("refused" : Bytes) ∈ messages ∧
        ("timeout" : Bytes) ∈ messages ∧ ("no pods" : Bytes) ∉ messages := by
  intro g broken b b'
  have hsources : b.src.Broken broken b'.src :=
    ⟨fun _ _ => rfl, fun _ _ => rfl, fun _ _ _ => rfl, fun _ _ _ _ => rfl⟩
  have hanswers : (b.answers g {}).Broken broken (b'.answers g {}) := heard_broken hsources _ _ _ _
  obtain ⟨-, hrecords, -, hstatus⟩ := gather_contained g (by decide +kernel) (by decide +kernel)
    (by decide +kernel) hanswers
  obtain ⟨messages, hst, hsorted, hmessages⟩ :=
    hstatus ⟨⟨.ioError, "refused"⟩, by decide +kernel, rfl⟩
  refine ⟨by decide +kernel, hrecords, messages, hst, hsorted, ?_, ?_, ?_⟩
  · rw [hmessages]
    decide +kernel
  · rw [hmessages]
    decide +kernel
  · rw [hmessages]
    decide +kernel

end Gatherer

end ClusterEvidence
