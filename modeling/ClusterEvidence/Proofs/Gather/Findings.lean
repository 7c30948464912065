import ClusterEvidence.Proofs.Batch.Course
import ClusterEvidence.Proofs.Gather.Records

/-!
# What a batch finds

A batch puts its queries one after the other, each in the state that is there when it comes to
it. `heard` are the answers, and `findings` is what follows from them and from the version that
was cached before : eleven rows of a routine, the records that it produces and its errors. The
routines of any batch produce these rows and nothing else, the times of the records apart
(`turns_findings`). So what is to be said about the records and the errors of a batch can be
said about answers, and nothing is asked of the source, of the surroundings or of the recorder.
-/

namespace ClusterEvidence

open Surroundings (onSnd)

variable {σ ε : Type}

/-! ## Times apart -/

/-- The record without the time when it was captured. -/
def Record.undated (r : Record ε) : Record ε := { r with captured := 0 }

/-- The outcome without the times of its records. -/
def Outcome.undated (out : Outcome ε) : Outcome ε :=
  { out with records := out.records.map .undated }

@[simp] theorem Record.undated_name (r : Record ε) : r.undated.name = r.name := rfl

theorem firstOfEach_nodup {α β : Type} [BEq α] [LawfulBEq α] (l : List (α × β)) :
    ((firstOfEach l).map Prod.fst).Nodup := by
  induction l with
  | nil => exact .nil
  | cons e l ih =>
    rw [firstOfEach, List.map_cons, List.nodup_cons]
    refine ⟨?_, ih.sublist (List.filter_sublist.map Prod.fst)⟩
    simp

theorem firstOfEach_subset {α β : Type} [BEq α] (l : List (α × β)) : firstOfEach l ⊆ l := by
  induction l with
  | nil => exact List.Subset.refl []
  | cons e l ih =>
    exact List.cons_subset_cons e (List.Subset.trans List.filter_sublist.subset ih)

/-- The namespaces that are looked into are different. -/
theorem Gatherer.evidenceNamespaces_nodup (l : List ClusterOperator) :
    ((Gatherer.evidenceNamespaces l).map Prod.fst).Nodup :=
  firstOfEach_nodup _

/-- Records that are made one after the other, for what is in a list. -/
theorem mapM_now_undated {α : Type} (env : Surroundings σ) (name : α → Bytes)
    (content : α → Content ε) (l : List α) (s : σ) :
    (l.mapM (fun a => Record.now env (name a) (content a)) s).1.map Record.undated =
      l.map fun a => { name := name a, item := some (content a) } := by
  induction l generalizing s with
  | nil =>
    rw [List.mapM_nil]
    rfl
  | cons a l ih =>
    rw [List.map_cons, ← ih (env.wallClock s).2, List.mapM_cons]
    rfl

/-! ## Answers -/

/-- The answers to the queries of a batch. -/
structure Answers where
  operators : Fetched (List ClusterOperator)
  nodes : Fetched (List Node)
  pods : (namespaceName : Bytes) → Fetched (List Pod)
  get : (k : Kind) → Fetched k.Object

/-- The routine that asks for the resource of a kind, if any does. -/
def Kind.routine : Kind → Bytes
  | .clusterVersion => "cluster_version"
  | .infrastructure => "infrastructure"
  | .network => "network"
  | .authentication => "authentication"
  | .featureGate => "feature_gate"
  | .oauth => "oauth"
  | .ingress => "ingress"
  | .proxy => "proxy"
  | _ => []

/-- The name of the record of the resource of a kind, below `config`. -/
def Kind.entry : Kind → Bytes
  | .clusterVersion => "version"
  | .infrastructure => "infrastructure"
  | .network => "network"
  | .authentication => "authentication"
  | .featureGate => "featuregate"
  | .oauth => "oauth"
  | .ingress => "ingress"
  | .proxy => "proxy"
  | _ => []

/-- The kinds with a routine that records the one resource of the kind. -/
def Kind.singletons : List Kind :=
  [.infrastructure, .network, .authentication, .featureGate, .oauth, .ingress, .proxy]

/-- The cache after a version was read, or could not be read. -/
def VersionedCache.observed (r : Fetched ClusterVersion) (c : VersionCache) : VersionCache :=
  match r with
  | .ok v => (c.update v.metadata.resourceVersion v).2
  | .error _ => c

namespace Gatherer

/-! ## What follows from the answers -/

section Findings

variable (g : Gatherer)

/-- The records of an answer; a failure is the only error, if it is one. -/
def found {α : Type} (r : Fetched α) (records : α → List (Record ε)) : Outcome ε :=
  match r with
  | .error st => failed st
  | .ok a => { records := records a }

theorem failed_records (st : Status) : (failed st : Outcome ε).records = [] := by
  unfold failed
  split
  · rfl
  · rfl

/-- What is found in an answer is in its records. -/
theorem mem_found {α : Type} {a : Fetched α} {records : α → List (Record ε)} {r : Record ε} :
    r ∈ (found a records).records ↔ ∃ x, a = .ok x ∧ r ∈ records x := by
  cases a with
  | ok x => simp [found]
  | error st => simp [found, failed_records]

/-- The operators worth recording. -/
def operatorFindings (l : List ClusterOperator) : List (Record ε) :=
  (l.filter g.recordsOperator).map fun o =>
    { name := "config/clusteroperator/" ++ o.metadata.name
      item := some (g.hidden .clusterOperator o) }

/-- The failing pods of a namespace. -/
def podFindings (ns : Bytes) (r : Fetched (List Pod)) : List (Record ε) :=
  match r with
  | .error _ => []
  | .ok l => (l.filter fun p => !p.isHealthy).map fun p =>
    { name := "config/pod/" ++ (if p.metadata.namespaceName.isEmpty then ns
        else p.metadata.namespaceName) ++ "/" ++ p.metadata.name
      item := some (g.hidden .pod p) }

/-- The failing pods in the namespaces of failing operators. -/
def evidence (A : Answers) (l : List ClusterOperator) : List (Record ε) :=
  (evidenceNamespaces l).flatMap fun x => g.podFindings x.1 (A.pods x.1)

/-- The nodes that are not ready. -/
def nodeFindings (l : List Node) : List (Record ε) :=
  (l.filter fun o => !o.isHealthy).map fun o =>
    { name := "config/node/" ++ o.metadata.name, item := some (g.hidden .node o) }

/-- The content that shows the resource of a kind that is recorded alone. -/
def content : (k : Kind) → k.Object → Content ε
  | .network, o => shown .network o
  | .authentication, o => shown .authentication o
  | .oauth, o => shown .oauth o
  | k, o => g.hidden k o

/-- The one record of a resource. -/
def resourceFindings (A : Answers) (k : Kind) : Outcome ε :=
  found (A.get k) fun o => [{ name := "config/" ++ k.entry, item := some (g.content k o) }]

/-- The identifier of the cached version. -/
def idFindings (c : VersionCache) : List (Record ε) :=
  c.value?.toList.map fun v => { name := "config/id", item := some (.raw v.clusterId) }

/-- What each routine produces after these answers, with the version cached before. -/
def findings (A : Answers) (c : VersionCache) : List (Bytes × Outcome ε) :=
  ("cluster_operators", found A.operators fun l => g.operatorFindings l ++ g.evidence A l) ::
    ("nodes", found A.nodes g.nodeFindings) ::
    ("cluster_version", g.resourceFindings A .clusterVersion) ::
    ("cluster_id", { records := idFindings (c.observed (A.get .clusterVersion)) }) ::
    Kind.singletons.map fun k => (k.routine, g.resourceFindings A k)

end Findings

/-! ## The answers of a batch -/

section Heard

variable (g : Gatherer) (env : Surroundings σ) (src : Source σ)

/-- The answers about the pods of these namespaces, asked one after the other. -/
def podAnswers (ε : Type) : List (Bytes × Bytes) → σ → Bytes → Fetched (List Pod)
  | [], _, _ => .ok []
  | (ns, operator) :: l, s, asked =>
    if asked = ns then (src.pods ns s).1
    else podAnswers ε l (g.podRecords (ε := ε) env src ns operator s).2 asked

/-- The namespaces with the answers about their pods, asked one after the other. -/
def visits (ε : Type) : List (Bytes × Bytes) → σ → List (Bytes × Fetched (List Pod))
  | [], _ => []
  | (ns, operator) :: l, s =>
    (ns, (src.pods ns s).1) :: visits ε l (g.podRecords (ε := ε) env src ns operator s).2

/-- The answers about pods when operators are asked for in this state. -/
def heardPods (ε : Type) (s : σ) : Bytes → Fetched (List Pod) :=
  match (src.operators s).1 with
  | .error _ => fun _ => .ok []
  | .ok l => g.podAnswers env src ε (evidenceNamespaces l)
      ((l.filter g.recordsOperator).mapM (g.operatorRecord (ε := ε) env) (src.operators s).2).2

/-- The state in which the routine of this name runs, in a batch that starts with a cached
version and in a state. -/
def asking (record : Record ε → StateM σ Status) (x : VersionCache × σ) (name : Bytes) : σ :=
  env.ready name (turnsEnd (env.beside VersionCache) (fun r => onSnd (record r))
    ((g.routines env src).takeWhile fun y => y.name != name) x).2

/-- The answers that the queries of a batch get. -/
def heard (record : Record ε → StateM σ Status) (x : VersionCache × σ) : Answers where
  operators := (src.operators (g.asking env src record x "cluster_operators")).1
  nodes := (src.nodes (g.asking env src record x "nodes")).1
  pods := g.heardPods env src ε (g.asking env src record x "cluster_operators")
  get k := (src.get k (if k = .clusterVersion then g.options.clusterVersionName
    else g.options.singletonName) (g.asking env src record x k.routine)).1

end Heard

/-! ## Batches as they are started -/

/-- A batch as it is started : what is around it, whom it asks, who takes its records, where the
report goes, and the state that is there. -/
structure Batch (σ ε : Type) where
  env : Surroundings σ
  src : Source σ
  record : Record ε → StateM σ Status
  reportNamespace : Bytes
  state : σ

section Batches

variable (g : Gatherer) (b : Batch σ ε) (c : VersionCache)

/-- The batch is run with what is cached. -/
def Batch.run : Status × VersionCache × σ :=
  g.gather b.env b.src b.record b.reportNamespace (c, b.state)

/-- The turns of the routines. -/
def Batch.turns : List (Ran ε) :=
  ClusterEvidence.turns (b.env.beside VersionCache) (fun r => onSnd (b.record r))
    (g.routines b.env b.src) (c, b.state)

/-- The answers to the queries. -/
def Batch.answers : Answers :=
  g.heard b.env b.src b.record (c, b.state)

/-- The records that are handed over, each with the answer of the recorder. -/
def Batch.handed : List (Record ε × Status) :=
  BatchEvent.handovers (g.trace b.env b.src b.record b.reportNamespace (c, b.state))

end Batches

/-! ## Routines -/

section Routines

variable {g : Gatherer} {env : Surroundings σ} {src : Source σ}

theorem whenFetched_undated {α : Type} {r : Fetched α} {act : α → StateM σ (Outcome ε)} {s : σ}
    {records : α → List (Record ε)}
    (h : ∀ a, r = .ok a → (act a s).1.undated = { records := records a }) :
    (whenFetched r act s).1.undated = found r records := by
  cases r with
  | error st =>
    show (failed st).undated = failed st
    unfold failed
    split
    · rfl
    · rfl
  | ok a => exact h a rfl

/-- What is recorded of the pods of a namespace is what is found in the answer. -/
theorem podRecords_undated (ns operator : Bytes) (s : σ) :
    (g.podRecords env src ns operator s).1.map Record.undated =
      g.podFindings (ε := ε) ns (src.pods ns s).1 := by
  obtain ⟨⟨r, s'⟩, h⟩ : ∃ x, src.pods ns s = x := ⟨_, rfl⟩
  unfold podRecords
  simp only [bind, StateT.bind, h]
  cases r with
  | error st => rfl
  | ok l => exact mapM_now_undated env _ _ _ s'

/-- The records are those of the failing pods in the answers. -/
theorem visits_undated (l : List (Bytes × Bytes)) (s : σ) :
    ((l.mapM fun x => g.podRecords (ε := ε) env src x.1 x.2) s).1.flatten.map Record.undated =
      (g.visits env src ε l s).flatMap fun v => g.podFindings v.1 v.2 := by
  induction l generalizing s with
  | nil =>
    rw [List.mapM_nil]
    rfl
  | cons x l ih =>
    rw [visits, List.flatMap_cons, ← podRecords_undated x.1 x.2 s, ← ih, ← List.map_append,
      ← List.flatten_cons, List.mapM_cons]
    rfl

/-- Different namespaces are known by their names. -/
theorem visits_eq_map {l : List (Bytes × Bytes)} (hl : (l.map Prod.fst).Nodup) (s : σ) :
    g.visits env src ε l s = l.map fun x => (x.1, g.podAnswers env src ε l s x.1) := by
  induction l generalizing s with
  | nil => rfl
  | cons x l ih =>
    rw [List.map_cons, List.nodup_cons] at hl
    obtain ⟨hnot, hnodup⟩ := hl
    rw [visits, List.map_cons, podAnswers, if_pos rfl, ih hnodup]
    refine congrArg _ (List.map_congr_left fun y hy => ?_)
    have hne : y.1 ≠ x.1 := fun heq => hnot (heq ▸ List.mem_map_of_mem hy)
    rw [podAnswers, if_neg hne]

variable (g env src) in
theorem podAnswers_undated {l : List (Bytes × Bytes)} (hl : (l.map Prod.fst).Nodup) (s : σ) :
    ((l.mapM fun x => g.podRecords env src x.1 x.2) s).1.flatten.map Record.undated =
      l.flatMap fun x => g.podFindings (ε := ε) x.1 (g.podAnswers env src ε l s x.1) := by
  rw [visits_undated, visits_eq_map hl, List.flatMap_map]

theorem clusterOperators_undated (s : σ) :
    (g.clusterOperators (ε := ε) env src s).1.undated =
      found (src.operators s).1 fun l => g.operatorFindings l ++ (evidenceNamespaces l).flatMap
        fun x => g.podFindings x.1 (g.heardPods env src ε s x.1) := by
  obtain ⟨⟨r, s'⟩, h⟩ : ∃ x, src.operators s = x := ⟨_, rfl⟩
  unfold clusterOperators
  simp only [bind, StateT.bind, h]
  refine whenFetched_undated fun l hl => ?_
  obtain rfl := hl
  have hheard : g.heardPods env src ε s = g.podAnswers env src ε (evidenceNamespaces l)
      ((l.filter g.recordsOperator).mapM (g.operatorRecord (ε := ε) env) s').2 := by
    rw [heardPods, h]
  have hoperators := mapM_now_undated env (fun o => "config/clusteroperator/" ++ o.metadata.name)
    (g.hidden (ε := ε) .clusterOperator) (l.filter g.recordsOperator) s'
  have hpods := g.podAnswers_undated env src (ε := ε) (evidenceNamespaces_nodup l)
    ((l.filter g.recordsOperator).mapM (g.operatorRecord (ε := ε) env) s').2
  rw [hheard, operatorFindings, ← hoperators, ← hpods, ← List.map_append]
  rfl

theorem nodes_undated (s : σ) :
    (g.nodes (ε := ε) env src s).1.undated = found (src.nodes s).1 g.nodeFindings := by
  obtain ⟨⟨r, s'⟩, h⟩ : ∃ x, src.nodes s = x := ⟨_, rfl⟩
  unfold nodes
  simp only [bind, StateT.bind, h]
  refine whenFetched_undated fun l _ => ?_
  rw [nodeFindings, ← mapM_now_undated env (fun o : Node => "config/node/" ++ o.metadata.name)
    (g.hidden (ε := ε) .node) _ s']
  rfl

theorem singleton_undated (k : Kind) (name : Bytes) (content : k.Object → Content ε) (s : σ) :
    (g.singleton env src k name content s).1.undated =
      found (src.get k g.options.singletonName s).1
        fun o => [{ name := name, item := some (content o) }] := by
  obtain ⟨⟨r, s'⟩, h⟩ : ∃ x, src.get k g.options.singletonName s = x := ⟨_, rfl⟩
  unfold singleton
  simp only [bind, StateT.bind, h]
  exact whenFetched_undated fun o _ => rfl

/-- The cluster version is recorded if it was read, and is cached then. -/
theorem clusterVersion_undated (c : VersionCache) (s : σ) :
    let r := (src.get .clusterVersion g.options.clusterVersionName s).1
    (g.clusterVersion (ε := ε) env src (c, s)).1.undated = (found r fun v =>
        [{ name := "config/version", item := some (g.content .clusterVersion v) }]) ∧
      (g.clusterVersion (ε := ε) env src (c, s)).2.1 = c.observed r := by
  obtain ⟨⟨r, s'⟩, h⟩ : ∃ x, src.get .clusterVersion g.options.clusterVersionName s = x := ⟨_, rfl⟩
  unfold clusterVersion onSnd
  simp only [bind, StateT.bind, h]
  cases r with
  | error st => exact ⟨whenFetched_undated (fun _ h => nomatch h), rfl⟩
  | ok v =>
    have hcache : (remember env v (c, s')).2.1 = c.observed (.ok v) := by
      rw [remember_run]
      dsimp only
      split
      · rfl
      · rfl
    refine ⟨rfl, ?_⟩
    rw [← hcache]
    rfl

/-- The identifier is recorded if a version is cached. -/
theorem clusterId_undated (c : VersionCache) (s : σ) :
    (clusterId (ε := ε) env (c, s)).1.undated = { records := idFindings c } ∧
      (clusterId (ε := ε) env (c, s)).2.1 = c := by
  obtain ⟨_ | e⟩ := c
  · exact ⟨rfl, rfl⟩
  · exact ⟨rfl, rfl⟩

/-! ## Turns -/

theorem handAll_beside {κ : Type} (record : Record ε → StateM σ Status) (rs : List (Record ε))
    (c : κ) (s : σ) :
    handAll (fun r => onSnd (record r)) rs (c, s) =
      ((handAll record rs s).1, (c, (handAll record rs s).2)) := by
  induction rs generalizing s with
  | nil => rfl
  | cons r rs ih =>
    show (let rest := handAll (fun r => onSnd (record r)) rs (c, (record r s).2)
      ((r, (record r s).1) :: rest.1, rest.2)) = _
    rw [ih]
    rfl

/-- What stands beside the state is changed by the routine alone. -/
theorem turn_beside_fst {κ : Type} (record : Record ε → StateM σ Status) (y : Routine (κ × σ) ε)
    (x : κ × σ) :
    (y.turn (env.beside κ) (fun r => onSnd (record r)) x).2.1 =
      (y.run (x.1, env.ready y.name x.2)).2.1 := by
  show ((env.beside κ).cancelled (handAll _ _ (_, _)).2).2.1 = _
  rw [handAll_beside]
  rfl

variable (env) in
/-- Routines that leave alone what stands beside the state do so one after the other. -/
theorem turnsEnd_beside_fst {κ : Type} (record : Record ε → StateM σ Status)
    {ys : List (Routine (κ × σ) ε)} (hys : ∀ y ∈ ys, ∀ x, (y.run x).2.1 = x.1) (x : κ × σ) :
    (turnsEnd (env.beside κ) (fun r => onSnd (record r)) ys x).1 = x.1 := by
  induction ys generalizing x with
  | nil => rfl
  | cons y ys ih =>
    rw [List.forall_mem_cons] at hys
    rw [turnsEnd, ih hys.2, turn_beside_fst, hys.1]

/-- A routine without a cache leaves the cache. -/
theorem leaves_stateless (name : Bytes) (run : StateM σ (Outcome ε)) (x : VersionCache × σ) :
    ((stateless name run).run x).2.1 = x.1 :=
  rfl

variable (g env src) in
/-- Behind the routine of the cluster version, the cache is what follows from its answer. -/
theorem cache_turnsEnd (record : Record ε → StateM σ Status) (x : VersionCache × σ)
    {ys : List (Routine (VersionCache × σ) ε)} (hys : ∀ y ∈ ys, ∀ x, (y.run x).2.1 = x.1) :
    (turnsEnd (env.beside VersionCache) (fun r => onSnd (record r))
        ((g.routines env src).take 3 ++ ys) x).1 =
      x.1.observed ((g.heard env src record x).get .clusterVersion) := by
  have hleave : ∀ y ∈ (g.routines (ε := ε) env src).take 2, ∀ x, (y.run x).2.1 = x.1 := by
    simp only [routines, List.take, List.forall_mem_cons]
    exact ⟨leaves_stateless _ _, leaves_stateless _ _, by simp⟩
  have hbefore := turnsEnd_beside_fst env record hleave x
  rw [turnsEnd_append, turnsEnd_beside_fst env record hys]
  refine (turn_beside_fst record _ _).trans ((clusterVersion_undated _ _).2.trans ?_)
  exact congrArg (VersionedCache.observed _) hbefore

variable (g env src) in
/-- The routines of a batch produce what follows from the answers to its queries. -/
theorem turns_findings (record : Record ε → StateM σ Status) (x : VersionCache × σ) :
    (turns (env.beside VersionCache) (fun r => onSnd (record r)) (g.routines env src) x).map
        (fun t => (t.name, t.outcome.undated)) =
      g.findings (g.heard env src record x) x.1 := by
  have hcache := g.cache_turnsEnd env src record x (List.forall_mem_nil _)
  unfold findings
  rw [← hcache]
  simp only [routines, turns, Kind.singletons, List.map_cons, List.map_nil, List.cons.injEq,
    Prod.mk.injEq, and_true]
  exact ⟨⟨rfl, clusterOperators_undated _⟩, ⟨rfl, nodes_undated _⟩,
    ⟨rfl, (clusterVersion_undated _ _).1⟩, ⟨rfl, (clusterId_undated _ _).1⟩,
    ⟨rfl, singleton_undated _ _ _ _⟩, ⟨rfl, singleton_undated _ _ _ _⟩,
    ⟨rfl, singleton_undated _ _ _ _⟩, ⟨rfl, singleton_undated _ _ _ _⟩,
    ⟨rfl, singleton_undated _ _ _ _⟩, ⟨rfl, singleton_undated _ _ _ _⟩,
    ⟨rfl, singleton_undated _ _ _ _⟩⟩

variable (g env src) in
/-- The records of the turns are those that are found, times apart. -/
theorem turns_records (record : Record ε → StateM σ Status) (x : VersionCache × σ) :
    ((turns (env.beside VersionCache) (fun r => onSnd (record r)) (g.routines env src) x).flatMap
        fun t => t.outcome.records).map Record.undated =
      (g.findings (g.heard env src record x) x.1).flatMap fun y => y.2.records := by
  rw [← g.turns_findings env src record x, List.map_flatMap, List.flatMap_map]
  rfl

variable (g env src) in
/-- A batch that was not interrupted hands over the records of its routines, and then a report
with an entry for each of them. -/
theorem gather_handovers {record : Record ε → StateM σ Status} {ns : Bytes} {x : VersionCache × σ}
    (h : (g.gather env src record ns x).1.isCancelled = false) :
    let all := turns (env.beside VersionCache) (fun r => onSnd (record r)) (g.routines env src) x
    ∃ report entries, (BatchEvent.handovers (g.trace env src record ns x)).map Prod.fst =
        (all.flatMap fun t => t.outcome.records) ++ [report] ∧
      report.undated = { name := ns ++ "/gathers", item := some (.report entries) } ∧
      entries.length = 11 ∧ List.Forall₂ Ran.Reports all entries := by
  intro all
  obtain ⟨entries, hreports, htrace, -⟩ := collect_of_lowered ns (lowered_of_not_interrupted h)
  have hlength : (turns (env.beside VersionCache) (fun r => onSnd (record r))
      (g.routines env src) x).length = 11 := by
    rw [← List.length_map Ran.name, turns_name]
    rfl
  have hhanded := congrArg (fun log => (BatchEvent.handovers log).map Prod.fst) htrace
  simp only [BatchEvent.handovers_append, List.map_append, handovers_turns] at hhanded
  exact ⟨_, entries, hhanded, rfl, hreports.length_eq.symm.trans hlength, hreports⟩

variable (g env src) in
/-- If all records of a batch that was not interrupted were taken, its status is the verdict on
what follows from the answers. -/
theorem gather_verdict {record : Record ε → StateM σ Status} {ns : Bytes} {x : VersionCache × σ}
    (h : (g.gather env src record ns x).1.isCancelled = false)
    (htaken : ∀ y ∈ BatchEvent.handovers (g.trace env src record ns x), y.2.isOk = true) :
    (g.gather env src record ns x).1 =
      verdict (((g.findings (ε := ε) (g.heard env src record x) x.1).flatMap
        fun y => y.2.errors).map Status.message) := by
  obtain ⟨entries, -, htrace, hrun⟩ := collect_of_lowered ns (lowered_of_not_interrupted h)
  rw [trace, htrace, BatchEvent.handovers_append, handovers_flatMap_events] at htaken
  have hreport := htaken _ (List.mem_append_right _ (List.mem_singleton_self _))
  have hmessages : ∀ t ∈ turns (env.beside VersionCache) (fun r => onSnd (record r))
      (g.routines env src) x, t.messages = t.outcome.undated.errors.map Status.message := by
    intro t ht
    have hhanded : refusals t.handed = [] := refusals_eq_nil_iff.2 fun y hy =>
      htaken y (List.mem_append_left _ (List.mem_flatMap.2 ⟨t, ht, hy⟩))
    rw [Ran.messages, hhanded, List.append_nil]
    rfl
  rw [gather, hrun, if_pos hreport, List.append_nil, List.flatMap_congr hmessages,
    ← g.turns_findings env src record x, List.flatMap_map, List.map_flatMap]

variable (g env src) in
/-- The cache after a batch that was not interrupted. -/
theorem gather_cache {record : Record ε → StateM σ Status} {ns : Bytes} {x : VersionCache × σ}
    (h : (g.gather env src record ns x).1.isCancelled = false) :
    (g.gather env src record ns x).2.1 =
      x.1.observed ((g.heard env src record x).get .clusterVersion) := by
  obtain ⟨entries, -, -, hrun⟩ := collect_of_lowered ns (lowered_of_not_interrupted h)
  have hleave : ∀ y ∈ (g.routines (ε := ε) env src).drop 3, ∀ x, (y.run x).2.1 = x.1 := by
    simp only [routines, List.drop, List.forall_mem_cons]
    exact ⟨fun x => (clusterId_undated x.1 x.2).2, leaves_stateless _ _, leaves_stateless _ _,
      leaves_stateless _ _, leaves_stateless _ _, leaves_stateless _ _, leaves_stateless _ _,
      leaves_stateless _ _, by simp⟩
  rw [gather, hrun, ← g.cache_turnsEnd env src record x hleave, List.take_append_drop]
  rfl

end Routines

end Gatherer

end ClusterEvidence
