import ClusterEvidence.Proofs.Gather.Findings
import ClusterEvidence.Proofs.Run.Journal

/-!
# Evidence of failing operators

The routine of the operators asks for them once. If it gets an answer, it asks for the pods of
every namespace that a failing operator mentions, and asks for nothing else. `Source.traced` is a
source with a list beside it of what it was asked; the list changes nothing. By this list each of
these namespaces is asked for once, in the order of their first mention, whether or not an answer
before was a failure, and whether or not healthy operators are recorded (`visited`). The records
are those of the operators and then those of the failing pods, namespace by namespace
(`clusterOperators_evidence`).
-/

namespace ClusterEvidence

open Surroundings (onSnd)

variable {σ ε : Type}

/-! ## What fails -/

/-- The operator says that it is degraded, or that it is not available. -/
def ClusterOperator.Fails (o : ClusterOperator) : Prop :=
  ∃ c ∈ o.conditions, c.type = "Degraded" ∧ c.status = "True" ∨
    c.type = "Available" ∧ c.status = "False"

/-- An operator fails if it is not healthy. -/
theorem ClusterOperator.fails_iff {o : ClusterOperator} : o.Fails ↔ o.isHealthy = false := by
  simp [Fails, isHealthy, imp_iff_not_or]

instance (o : ClusterOperator) : Decidable o.Fails :=
  decidable_of_iff _ ClusterOperator.fails_iff.symm

theorem ClusterOperator.decide_fails (o : ClusterOperator) : decide o.Fails = !o.isHealthy := by
  rw [Bool.eq_iff_iff, decide_eq_true_iff, fails_iff, Bool.not_eq_true']

/-- The pod is pending, or one of its containers ended with an error, now or the last time. -/
def Pod.Fails (o : Pod) : Prop :=
  o.phase = "Pending" ∨ ∃ c ∈ o.initContainers ++ o.containers, ∃ t,
    (c.state.terminated = some t ∨ c.lastState.terminated = some t) ∧ t.exitCode ≠ 0

theorem ContainerState.failed_iff {s : ContainerState} :
    s.failed = true ↔ ∃ t, s.terminated = some t ∧ t.exitCode ≠ 0 := by
  unfold failed
  cases s.terminated with
  | none => simp
  | some t => simp

theorem Pod.fails_iff {o : Pod} : o.Fails ↔ o.isHealthy = false := by
  have hcontainer : ∀ c : ContainerStatus, c.failed = true ↔
      ∃ t, (c.state.terminated = some t ∨ c.lastState.terminated = some t) ∧ t.exitCode ≠ 0 := by
    intro c
    rw [ContainerStatus.failed, Bool.or_eq_true, ContainerState.failed_iff,
      ContainerState.failed_iff, or_comm, ← exists_or]
    simp only [or_and_right]
  rw [Fails, isHealthy, Bool.and_assoc, ← Bool.not_or, ← List.any_append, Bool.and_eq_false_iff,
    bne_eq_false_iff_eq, Bool.not_eq_false', List.any_eq_true]
  simp only [hcontainer]

instance (o : Pod) : Decidable o.Fails := decidable_of_iff _ Pod.fails_iff.symm

theorem Pod.decide_fails (o : Pod) : decide o.Fails = !o.isHealthy := by
  rw [Bool.eq_iff_iff, decide_eq_true_iff, fails_iff, Bool.not_eq_true']

/-! ## Namespaces in the order of their first mention -/

theorem mem_firstOfEach {α β : Type} [BEq α] [LawfulBEq α] {l : List (α × β)} {a : α} :
    a ∈ (firstOfEach l).map Prod.fst ↔ a ∈ l.map Prod.fst := by
  induction l with
  | nil => rfl
  | cons e l ih =>
    rw [firstOfEach, List.map_cons, List.map_cons, List.mem_cons, List.mem_cons, ← ih]
    refine or_congr_right' fun hne => ?_
    constructor
    · exact fun ha => (List.filter_sublist.map Prod.fst).subset ha
    · intro ha
      obtain ⟨x, hx, rfl⟩ := List.mem_map.1 ha
      exact List.mem_map_of_mem (List.mem_filter.2 ⟨hx, by simpa using hne⟩)

/-- What is kept is in the order of its first occurrence. -/
theorem firstOfEach_pairwise {α β : Type} [BEq α] [LawfulBEq α] (l : List (α × β)) :
    ((firstOfEach l).map Prod.fst).Pairwise fun a b =>
      (l.map Prod.fst).idxOf a < (l.map Prod.fst).idxOf b := by
  induction l with
  | nil => exact .nil
  | cons e l ih =>
    have hne : ∀ x ∈ (firstOfEach l).filter fun x => !(x.1 == e.1), (e.1 == x.1) = false := by
      intro x hx
      have hne : x.1 ≠ e.1 := by simpa using (List.mem_filter.1 hx).2
      exact beq_eq_false_iff_ne.2 (Ne.symm hne)
    rw [List.pairwise_map] at ih ⊢
    rw [firstOfEach, List.pairwise_cons]
    refine ⟨fun x hx => ?_, (ih.filter _).imp_of_mem fun hx hy hlt => ?_⟩
    · rw [List.map_cons, List.idxOf_cons, List.idxOf_cons, hne x hx]
      simp
    · rw [List.map_cons, List.idxOf_cons, List.idxOf_cons, hne _ hx, hne _ hy]
      simpa using hlt

namespace Gatherer

/-- The namespaces that failing operators mention, with repetitions. -/
def mentioned (l : List ClusterOperator) : List Bytes :=
  (l.filter fun o => decide o.Fails).flatMap ClusterOperator.namespaces

/-- The namespaces that are looked into for evidence. -/
def visited (l : List ClusterOperator) : List Bytes := (evidenceNamespaces l).map Prod.fst

theorem visited_eq (l : List ClusterOperator) :
    ∃ pairs : List (Bytes × Bytes), visited l = (firstOfEach pairs).map Prod.fst ∧
      pairs.map Prod.fst = mentioned l := by
  refine ⟨_, rfl, ?_⟩
  simp [mentioned, ClusterOperator.decide_fails, List.map_flatMap, Function.comp_def]

/-- Every namespace that a failing operator mentions is looked into. -/
theorem mem_visited {l : List ClusterOperator} {ns : Bytes} : ns ∈ visited l ↔
    ∃ o ∈ l, o.Fails ∧ ∃ r ∈ o.relatedObjects, r.resource = "namespaces" ∧ r.name = ns := by
  obtain ⟨pairs, hvisited, hpairs⟩ := visited_eq l
  rw [hvisited, mem_firstOfEach, hpairs]
  simp [mentioned, ClusterOperator.namespaces, and_assoc]

/-- They are looked into in the order of their first mention, so each of them once. -/
theorem visited_pairwise (l : List ClusterOperator) :
    (visited l).Pairwise fun a b => (mentioned l).idxOf a < (mentioned l).idxOf b := by
  obtain ⟨pairs, hvisited, hpairs⟩ := visited_eq l
  rw [hvisited, ← hpairs]
  exact firstOfEach_pairwise pairs

end Gatherer

/-! ## Sources with a list beside them -/

/-- What a source is asked, with its answer. -/
inductive Asked
  | operators (answer : Fetched (List ClusterOperator))
  | nodes (answer : Fetched (List Node))
  | pods (namespaceName : Bytes) (answer : Fetched (List Pod))
  | get (k : Kind) (name : Bytes) (answer : Fetched k.Object)

/-- Add what was asked to the list. -/
def noting {α : Type} (asked : α → Asked) (act : StateM σ α) : StateM (List Asked × σ) α :=
  fun (log, s) =>
    let (answer, s) := act s
    (answer, (log ++ [asked answer], s))

/-- The source, which adds each query and its answer to the list. -/
def Source.traced (src : Source σ) : Source (List Asked × σ) where
  operators := noting .operators src.operators
  nodes := noting .nodes src.nodes
  pods := fun ns => noting (.pods ns) (src.pods ns)
  get := fun k name => noting (.get k name) (src.get k name)

/-- What leaves the list alone leaves it alone one after the other. -/
theorem mapM_onSnd {κ α β : Type} (act : α → StateM σ β) (l : List α) :
    (l.mapM fun a => onSnd (κ := κ) (act a)) = onSnd (l.mapM act) := by
  induction l with
  | nil =>
    rw [List.mapM_nil, List.mapM_nil]
    rfl
  | cons a l ih =>
    rw [List.mapM_cons, ih, List.mapM_cons]
    rfl

namespace Gatherer

variable (g : Gatherer) (env : Surroundings σ) (src : Source σ)

/-- Every namespace is visited, in order. -/
theorem visits_fst (l : List (Bytes × Bytes)) (s : σ) :
    (g.visits env src ε l s).map Prod.fst = l.map Prod.fst := by
  induction l generalizing s with
  | nil => rfl
  | cons x l ih => exact congrArg (x.1 :: ·) (ih _)

variable {g env src}

/-- Recording the pods of a namespace asks for them once. -/
theorem podRecords_traced (ns operator : Bytes) (log : List Asked) (s : σ) :
    g.podRecords (ε := ε) (env.beside (List Asked)) src.traced ns operator (log, s) =
      let r := g.podRecords env src ns operator s
      (r.1, (log ++ [.pods ns (src.pods ns s).1], r.2)) := by
  obtain ⟨⟨r, s'⟩, h⟩ : ∃ x, src.pods ns s = x := ⟨_, rfl⟩
  have htraced : src.traced.pods ns (log, s) = (r, (log ++ [.pods ns r], s')) := by
    show (let (answer, s) := src.pods ns s; (answer, (log ++ [Asked.pods ns answer], s))) = _
    rw [h]
  unfold podRecords
  simp only [bind, StateT.bind, h, htraced]
  cases r with
  | error st => rfl
  | ok pods =>
    exact congrFun (mapM_onSnd (g.podRecord (ε := ε) env ns) _) (log ++ [.pods ns (.ok pods)], s')

theorem mapM_podRecords_traced (l : List (Bytes × Bytes)) (log : List Asked) (s : σ) :
    (l.mapM fun x => g.podRecords (ε := ε) (env.beside (List Asked)) src.traced x.1 x.2) (log, s) =
      let r := (l.mapM fun x => g.podRecords env src x.1 x.2) s
      (r.1, (log ++ (g.visits env src ε l s).map fun v => .pods v.1 v.2, r.2)) := by
  induction l generalizing log s with
  | nil =>
    rw [List.mapM_nil, List.mapM_nil, visits, List.map_nil, List.append_nil]
    rfl
  | cons x l ih =>
    rw [List.mapM_cons, List.mapM_cons]
    simp only [bind, StateT.bind, podRecords_traced, ih]
    rw [visits, List.map_cons, List.append_assoc, List.singleton_append]
    rfl

theorem podFindings_eq (ns : Bytes) (r : Fetched (List Pod)) :
    g.podFindings (ε := ε) ns r = match r with
      | .error _ => []
      | .ok pods => (pods.filter fun p => decide p.Fails).map fun p =>
        { name := "config/pod/" ++ (if p.metadata.namespaceName = [] then ns
            else p.metadata.namespaceName) ++ "/" ++ p.metadata.name
          item := some (g.hidden .pod p) } := by
  cases r with
  | error st => rfl
  | ok pods => simp only [podFindings, Pod.decide_fails, List.isEmpty_iff]

/-- What the routine of the operators does with an answer. -/
theorem clusterOperators_of_ok {s s' : σ} {l : List ClusterOperator}
    (h : src.operators s = (.ok l, s')) :
    g.clusterOperators (ε := ε) env src s =
      let ops := (l.filter g.recordsOperator).mapM (g.operatorRecord env) s'
      let pods := (evidenceNamespaces l).mapM (fun x => g.podRecords env src x.1 x.2) ops.2
      ({ records := ops.1 ++ pods.1.flatten }, pods.2) := by
  unfold clusterOperators
  simp only [bind, StateT.bind, h]
  rfl

theorem clusterOperators_traced {s s' : σ} {l : List ClusterOperator}
    (h : src.operators s = (.ok l, s')) :
    let ops := (l.filter g.recordsOperator).mapM (g.operatorRecord (ε := ε) env) s'
    let r := g.clusterOperators (ε := ε) env src s
    g.clusterOperators (ε := ε) (env.beside (List Asked)) src.traced ([], s) =
      (r.1, (.operators (.ok l) :: (g.visits env src ε (evidenceNamespaces l) ops.2).map
        fun v => .pods v.1 v.2, r.2)) := by
  intro ops r
  have htraced : src.traced.operators ([], s) = (.ok l, ([.operators (.ok l)], s')) := by
    show (let (answer, s) := src.operators s; (answer, ([] ++ [Asked.operators answer], s))) = _
    rw [h]
    rfl
  have hops : (l.filter g.recordsOperator).mapM
      (g.operatorRecord (ε := ε) (env.beside (List Asked))) ([.operators (.ok l)], s') =
        (ops.1, ([.operators (.ok l)], ops.2)) :=
    congrFun (mapM_onSnd (g.operatorRecord env) _) _
  rw [clusterOperators_of_ok htraced, hops, show r = _ from clusterOperators_of_ok h]
  simp only [mapM_podRecords_traced]
  rfl

variable (g env src) in
/-- What the routine of the operators does when it is told of operators, in a state with a list
beside it. The list changes nothing. The operators are asked for, then the pods of each namespace
that a failing operator mentions, in the order of their first mention, and nothing else. The records
are those of the failing operators, or of all, and then those of the failing pods that were listed.
There is no error. -/
theorem clusterOperators_evidence (s : σ) {l : List ClusterOperator}
    (h : (src.operators s).1 = .ok l) :
    let run := g.clusterOperators (ε := ε) (env.beside (List Asked)) src.traced ([], s)
    g.clusterOperators env src s = (run.1, run.2.2) ∧
      ∃ visits : List (Bytes × Fetched (List Pod)),
        run.2.1 = .operators (.ok l) :: visits.map (fun v => .pods v.1 v.2) ∧
        visits.map Prod.fst = visited l ∧
        (∀ ns, ns ∈ visited l ↔
          ∃ o ∈ l, o.Fails ∧ ∃ r ∈ o.relatedObjects, r.resource = "namespaces" ∧ r.name = ns) ∧
        ((visited l).Pairwise fun a b => (mentioned l).idxOf a < (mentioned l).idxOf b) ∧
        run.1.records.map Record.undated =
          ((l.filter fun o => g.options.recordHealthyOperators || decide o.Fails).map fun o =>
            { name := "config/clusteroperator/" ++ o.metadata.name
              item := some (g.hidden .clusterOperator o) }) ++
          (visits.flatMap fun v => match v.2 with
            | .error _ => []
            | .ok pods => (pods.filter fun p => decide p.Fails).map fun p =>
              { name := "config/pod/" ++ (if p.metadata.namespaceName = [] then v.1
                  else p.metadata.namespaceName) ++ "/" ++ p.metadata.name
                item := some (g.hidden .pod p) }) ∧
        run.1.errors = [] := by
  intro run
  obtain ⟨⟨r, s'⟩, hasked⟩ : ∃ x, src.operators s = x := ⟨_, rfl⟩
  obtain rfl : r = .ok l := by rw [← h, hasked]
  let ops := (l.filter g.recordsOperator).mapM (g.operatorRecord (ε := ε) env) s'
  have hrun : run = _ := clusterOperators_traced (ε := ε) hasked
  have hplain : g.clusterOperators (ε := ε) env src s = _ := clusterOperators_of_ok hasked
  have hops : ops.1.map Record.undated = _ := mapM_now_undated env
    (fun o => "config/clusteroperator/" ++ o.metadata.name) (g.hidden .clusterOperator) _ s'
  have hrecords : (l.filter fun o => g.options.recordHealthyOperators || decide o.Fails) =
      l.filter g.recordsOperator :=
    List.filter_congr fun o _ => by rw [recordsOperator, ClusterOperator.decide_fails]
  rw [hrun, hplain]
  refine ⟨rfl, g.visits env src ε (evidenceNamespaces l) ops.2, rfl, g.visits_fst env src _ _,
    fun ns => mem_visited, visited_pairwise l, ?_, rfl⟩
  rw [List.map_append, hops, visits_undated, hrecords]
  simp only [podFindings_eq]
  rfl

/-- An operator with one condition that looks after these namespaces, and after a secret. -/
def operatorOf (name type status : Bytes) (namespaces : List Bytes) : ClusterOperator where
  metadata := { name := name }
  conditions := [{ type := type, status := status }]
  relatedObjects := { resource := "secrets", name := "token" } ::
    namespaces.map fun ns => { resource := "namespaces", name := ns }

/-- Two operators fail, and both mention a namespace. -/
def troubledOperators : List ClusterOperator :=
  [operatorOf "dns" "Degraded" "True" ["dns", "shared"],
    operatorOf "auth" "Degraded" "False" ["auth"],
    operatorOf "net" "Available" "False" ["shared", "dns", "net"]]

/-- A cluster with these operators. The pods of one namespace cannot be listed. One pod is pending,
one had to be started again after an error, and one is well. -/
def troubled : Source Unit where
  operators := pure (.ok troubledOperators)
  nodes := pure (.ok [])
  pods := fun ns => pure <|
    if ns = "dns" then .error ⟨.ioError, "refused"⟩
    else if ns = "shared" then .ok [{ metadata := { name := "web" } },
      { metadata := { name := "job" }, phase := "Pending" }]
    else .ok [{ metadata := { name := "router", namespaceName := "ingress" }
                containers := [{ lastState := { terminated := some { exitCode := 1 } } }] }]
  get := fun _ name => pure (.error ⟨.notFound, name⟩)

/-- Three namespaces are looked into once, also the one that cannot be listed, and two pods are
found there. -/
theorem troubled_evidence :
    let g : Gatherer := ⟨none, {}⟩
    let run := g.clusterOperators (ε := Unit) (RunDirectory.quiet.beside (List Asked))
      troubled.traced ([], ())
    (troubled.operators ()).1 = .ok troubledOperators ∧
      (∃ visits : List (Bytes × Fetched (List Pod)),
        run.2.1 = .operators (.ok troubledOperators) :: visits.map (fun v => .pods v.1 v.2) ∧
        visits.map Prod.fst = ["dns", "shared", "net"]) ∧
      run.1.records.map Record.name = (["config/clusteroperator/dns", "config/clusteroperator/net",
        "config/pod/shared/job", "config/pod/ingress/router"] : List Bytes) ∧
      run.1.errors = [] := by
  intro g run
  obtain ⟨-, visits, hlog, hvisited, -, -, -, herrors⟩ :=
    g.clusterOperators_evidence (ε := Unit) RunDirectory.quiet troubled () (l := troubledOperators)
      rfl
  exact ⟨rfl, ⟨visits, hlog, hvisited.trans (by decide +kernel)⟩, by decide +kernel, herrors⟩

end Gatherer

end ClusterEvidence
