import ClusterEvidence.Batch.Collect
import ClusterEvidence.Gather.Cache
import ClusterEvidence.Gather.Source
import ClusterEvidence.Resource.Health

/-!
# Gathering the configuration of a cluster

`Gatherer.routines` are the eleven routines of a batch, in order, and what they record :

* `cluster_operators` : `config/clusteroperator/<name>` for failing operators, or all of
  them, and `config/pod/<namespace>/<name>` for failing pods in the namespaces of failing
  operators;
* `nodes` : `config/node/<name>` for nodes that are not ready;
* `cluster_version` : `config/version`; the version that was read is cached;
* `cluster_id` : `config/id`, the identifier of the cached version;
* `infrastructure`, `network`, `authentication`, `feature_gate`, `oauth`, `ingress` and
  `proxy` : one record each.

What does not exist is nothing to record. Any other failure is the routine's only error,
except that pods are evidence only, so a failed listing of them is just logged.
-/

namespace ClusterEvidence

open Surroundings (onSnd)

/-- What is gathered and how it is shown. -/
structure Gatherer where
  anonymizer : Option Anonymizer
  options : GatherOptions := {}

/-- The last cluster version that any batch has read. -/
abbrev VersionCache := VersionedCache ClusterVersion

/-- The first pair with each first component, in order. -/
def firstOfEach {α β : Type} [BEq α] : List (α × β) → List (α × β)
  | [] => []
  | e :: l => e :: (firstOfEach l).filter fun x => !(x.1 == e.1)

namespace Gatherer

variable {σ ε : Type} (g : Gatherer) (env : Surroundings σ) (src : Source σ)

/-! ## Outcomes -/

/-- A failed query : nothing for what does not exist, else one error. -/
def failed (st : Status) : Outcome ε := if st.isNotFound then {} else { errors := [st] }

/-- What to do with the answer of a query that succeeded. -/
def whenFetched {α : Type} (r : Fetched α) (act : α → StateM σ (Outcome ε)) : StateM σ (Outcome ε) :=
  match r with
  | .error st => pure (failed st)
  | .ok a => act a

/-- A resource as the only record of a routine. -/
def single (name : Bytes) (content : Content ε) : StateM σ (Outcome ε) := do
  let r ← Record.now env name content
  pure { records := [r] }

/-- The content that shows a resource anonymized. -/
def hidden (k : Kind) (o : k.Object) : Content ε := .anonymized k o g.anonymizer

/-- The content that shows a resource as it is. -/
def shown (k : Kind) (o : k.Object) : Content ε := .json (encode k o)

/-! ## Operators and their pods -/

/-- An operator is recorded when it fails, or when healthy ones are recorded too. -/
def recordsOperator (o : ClusterOperator) : Bool := g.options.recordHealthyOperators || !o.isHealthy

/-- The record of an operator. -/
def operatorRecord (o : ClusterOperator) : StateM σ (Record ε) :=
  Record.now env ("config/clusteroperator/" ++ o.metadata.name) (g.hidden .clusterOperator o)

/-- The namespaces of failing operators in the order of their first mention, each with the
operator that mentions it. -/
def evidenceNamespaces (l : List ClusterOperator) : List (Bytes × Bytes) :=
  firstOfEach ((l.filter fun o => !o.isHealthy).flatMap fun o =>
    o.namespaces.map fun ns => (ns, o.metadata.name))

/-- A pod is recorded under its own namespace, or the one it was listed in. -/
def podRecord (ns : Bytes) (p : Pod) : StateM σ (Record ε) :=
  let own := p.metadata.namespaceName
  Record.now env ("config/pod/" ++ (if own.isEmpty then ns else own) ++ "/" ++ p.metadata.name)
    (g.hidden .pod p)

/-- The failing pods of a namespace. -/
def podRecords (ns operator : Bytes) : StateM σ (List (Record ε)) := do
  match ← src.pods ns with
  | .ok pods => (pods.filter fun p => !p.isHealthy).mapM (g.podRecord env ns)
  | .error st =>
    env.note .debug ("Unable to find pods in namespace " ++ ns ++ " for failing operator "
      ++ operator ++ ": " ++ st.message)
    pure []

/-- Operators worth recording, then the failing pods of failing ones. -/
def clusterOperators : StateM σ (Outcome ε) := do
  whenFetched (← src.operators) fun l => do
    let operators ← (l.filter g.recordsOperator).mapM (g.operatorRecord env)
    let pods ← (evidenceNamespaces l).mapM fun (ns, operator) => g.podRecords env src ns operator
    pure { records := operators ++ pods.flatten }

/-! ## Nodes -/

/-- The nodes that are not ready. -/
def nodes : StateM σ (Outcome ε) := do
  whenFetched (← src.nodes) fun l => do
    let records ← (l.filter fun o => !o.isHealthy).mapM fun o =>
      Record.now env ("config/node/" ++ o.metadata.name) (g.hidden .node o)
    pure { records := records }

/-! ## The cluster version -/

/-- Cache a cluster version that was read. -/
def remember (v : ClusterVersion) : StateM (VersionCache × σ) Unit := do
  let (cache, s) ← get
  let (replaced, cache) := cache.update v.metadata.resourceVersion v
  set (cache, s)
  if replaced then
    onSnd (env.note .debug ("Cached cluster version " ++ v.metadata.name ++ " (resourceVersion "
      ++ v.metadata.resourceVersion ++ ")"))

/-- The cluster version, which is cached when it was read. -/
def clusterVersion : StateM (VersionCache × σ) (Outcome ε) := do
  let r ← onSnd (src.get .clusterVersion g.options.clusterVersionName)
  whenFetched r fun v => do
    remember env v
    onSnd (single env "config/version" (g.hidden .clusterVersion v))

/-- The identifier of the cached cluster version, whether or not this batch has read it. -/
def clusterId : StateM (VersionCache × σ) (Outcome ε) := do
  let (cache, _) ← get
  match cache.value? with
  | none => pure {}
  | some v => onSnd (single env "config/id" (.raw v.clusterId))

/-! ## Singletons -/

/-- The resource of a kind with the name of the singletons. -/
def singleton (k : Kind) (name : Bytes) (content : k.Object → Content ε) : StateM σ (Outcome ε) := do
  whenFetched (← src.get k g.options.singletonName) fun o => single env name (content o)

/-! ## The batch -/

/-- A routine that leaves the cached version alone. -/
def stateless (name : Bytes) (run : StateM σ (Outcome ε)) : Routine (VersionCache × σ) ε :=
  ⟨name, onSnd run⟩

/-- The routines of a batch. -/
def routines : List (Routine (VersionCache × σ) ε) :=
  [stateless "cluster_operators" (g.clusterOperators env src),
   stateless "nodes" (g.nodes env src),
   ⟨"cluster_version", g.clusterVersion env src⟩,
   ⟨"cluster_id", clusterId env⟩,
   stateless "infrastructure"
     (g.singleton env src .infrastructure "config/infrastructure" (g.hidden .infrastructure)),
   stateless "network" (g.singleton env src .network "config/network" (shown .network)),
   stateless "authentication"
     (g.singleton env src .authentication "config/authentication" (shown .authentication)),
   stateless "feature_gate"
     (g.singleton env src .featureGate "config/featuregate" (g.hidden .featureGate)),
   stateless "oauth" (g.singleton env src .oauth "config/oauth" (shown .oauth)),
   stateless "ingress" (g.singleton env src .ingress "config/ingress" (g.hidden .ingress)),
   stateless "proxy" (g.singleton env src .proxy "config/proxy" (g.hidden .proxy))]

/-- Run one batch into a recorder. -/
def gather (record : Record ε → StateM σ Status) (reportNamespace : Bytes) :
    StateM (VersionCache × σ) Status :=
  collect (env.beside VersionCache) (fun r => onSnd (record r)) reportNamespace (g.routines env src)

end Gatherer

end ClusterEvidence
