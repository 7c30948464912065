import ClusterEvidence.Batch.Record
import ClusterEvidence.Resource.Health
import Mathlib.Data.List.Forall2

/-!
# Resources that look alike

Two resources of a kind look alike to an anonymizer if they differ in hidden fields only,
and there within what the transforms let through (`Kind.Alike`) : a URL or a list of URLs may
be another one that is rewritten to the same text, a masked value may be another one of
the same length, values of annotations under keys that are not trusted and images may be
anything. All other fields are equal.

Resources that look alike are shown as the same resource (`anonymize_eq_of_alike`), so
they are recorded as the same bytes, and what gathering reads of them before they are
shown is the same : names, health, namespaces, versions and identifiers.
-/

namespace ClusterEvidence

theorem map_eq_map_of_forall₂ {α β γ : Type} {f : α → γ} {g : β → γ} {l : List α} {m : List β}
    (h : List.Forall₂ (fun x y => f x = g y) l m) : l.map f = m.map g := by
  induction h with
  | nil => rfl
  | cons h _ ih => rw [List.map_cons, List.map_cons, h, ih]

theorem eq_of_forall₂_eq {α : Type} {l m : List α} (h : List.Forall₂ Eq l m) : l = m := by
  rwa [List.forall₂_eq_eq_eq] at h

/-! ## Labels -/

/-- The same keys, with values that are related under their key. -/
def Labels.Alike (same : Bytes → Bytes → Bytes → Prop) (m m' : Labels) : Prop :=
  List.Forall₂ (fun e e' => e.1 = e'.1 ∧ same e.1 e.2 e'.2) m.entries m'.entries

/-- Values that a transform does not tell apart give equal maps. -/
theorem Labels.mapValues_eq {same : Bytes → Bytes → Bytes → Prop} {f : Bytes → Bytes → Bytes}
    (hf : ∀ k v v', same k v v' → f k v = f k v') {m m' : Labels} (h : m.Alike same m') :
    m.mapValues f = m'.mapValues f := by
  have hentries : m.entries.map (fun e => (e.1, f e.1 e.2)) =
      m'.entries.map fun e => (e.1, f e.1 e.2) :=
    map_eq_map_of_forall₂ (h.imp fun e e' he => by rw [← he.1, hf _ _ _ he.2])
  simp only [Labels.mapValues, hentries]

/-! ## Kinds with hidden fields -/

/-- Texts of one length are masked alike. -/
theorem mask_eq {s t : Bytes} (h : s.length = t.length) : mask s = mask t := by
  rw [mask, mask, h]

variable (a : Anonymizer)

namespace Anonymizer

/-- Under a trusted key only the same value is alike, under others any annotation. -/
def SameAnnotation (k v v' : Bytes) : Prop := a.trustsKey k = true → v = v'

/-- Under a trusted key only the same value is alike, under others any of its length. -/
def SameLabel (k v v' : Bytes) : Prop := if a.trustsKey k then v = v' else v.length = v'.length

/-- Annotations that differ in values that are hidden are shown alike. -/
theorem annotations_eq {m m' : Labels} (h : m.Alike a.SameAnnotation m') :
    a.annotations m = a.annotations m' := by
  refine Labels.mapValues_eq (fun k v v' hv => ?_) h
  split
  · next hk => exact hv hk
  · rfl

theorem labels_eq {m m' : Labels} (h : m.Alike a.SameLabel m') : a.labels m = a.labels m' := by
  refine Labels.mapValues_eq (fun k v v' hv => ?_) h
  unfold SameLabel at hv
  split at hv
  · next hk => rw [if_pos hk, if_pos hk, hv]
  · next hk => rw [if_neg hk, if_neg hk, mask_eq hv]

theorem list_eq {l m : List Bytes} (h : List.Forall₂ (fun s t => a.url s = a.url t) l m) :
    a.list l = a.list m :=
  map_eq_map_of_forall₂ h

end Anonymizer

/-- Equal but for an update server that is rewritten to the same text. -/
structure ClusterVersion.Alike (o o' : ClusterVersion) : Prop where
  rest : { o with updateServer := o'.updateServer } = o'
  updateServer : a.url o.updateServer = a.url o'.updateServer

/-- Equal but for names and addresses that are rewritten to the same text. -/
structure Infrastructure.Alike (o o' : Infrastructure) : Prop where
  rest : { o with
    apiServerUrl := o'.apiServerUrl
    etcdDiscoveryDomain := o'.etcdDiscoveryDomain
    infrastructureName := o'.infrastructureName
    apiServerInternalUrl := o'.apiServerInternalUrl } = o'
  apiServerUrl : a.url o.apiServerUrl = a.url o'.apiServerUrl
  etcdDiscoveryDomain : a.url o.etcdDiscoveryDomain = a.url o'.etcdDiscoveryDomain
  infrastructureName : a.url o.infrastructureName = a.url o'.infrastructureName
  apiServerInternalUrl : a.url o.apiServerInternalUrl = a.url o'.apiServerInternalUrl

/-- Equal but for a domain that is rewritten to the same text. -/
structure Ingress.Alike (o o' : Ingress) : Prop where
  rest : { o with domain := o'.domain } = o'
  domain : a.url o.domain = a.url o'.domain

/-- Equal but for proxies and endpoints that are rewritten to the same text. -/
structure Proxy.Alike (o o' : Proxy) : Prop where
  rest : { o with
    spec := { o'.spec with trustedCa := o.spec.trustedCa }
    status := o'.status } = o'
  httpProxy : a.csv o.spec.httpProxy = a.csv o'.spec.httpProxy
  httpsProxy : a.csv o.spec.httpsProxy = a.csv o'.spec.httpsProxy
  noProxy : a.csv o.spec.noProxy = a.csv o'.spec.noProxy
  readinessEndpoints : List.Forall₂ (fun s t => a.url s = a.url t)
    o.spec.readinessEndpoints o'.spec.readinessEndpoints
  httpProxyInForce : a.csv o.status.httpProxy = a.csv o'.status.httpProxy
  httpsProxyInForce : a.csv o.status.httpsProxy = a.csv o'.status.httpsProxy
  noProxyInForce : a.csv o.status.noProxy = a.csv o'.status.noProxy

/-- Equal but for labels and annotations under keys that are not trusted, addresses with the
same digest, identifiers of the same length, and images. -/
structure Node.Alike (o o' : Node) : Prop where
  rest : { o with
    metadata := { o.metadata with
      annotations := o'.metadata.annotations
      labels := o'.metadata.labels }
    addresses := o'.addresses
    nodeInfo := { o.nodeInfo with
      bootId := o'.nodeInfo.bootId
      systemUuid := o'.nodeInfo.systemUuid
      machineId := o'.nodeInfo.machineId }
    images := o'.images } = o'
  annotations : o.metadata.annotations.Alike a.SameAnnotation o'.metadata.annotations
  labels : o.metadata.labels.Alike a.SameLabel o'.metadata.labels
  addresses : List.Forall₂
    (fun x x' => x.type = x'.type ∧ digestAddress x.address = digestAddress x'.address)
    o.addresses o'.addresses
  bootId : o.nodeInfo.bootId.length = o'.nodeInfo.bootId.length
  systemUuid : o.nodeInfo.systemUuid.length = o'.nodeInfo.systemUuid.length
  machineId : o.nodeInfo.machineId.length = o'.nodeInfo.machineId.length

/-- The resources look alike : they differ in hidden fields only, and there within what the
transforms let through. -/
def Kind.Alike : (k : Kind) → k.Object → k.Object → Prop
  | .clusterVersion, o, o' => ClusterVersion.Alike a o o'
  | .infrastructure, o, o' => Infrastructure.Alike a o o'
  | .ingress, o, o' => Ingress.Alike a o o'
  | .proxy, o, o' => Proxy.Alike a o o'
  | .node, o, o' => Node.Alike a o o'
  | .clusterOperator, o, o' => o = o'
  | .network, o, o' => o = o'
  | .authentication, o, o' => o = o'
  | .featureGate, o, o' => o = o'
  | .oauth, o, o' => o = o'
  | .pod, o, o' => o = o'

/-! ## What is shown -/

variable {a}

/-- Versions of the cluster that differ in what is hidden are shown alike. -/
theorem ClusterVersion.anonymize_eq {o o' : ClusterVersion} (h : ClusterVersion.Alike a o o') :
    o.anonymize a = o'.anonymize a := by
  rw [← congrArg (ClusterVersion.anonymize a) h.rest]
  simp only [ClusterVersion.anonymize, h.updateServer]

theorem Infrastructure.anonymize_eq {o o' : Infrastructure} (h : Infrastructure.Alike a o o') :
    o.anonymize a = o'.anonymize a := by
  rw [← congrArg (Infrastructure.anonymize a) h.rest]
  simp only [Infrastructure.anonymize, h.apiServerUrl, h.etcdDiscoveryDomain, h.infrastructureName,
    h.apiServerInternalUrl]

theorem Ingress.anonymize_eq {o o' : Ingress} (h : Ingress.Alike a o o') :
    o.anonymize a = o'.anonymize a := by
  rw [← congrArg (Ingress.anonymize a) h.rest]
  simp only [Ingress.anonymize, h.domain]

theorem Proxy.anonymize_eq {o o' : Proxy} (h : Proxy.Alike a o o') :
    o.anonymize a = o'.anonymize a := by
  rw [← congrArg (Proxy.anonymize a) h.rest]
  simp only [Proxy.anonymize, h.httpProxy, h.httpsProxy, h.noProxy,
    a.list_eq h.readinessEndpoints, h.httpProxyInForce, h.httpsProxyInForce, h.noProxyInForce]

theorem Node.anonymize_eq {o o' : Node} (h : Node.Alike a o o') :
    o.anonymize a = o'.anonymize a := by
  have haddresses : o.addresses.map (fun x => { x with address := digestAddress x.address }) =
      o'.addresses.map fun x => { x with address := digestAddress x.address } :=
    map_eq_map_of_forall₂ (h.addresses.imp fun x x' hx => by rw [NodeAddress.mk.injEq]; exact hx)
  rw [← congrArg (Node.anonymize a) h.rest]
  simp only [Node.anonymize, a.annotations_eq h.annotations, a.labels_eq h.labels, haddresses,
    mask_eq h.bootId, mask_eq h.systemUuid, mask_eq h.machineId]

/-- Resources that look alike are shown as the same resource. -/
theorem anonymize_eq_of_alike {k : Kind} {o o' : k.Object} (h : k.Alike a o o') :
    anonymize a k o = anonymize a k o' := by
  cases k with
  | clusterVersion => exact ClusterVersion.anonymize_eq h
  | infrastructure => exact Infrastructure.anonymize_eq h
  | ingress => exact Ingress.anonymize_eq h
  | proxy => exact Proxy.anonymize_eq h
  | node => exact Node.anonymize_eq h
  | clusterOperator | network | authentication | featureGate | oauth | pod =>
    exact congrArg (anonymize a _) h

/-! ## What is read before -/

theorem Node.name_eq {o o' : Node} (h : Node.Alike a o o') : o.metadata.name = o'.metadata.name :=
  (congrArg (fun o : Node => o.metadata.name) h.rest :)

theorem Node.isHealthy_eq {o o' : Node} (h : Node.Alike a o o') : o.isHealthy = o'.isHealthy :=
  (congrArg Node.isHealthy h.rest :)

theorem ClusterVersion.metadata_eq {o o' : ClusterVersion} (h : ClusterVersion.Alike a o o') :
    o.metadata = o'.metadata :=
  (congrArg ClusterVersion.metadata h.rest :)

theorem ClusterVersion.clusterId_eq {o o' : ClusterVersion} (h : ClusterVersion.Alike a o o') :
    o.clusterId = o'.clusterId :=
  (congrArg ClusterVersion.clusterId h.rest :)

end ClusterEvidence
