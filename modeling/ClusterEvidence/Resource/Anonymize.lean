import ClusterEvidence.Anonymizer
import ClusterEvidence.Resource.Basic

/-!
# Anonymized resources

`anonymize` replaces the fields of a resource that say something about its owner and
leaves all others : URLs and host names word by word, addresses as whole values,
identifiers and labels down to their lengths. Operators, feature gates and pods carry
nothing to hide, and networks, authentication and login settings are recorded as they
are.
-/

namespace ClusterEvidence

variable (a : Anonymizer)

namespace Anonymizer

/-- Annotations under keys that are not trusted lose their values. -/
def annotations (m : Labels) : Labels := m.mapValues fun k v => if a.trustsKey k then v else []

/-- Labels under keys that are not trusted are masked. -/
def labels (m : Labels) : Labels := m.mapValues fun k v => if a.trustsKey k then v else mask v

end Anonymizer

/-- The update server is hidden. -/
def ClusterVersion.anonymize (o : ClusterVersion) : ClusterVersion :=
  { o with updateServer := a.url o.updateServer }

/-- The names and addresses of the cluster are hidden. -/
def Infrastructure.anonymize (o : Infrastructure) : Infrastructure :=
  { o with
    apiServerUrl := a.url o.apiServerUrl
    etcdDiscoveryDomain := a.url o.etcdDiscoveryDomain
    infrastructureName := a.url o.infrastructureName
    apiServerInternalUrl := a.url o.apiServerInternalUrl }

/-- The domain is hidden. -/
def Ingress.anonymize (o : Ingress) : Ingress := { o with domain := a.url o.domain }

/-- All addresses are hidden, those of lists element by element. -/
def Proxy.anonymize (o : Proxy) : Proxy :=
  { o with
    spec := { o.spec with
      httpProxy := a.csv o.spec.httpProxy
      httpsProxy := a.csv o.spec.httpsProxy
      noProxy := a.csv o.spec.noProxy
      readinessEndpoints := a.list o.spec.readinessEndpoints }
    status :=
      { httpProxy := a.csv o.status.httpProxy
        httpsProxy := a.csv o.status.httpsProxy
        noProxy := a.csv o.status.noProxy } }

/-- The list of images is unbounded and says little, so it is dropped. -/
def Node.anonymize (o : Node) : Node :=
  { o with
    metadata := { o.metadata with
      annotations := a.annotations o.metadata.annotations
      labels := a.labels o.metadata.labels }
    addresses := o.addresses.map fun x => { x with address := digestAddress x.address }
    nodeInfo := { o.nodeInfo with
      bootId := mask o.nodeInfo.bootId
      systemUuid := mask o.nodeInfo.systemUuid
      machineId := mask o.nodeInfo.machineId }
    images := [] }

/-- The resource as it may be shown. -/
def anonymize : (k : Kind) → k.Object → k.Object
  | .clusterOperator, o => o
  | .clusterVersion, o => o.anonymize a
  | .infrastructure, o => o.anonymize a
  | .network, o => o
  | .authentication, o => o
  | .featureGate, o => o
  | .oauth, o => o
  | .ingress, o => o.anonymize a
  | .proxy, o => o.anonymize a
  | .node, o => o.anonymize a
  | .pod, o => o

end ClusterEvidence
