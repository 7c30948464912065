import ClusterEvidence.Json.Basic
import ClusterEvidence.Resource.Basic

/-!
# Resources as JSON

`encode` writes a resource as the JSON tree of its manifest : the version of the API, the
kind, the metadata, `spec` and `status`, in this order for every kind. Strings that are
empty, maps without entries and optional parts that are absent are left out where a
reader takes their absence for the default.
-/

namespace ClusterEvidence

open Json (member field fieldNumber fieldIfSet)

namespace Json

/-- A map of strings as an object with its keys in order. -/
def labels (m : Labels) : Json := .obj (m.entries.map fun e => field e.1 e.2)

/-- A map of strings as a member, left out when it has no entries. -/
def labelsIfSet (k : Bytes) (m : Labels) : List (Bytes × Json) :=
  if m.isEmpty then [] else [member k (labels m)]

/-- A reference by name as a member, left out when the name is empty. -/
def nameIfSet (k : Bytes) (name : Bytes) : List (Bytes × Json) :=
  if name.isEmpty then [] else [member k (.obj [field "name" name])]

end Json

/-! ## Parts -/

/-- The metadata. The name is written even if it is empty. -/
def ObjectMeta.toJson (m : ObjectMeta) : Json :=
  .obj ([field "name" m.name]
    ++ fieldIfSet "namespace" m.namespaceName
    ++ fieldIfSet "uid" m.uid
    ++ fieldIfSet "resourceVersion" m.resourceVersion
    ++ Json.labelsIfSet "labels" m.labels
    ++ Json.labelsIfSet "annotations" m.annotations)

/-- A condition. Its type and status are always written. -/
def Condition.toJson (c : Condition) : Json :=
  .obj ([field "type" c.type, field "status" c.status]
    ++ fieldIfSet "reason" c.reason
    ++ fieldIfSet "message" c.message)

/-- Conditions in order. -/
def conditionsJson (l : List Condition) : Json := .arr (l.map Condition.toJson)

/-- A related object. Only its namespace may be left out. -/
def ObjectReference.toJson (r : ObjectReference) : Json :=
  .obj ([field "group" r.group, field "resource" r.resource]
    ++ fieldIfSet "namespace" r.namespaceName
    ++ [field "name" r.name])

/-- A version, written in full. -/
def OperandVersion.toJson (v : OperandVersion) : Json :=
  .obj [field "name" v.name, field "version" v.version]

/-- A range of addresses, written in full. -/
def ClusterNetworkEntry.toJson (e : ClusterNetworkEntry) : Json :=
  .obj [field "cidr" e.cidr, fieldNumber "hostPrefix" e.hostBits.toInt]

/-- A provider, without a mapping method that is empty. -/
def IdentityProvider.toJson (p : IdentityProvider) : Json :=
  .obj ([field "name" p.name, field "type" p.type] ++ fieldIfSet "mappingMethod" p.mappingMethod)

/-- An address, written in full. -/
def NodeAddress.toJson (a : NodeAddress) : Json :=
  .obj [field "type" a.type, field "address" a.address]

/-- The system of a node, written in full. -/
def NodeSystemInfo.toJson (i : NodeSystemInfo) : Json :=
  .obj
    [field "machineID" i.machineId,
     field "systemUUID" i.systemUuid,
     field "bootID" i.bootId,
     field "kernelVersion" i.kernelVersion,
     field "osImage" i.osImage,
     field "containerRuntimeVersion" i.containerRuntimeVersion,
     field "kubeletVersion" i.kubeletVersion,
     field "architecture" i.architecture,
     field "operatingSystem" i.operatingSystem]

/-- An image. Its names are written even if there are none. -/
def ContainerImage.toJson (i : ContainerImage) : Json :=
  .obj [member "names" (Json.strings i.names), fieldNumber "sizeBytes" i.sizeBytes.toInt]

/-- How a container ended. The exit code is always written. -/
def Termination.toJson (t : Termination) : Json :=
  .obj ([fieldNumber "exitCode" t.exitCode.toInt]
    ++ fieldIfSet "reason" t.reason
    ++ fieldIfSet "message" t.message)

/-- The state of a container. That it runs is written as an empty object. -/
def ContainerState.toJson (s : ContainerState) : Json :=
  .obj ((match s.terminated with
      | some t => [member "terminated" t.toJson]
      | none => [])
    ++ (if s.waitingReason.isEmpty then []
        else [member "waiting" (.obj [field "reason" s.waitingReason])])
    ++ (if s.running then [member "running" (.obj [])] else []))

/-- The status of a container, with both of its states. -/
def ContainerStatus.toJson (c : ContainerStatus) : Json :=
  .obj ([field "name" c.name]
    ++ fieldIfSet "image" c.image
    ++ [member "ready" (.bool c.ready),
        fieldNumber "restartCount" c.restartCount.toInt,
        member "state" c.state.toJson,
        member "lastState" c.lastState.toJson])

/-! ## Resources -/

/-- A resource from its parts. -/
def manifest (k : Kind) (m : ObjectMeta) (spec status : List (Bytes × Json)) : Json :=
  .obj
    [field "apiVersion" k.apiVersion,
     field "kind" k.name,
     member "metadata" m.toJson,
     member "spec" (.obj spec),
     member "status" (.obj status)]

/-- An operator. All it has is in the status. -/
def ClusterOperator.toJson (o : ClusterOperator) : Json :=
  manifest .clusterOperator o.metadata []
    [member "conditions" (conditionsJson o.conditions),
     member "relatedObjects" (.arr (o.relatedObjects.map ObjectReference.toJson)),
     member "versions" (.arr (o.versions.map OperandVersion.toJson))]

/-- The version of the cluster, what is aimed at under `desired`. -/
def ClusterVersion.toJson (o : ClusterVersion) : Json :=
  manifest .clusterVersion o.metadata
    ([field "clusterID" o.clusterId]
      ++ fieldIfSet "channel" o.channel
      ++ fieldIfSet "upstream" o.updateServer)
    [member "desired" (.obj (fieldIfSet "version" o.desiredVersion ++ fieldIfSet "image" o.desiredImage)),
     member "conditions" (conditionsJson o.conditions)]

/-- The infrastructure. All it has is in the status. -/
def Infrastructure.toJson (o : Infrastructure) : Json :=
  manifest .infrastructure o.metadata []
    (fieldIfSet "platform" o.platform
      ++ fieldIfSet "infrastructureName" o.infrastructureName
      ++ fieldIfSet "apiServerURL" o.apiServerUrl
      ++ fieldIfSet "apiServerInternalURI" o.apiServerInternalUrl
      ++ fieldIfSet "etcdDiscoveryDomain" o.etcdDiscoveryDomain)

/-- The network. All it has is in the specification. -/
def Network.toJson (o : Network) : Json :=
  manifest .network o.metadata
    ([member "clusterNetwork" (.arr (o.clusterNetwork.map ClusterNetworkEntry.toJson)),
      member "serviceNetwork" (Json.strings o.serviceNetwork)]
      ++ fieldIfSet "networkType" o.networkType)
    []

/-- How users are authenticated. -/
def Authentication.toJson (o : Authentication) : Json :=
  manifest .authentication o.metadata
    (fieldIfSet "type" o.type ++ Json.nameIfSet "oauthMetadata" o.oauthMetadataName)
    []

/-- The feature gate. -/
def FeatureGate.toJson (o : FeatureGate) : Json :=
  manifest .featureGate o.metadata (fieldIfSet "featureSet" o.featureSet) []

/-- The login server, with a list of providers that may be empty. -/
def OAuth.toJson (o : OAuth) : Json :=
  manifest .oauth o.metadata
    [member "identityProviders" (.arr (o.identityProviders.map IdentityProvider.toJson))]
    []

/-- The ingress. -/
def Ingress.toJson (o : Ingress) : Json :=
  manifest .ingress o.metadata (fieldIfSet "domain" o.domain) []

/-- The proxy. Of its endpoints a list is written even if there are none. -/
def Proxy.toJson (o : Proxy) : Json :=
  manifest .proxy o.metadata
    (fieldIfSet "httpProxy" o.spec.httpProxy
      ++ fieldIfSet "httpsProxy" o.spec.httpsProxy
      ++ fieldIfSet "noProxy" o.spec.noProxy
      ++ [member "readinessEndpoints" (Json.strings o.spec.readinessEndpoints)]
      ++ Json.nameIfSet "trustedCA" o.spec.trustedCa)
    (fieldIfSet "httpProxy" o.status.httpProxy
      ++ fieldIfSet "httpsProxy" o.status.httpsProxy
      ++ fieldIfSet "noProxy" o.status.noProxy)

/-- A node. That it can be scheduled, and that it has no images, is left out. -/
def Node.toJson (o : Node) : Json :=
  manifest .node o.metadata
    (fieldIfSet "providerID" o.providerId
      ++ (if o.unschedulable then [member "unschedulable" (.bool true)] else []))
    ([member "conditions" (conditionsJson o.conditions),
      member "addresses" (.arr (o.addresses.map NodeAddress.toJson)),
      member "nodeInfo" o.nodeInfo.toJson]
      ++ (if o.images.isEmpty then [] else [member "images" (.arr (o.images.map ContainerImage.toJson))]))

/-- A pod, with lists of containers that may be empty. -/
def Pod.toJson (o : Pod) : Json :=
  manifest .pod o.metadata
    (fieldIfSet "nodeName" o.nodeName)
    (fieldIfSet "phase" o.phase
      ++ [member "conditions" (conditionsJson o.conditions),
          member "initContainerStatuses" (.arr (o.initContainers.map ContainerStatus.toJson)),
          member "containerStatuses" (.arr (o.containers.map ContainerStatus.toJson))])

/-- A resource as the JSON tree of its manifest. -/
def encode : (k : Kind) → k.Object → Json
  | .clusterOperator, o => o.toJson
  | .clusterVersion, o => o.toJson
  | .infrastructure, o => o.toJson
  | .network, o => o.toJson
  | .authentication, o => o.toJson
  | .featureGate, o => o.toJson
  | .oauth, o => o.toJson
  | .ingress, o => o.toJson
  | .proxy, o => o.toJson
  | .node, o => o.toJson
  | .pod, o => o.toJson

/-- A resource as JSON text. -/
def encodeText (k : Kind) (o : k.Object) : Bytes := (encode k o).render

end ClusterEvidence
